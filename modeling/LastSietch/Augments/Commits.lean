import LastSietch.Augments.Blocks
import LastSietch.Augments.Runs

/-!
# What a committed write is made of

The facts that the portal's body, the writer's plan and the transaction leave behind, each stated
once, and what they give together for a write whose item still has the block that the plan was made
from: the names and grades of the slots that are not swapped, the rolls of the slots that are not
named, and the copies that have been spent.
-/

namespace LastSietch.Augments

variable {rt : Runtime} {cat : Catalogue}

inductive Asked (current : List String) (b : Body) : Prop
  | reroll (haugments : b.augments = current) (hconsume : b.consume = false)
      (hslot : b.swapSlot = none) (htransplant : b.transplant = false)
  | swap (k : Nat) (incoming : String) (haugments : b.augments = current.set k incoming)
      (hconsume : b.consume = true) (hslot : b.swapSlot = some k)
      (honly : b.rerollOnly = some [incoming])

theorem asked_of_buildBody {r : Request} {answer : Option Probe} {b : Body}
    (h : buildBody r answer = .ok b) :
    Asked ((answer.map (·.alreadyInstalled)).getD []) b := by
  unfold buildBody at h
  split at h
  · cases h
  · rename_i probe
    split at h
    · cases h
    · split at h
      · cases h
      · split at h
        · unfold rerollBody at h
          split at h
          · cases h
          · cases h
            exact .reroll rfl rfl rfl rfl
        · simp only [swapBody, bind_eq_ok] at h
          obtain ⟨slot, _, incoming, _, h⟩ := h
          split at h
          · cases h
          · obtain ⟨grade, _, h⟩ := bind_eq_ok.mp h
            split at h
            · cases h
            · cases h
              exact .swap slot incoming rfl rfl rfl rfl

structure Live (rt : Runtime) (b : Body) (read : Fields) (t : Tx) : Prop where
  ids : validateAugmentIds b.augments = some t.ids
  only : validateRerollOnly b.rerollOnly = .ok t.rerollOnly
  slot : ∀ k, b.swapSlot = some k → k < t.ids.length
  grades : t.grades = resolveGrades rt t.ids read (b.grade.getD 5) b.swapSlot
  payloads : ∃ rollCount shapes draw, buildRollPayloads rollCount shapes draw
    (installedRolls rt read) t.rerollOnly t.ids = some t.payloads
  specs : t.consumeSpecs =
    (if b.consume = true then newlyInstalledSlots rt t.ids read b.swapSlot else []).map
      fun i => ⟨t.ids.getD i "", t.grades.getD i 0, i⟩
  transplant : t.transplant = b.transplant

theorem validateSwapSlot_ok {slot slot' : Option Nat} {ids : List String}
    (h : validateSwapSlot slot ids = .ok slot') :
    slot' = slot ∧ ∀ k, slot = some k → k < ids.length := by
  unfold validateSwapSlot at h
  split at h
  · cases h
    exact ⟨rfl, nofun⟩
  · rename_i i
    split at h
    · rename_i hlt
      cases h
      refine ⟨rfl, fun k hk => ?_⟩
      cases hk
      exact hlt
    · cases h

theorem live_of_doLive {r : Request} {b : Body} {plan : ItemPlan} {used : Nat}
    {shapes : List String → String → Option RollShape} {draw : Nat → Nat → ℚ} {t : Tx}
    (h : doLive rt cat r b plan used shapes draw = .ok t) : Live rt b plan.stats t := by
  unfold doLive at h
  simp only [bind_eq_ok, orRaise_eq_ok] at h
  obtain ⟨only, honly, ids, hids, _, _, slot, hslot, _, _, h⟩ := h
  split at h
  · cases h
  · simp only [bind_eq_ok, orRaise_eq_ok] at h
    obtain ⟨tmpl, _, payloads, hpayloads, _, _, h⟩ := h
    obtain ⟨rfl, hlt⟩ := validateSwapSlot_ok hslot
    cases h
    exact ⟨hids, honly, hlt, rfl, ⟨_, _, _, hpayloads⟩, rfl, rfl⟩

/-! ## The transaction -/

structure Copied (db : Db) (pawn : Nat) (s : ConsumeSpec) (it : Item) : Prop where
  mem : it ∈ db.items
  carried : db.carries pawn it = true
  template : it.templateId = s.template
  grade : it.qualityLevel = s.grade
  standalone : it.stats.has "FAugmentItemStats" = true

/-- The consume loop after the specs `done`. -/
structure Spent (db : Db) (pawn : Nat) (done : List ConsumeSpec) (st : Loop) : Prop where
  slots : st.consumed.map (·.1) = done.map (·.slot)
  copies : ∀ p ∈ st.consumed, ∃ s ∈ done, s.slot = p.1 ∧ Copied db pawn s p.2
  spliced : ∀ q ∈ st.spliced, ∃ s ∈ done, s.slot = q.1
  items : ∀ it, it ∈ st.items ↔ it ∈ db.items ∧ ∀ p ∈ st.consumed, p.2.id ≠ it.id

theorem rank_copy {fitted : Fitted} {it : Item} {r : Ranked} (h : rank rt fitted it = .ok r) :
    r.copy = it := by
  simp only [rank, bind_eq_ok] at h
  obtain ⟨fits, _, h⟩ := h
  split at h
  · obtain ⟨good, _, rfl⟩ := map_eq_ok.mp h
    rfl
  · cases h
    rfl

variable {transplant : Bool}

theorem mem_of_selectCopy {fitted : Fitted} {copies : List Item} {it : Item}
    (h : selectCopy rt transplant fitted copies = .ok (some it)) : it ∈ copies := by
  unfold selectCopy at h
  split at h
  · exact pick_mem (Except.ok.inj h)
  · obtain ⟨ranked, hranked, h⟩ := bind_eq_ok.mp h
    obtain ⟨r, hr, rfl⟩ := Option.map_eq_some_iff.mp (Except.ok.inj h)
    obtain ⟨c, hc, hrank⟩ := (mapM_eq_ok hranked).1 r (List.mem_filter.mp (pick_mem hr)).1
    rw [rank_copy hrank]
    exact hc

variable {before : Fields}

theorem consumeOne_ok {db : Db} {pawn : Nat} {st st' : Loop}
    {s : ConsumeSpec} (h : consumeOne rt db pawn before transplant st s = .ok st') :
    ∃ it ∈ candidates db st.items pawn s, st'.items = st.items.filter (·.id ≠ it.id) ∧
      st'.consumed = st.consumed ++ [(s.slot, it)] ∧
      ∀ q ∈ st'.spliced, q ∈ st.spliced ∨ q.1 = s.slot := by
  simp only [consumeOne, bind_eq_ok] at h
  obtain ⟨fitted, _, found, hfound, h⟩ := h
  cases found with
  | none => cases h
  | some it =>
    obtain ⟨spliced, hspliced, h⟩ := bind_eq_ok.mp h
    cases h
    refine ⟨it, mem_of_selectCopy hfound, rfl, rfl, fun q hq => ?_⟩
    unfold accumulate at hspliced
    split at hspliced
    · obtain ⟨p, _, rfl⟩ := map_eq_ok.mp hspliced
      rcases List.mem_append.mp hq with hq | hq
      · exact Or.inl hq
      · rw [List.mem_singleton.mp hq]
        exact Or.inr rfl
    · cases hspliced
      exact Or.inl hq

theorem Spent.step {db : Db} {pawn : Nat}
    {done : List ConsumeSpec} {st st' : Loop} {s : ConsumeSpec} (h : Spent db pawn done st)
    (hstep : consumeOne rt db pawn before transplant st s = .ok st') :
    Spent db pawn (done ++ [s]) st' := by
  obtain ⟨it, hit, hitems, hconsumed, hspliced⟩ := consumeOne_ok hstep
  simp only [candidates, List.mem_filter, decide_eq_true_eq] at hit
  obtain ⟨hmem, hcarried, htemplate, hgrade, hstandalone⟩ := hit
  refine ⟨?_, fun p hp => ?_, fun q hq => ?_, fun it' => ?_⟩
  · rw [hconsumed, List.map_append, List.map_append, h.slots]
    rfl
  · rw [hconsumed] at hp
    rcases List.mem_append.mp hp with hp | hp
    · obtain ⟨s', hs', hslot⟩ := h.copies p hp
      exact ⟨s', List.mem_append_left _ hs', hslot⟩
    · rw [List.mem_singleton.mp hp]
      exact ⟨s, List.mem_append_right _ List.mem_cons_self, rfl,
        ((h.items it).mp hmem).1, hcarried, htemplate, hgrade, hstandalone⟩
  · rcases hspliced q hq with hq | hq
    · obtain ⟨s', hs', hslot⟩ := h.spliced q hq
      exact ⟨s', List.mem_append_left _ hs', hslot⟩
    · exact ⟨s, List.mem_append_right _ List.mem_cons_self, hq.symm⟩
  · rw [hitems, Table.mem_filter, h.items, hconsumed]
    simp only [decide_eq_true_eq, List.mem_append, List.mem_singleton]
    constructor
    · rintro ⟨⟨hdb, hold⟩, hne⟩
      refine ⟨hdb, fun p hp => ?_⟩
      rcases hp with hp | rfl
      · exact hold p hp
      · exact Ne.symm hne
    · rintro ⟨hdb, hall⟩
      exact ⟨⟨hdb, fun p hp => hall p (Or.inl hp)⟩, Ne.symm (hall (s.slot, it) (Or.inr rfl))⟩

theorem spent_loop {db : Db} {pawn : Nat} {specs : List ConsumeSpec} {st : Loop}
    (h : specs.foldlM (consumeOne rt db pawn before transplant) ⟨db.items, [], []⟩ = .ok st) :
    Spent db pawn specs st := by
  have hstart : Spent db pawn [] ⟨db.items, [], []⟩ :=
    ⟨rfl, nofun, nofun, fun it => ⟨fun hit => ⟨hit, nofun⟩, fun hit => hit.1⟩⟩
  have hloop : ∃ done, specs = done ++ [] ∧ Spent db pawn done st := by
    refine foldlM_rule (I := fun rest st => ∃ done, specs = done ++ rest ∧ Spent db pawn done st)
      (fun s rest st st' hI hs => ?_) ⟨[], rfl, hstart⟩ h
    obtain ⟨done, hdone, hspent⟩ := hI
    refine ⟨done ++ [s], ?_, hspent.step hs⟩
    rw [hdone, List.append_assoc]
    rfl
  obtain ⟨done, hdone, hspent⟩ := hloop
  rw [hdone, List.append_nil]
  exact hspent

theorem spliced_payloads {payloads payloads' : List Payload}
    {spliced : List (Nat × List Json × List Json)}
    (h : spliced.foldlM spliceOne payloads = .ok payloads') :
    payloads'.length = payloads.length ∧
      ∀ i, (∀ q ∈ spliced, q.1 ≠ i) → payloads'[i]? = payloads[i]? := by
  induction spliced generalizing payloads with
  | nil =>
    cases h
    exact ⟨rfl, fun _ _ => rfl⟩
  | cons q spliced ih =>
    rw [List.foldlM_cons] at h
    obtain ⟨next, hnext, h⟩ := bind_eq_ok.mp h
    obtain ⟨hlength, hsame⟩ := ih h
    unfold spliceOne at hnext
    split at hnext
    · cases hnext
    · simp only [bind_eq_ok] at hnext
      obtain ⟨_, _, _, _, hnext⟩ := hnext
      cases hnext
      refine ⟨hlength.trans List.length_set, fun i hi => ?_⟩
      rw [hsame i fun r hr => hi r (List.mem_cons_of_mem q hr)]
      exact List.getElem?_set_ne (hi q List.mem_cons_self)

structure Applied (db : Db) (t : Tx) (w : Write) : Prop where
  tx : w.tx = t
  before : w.before = db
  item : ∃ it, db.items.get? t.itemId = some it ∧ db.carries w.pawn it = true ∧ w.oldStats = it.stats ∧
    ∃ items, Spent db w.pawn t.consumeSpecs ⟨items, [], w.consumed⟩ ∧
      w.after.items = items.update (fun r => r.id = t.itemId ∧ r.inventoryId = it.inventoryId)
        (fun r => { r with stats := w.newStats })
  inventories : w.after.inventories = db.inventories
  stats : ∃ payloads, w.newStats = (baseBlocks t.isWeapon w.oldStats).put "FAugmentedItemStats"
      (faugValue t.ids t.grades payloads) ∧ payloads.length = t.payloads.length ∧
    t.ids.length = t.grades.length ∧ t.ids.length = payloads.length ∧
    ∀ i, (∀ s ∈ t.consumeSpecs, s.slot ≠ i) → payloads[i]? = t.payloads[i]?
  slots : ∃ n, arrayLength (part? w.oldStats "AppliedAugments") = .ok n ∧ n ≤ t.ids.length

theorem applied_of_applyTx {db : Db} {began : Nat} {t : Tx} {w : Write}
    (h : applyTx rt db began t = .ok w) : Applied db t w := by
  unfold applyTx at h
  simp only [bind_eq_ok, orRaise_eq_ok, require_eq_ok] at h
  obtain ⟨player, _, pawn, _, _, _, it, hit, _, hcarries, _, _, st, hst, stats, hstats, audit, _,
    hw⟩ := h
  have hspent := spent_loop hst
  simp only [newStats, bind_eq_ok, require_eq_ok] at hstats
  obtain ⟨payloads, hpayloads, n, hn, _, hle, _, hlengths, hstats⟩ := hstats
  obtain ⟨hlength, hsame⟩ := spliced_payloads hpayloads
  cases hstats
  cases hw
  refine ⟨rfl, rfl, ⟨it, hit, hcarries, rfl, st.items, ?_, rfl⟩, rfl, ?_, ⟨n, hn, hle⟩⟩
  · exact ⟨hspent.slots, hspent.copies, fun _ hq => absurd hq List.not_mem_nil, hspent.items⟩
  · refine ⟨payloads, rfl, hlength, hlengths.1, hlengths.2, fun i hi => hsame i fun q hq => ?_⟩
    obtain ⟨s, hs, hslot⟩ := hspent.spliced q hq
    exact fun hqi => hi s hs (hslot.trans hqi)

end LastSietch.Augments
