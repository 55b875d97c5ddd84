import LastSietch.Augments.Calls
import LastSietch.Augments.Commits

/-!
# What a key promises

`Promise` is what the idempotency key of a call is for: one committed write, the item's block in
answer to every retry, and nothing changed by a call that is not written. The first and the last
hold in every run. The replay guard stands behind `do_live`'s own checks, so a retry gets that far
only where the checks still pass (`Unhindered`), and it is told the block only where that can be
read back.
-/

namespace LastSietch.Augments

open Runs (exec Along)

variable {rt : Runtime} {cat : Catalogue} {w w' : World}

/-! ## What a step can do -/

def Call.Planned (rt : Runtime) (cat : Catalogue) (c : Call) (t : Tx) : Prop :=
  ∃ plan used shapes draw, doLive rt cat c.request c.body plan used shapes draw = .ok t

def CallStage.tx? : CallStage → Option Tx
  | .planned t | .begun t _ | .counted t _ => some t
  | .asked | .answered _ => none

/-- A step sends a call or changes what is outside the calls, or it moves a call on that has no
answer yet, or it is a committed write. -/
inductive Moved (rt : Runtime) (cat : Catalogue) (w : World) (e : Event) (w' : World) : Prop
  | outside (he : e.of? = none) (haudit : w'.db.audit = w.db.audit) (hlog : w'.log = w.log)
      (hsent : w'.sent = w.sent ∨ ∃ c, w'.sent = w.sent ++ [⟨c, w.committed c, .asked⟩])
  | moved (i : Nat) (he : e.of? = some i) (s : Sent) (hs : w.sent[i]? = some s)
      (hopen : ∀ a, s.stage ≠ .answered a) (stage : CallStage) (hw' : w' = w.setStage i s stage)
      (hnot : ∀ r, stage ≠ .answered (.written r))
      (htx : ∀ t, stage.tx? = some t → s.stage.tx? = some t ∨ s.call.Planned rt cat t)
      (hcounted : ∀ t began, stage = .counted t began → w.db.replays t = false)
  | wrote (i : Nat) (he : e.of? = some i) (s : Sent) (hs : w.sent[i]? = some s) (t : Tx)
      (began : Nat) (hstage : s.stage = .counted t began) (d : Write)
      (happly : applyTx rt w.db began t = .ok d) (hw' : w' = w.commit rt cat i s t d)

variable {e : Event}

theorem moved_of_step (h : w.step rt cat e = some w') : Moved rt cat w e w' := by
  cases e with
  | tick d =>
    cases h
    exact .outside rfl rfl rfl (Or.inl rfl)
  | game g =>
    cases h
    exact .outside rfl rfl rfl (Or.inl rfl)
  | call c =>
    cases h
    exact .outside rfl rfl rfl (Or.inr ⟨c, rfl⟩)
  | read i draw =>
    simp only [World.step] at h
    split at h
    · rename_i c again hs
      cases h
      refine .moved i rfl _ hs (fun _ ha => by cases ha) _ rfl ?_ ?_ ?_ <;> unfold World.read <;>
        dsimp only <;> split
      · exact fun _ hr => by cases hr
      · exact fun _ hr => by cases hr
      · rename_i t hplan
        intro t' ht'
        cases ht'
        exact Or.inr ⟨_, _, _, _, hplan⟩
      · exact fun _ ht' => by cases ht'
      · exact fun _ _ hstage => by cases hstage
      · exact fun _ _ hstage => by cases hstage
    · cases h
  | begin_ i =>
    simp only [World.step] at h
    split at h
    · rename_i c again t hs
      cases h
      refine .moved i rfl _ hs (fun _ ha => by cases ha) _ rfl (fun _ hr => by cases hr)
        (fun t' ht' => Or.inl ht') (fun _ _ hstage => by cases hstage)
    · cases h
  | check i =>
    simp only [World.step] at h
    split at h
    · rename_i c again t began hs
      cases h
      refine .moved i rfl _ hs (fun _ ha => by cases ha) _ rfl ?_ ?_ ?_ <;> unfold World.check <;>
        split
      · split <;> exact fun _ hr => by cases hr
      · split <;> exact fun _ hr => by cases hr
      · split <;> exact fun _ ht' => by cases ht'
      · split
        · exact fun _ ht' => by cases ht'
        · exact fun t' ht' => Or.inl ht'
      · split <;> exact fun _ _ hstage => by cases hstage
      · rename_i hreplays
        split
        · exact fun _ _ hstage => by cases hstage
        · intro t' began' hstage
          cases hstage
          exact Bool.eq_false_iff.mpr hreplays
    · cases h
  | write i =>
    simp only [World.step] at h
    split at h
    · rename_i c again t began hs
      cases h
      unfold World.write
      split
      · rename_i d happly
        exact .wrote i rfl _ hs t began rfl d happly rfl
      · exact .moved i rfl _ hs (fun _ ha => by cases ha) _ rfl (fun _ hr => by cases hr)
          (fun _ ht' => by cases ht') (fun _ _ hstage => by cases hstage)
    · cases h

variable {t : Tx}

theorem Call.Planned.key {c : Call} (h : c.Planned rt cat t) :
    t.idempotencyKey = c.idempotencyKey ∧ t.itemId = c.itemId := by
  obtain ⟨plan, used, shapes, draw, h⟩ := h
  unfold doLive at h
  simp only [bind_eq_ok] at h
  obtain ⟨_, _, _, _, _, _, _, _, _, _, h⟩ := h
  split at h
  · cases h
  · simp only [bind_eq_ok] at h
    obtain ⟨_, _, _, _, _, _, h⟩ := h
    cases h
    exact ⟨rfl, rfl⟩

/-! ## The invariant -/

structure Sent.Fine (rt : Runtime) (cat : Catalogue) (log : List Commit) (s : Sent) : Prop where
  again : s.again = true → ∃ k ∈ log, k.call = s.call
  planned : ∀ t, s.stage.tx? = some t → s.call.Planned rt cat t
  uncounted : s.again = true → ∀ t began, s.stage ≠ .counted t began

structure World.Fine (rt : Runtime) (cat : Catalogue) (w : World) : Prop where
  sent : ∀ s ∈ w.sent, s.Fine rt cat w.log
  planned : ∀ k ∈ w.log, k.call.Planned rt cat k.write.tx
  kept : ∀ k ∈ w.log, (w.db.audit.get? k.call.idempotencyKey).isSome = true
  keys : (w.log.map (·.call.idempotencyKey)).Nodup

variable {s : Sent}

theorem Sent.Fine.mono {log log' : List Commit} (h : s.Fine rt cat log)
    (hlog : log ⊆ log') : s.Fine rt cat log' := by
  refine ⟨fun hs => ?_, h.planned, h.uncounted⟩
  obtain ⟨k, hk, hcall⟩ := h.again hs
  exact ⟨k, hlog hk, hcall⟩

theorem committed_iff {c : Call} : w.committed c = true ↔ ∃ k ∈ w.log, k.call = c := by
  simp [World.committed]

theorem World.Fine.replays (h : w.Fine rt cat) (hs : s ∈ w.sent)
    (hagain : s.again = true) (ht : s.call.Planned rt cat t) : w.db.replays t = true := by
  obtain ⟨k, hk, hcall⟩ := (h.sent s hs).again hagain
  have hkey := h.kept k hk
  rw [hcall, ← ht.key.1] at hkey
  exact hkey

variable {i : Nat}

theorem forall_mem_set {α : Type} {l : List α} {a : α} {p : α → Prop} (ha : p a)
    (hl : ∀ b ∈ l, p b) : ∀ b ∈ l.set i a, p b := by
  intro b hb
  rcases List.mem_or_eq_of_mem_set hb with hb | rfl
  · exact hl b hb
  · exact ha

theorem applyTx_keyed {db : Db} {began : Nat} {d : Write}
    (h : applyTx rt db began t = .ok d) : db.audit.get? t.idempotencyKey = none ∧
      ∀ key, (d.after.audit.get? key).isSome = true ↔
        key = t.idempotencyKey ∨ (db.audit.get? key).isSome = true := by
  obtain ⟨consumed, hrows⟩ := applyTx_audit h
  refine ⟨SerialTable.get?_eq_none.mpr fun r hr => SerialTable.fresh_of_rows hrows hr,
    fun key => ?_⟩
  simp only [Option.isSome_iff_exists, SerialTable.get?_eq_some, SerialTable.mem_def, hrows,
    List.mem_cons]
  constructor
  · rintro ⟨r, rfl | hr, rfl⟩
    · exact Or.inl rfl
    · exact Or.inr ⟨r, hr, rfl⟩
  · rintro (rfl | ⟨r, hr, rfl⟩)
    · exact ⟨_, Or.inl rfl, rfl⟩
    · exact ⟨r, Or.inr hr, rfl⟩

theorem World.Fine.step (h : w.Fine rt cat) (hstep : w.step rt cat e = some w') :
    w'.Fine rt cat := by
  cases moved_of_step hstep with
  | outside _ haudit hlog hsent =>
    refine ⟨?_, hlog ▸ h.planned, ?_, hlog ▸ h.keys⟩
    · rw [hlog]
      rcases hsent with hsent | ⟨c, hsent⟩
      · rw [hsent]
        exact h.sent
      · rw [hsent, List.forall_mem_append, List.forall_mem_singleton]
        exact ⟨h.sent, committed_iff.mp, nofun, nofun⟩
    · rw [hlog, haudit]
      exact h.kept
  | moved i _ s hs _ stage hw' _ htx hcounted =>
    have hmem := List.mem_of_getElem? hs
    have hs' := h.sent s hmem
    have hplanned : ∀ t, stage.tx? = some t → s.call.Planned rt cat t := fun t ht =>
      (htx t ht).elim (hs'.planned t) id
    subst hw'
    refine ⟨forall_mem_set ⟨hs'.again, hplanned, ?_⟩ h.sent, h.planned, h.kept, h.keys⟩
    rintro hagain t began rfl
    have hno := hcounted t began rfl
    rw [h.replays hmem hagain (hplanned t rfl)] at hno
    cases hno
  | wrote i _ s hs t began hstage d happly hw' =>
    have hs' := h.sent s (List.mem_of_getElem? hs)
    have hplanned : s.call.Planned rt cat t := hs'.planned t (by rw [hstage]; rfl)
    obtain ⟨hnew, haudit⟩ := applyTx_keyed happly
    have htx := (applied_of_applyTx happly).tx
    rw [hplanned.key.1] at hnew haudit
    subst hw'
    have hsub : w.log ⊆ w.log ++ [⟨s.call, d⟩] := List.subset_append_left _ _
    refine ⟨?_, ?_, ?_, ?_⟩
    · refine forall_mem_set ⟨fun hagain => ?_, nofun, nofun⟩ fun s' hs' => (h.sent s' hs').mono hsub
      exact absurd hstage (hs'.uncounted hagain t began)
    · rw [World.commit, List.forall_mem_append, List.forall_mem_singleton]
      exact ⟨h.planned, htx.symm ▸ hplanned⟩
    · rw [World.commit, List.forall_mem_append, List.forall_mem_singleton]
      exact ⟨fun k hk => (haudit _).mpr (Or.inr (h.kept k hk)), (haudit _).mpr (Or.inl rfl)⟩
    · rw [World.commit, List.map_append, List.nodup_append]
      refine ⟨h.keys, List.nodup_singleton _, fun key hkey key' hkey' => ?_⟩
      obtain ⟨k, hk, rfl⟩ := List.mem_map.mp hkey
      rw [List.map_singleton, List.mem_singleton] at hkey'
      rw [hkey']
      intro heq
      have hkept := h.kept k hk
      rw [heq, hnew] at hkept
      cases hkept

/-! ## The checks before the guard -/

abbrev Takes (cat : Catalogue) (template : String) (ids : List String) : Prop :=
  cat.templateKind template ≠ .unknown ∧
    (∀ a ∈ ids, cat.augmentKind a = cat.templateKind template ∧ cat.fits template a = some true) ∧
    ids.length ≤ slotCapFor (cat.templateKind template)

abbrev Db.Holds (db : Db) (now owner : Nat) (it : Item) : Prop :=
  ∃ p ∈ db.players.get? owner, p.onlineStatus = .offline ∧ p.inGrace now = false ∧
    ∃ pawn ∈ p.playerPawnId, db.carries pawn it = true

theorem preflight_eq_nil {plan : ItemPlan} {ids : List String} {template : String} {inventory : Nat}
    (hitem : plan.item = some (template, inventory)) :
    preflight rt cat plan ids = [] ↔ plan.pawn ≠ none ∧
      (plan.offline = true ∧ plan.inGrace = false) ∧ plan.owned = true ∧ Takes cat template ids ∧
      (installedAugmentIds rt plan.stats).length ≤ ids.length := by
  have hkinds : cat.templateKind template ≠ .unknown →
      (((¬∃ a ∈ ids, cat.augmentKind a ≠ .unknown ∧ cat.augmentKind a ≠ cat.templateKind template) ∧
        ¬∃ a ∈ ids, cat.augmentKind a = .unknown) ↔
        ∀ a ∈ ids, cat.augmentKind a = cat.templateKind template) := by
    intro hknown
    constructor
    · rintro ⟨hsame, hall⟩ a ha
      by_contra hother
      exact hsame ⟨a, ha, fun h => hall ⟨a, ha, h⟩, hother⟩
    · intro hall
      refine ⟨fun ⟨a, ha, _, hother⟩ => hother (hall a ha), fun ⟨a, ha, hnone⟩ => ?_⟩
      exact hknown ((hall a ha).symm.trans hnone)
  have hif : ∀ (p : Prop) [Decidable p] (e : Token), (if p then [e] else []) = [] ↔ ¬p := by
    intro p _ e
    split <;> simp_all
  have hunless : ∀ (p : Prop) [Decidable p] (e : Token), (if p then [] else [e]) = [] ↔ p := by
    intro p _ e
    split <;> simp_all
  simp only [preflight, hitem, Option.map_some, Option.getD_some, List.append_eq_nil_iff,
    List.filterMap_eq_nil_iff, hif, hunless, reduceCtorEq, not_false_eq_true, not_lt]
  by_cases hknown : cat.templateKind template = .unknown
  · simp [hknown]
  · rw [if_neg hknown]
    simp only [List.append_eq_nil_iff, hif, List.any_eq_true, decide_eq_true_eq, not_lt]
    have hkinds := hkinds hknown
    constructor
    · rintro ⟨⟨⟨⟨⟨⟨hpawn, _⟩, haway⟩, howned⟩, ⟨hsame, hall⟩, hcap⟩, hcount⟩, hfit⟩
      have hkind := hkinds.mp ⟨hsame, hall⟩
      refine ⟨hpawn, haway, howned, ⟨hknown, fun a ha => ⟨hkind a ha, ?_⟩, hcap⟩, hcount⟩
      have hone := hfit a ha
      cases hfits : cat.fits template a with
      | none =>
        rw [hfits] at hone
        cases hone
      | some fits =>
        cases fits with
        | false =>
          rw [hfits] at hone
          cases hone
        | true => rfl
    · rintro ⟨hpawn, haway, howned, ⟨_, htakes, hcap⟩, hcount⟩
      have hkind := hkinds.mpr fun a ha => (htakes a ha).1
      refine ⟨⟨⟨⟨⟨⟨hpawn, trivial⟩, haway⟩, howned⟩, ⟨hkind.1, hkind.2⟩, hcap⟩, hcount⟩, ?_⟩
      intro a ha
      rw [(htakes a ha).2]

theorem holds_iff {db : Db} {now owner item : Nat} {it : Item}
    (hit : db.items.get? item = some it) :
    let plan := db.itemPlan now owner item
    (plan.pawn ≠ none ∧ (plan.offline = true ∧ plan.inGrace = false) ∧ plan.owned = true) ↔
      db.Holds now owner it := by
  simp only [Db.itemPlan, hit, Db.Holds]
  cases db.players.get? owner with
  | none => simp
  | some p =>
    cases hpawn : p.playerPawnId with
    | none => simp [hpawn]
    | some pawn =>
      simp [hpawn, and_assoc]

abbrev Listable (rt : Runtime) (stats : Fields) (ids : List String) (only : Option (List String)) :
    Prop :=
  ∀ o ∈ only, ∀ a ∈ ids, a ∉ o → ∀ kept ∈ dictGet (installedRolls rt stats) a,
    (listOf? kept.appliedEffectIndices).isSome = true

theorem mapM_eq_some_iff {α β : Type} {f : α → Option β} {l : List α} :
    (∃ r, l.mapM f = some r) ↔ ∀ a ∈ l, f a ≠ none := by
  refine ⟨fun ⟨r, h⟩ a ha => ?_, mapM_isSome⟩
  obtain ⟨i, hi, rfl⟩ := List.mem_iff_getElem.mp ha
  have hget := getElem?_mapM h i
  rw [List.getElem?_eq_getElem hi, Option.bind_some] at hget
  have hlt : i < r.length := (length_mapM h).symm ▸ hi
  rw [← hget, List.getElem?_eq_getElem hlt]
  exact nofun

theorem buildRollPayloads_iff {rollCount : String → Nat} {shapes : String → Option RollShape}
    {draw : Nat → Nat → ℚ} {stats : Fields} {only : Option (List String)} {ids : List String} :
    (∃ payloads, buildRollPayloads rollCount shapes draw (installedRolls rt stats) only ids =
      some payloads) ↔ Listable rt stats ids only := by
  have hslot : ∀ a shape d, rollPayload rollCount shape d (installedRolls rt stats) only a ≠ none ↔
      ∀ o ∈ only, a ∉ o → ∀ kept ∈ dictGet (installedRolls rt stats) a,
        (listOf? kept.appliedEffectIndices).isSome = true := by
    intro a shape d
    unfold rollPayload
    split
    · rename_i o kept hkept
      split
      · rename_i hout
        simp [hkept, hout, Option.isSome_iff_ne_none]
      · rename_i hin
        simp [not_not.mp hin]
    · rename_i hother
      refine iff_of_true nofun ?_
      rintro o ho _ kept hkept
      exact absurd hkept (hother o kept ho)
  rw [buildRollPayloads, mapM_eq_some_iff]
  constructor
  · intro h o ho a ha
    obtain ⟨i, hi⟩ := List.mem_iff_getElem?.mp ha
    exact (hslot a _ _).mp (h (a, i) (List.mem_zipIdx_iff_getElem?.mpr hi)) o ho
  · rintro h ⟨a, i⟩ hp
    refine (hslot a _ _).mpr fun o ho => h o ho a ?_
    exact List.mem_of_getElem? (List.mem_zipIdx_iff_getElem?.mp hp)

def Call.names (c : Call) : List String := (validateAugmentIds c.body.augments).getD []

/-- Its `reroll_only`. -/
def Call.only (c : Call) : Option (List String) := c.body.rerollOnly.bind validateAugmentIds

/-- What `do_live` asks again of a call that it has let through before. -/
structure Unhindered (rt : Runtime) (cat : Catalogue) (db : Db) (now : Nat) (c : Call) (it : Item) :
    Prop where
  held : db.Holds now c.ownerCtrl it
  room : c.body.consume = true ∨ db.recentRerolls c.itemId now < REROLL_CAP
  takes : Takes cat it.templateId c.names
  count : (installedAugmentIds rt it.stats).length ≤ c.names.length
  listable : Listable rt it.stats c.names c.only
  fills : c.body.transplant = false ∨
    c.body.consume = true ∧ newlyInstalledSlots rt c.names it.stats c.body.swapSlot ≠ []

instance (db : Db) (now : Nat) (c : Call) (it : Item) : Decidable (Unhindered rt cat db now c it) :=
  decidable_of_iff (db.Holds now c.ownerCtrl it ∧
      (c.body.consume = true ∨ db.recentRerolls c.itemId now < REROLL_CAP) ∧
      Takes cat it.templateId c.names ∧
      (installedAugmentIds rt it.stats).length ≤ c.names.length ∧
      Listable rt it.stats c.names c.only ∧ (c.body.transplant = false ∨
        c.body.consume = true ∧ newlyInstalledSlots rt c.names it.stats c.body.swapSlot ≠ []))
    ⟨fun h => ⟨h.1, h.2.1, h.2.2.1, h.2.2.2.1, h.2.2.2.2.1, h.2.2.2.2.2⟩,
      fun h => ⟨h.held, h.room, h.takes, h.count, h.listable, h.fills⟩⟩

theorem Call.Planned.valid {c : Call} (h : c.Planned rt cat t) :
    validateRerollOnly c.body.rerollOnly = .ok c.only ∧
      validateAugmentIds c.body.augments = some c.names ∧ c.names ≠ [] ∧
      validateSwapSlot c.body.swapSlot c.names = .ok c.body.swapSlot ∧ t.ids = c.names ∧
      t.grades.length = c.names.length ∧ t.payloads.length = c.names.length := by
  obtain ⟨plan, used, shapes, draw, h⟩ := h
  unfold doLive at h
  simp only [bind_eq_ok, orRaise_eq_ok, require_eq_ok] at h
  obtain ⟨only, honly, ids, hids, _, hne, slot, hslot, _, _, h⟩ := h
  have hnames : c.names = ids := by rw [Call.names, hids, Option.getD_some]
  have hslot' := (validateSwapSlot_ok hslot).1
  have honly' : only = c.only := by
    unfold validateRerollOnly at honly
    unfold Call.only
    split at honly
    · rename_i hnone
      cases honly
      rw [hnone]
      rfl
    · rename_i raw hraw
      obtain ⟨o, ho, rfl⟩ := map_eq_ok.mp honly
      rw [hraw, Option.bind_some, orRaise_eq_ok.mp ho]
  subst hnames hslot' honly'
  split at h
  · cases h
  · simp only [bind_eq_ok, orRaise_eq_ok] at h
    obtain ⟨_, _, payloads, hpayloads, _, _, h⟩ := h
    cases h
    refine ⟨honly, hids, hne, hslot, rfl, ?_, ?_⟩
    · unfold resolveGrades
      dsimp only
      split
      · rw [List.length_set, List.length_map]
      · exact List.length_map _
    · rw [length_mapM hpayloads, List.length_zipIdx]

theorem doLive_again {db : Db} {now : Nat} {c : Call} {t : Tx} {it : Item}
    (hbefore : c.Planned rt cat t) (hit : db.items.get? c.itemId = some it)
    {shapes : List String → String → Option RollShape} {draw : Nat → Nat → ℚ} :
    (∃ t', doLive rt cat c.request c.body (db.itemPlan now c.ownerCtrl c.itemId)
      (db.recentRerolls c.itemId now) shapes draw = .ok t') ↔ Unhindered rt cat db now c it := by
  obtain ⟨honly, hids, hne, hslot, _⟩ := hbefore.valid
  have hitem : (db.itemPlan now c.ownerCtrl c.itemId).item =
      some (it.templateId, it.inventoryId) := by rw [Db.itemPlan, hit]; rfl
  have hstats : (db.itemPlan now c.ownerCtrl c.itemId).stats = it.stats := by
    rw [Db.itemPlan, hit]
    rfl
  have hpreflight : preflight rt cat (db.itemPlan now c.ownerCtrl c.itemId) c.names = [] ↔
      db.Holds now c.ownerCtrl it ∧ Takes cat it.templateId c.names ∧
        (installedAugmentIds rt it.stats).length ≤ c.names.length := by
    have hheld := @holds_iff db now c.ownerCtrl c.itemId it hit
    dsimp only at hheld
    rw [preflight_eq_nil hitem, ← hheld, hstats]
    simp only [and_assoc]
  unfold doLive
  simp only [honly, hids, hslot, bind_eq_ok, orRaise_eq_ok, require_eq_ok, hstats, Except.ok.injEq,
    Option.some.injEq, exists_eq_left', exists_const]
  constructor
  · rintro ⟨t', _, hroom, h⟩
    split at h
    · cases h
    · rename_i hnil
      obtain ⟨hheld, htakes, hcount⟩ := hpreflight.mp hnil
      simp only [bind_eq_ok, orRaise_eq_ok, require_eq_ok] at h
      obtain ⟨_, _, payloads, hpayloads, _, hfills, _⟩ := h
      refine ⟨hheld, hroom, htakes, hcount, buildRollPayloads_iff.mp ⟨payloads, hpayloads⟩,
        hfills.imp id fun hslots => ?_⟩
      by_cases hconsume : c.body.consume = true
      · rw [if_pos hconsume] at hslots
        exact ⟨hconsume, hslots⟩
      · rw [if_neg hconsume] at hslots
        exact absurd rfl hslots
  · intro h
    obtain ⟨payloads, hpayloads⟩ := (@buildRollPayloads_iff rt cat.rollCount (shapes c.names) draw
      it.stats c.only c.names).mpr h.listable
    have hnil := hpreflight.mpr ⟨h.held, h.takes, h.count⟩
    simp only [hnil, bind_eq_ok, orRaise_eq_ok, require_eq_ok]
    refine ⟨_, hne, h.room, _, congrArg (Option.map (·.1)) hitem, payloads, hpayloads, (), ?_, rfl⟩
    rcases h.fills with hnot | ⟨hconsume, hslots⟩
    · exact Or.inl hnot
    · exact Or.inr (by rwa [if_pos hconsume])

abbrev ReadsBack (rt : Runtime) (stats : Fields) : Prop :=
  ∃ r ∈ blockSlots rt (block stats), r.grades ≠ [] ∧ r.statRolls ≠ []

theorem report_eq_block {c : Call} {stats : Fields} (h : c.Planned rt cat t) :
    blockSlots rt (block stats) = some (t.report rt stats) ↔ ReadsBack rt stats := by
  obtain ⟨_, _, hne, _, _, hgrades, hpayloads⟩ := h.valid
  have hlength : c.names.length ≠ 0 := fun h => hne (List.length_eq_zero_iff.mp h)
  unfold Tx.report ReadsBack
  cases hblock : blockSlots rt (block stats) with
  | none => simp
  | some r =>
    obtain ⟨augments, grades, statRolls⟩ := r
    have hmeant : t.grades ≠ [] ∧ t.payloads ≠ [] := by
      refine ⟨?_, ?_⟩ <;> rintro hnil
      · exact hlength (by rw [← hgrades, hnil]; rfl)
      · exact hlength (by rw [← hpayloads, hnil]; rfl)
    by_cases hg : grades = []
    · simp [hg, hmeant.1.symm]
    · by_cases hr : statRolls = []
      · simp [hr, hmeant.2]
      · simp [hg, hr]

/-! ## Runs -/

variable (rt cat) in
def World.Honours (w : World) (e : Event) : Prop :=
  ∀ i s it w' s' a, e.of? = some i → w.sent[i]? = some s → s.again = true →
    w.db.items.get? s.call.itemId = some it → w.step rt cat e = some w' →
    w'.sent[i]? = some s' → s'.stage = .answered a →
    ∃ r, a = .replayed r ∧ blockSlots rt (block it.stats) = some r

variable (rt cat) in
def World.Spares (i : Nat) (w : World) (e : Event) : Prop :=
  e.of? = some i → ∀ w', w.step rt cat e = some w' → w'.db = w.db ∧ w'.keystones = w.keystones

structure World.Start (w : World) : Prop where
  sent : w.sent = []
  log : w.log = []

/-- What a key is for, in a run from `w` to `w'`. -/
structure Promise (rt : Runtime) (cat : Catalogue) (w : World) (es : List Event) (w' : World) :
    Prop where
  once : (w'.log.map (·.call.idempotencyKey)).Nodup
  honoured : Along (World.step rt cat) (World.Honours rt cat) w es
  spared : ∀ i s a, w'.sent[i]? = some s → s.stage = .answered a → (∀ r, a ≠ .written r) →
    Along (World.step rt cat) (World.Spares rt cat i) w es

variable (rt cat) in
def World.Clear (w : World) : Event → Prop
  | .read i _ => ∀ c, w.sent[i]? = some ⟨c, true, .asked⟩ →
      ∀ it ∈ w.db.items.get? c.itemId, Unhindered rt cat w.db w.now c it
  | .check i => ∀ c t began, w.sent[i]? = some ⟨c, true, .begun t began⟩ →
      ∀ it ∈ w.db.items.get? c.itemId, ReadsBack rt it.stats
  | _ => True

theorem World.Start.fine (h : w.Start) : w.Fine rt cat := by
  refine ⟨fun s hs => ?_, fun k hk => ?_, fun k hk => ?_, ?_⟩
  · rw [h.sent] at hs
    exact absurd hs List.not_mem_nil
  · rw [h.log] at hk
    exact absurd hk List.not_mem_nil
  · rw [h.log] at hk
    exact absurd hk List.not_mem_nil
  · rw [h.log]
    exact List.nodup_nil

theorem sent_setStage {stage : CallStage} (hs : w.sent[i]? = some s) :
    (w.setStage i s stage).sent[i]? = some { s with stage } :=
  List.getElem?_set_self (List.getElem?_eq_some_iff.mp hs).1

/-- A step that leaves the call in `stage` honours it as `stage` does. -/
theorem honours_setStage {stage : CallStage} (he : e.of? = some i)
    (hs : w.sent[i]? = some s) (hstep : w.step rt cat e = some (w.setStage i s stage)) :
    w.Honours rt cat e ↔ (s.again = true → ∀ it ∈ w.db.items.get? s.call.itemId, ∀ a,
      stage = .answered a → ∃ r, a = .replayed r ∧ blockSlots rt (block it.stats) = some r) := by
  constructor
  · intro h hagain it hit a ha
    exact h i s it _ _ a he hs hagain hit hstep (sent_setStage hs) ha
  · intro h i' s₀ it w' s' a he' hs₀ hagain hit hstep' hs' ha
    cases he.symm.trans he'
    cases hs.symm.trans hs₀
    cases hstep.symm.trans hstep'
    cases (sent_setStage hs).symm.trans hs'
    exact h hagain it hit a ha

theorem honours_iff (h : w.Fine rt cat) (hstep : w.step rt cat e = some w') :
    w.Honours rt cat e ↔ w.Clear rt cat e := by
  cases e with
  | tick d => exact iff_of_true (fun _ _ _ _ _ _ he => by cases he) trivial
  | game g => exact iff_of_true (fun _ _ _ _ _ _ he => by cases he) trivial
  | call c => exact iff_of_true (fun _ _ _ _ _ _ he => by cases he) trivial
  | read i draw =>
    have hread := hstep
    simp only [World.step] at hstep
    split at hstep
    · rename_i c again hs
      cases hstep
      rw [honours_setStage rfl hs hread]
      have hplanned : again = true → ∃ t, c.Planned rt cat t := by
        intro hagain
        obtain ⟨k, hk, rfl⟩ := (h.sent _ (List.mem_of_getElem? hs)).again hagain
        exact ⟨_, h.planned k hk⟩
      constructor
      · intro hhonours c' hs' it hit
        cases hs.symm.trans hs'
        obtain ⟨t, ht⟩ := hplanned rfl
        refine (@doLive_again _ _ _ _ _ _ _ ht hit w.db.rollShapes draw).mp ?_
        have hstage := hhonours rfl it hit
        unfold World.read at hstage
        dsimp only at hstage
        split at hstage
        · rename_i t' ht'
          exact ⟨t', ht'⟩
        · obtain ⟨r, hr, _⟩ := hstage _ rfl
          cases hr
      · intro hclear hagain it hit a ha
        cases hagain
        obtain ⟨t, ht⟩ := hplanned rfl
        obtain ⟨t', ht'⟩ := (@doLive_again _ _ _ _ _ _ _ ht hit w.db.rollShapes draw).mpr
          (hclear c hs it hit)
        unfold World.read at ha
        dsimp only at ha
        rw [ht'] at ha
        cases ha
    · cases hstep
  | begin_ i =>
    have hbegin := hstep
    simp only [World.step] at hstep
    split at hstep
    · rename_i c again t hs
      cases hstep
      rw [honours_setStage rfl hs hbegin]
      exact iff_of_true (fun _ _ _ _ ha => by cases ha) trivial
    · cases hstep
  | check i =>
    have hcheck := hstep
    simp only [World.step] at hstep
    split at hstep
    · rename_i c again t began hs
      cases hstep
      rw [honours_setStage rfl hs hcheck]
      have hmem := List.mem_of_getElem? hs
      have ht : c.Planned rt cat t := (h.sent _ hmem).planned t rfl
      have hanswer : again = true → ∀ it ∈ w.db.items.get? c.itemId,
          w.check rt t began = .answered (.replayed (t.report rt it.stats)) := by
        intro hagain it hit
        rw [World.check, if_pos (h.replays hmem hagain ht), ht.key.2, hit]
      constructor
      · intro hhonours c' t' began' hs' it hit
        cases hs.symm.trans hs'
        obtain ⟨r, hr, hblock⟩ := hhonours rfl it hit _ (hanswer rfl it hit)
        cases hr
        exact (report_eq_block ht).mp hblock
      · intro hclear hagain it hit a ha
        cases hagain
        cases (hanswer rfl it hit).symm.trans ha
        exact ⟨_, rfl, (report_eq_block ht).mpr (hclear c t began hs it hit)⟩
    · cases hstep
  | write i =>
    refine iff_of_true ?_ trivial
    intro i' s it w'' s' a he hs hagain
    cases he
    simp only [World.step] at hstep
    split at hstep
    · rename_i c again t began hs'
      cases hs.symm.trans hs'
      exact absurd rfl ((h.sent _ (List.mem_of_getElem? hs)).uncounted hagain t began)
    · cases hstep

theorem answered_step {a : Answer} (hs : w.sent[i]? = some s)
    (ha : s.stage = .answered a) (hstep : w.step rt cat e = some w') : w'.sent[i]? = some s := by
  have hother : ∀ j s' stage, w.sent[j]? = some s' → (∀ a, s'.stage ≠ .answered a) →
      (w.setStage j s' stage).sent[i]? = some s := by
    intro j s' stage hs' hopen
    have hji : j ≠ i := by
      rintro rfl
      cases hs.symm.trans hs'
      exact hopen a ha
    exact (List.getElem?_set_ne hji).trans hs
  cases moved_of_step hstep with
  | outside _ _ _ hsent =>
    rcases hsent with hsent | ⟨c, hsent⟩
    · rw [hsent, hs]
    · rw [hsent, List.getElem?_append_left (List.getElem?_eq_some_iff.mp hs).1, hs]
  | moved j _ s' hs' hopen stage hw' =>
    rw [hw']
    exact hother j s' stage hs' hopen
  | wrote j _ s' hs' t began hstage d _ hw' =>
    rw [hw']
    exact hother j s' _ hs' (by rw [hstage]; exact nofun)

theorem spared_of_run {es : List Event} {a : Answer}
    (hs : w'.sent[i]? = some s) (ha : s.stage = .answered a) (hnot : ∀ r, a ≠ .written r)
    (hrun : exec (World.step rt cat) w es = some w') :
    Along (World.step rt cat) (World.Spares rt cat i) w es := by
  induction es generalizing w with
  | nil => trivial
  | cons e es ih =>
    obtain ⟨m, hm, hrest⟩ := Runs.exec_cons.mp hrun
    refine ⟨fun he m' hm' => ?_, fun m' hm' => ?_⟩
    · obtain rfl := Option.some.inj (hm.symm.trans hm')
      cases moved_of_step hm with
      | outside hnone => exact absurd (hnone.symm.trans he) nofun
      | moved j _ s' _ _ stage hw' =>
        rw [hw']
        exact ⟨rfl, rfl⟩
      | wrote j hj s' hs' t began hstage d _ hw' =>
        cases hj.symm.trans he
        have hwritten : m.sent[i]? = some { s' with
            stage := .answered (.written (t.report rt d.newStats)) } := by
          rw [hw']
          exact sent_setStage hs'
        have hlast := Runs.exec_invariant' (I := fun m => m.sent[i]? = some { s' with
          stage := .answered (.written (t.report rt d.newStats)) })
          (fun _ _ _ hI hstep => answered_step hI rfl hstep) hwritten hrest
        cases hs.symm.trans hlast
        cases ha
        exact absurd rfl (hnot _)
    · obtain rfl := Option.some.inj (hm.symm.trans hm')
      exact ih hrest

theorem honoured_iff (hstart : w.Start) {es : List Event}
    (hrun : exec (World.step rt cat) w es = some w') :
    Along (World.step rt cat) (World.Honours rt cat) w es ↔
      Along (World.step rt cat) (World.Clear rt cat) w es :=
  Runs.along_congr (I := World.Fine rt cat) (fun _ _ _ hI hstep => hI.step hstep)
    (fun _ _ _ hI hstep => honours_iff hI hstep) hstart.fine hrun

/-- A run keeps the promise just when each of its retries finds `do_live`'s checks passing and its
block readable. -/
theorem promise_iff (hstart : w.Start) {es : List Event}
    (hrun : exec (World.step rt cat) w es = some w') :
    Promise rt cat w es w' ↔ Along (World.step rt cat) (World.Clear rt cat) w es := by
  refine ⟨fun h => (honoured_iff hstart hrun).mp h.honoured, fun h => ⟨?_, ?_, ?_⟩⟩
  · exact (Runs.exec_invariant' (fun _ _ _ hI hstep => World.Fine.step hI hstep)
      (@World.Start.fine rt cat w hstart) hrun).keys
  · exact (honoured_iff hstart hrun).mpr h
  · exact fun i s a hs ha hnot => spared_of_run hs ha hnot hrun

instance (w : World) : (e : Event) → Decidable (w.Clear rt cat e)
  | .tick _ | .game _ | .call _ | .begin_ _ | .write _ => .isTrue trivial
  | .read i _ =>
    match h : w.sent[i]? with
    | some ⟨c, true, .asked⟩ =>
      decidable_of_iff (∀ it ∈ w.db.items.get? c.itemId, Unhindered rt cat w.db w.now c it)
        ⟨fun hp c' h' => by rw [h] at h'; cases h'; exact hp, fun hp => hp c h⟩
    | some ⟨_, false, .asked⟩ | some ⟨_, _, .planned _⟩ | some ⟨_, _, .begun _ _⟩
    | some ⟨_, _, .counted _ _⟩ | some ⟨_, _, .answered _⟩ | none =>
      .isTrue fun _ h' => by rw [h] at h'; cases h'
  | .check i =>
    match h : w.sent[i]? with
    | some ⟨c, true, .begun t began⟩ =>
      decidable_of_iff (∀ it ∈ w.db.items.get? c.itemId, ReadsBack rt it.stats)
        ⟨fun hp c' t' began' h' => by rw [h] at h'; cases h'; exact hp, fun hp => hp c t began h⟩
    | some ⟨_, false, .begun _ _⟩ | some ⟨_, _, .planned _⟩ | some ⟨_, _, .asked⟩
    | some ⟨_, _, .counted _ _⟩ | some ⟨_, _, .answered _⟩ | none =>
      .isTrue fun _ _ _ h' => by rw [h] at h'; cases h'

/-! ### A reroll and its retry -/

def quietArmory : World := ⟨armory.db, [], armory.now, [], []⟩

theorem quietArmory_start : quietArmory.Start := ⟨rfl, rfl⟩

def rerollCall (key : Nat) : Call :=
  ⟨1, 100, key, ⟨["T6_Augment_A", "T6_Augment_B"], false, false, none, none, none⟩⟩

def sendAndWrite (i key : Nat) : List Event :=
  [.call (rerollCall key), .read i (fun _ _ => 1 / 4), .begin_ i, .check i, .write i]

def login : Event := .game ⟨some ⟨[⟨1, some 10, .other, none⟩], by decide⟩, none, none, none⟩

def retryOnline : List Event :=
  sendAndWrite 0 1 ++ [login, .call (rerollCall 1), .read 1 (fun _ _ => 1 / 8)]

/-- A reroll is committed, the player logs in, and the retry with the same key is refused. -/
theorem online_retry : quietArmory.Start ∧
    ∃ w', exec (World.step plainRuntime openCatalogue) quietArmory retryOnline = some w' ∧
      (w'.sent[1]?.any fun s => match s.stage with
        | .answered a => a = .failed .playerOnline
        | _ => false) = true ∧
      ¬Promise plainRuntime openCatalogue quietArmory retryOnline w' := by
  have hrun : (exec (World.step plainRuntime openCatalogue) quietArmory retryOnline).any
      (fun w' => decide ((w'.sent[1]?.any fun s => match s.stage with
        | .answered a => a = .failed .playerOnline
        | _ => false) = true)) = true := by decide
  obtain ⟨w', hrun, hrefused⟩ := Runs.exec_shows hrun
  have hnot : ¬Along (World.step plainRuntime openCatalogue)
      (World.Clear plainRuntime openCatalogue) quietArmory retryOnline := by decide
  exact ⟨quietArmory_start, w', hrun, hrefused,
    fun h => hnot ((honoured_iff quietArmory_start hrun).mp h.honoured)⟩

def retryOffline : List Event :=
  sendAndWrite 0 1 ++ [.tick 60000000, .call (rerollCall 1), .read 1 (fun _ _ => 1 / 8), .begin_ 1,
    .check 1]

theorem promise_retryOffline : ∃ w',
    exec (World.step plainRuntime openCatalogue) quietArmory retryOffline = some w' ∧
      w'.log.length = 1 ∧ Promise plainRuntime openCatalogue quietArmory retryOffline w' := by
  have hrun : (exec (World.step plainRuntime openCatalogue) quietArmory retryOffline).any
      (fun w' => decide (w'.log.length = 1)) = true := by decide
  obtain ⟨w', hrun, hone⟩ := Runs.exec_shows hrun
  exact ⟨w', hrun, hone, (promise_iff quietArmory_start hrun).mpr (by decide)⟩

end LastSietch.Augments
