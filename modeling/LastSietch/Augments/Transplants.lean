import LastSietch.Augments.Commits

/-!
# The copies that a transplant spends

With `roll_mode` transplant the consume loop picks a copy for each slot, deletes it and puts its own
rolls into the slot. `Transplanted` is what a transplant that commits has done, with or without a
key, and `Reported` what is true of the pawn's copies when one is refused for want of a copy.

A copy beats the fitted rolls with one position that is higher; `Falls` is a position that is lower,
which the `ORDER BY` keeps behind the copies that have none.
-/

namespace LastSietch.Augments

variable {rt : Runtime}

/-- The two have values at some position of which `hit` holds. -/
def Somewhere (rt : Runtime) (hit : Numeric → Numeric → Bool) (pairs : List (Json × Json)) : Prop :=
  ∃ p ∈ pairs, ∃ c f, rollValue rt p.1 = .ok (some c) ∧ rollValue rt p.2 = .ok (some f) ∧
    hit c f = true

theorem existsPair_eq_ok {hit : Numeric → Numeric → Bool} {pairs : List (Json × Json)} {b : Bool}
    (h : existsPair rt hit pairs = .ok b) : b = true ↔ Somewhere rt hit pairs := by
  induction pairs with
  | nil =>
    cases h
    exact ⟨nofun, fun ⟨_, hp, _⟩ => absurd hp List.not_mem_nil⟩
  | cons p pairs ih =>
    simp only [existsPair, bind_eq_ok] at h
    obtain ⟨copy, hcopy, fitted, hfitted, h⟩ := h
    have hhead : ∀ c f, rollValue rt p.1 = .ok (some c) → rollValue rt p.2 = .ok (some f) →
        copy = some c ∧ fitted = some f := by
      intro c f hc hf
      cases hcopy.symm.trans hc
      cases hfitted.symm.trans hf
      exact ⟨rfl, rfl⟩
    have htail : (∀ c f, copy = some c → fitted = some f → hit c f = false) →
        existsPair rt hit pairs = .ok b → (b = true ↔ Somewhere rt hit (p :: pairs)) := by
      intro hmiss hrest
      rw [ih hrest]
      constructor
      · rintro ⟨q, hq, hhit⟩
        exact ⟨q, List.mem_cons_of_mem p hq, hhit⟩
      · rintro ⟨q, hq, c, f, hc, hf, hhit⟩
        rcases List.mem_cons.mp hq with rfl | hq
        · obtain ⟨hcopy', hfitted'⟩ := hhead c f hc hf
          rw [hmiss c f hcopy' hfitted'] at hhit
          cases hhit
        · exact ⟨q, hq, c, f, hc, hf, hhit⟩
    split at h
    · rename_i c f
      split at h
      · rename_i hhit
        cases h
        exact iff_of_true rfl ⟨p, List.mem_cons_self, c, f, hcopy, hfitted, hhit⟩
      · rename_i hmiss
        refine htail (fun c' f' hc hf => ?_) h
        cases hc
        cases hf
        exact Bool.eq_false_iff.mpr hmiss
    · rename_i hnone
      exact htail (fun c f hc hf => absurd hf (hnone c f hc)) h

def Item.Beats (rt : Runtime) (fitted : List Json) (it : Item) : Prop :=
  ∃ rolls, it.inner "StatRolls" = some (.arr rolls) ∧ rolls.length = fitted.length ∧
    Somewhere rt higher (rolls.zip fitted)

def Item.Falls (rt : Runtime) (fitted : List Json) (it : Item) : Prop :=
  ∃ rolls, it.inner "StatRolls" = some (.arr rolls) ∧ Somewhere rt lower (rolls.zip fitted)

/-! ## The choice of a copy -/

section Choice

variable {fitted : Fitted} {old : List Json} {it : Item} {copies : List Item}

theorem improves_eq_ok (hsame : fitted.sameUpgrade = true) (hold : fitted.rolls = some (.arr old))
    {b : Bool} (h : improves rt fitted it = .ok b) : b = true ↔ it.Beats rt old := by
  unfold improves at h
  unfold Item.Beats
  split at h
  · rename_i hnone
    cases h
    simp [hnone, hsame]
  · rename_i hempty
    cases h
    refine iff_of_false nofun ?_
    rintro ⟨rolls, hrolls, _, p, hp, _⟩
    cases hempty.symm.trans hrolls
    cases hp
  · rename_i rolls _ hrolls
    rw [if_neg (by rw [hsame]; exact nofun), hold] at h
    dsimp only [Option.map_some, Option.getD_some, Json.elements] at h
    split at h
    · rename_i hlength
      cases h
      refine iff_of_false nofun ?_
      rintro ⟨rolls', hrolls', hlength', _⟩
      cases hrolls.symm.trans hrolls'
      exact hlength hlength'
    · rename_i hlength
      rw [existsPair_eq_ok h]
      constructor
      · exact fun hsome => ⟨rolls, hrolls, not_not.mp hlength, hsome⟩
      · rintro ⟨rolls', hrolls', _, hsome⟩
        cases hrolls.symm.trans hrolls'
        exact hsome
  · rename_i j _ hother hj
    cases h
    refine iff_of_false nofun ?_
    rintro ⟨rolls, hrolls, _⟩
    exact hother rolls (Option.some.inj (hj.symm.trans hrolls))

theorem notWorse_eq_ok (hsame : fitted.sameUpgrade = true) (hold : fitted.rolls = some (.arr old))
    {rolls : List Json} (hrolls : it.inner "StatRolls" = some (.arr rolls)) {b : Bool}
    (h : notWorse rt fitted it = .ok b) : b = true ↔ ¬it.Falls rt old := by
  unfold notWorse at h
  rw [if_neg (by rw [hsame]; exact nofun), hold, hrolls] at h
  dsimp only [Option.map_some, Option.getD_some, Json.elements] at h
  obtain ⟨worse, hworse, rfl⟩ := map_eq_ok.mp h
  have hfalls : it.Falls rt old ↔ worse = true := by
    rw [existsPair_eq_ok hworse]
    constructor
    · rintro ⟨rolls', hrolls', hsome⟩
      cases hrolls.symm.trans hrolls'
      exact hsome
    · exact fun hsome => ⟨rolls, hrolls, hsome⟩
  rw [hfalls]
  simp

theorem rank_eq_ok (hsame : fitted.sameUpgrade = true) (hold : fitted.rolls = some (.arr old))
    {r : Ranked} (h : rank rt fitted it = .ok r) : r.copy = it ∧
      (r.fits = true ↔ it.Beats rt old) ∧ (r.fits = true → (r.good = true ↔ ¬it.Falls rt old)) := by
  simp only [rank, bind_eq_ok] at h
  obtain ⟨fits, hfits, h⟩ := h
  have hbeats := improves_eq_ok hsame hold hfits
  split at h
  · rename_i hyes
    obtain ⟨good, hgood, rfl⟩ := map_eq_ok.mp h
    obtain ⟨rolls, hrolls, _⟩ := hbeats.mp hyes
    exact ⟨rfl, hbeats, fun _ => notWorse_eq_ok hsame hold hrolls hgood⟩
  · rename_i hno
    cases h
    exact ⟨rfl, hbeats, fun hyes => absurd hyes hno⟩

theorem selectCopy_none (hsame : fitted.sameUpgrade = true) (hold : fitted.rolls = some (.arr old))
    (h : selectCopy rt true fitted copies = .ok none) : ∀ it ∈ copies, ¬it.Beats rt old := by
  simp only [selectCopy, if_neg (show ¬true = false from nofun), bind_eq_ok] at h
  obtain ⟨ranked, hranked, h⟩ := h
  have hnone := pick_eq_none.mp (Option.map_eq_none_iff.mp (Except.ok.inj h))
  intro it hit hbeats
  obtain ⟨r, hr, hrank⟩ := (mapM_eq_ok hranked).2 it hit
  obtain ⟨_, hfits, _⟩ := rank_eq_ok hsame hold hrank
  have hmem : r ∈ ranked.filter (·.fits) := List.mem_filter.mpr ⟨hr, hfits.mpr hbeats⟩
  rw [hnone] at hmem
  cases hmem

/-- The copy that is taken beats the fitted rolls, and falls below them nowhere unless all that beat
them do. -/
theorem selectCopy_some (hsame : fitted.sameUpgrade = true) (hold : fitted.rolls = some (.arr old))
    (h : selectCopy rt true fitted copies = .ok (some it)) :
    it.Beats rt old ∧
      (it.Falls rt old → ∀ other ∈ copies, other.Beats rt old → other.Falls rt old) := by
  simp only [selectCopy, if_neg (show ¬true = false from nofun), bind_eq_ok] at h
  obtain ⟨ranked, hranked, h⟩ := h
  obtain ⟨r, hpick, rfl⟩ := Option.map_eq_some_iff.mp (Except.ok.inj h)
  obtain ⟨hr, hfits⟩ := List.mem_filter.mp (pick_mem hpick)
  obtain ⟨c, _, hrank⟩ := (mapM_eq_ok hranked).1 r hr
  obtain ⟨rfl, hbeats, hgood⟩ := rank_eq_ok hsame hold hrank
  refine ⟨hbeats.mp hfits, fun hfalls other hother hbeats' => ?_⟩
  obtain ⟨q, hq, hrank'⟩ := (mapM_eq_ok hranked).2 other hother
  obtain ⟨_, hfits', hgood'⟩ := rank_eq_ok hsame hold hrank'
  have hq' : q ∈ ranked.filter (·.fits) := List.mem_filter.mpr ⟨hq, hfits'.mpr hbeats'⟩
  have hbad : r.good = false := Bool.eq_false_iff.mpr fun hg => (hgood hfits).mp hg hfalls
  have hnot : Ranked.before q r = false := by
    refine pick_first (fun a => ?_) (fun a b c hab hbc => ?_) hpick q hq'
    · simp [Ranked.before]
    · revert hab hbc
      simp only [Ranked.before]
      cases a.good <;> cases b.good <;> cases c.good <;> simp <;> omega
  by_contra hnofall
  rw [Ranked.before, (hgood' (hfits'.mpr hbeats')).mpr hnofall, hbad] at hnot
  cases hnot

end Choice

/-! ## The consume loop -/

def SameUpgrade (rt : Runtime) (before : Fields) (s : ConsumeSpec) : Prop :=
  slotName before s.slot = some (.str s.template) ∧
    gradeInt rt (slotGrade before s.slot) = .ok (some s.grade)

variable {db : Db} {pawn : Nat} {before : Fields} {s : ConsumeSpec}

theorem fittedSlot_eq_ok {fitted : Fitted} (h : fittedSlot rt before s = .ok fitted) :
    (fitted.sameUpgrade = true ↔ SameUpgrade rt before s) ∧
      (SameUpgrade rt before s →
        ∃ old, slotRolls before s.slot = some (.arr old) ∧ fitted.rolls = some (.arr old)) := by
  simp only [fittedSlot, bind_eq_ok, require_eq_ok] at h
  obtain ⟨grade, hgrade, _, hrolls, h⟩ := h
  cases h
  refine ⟨?_, fun hsame => ?_⟩
  · simp only [decide_eq_true_eq, SameUpgrade, hgrade, Except.ok.injEq]
    refine and_congr ?_ Iff.rfl
    cases slotName before s.slot with
    | none => simp
    | some j => cases j <;> simp [Option.filter, Json.str?]
  · rcases hrolls with hnone | harray
    · rw [hsame.1] at hnone
      cases hnone
    · obtain ⟨old, hold⟩ := isArray_iff.mp harray
      exact ⟨old, hold, hold⟩

structure Turn where
  spec : ConsumeSpec
  copy : Item
  rolls : List Json
  indices : List Json

structure Turn.Right (rt : Runtime) (db : Db) (pawn : Nat) (before : Fields) (τ : Turn) : Prop where
  copied : Copied db pawn τ.spec τ.copy
  rolls : τ.copy.inner "StatRolls" = some (.arr τ.rolls)
  upgrade : SameUpgrade rt before τ.spec → ∃ old, slotRolls before τ.spec.slot = some (.arr old) ∧
    τ.copy.Beats rt old ∧ (τ.copy.Falls rt old →
      ∀ other, Copied db pawn τ.spec other → other.Beats rt old → other.Falls rt old)

structure Turned (rt : Runtime) (db : Db) (pawn : Nat) (before : Fields) (turns : List Turn)
    (st : Loop) : Prop where
  consumed : st.consumed = turns.map fun τ => (τ.spec.slot, τ.copy)
  spliced : st.spliced = turns.map fun τ => (τ.spec.slot, τ.rolls, τ.indices)
  right : ∀ τ ∈ turns, τ.Right rt db pawn before
  items : ∀ it, it ∈ st.items ↔ it ∈ db.items ∧ ∀ τ ∈ turns, τ.copy.id ≠ it.id
  apart : (turns.map (·.copy.id)).Nodup

namespace Turned

variable {turns : List Turn} {st st' : Loop}

theorem mem_candidates (h : Turned rt db pawn before turns st)
    (hnew : s.template ∉ turns.map (·.spec.template)) {it : Item} :
    it ∈ candidates db st.items pawn s ↔ Copied db pawn s it := by
  simp only [candidates, List.mem_filter, decide_eq_true_eq]
  constructor
  · rintro ⟨hmem, hcarried, htemplate, hgrade, hstandalone⟩
    exact ⟨((h.items it).mp hmem).1, hcarried, htemplate, hgrade, hstandalone⟩
  · rintro ⟨hmem, hcarried, htemplate, hgrade, hstandalone⟩
    refine ⟨(h.items it).mpr ⟨hmem, fun τ hτ hid => hnew ?_⟩, hcarried, htemplate, hgrade,
      hstandalone⟩
    have hcopied := (h.right τ hτ).copied
    have hsame : τ.copy = it := Table.eq_of_key_eq hcopied.mem hmem hid
    refine List.mem_map.mpr ⟨τ, hτ, ?_⟩
    rw [← hcopied.template, hsame, htemplate]

theorem step (h : Turned rt db pawn before turns st)
    (hnew : s.template ∉ turns.map (·.spec.template))
    (hstep : consumeOne rt db pawn before true st s = .ok st') :
    ∃ τ : Turn, τ.spec = s ∧ Turned rt db pawn before (turns ++ [τ]) st' := by
  simp only [consumeOne, bind_eq_ok] at hstep
  obtain ⟨fitted, hfitted, found, hfound, hstep⟩ := hstep
  cases found with
  | none => cases hstep
  | some it =>
    simp only [accumulate, if_true, bind_eq_ok, map_eq_ok] at hstep
    obtain ⟨_, ⟨⟨rolls, indices⟩, hown, rfl⟩, hstep⟩ := hstep
    cases hstep
    have hmem := mem_of_selectCopy hfound
    have hrolls : it.inner "StatRolls" = some (.arr rolls) := by
      unfold transplantOf at hown
      split at hown
      · rename_i hrolls hindices
        cases hown
        exact hrolls
      · cases hown
    obtain ⟨hsame, hold⟩ := fittedSlot_eq_ok hfitted
    refine ⟨⟨s, it, rolls, indices⟩, rfl, ⟨by rw [h.consumed, List.map_append]; rfl,
      by rw [h.spliced, List.map_append]; rfl, fun τ hτ => ?_, fun it' => ?_, ?_⟩⟩
    · rcases List.mem_append.mp hτ with hτ | hτ
      · exact h.right τ hτ
      · rw [List.mem_singleton.mp hτ]
        refine ⟨(h.mem_candidates hnew).mp hmem, hrolls, fun hupgrade => ?_⟩
        obtain ⟨old, hslot, hfit⟩ := hold hupgrade
        obtain ⟨hbeats, hbest⟩ := selectCopy_some (hsame.mpr hupgrade) hfit hfound
        refine ⟨old, hslot, hbeats, fun hfalls other hother => ?_⟩
        exact hbest hfalls other ((h.mem_candidates hnew).mpr hother)
    · rw [Table.mem_filter, h.items, List.forall_mem_append, List.forall_mem_singleton,
        decide_eq_true_eq, and_assoc, ne_comm]
    · rw [List.map_append, List.nodup_append]
      refine ⟨h.apart, List.nodup_singleton _, fun i hi j hj => ?_⟩
      obtain ⟨τ, hτ, rfl⟩ := List.mem_map.mp hi
      rw [List.map_singleton, List.mem_singleton] at hj
      rw [hj]
      simp only [candidates, List.mem_filter] at hmem
      exact ((h.items it).mp hmem.1).2 τ hτ

theorem of_loop {specs : List ConsumeSpec} (hnodup : (specs.map (·.template)).Nodup)
    (h : specs.foldlM (consumeOne rt db pawn before true) ⟨db.items, [], []⟩ = .ok st) :
    ∃ turns : List Turn, turns.map (·.spec) = specs ∧ Turned rt db pawn before turns st := by
  have hstart : Turned rt db pawn before [] ⟨db.items, [], []⟩ :=
    ⟨rfl, rfl, nofun, fun it => ⟨fun hit => ⟨hit, nofun⟩, fun hit => hit.1⟩, List.nodup_nil⟩
  have hloop : ∃ turns : List Turn, specs = turns.map (·.spec) ++ [] ∧
      Turned rt db pawn before turns st := by
    refine foldlM_rule (I := fun rest st => ∃ turns : List Turn,
      specs = turns.map (·.spec) ++ rest ∧ Turned rt db pawn before turns st)
      (fun s rest st st' hI hs => ?_) ⟨[], rfl, hstart⟩ h
    obtain ⟨turns, hspecs, hturned⟩ := hI
    have hnew : s.template ∉ turns.map (·.spec.template) := by
      rw [hspecs, List.map_append, List.map_map, List.map_cons] at hnodup
      exact fun hmem => (List.nodup_append.mp hnodup).2.2 _ hmem _ List.mem_cons_self rfl
    obtain ⟨τ, rfl, hturned'⟩ := hturned.step hnew hs
    refine ⟨turns ++ [τ], ?_, hturned'⟩
    rw [hspecs, List.map_append, List.append_assoc]
    rfl
  obtain ⟨turns, hspecs, hturned⟩ := hloop
  exact ⟨turns, by rw [hspecs, List.append_nil], hturned⟩

end Turned

/-! ## The refusals -/

abbrev Token.SpeaksOfCopies (e : Token) : Prop := e = .augmentNotOwned ∨ e = .noImprovement

structure Reported (rt : Runtime) (db : Db) (pawn : Nat) (before : Fields)
    (specs : List ConsumeSpec) (e : Token) : Prop where
  notOwned : e = .augmentNotOwned → ∃ s ∈ specs, ∀ it, ¬Copied db pawn s it
  noImprovement : e = .noImprovement → ∃ s ∈ specs, SameUpgrade rt before s ∧
    ∃ old, slotRolls before s.slot = some (.arr old) ∧ ∀ it, Copied db pawn s it → ¬it.Beats rt old

variable {p : Token → Prop}

theorem raises_existsPair (hp : p .writeFailed)
    (hit : Numeric → Numeric → Bool) (pairs : List (Json × Json)) :
    Raises p (existsPair rt hit pairs) := by
  have hvalue : ∀ j, Raises p (rollValue rt j) := by
    intro j
    unfold rollValue
    split
    · exact .ok
    · exact .ok
    · exact .ok
    · exact .map (.orRaise hp)
    · exact .error hp
    · exact .error hp
    · exact .error hp
  induction pairs with
  | nil => exact .ok
  | cons q pairs ih =>
    refine .bind (hvalue q.1) fun c => .bind (hvalue q.2) fun f => ?_
    split
    · split
      · exact .ok
      · exact ih
    · exact ih

theorem raises_selectCopy (hp : p .writeFailed) (transplant : Bool)
    (fitted : Fitted) (copies : List Item) : Raises p (selectCopy rt transplant fitted copies) := by
  have hrank : ∀ it, Raises p (rank rt fitted it) := by
    intro it
    refine .bind ?_ fun fits => ?_
    · unfold improves
      split
      · exact .ok
      · exact .ok
      · split
        · exact .ok
        · dsimp only
          split
          · exact .ok
          · exact raises_existsPair hp _ _
      · exact .ok
    · split
      · refine .map ?_
        unfold notWorse
        split
        · exact .ok
        · exact .map (raises_existsPair hp _ _)
      · exact .ok
  unfold selectCopy
  split
  · exact .ok
  · exact .bind (.mapM fun it _ => hrank it) fun _ => .ok

theorem raises_fittedSlot (hp : p .writeFailed)
    (hp' : p .augmentArraysDesynced) : Raises p (fittedSlot rt before s) := by
  refine .bind ?_ fun _ => .bind (.require hp') fun _ => .ok
  unfold gradeInt
  split
  · exact .ok
  · exact .ok
  · split
    · exact .ok
    · exact .error hp
  · exact .map (.orRaise hp)
  · exact .error hp

theorem raises_newStats {t : Tx} {spliced : List (Nat × List Json × List Json)} :
    Raises (¬·.SpeaksOfCopies) (newStats t before spliced) := by
  refine .bind (.foldlM fun payloads q => ?_) fun payloads => .bind ?_ fun slots =>
    .bind (.require (by decide)) fun _ => .bind (.require (by decide)) fun _ => .ok
  · unfold spliceOne
    split
    · exact .error (by decide)
    · exact .bind (.require (by decide)) fun _ => .bind (.require (by decide)) fun _ => .ok
  · unfold arrayLength
    split
    · exact .ok
    · exact .ok
    · exact .error (by decide)

namespace Reported

variable {specs : List ConsumeSpec} {e : Token}

theorem of_silent (h : ¬e.SpeaksOfCopies) : Reported rt db pawn before specs e :=
  ⟨fun he => absurd (Or.inl he) h, fun he => absurd (Or.inr he) h⟩

theorem of_turn {turns : List Turn} {st : Loop} (hturned : Turned rt db pawn before turns st)
    (hs : s ∈ specs) (hnew : s.template ∉ turns.map (·.spec.template))
    (h : consumeOne rt db pawn before true st s = .error e) :
    Reported rt db pawn before specs e := by
  unfold consumeOne at h
  rcases bind_eq_error.mp h with hfitted | ⟨fitted, hfitted, h⟩
  · exact .of_silent
      (raises_fittedSlot (p := (¬·.SpeaksOfCopies)) (by decide) (by decide) _ hfitted)
  obtain ⟨hsame, hold⟩ := fittedSlot_eq_ok hfitted
  rcases bind_eq_error.mp h with hfound | ⟨found, hfound, h⟩
  · exact .of_silent (raises_selectCopy (p := (¬·.SpeaksOfCopies)) (by decide) _ _ _ _ hfound)
  cases found with
  | some it =>
    rcases bind_eq_error.mp h with hown | ⟨spliced, _, h⟩
    · have hsilent : Raises (¬·.SpeaksOfCopies) (accumulate true st s it) := by
        refine .map ?_
        unfold transplantOf
        split
        · exact .ok
        · exact .error (by decide)
      exact .of_silent (hsilent _ hown)
    · cases h
  | none =>
    obtain rfl : missingCopy true fitted (candidates db st.items pawn s) = e := Except.error.inj h
    unfold missingCopy
    dsimp only
    split
    · rename_i hempty
      refine ⟨fun _ => ⟨s, hs, fun it hit => ?_⟩, nofun⟩
      have hmem := (hturned.mem_candidates hnew).mpr hit
      rw [hempty] at hmem
      cases hmem
    · split
      · exact .of_silent (by decide)
      · split
        · rename_i hupgrade
          obtain ⟨old, hslot, hfit⟩ := hold (hsame.mp hupgrade)
          refine ⟨nofun, fun _ => ⟨s, hs, hsame.mp hupgrade, old, hslot, fun it hit => ?_⟩⟩
          exact selectCopy_none hupgrade hfit hfound it ((hturned.mem_candidates hnew).mpr hit)
        · exact .of_silent (by decide)

theorem of_loop (hnodup : (specs.map (·.template)).Nodup)
    (h : specs.foldlM (consumeOne rt db pawn before true) ⟨db.items, [], []⟩ = .error e) :
    Reported rt db pawn before specs e := by
  obtain ⟨done, s, rest, st, rfl, hdone, hs⟩ := foldlM_eq_error h
  rw [List.map_append, List.map_cons] at hnodup
  obtain ⟨hdone', _, hapart⟩ := List.nodup_append.mp hnodup
  obtain ⟨turns, hturns, hturned⟩ := Turned.of_loop hdone' hdone
  refine of_turn hturned (List.mem_append_right done List.mem_cons_self) (fun hmem => ?_) hs
  rw [← hturns, List.map_map] at hapart
  exact hapart _ hmem _ List.mem_cons_self rfl

end Reported

theorem spliceOne_eq_ok {payloads payloads' : List Payload} {q : Nat × List Json × List Json}
    (h : spliceOne payloads q = .ok payloads') : ∃ old, payloads[q.1]? = some old ∧
      q.2.1.length = old.statRolls.length ∧ q.2.1.all Json.isNumber = true ∧
      payloads' = payloads.set q.1 ⟨q.2.1, q.2.2⟩ := by
  unfold spliceOne at h
  split at h
  · cases h
  · rename_i old hold
    simp only [bind_eq_ok, require_eq_ok] at h
    obtain ⟨_, hlength, _, hnumbers, h⟩ := h
    cases h
    exact ⟨old, hold, hlength, hnumbers, rfl⟩

theorem spliced_slot {payloads payloads' : List Payload}
    {spliced : List (Nat × List Json × List Json)} (hnodup : (spliced.map (·.1)).Nodup)
    (h : spliced.foldlM spliceOne payloads = .ok payloads') :
    ∀ q ∈ spliced, ∃ old, payloads[q.1]? = some old ∧ q.2.1.length = old.statRolls.length ∧
      q.2.1.all Json.isNumber = true ∧ payloads'[q.1]? = some ⟨q.2.1, q.2.2⟩ := by
  induction spliced generalizing payloads with
  | nil => exact nofun
  | cons p spliced ih =>
    rw [List.map_cons, List.nodup_cons] at hnodup
    rw [List.foldlM_cons] at h
    obtain ⟨next, hnext, h⟩ := bind_eq_ok.mp h
    obtain ⟨old, hold, hlength, hnumbers, rfl⟩ := spliceOne_eq_ok hnext
    have hother : ∀ q ∈ spliced, q.1 ≠ p.1 := fun q hq hqp =>
      hnodup.1 (List.mem_map.mpr ⟨q, hq, hqp⟩)
    intro q hq
    rcases List.mem_cons.mp hq with rfl | hq
    · refine ⟨old, hold, hlength, hnumbers, ?_⟩
      rw [(spliced_payloads h).2 q.1 hother]
      exact List.getElem?_set_self (List.getElem?_eq_some_iff.mp hold).1
    · obtain ⟨old', hold', hrest⟩ := ih hnodup.2 h q hq
      rw [List.getElem?_set_ne (hother q hq).symm] at hold'
      exact ⟨old', hold', hrest⟩

/-- What `do_live` hands over, whatever the grades it has settled on: names that differ and fit the
item, and each slot to fill once. -/
structure Handed (cat : Catalogue) (t : Tx) : Prop where
  names : t.ids.Nodup
  fits : ∀ a ∈ t.ids, cat.fits t.templateId a = some true
  specs : ∃ slots : List Nat, slots.Nodup ∧ (∀ i ∈ slots, i < t.ids.length) ∧
    t.consumeSpecs = slots.map fun i => ⟨t.ids.getD i "", t.grades.getD i 0, i⟩

def Catalogue.OfGear (cat : Catalogue) : Prop := ∀ a, cat.fits a a ≠ some true

namespace Handed

variable {cat : Catalogue} {t : Tx}

theorem slots (h : Handed cat t) : (t.consumeSpecs.map (·.slot)).Nodup := by
  obtain ⟨slots, hnodup, _, hspecs⟩ := h.specs
  rw [hspecs, List.map_map]
  exact (List.map_id slots).symm ▸ hnodup

theorem getElem_ids (h : Handed cat t) (hs : s ∈ t.consumeSpecs) :
    t.ids[s.slot]? = some s.template := by
  obtain ⟨slots, _, hlt, hspecs⟩ := h.specs
  rw [hspecs] at hs
  obtain ⟨i, hi, rfl⟩ := List.mem_map.mp hs
  rw [List.getElem?_eq_getElem (hlt i hi), getD_eq (hlt i hi)]

theorem getElem_grades (h : Handed cat t) (hs : s ∈ t.consumeSpecs)
    (hlength : t.ids.length = t.grades.length) : t.grades[s.slot]? = some s.grade := by
  obtain ⟨slots, _, hlt, hspecs⟩ := h.specs
  rw [hspecs] at hs
  obtain ⟨i, hi, rfl⟩ := List.mem_map.mp hs
  have hlt' : i < t.grades.length := hlength ▸ hlt i hi
  rw [List.getElem?_eq_getElem hlt', getD_eq hlt']

theorem templates (h : Handed cat t) : (t.consumeSpecs.map (·.template)).Nodup := by
  refine List.Nodup.map_on (fun s hs s' hs' heq => ?_) (h.slots.of_map _)
  have hid := h.getElem_ids hs
  have hid' := h.getElem_ids hs'
  rw [heq] at hid
  have hslot : s.slot = s'.slot := by
    have hlt := (List.getElem?_eq_some_iff.mp hid).1
    exact (List.getElem?_inj hlt h.names).mp (hid.trans hid'.symm)
  exact List.inj_on_of_nodup_map h.slots hs hs' hslot

end Handed

/-! ## The transaction -/

structure Draft where
  pawn : Nat
  item : Item
  stats : Fields
  consumed : List (Nat × Item)
  items : Table Item (·.id)

theorem id_with_stats (stats : Fields) (r : Item) : ({ r with stats } : Item).id = r.id := rfl

def draft (rt : Runtime) (db : Db) (began : Nat) (t : Tx) : Except Token Draft := do
  let player ← orRaise (db.players.get? t.owner) .notOwner
  let pawn ← orRaise player.playerPawnId .notOwner
  require (player.onlineStatus = .offline ∧ player.inGrace began = false) .playerOnline
  let item ← orRaise (db.items.get? t.itemId) .notOwner
  require (db.carries pawn item = true) .notOwner
  require (item.templateId = t.templateId) .templateMismatch
  let st ← t.consumeSpecs.foldlM (consumeOne rt db pawn item.stats t.transplant) ⟨db.items, [], []⟩
  let stats ← newStats t item.stats st.spliced
  let items := st.items.update (fun r => r.id = t.itemId ∧ r.inventoryId = item.inventoryId)
    (fun r => { r with stats }) (id_with_stats stats)
  .ok { pawn, item, stats, consumed := st.consumed, items }

def transact (rt : Runtime) (db : Db) (began : Nat) (t : Tx) (keyed : Bool) :
    Except Token (Draft × Db) := do
  let d ← draft rt db began t
  if keyed = true then do
    let audit ← orRaise (db.audit.insert? (auditRow t began d.consumed) (fun _ => rfl)) .writeFailed
    .ok (d, { db with items := d.items, audit })
  else .ok (d, { db with items := d.items })

/-- `transact` with a key is the write of the runs. -/
theorem applyTx_eq (rt : Runtime) (db : Db) (began : Nat) (t : Tx) :
    applyTx rt db began t = (transact rt db began t true).map fun p =>
      { tx := t, pawn := p.1.pawn, before := db, after := p.2, oldStats := p.1.item.stats,
        newStats := p.1.stats, consumed := p.1.consumed } := by
  simp only [applyTx, transact, draft, if_true, map_bind, bind_assoc]
  rfl

def Db.settle (db : Db) : Except Token (Draft × Db) → Db
  | .ok (_, after) => after
  | .error _ => db

def Db.pawnOf (db : Db) (owner : Nat) : Option Nat := (db.players.get? owner).bind (·.playerPawnId)

/-- A slot that is spent for: a carried copy of its name and grade has put its own rolls there, and
the right one if the slot held that name and grade already. -/
structure Spends (rt : Runtime) (db : Db) (t : Tx) (d : Draft) (s : ConsumeSpec) (it : Item) :
    Prop where
  copied : Copied db d.pawn s it
  holds : slotName d.stats s.slot = some (.str s.template) ∧
    slotGrade d.stats s.slot = some (.int s.grade)
  rolls : ∃ rolls, it.inner "StatRolls" = some (.arr rolls) ∧
    slotRolls d.stats s.slot = some (.arr rolls) ∧ rolls.all Json.isNumber = true ∧
    ∃ shape, t.payloads[s.slot]? = some shape ∧ rolls.length = shape.statRolls.length
  upgrade : SameUpgrade rt d.item.stats s → ∃ old, slotRolls d.item.stats s.slot = some (.arr old) ∧
    it.Beats rt old ∧ (it.Falls rt old →
      ∀ other, Copied db d.pawn s other → other.Beats rt old → other.Falls rt old)

structure Transplanted (rt : Runtime) (db : Db) (t : Tx) (d : Draft) (after : Db) : Prop where
  owner : db.pawnOf t.owner = some d.pawn
  item : db.items.get? t.itemId = some d.item
  written : after.items.get? t.itemId = some { d.item with stats := d.stats }
  slots : d.consumed.map (·.1) = t.consumeSpecs.map (·.slot)
  slotsApart : (t.consumeSpecs.map (·.slot)).Nodup
  copiesApart : (d.consumed.map (·.2.id)).Nodup
  spends : ∀ s ∈ t.consumeSpecs, ∃ it, (s.slot, it) ∈ d.consumed ∧ Spends rt db t d s it
  deleted : ∀ p ∈ d.consumed, ∀ it ∈ after.items, it.id ≠ p.2.id
  others : ∀ it, it.id ≠ t.itemId →
    (it ∈ after.items ↔ it ∈ db.items ∧ ∀ p ∈ d.consumed, p.2.id ≠ it.id)

def Told (rt : Runtime) (db : Db) (t : Tx) (e : Token) : Prop :=
  e.SpeaksOfCopies → ∃ pawn item, db.pawnOf t.owner = some pawn ∧
    db.items.get? t.itemId = some item ∧ Reported rt db pawn item.stats t.consumeSpecs e

theorem told_of_draft {cat : Catalogue} {began : Nat} {t : Tx} (hhanded : Handed cat t)
    (htransplant : t.transplant = true) {e : Token} (h : draft rt db began t = .error e) :
    Told rt db t e := by
  intro hspeaks
  unfold draft at h
  have hsilent : ∀ {α : Type} {x : Except Token α}, Raises (¬·.SpeaksOfCopies) x → x ≠ .error e :=
    fun hx heq => hx e heq hspeaks
  obtain ⟨player, hplayer, h⟩ := (bind_eq_error.mp h).resolve_left (hsilent (.orRaise (by decide)))
  obtain ⟨pawn, hpawn, h⟩ := (bind_eq_error.mp h).resolve_left (hsilent (.orRaise (by decide)))
  obtain ⟨_, _, h⟩ := (bind_eq_error.mp h).resolve_left (hsilent (.require (by decide)))
  obtain ⟨item, hitem, h⟩ := (bind_eq_error.mp h).resolve_left (hsilent (.orRaise (by decide)))
  obtain ⟨_, _, h⟩ := (bind_eq_error.mp h).resolve_left (hsilent (.require (by decide)))
  obtain ⟨_, _, h⟩ := (bind_eq_error.mp h).resolve_left (hsilent (.require (by decide)))
  rw [htransplant] at h
  refine ⟨pawn, item, ?_, orRaise_eq_ok.mp hitem, ?_⟩
  · rw [Db.pawnOf, orRaise_eq_ok.mp hplayer]
    exact orRaise_eq_ok.mp hpawn
  · rcases bind_eq_error.mp h with hloop | ⟨st, _, h⟩
    · exact .of_loop hhanded.templates hloop
    · rcases bind_eq_error.mp h with hstats | ⟨stats, _, h⟩
      · exact absurd hstats (hsilent raises_newStats)
      · cases h

theorem consumed_ne_item {cat : Catalogue} {t : Tx} (hcat : cat.OfGear)
    (hhanded : Handed cat t) {item it : Item} (hitem : db.items.get? t.itemId = some item)
    (htemplate : item.templateId = t.templateId) (hs : s ∈ t.consumeSpecs)
    (hit : Copied db pawn s it) : it.id ≠ t.itemId := by
  intro hid
  have hsame : it = item := Table.eq_of_key_eq hit.mem (Table.mem_of_get? hitem)
    (hid.trans (Table.key_of_get? hitem).symm)
  have hname : s.template = t.templateId := by rw [← hit.template, hsame, htemplate]
  have hfits := hhanded.fits _ (List.mem_of_getElem? (hhanded.getElem_ids hs))
  rw [hname] at hfits
  exact hcat _ hfits

theorem transplanted_of_draft {cat : Catalogue} (hcat : cat.OfGear)
    {began : Nat} {t : Tx} (hhanded : Handed cat t) (htransplant : t.transplant = true) {d : Draft}
    (h : draft rt db began t = .ok d) {after : Db} (hafter : after.items = d.items) :
    Transplanted rt db t d after := by
  simp only [draft, bind_eq_ok, orRaise_eq_ok, require_eq_ok, htransplant] at h
  obtain ⟨player, hplayer, pawn, hpawn, _, _, item, hitem, _, _, _, htemplate, st, hst, stats,
    hstats, h⟩ := h
  cases h
  obtain ⟨turns, hturns, hturned⟩ := Turned.of_loop hhanded.templates hst
  simp only [newStats, bind_eq_ok, require_eq_ok] at hstats
  obtain ⟨payloads, hpayloads, _, _, _, _, _, ⟨hgrades, _⟩, hstats⟩ := hstats
  cases hstats
  have hslots : (st.spliced.map (·.1)) = t.consumeSpecs.map (·.slot) := by
    rw [hturned.spliced, ← hturns, List.map_map, List.map_map]
    rfl
  have hspliced := spliced_slot (hslots ▸ hhanded.slots) hpayloads
  have hother : ∀ τ ∈ turns, τ.copy.id ≠ t.itemId := fun τ hτ =>
    consumed_ne_item hcat hhanded hitem htemplate (hturns ▸ List.mem_map_of_mem hτ)
      (hturned.right τ hτ).copied
  have hconsumed : ∀ p ∈ st.consumed, ∃ τ ∈ turns, τ.copy = p.2 := by
    rw [hturned.consumed]
    intro p hp
    obtain ⟨τ, hτ, rfl⟩ := List.mem_map.mp hp
    exact ⟨τ, hτ, rfl⟩
  refine ⟨?_, hitem, ?_, ?_, hhanded.slots, ?_, fun s hs => ?_, fun p hp it hit => ?_,
    fun it hid => ?_⟩
  · rw [Db.pawnOf, hplayer]
    exact hpawn
  · have hmem : item ∈ st.items := (hturned.items item).mpr ⟨Table.mem_of_get? hitem, fun τ hτ =>
      (Table.key_of_get? hitem).symm ▸ hother τ hτ⟩
    rw [hafter, Table.get?_update, Table.get?_eq_some.mpr ⟨hmem, Table.key_of_get? hitem⟩]
    exact congrArg some (if_pos (decide_eq_true ⟨Table.key_of_get? hitem, rfl⟩))
  · rw [hturned.consumed, ← hturns, List.map_map, List.map_map]
    rfl
  · rw [hturned.consumed, List.map_map]
    exact hturned.apart
  · rw [← hturns] at hs
    obtain ⟨τ, hτ, rfl⟩ := List.mem_map.mp hs
    have hspec : τ.spec ∈ t.consumeSpecs := hturns ▸ List.mem_map_of_mem hτ
    have hmem : (τ.spec.slot, τ.rolls, τ.indices) ∈ st.spliced := by
      rw [hturned.spliced]
      exact List.mem_map.mpr ⟨τ, hτ, rfl⟩
    obtain ⟨shape, hshape, hlength, hnumbers, hpayload⟩ := hspliced _ hmem
    have hright := hturned.right τ hτ
    have hspent : (τ.spec.slot, τ.copy) ∈ st.consumed := by
      rw [hturned.consumed]
      exact List.mem_map.mpr ⟨τ, hτ, rfl⟩
    refine ⟨τ.copy, hspent, hright.copied, ⟨?_, ?_⟩,
      ⟨τ.rolls, hright.rolls, ?_, hnumbers, shape, hshape, hlength⟩, hright.upgrade⟩
    · rw [slotName_put, hhanded.getElem_ids hspec]
      rfl
    · rw [slotGrade_put, hhanded.getElem_grades hspec hgrades]
      rfl
    · rw [slotRolls_put, hpayload]
      rfl
  · rw [hafter, Table.mem_update] at hit
    obtain ⟨r, hr, rfl⟩ := hit
    obtain ⟨τ, hτ, hcopy⟩ := hconsumed p hp
    have hne := ((hturned.items r).mp hr).2 τ hτ
    rw [← hcopy]
    split <;> exact hne.symm
  · rw [hafter, Table.mem_update]
    have hall : (∀ τ ∈ turns, τ.copy.id ≠ it.id) ↔ ∀ p ∈ st.consumed, p.2.id ≠ it.id := by
      rw [hturned.consumed, List.forall_mem_map]
    rw [← hall, ← hturned.items it]
    constructor
    · rintro ⟨r, hr, hitr⟩
      by_cases hrid : r.id = t.itemId
      · refine absurd ?_ hid
        rw [hitr]
        split <;> exact hrid
      · rw [if_neg fun h => hrid (of_decide_eq_true h).1] at hitr
        exact hitr ▸ hr
    · exact fun hmem => ⟨it, hmem, (if_neg fun h => hid (of_decide_eq_true h).1).symm⟩

/-- A transplant either raises, and then nothing is changed and what it says of the copies is true,
or it spends for each slot the copy whose rolls it writes there. -/
theorem transplant_exact {cat : Catalogue} (hcat : cat.OfGear) {t : Tx}
    (hhanded : Handed cat t) (htransplant : t.transplant = true) (db : Db) (began : Nat)
    (keyed : Bool) :
    (∃ e, transact rt db began t keyed = .error e ∧
        db.settle (transact rt db began t keyed) = db ∧ Told rt db t e) ∨
      ∃ d after, transact rt db began t keyed = .ok (d, after) ∧
        db.settle (transact rt db began t keyed) = after ∧ Transplanted rt db t d after := by
  cases h : transact rt db began t keyed with
  | error e =>
    refine Or.inl ⟨e, rfl, rfl, ?_⟩
    rcases bind_eq_error.mp h with hdraft | ⟨d, _, h⟩
    · exact told_of_draft hhanded htransplant hdraft
    · have hsilent : Raises (¬·.SpeaksOfCopies) (Except.error e : Except Token (Draft × Db)) := by
        rw [← h]
        split
        · exact .bind (.orRaise (by decide)) fun _ => .ok
        · exact .ok
      exact fun hspeaks => absurd hspeaks (hsilent e rfl)
  | ok p =>
    obtain ⟨d, after⟩ := p
    refine Or.inr ⟨d, after, rfl, rfl, ?_⟩
    obtain ⟨d', hdraft, h⟩ := bind_eq_ok.mp h
    split at h
    · obtain ⟨audit, _, h⟩ := bind_eq_ok.mp h
      cases h
      exact transplanted_of_draft hcat hhanded htransplant hdraft rfl
    · cases h
      exact transplanted_of_draft hcat hhanded htransplant hdraft rfl

/-! ### One augment carried five times -/

def augmentOf (rolls : List Json) : Fields :=
  [("FAugmentItemStats", .arr [.arr [], .obj [("StatRolls", .arr rolls)]])]

theorem one_player : [1].Nodup := List.nodup_singleton 1

/-- A weapon with one augment, and copies of it: a lower one, one that is higher and lower, one that
is only higher, one without rolls, and one that is the same up to the last digit. -/
def bench : Db where
  players := ⟨[⟨1, some 10, .offline, none⟩], one_player⟩
  inventories := ⟨[⟨30, 10⟩], by decide⟩
  items := ⟨[
    ⟨200, 30, "Weapon", 0, [("FAugmentedItemStats", faugValue ["T6_Augment_A"] [5]
      [⟨[.dec (1 / 2), .dec (9 / 10)], []⟩])]⟩,
    ⟨201, 30, "T6_Augment_A", 5, augmentOf [.dec (1 / 4), .dec (1 / 4)]⟩,
    ⟨202, 30, "T6_Augment_A", 5, augmentOf [.dec (51 / 100), .dec (1 / 20)]⟩,
    ⟨203, 30, "T6_Augment_A", 5, augmentOf [.dec (99 / 100), .dec (9 / 10)]⟩,
    ⟨204, 30, "T6_Augment_A", 5, [("FAugmentItemStats", .null)]⟩,
    ⟨205, 30, "T6_Augment_A", 5, augmentOf [.dec (500001 / 1000000), .dec (9 / 10)]⟩], by decide⟩
  audit := .empty

def upgrade : Tx where
  owner := 1
  itemId := 200
  templateId := "Weapon"
  isWeapon := true
  ids := ["T6_Augment_A"]
  grades := [5]
  payloads := [⟨[.dec (1 / 3), .dec (1 / 3)], []⟩]
  consumeSpecs := [⟨"T6_Augment_A", 5, 0⟩]
  transplant := true
  rerollOnly := some ["T6_Augment_A"]
  idempotencyKey := 7

def weaponOnly : Catalogue where
  templateKind := fun _ => .weapon
  augmentKind := fun _ => .weapon
  fits := fun tmpl a => some (decide (tmpl = "Weapon" ∧ a ≠ "Weapon"))
  hasTags := fun tmpl => decide (tmpl = "Weapon")
  rollCount := fun _ => 2
  weaponSubkind := fun _ => (true, false)

theorem weaponOnly_ofGear : weaponOnly.OfGear := by
  intro a
  simp [weaponOnly]

theorem upgrade_handed : Handed weaponOnly upgrade where
  names := List.nodup_singleton _
  fits := by decide
  specs := ⟨[0], List.nodup_singleton 0, by decide, rfl⟩

theorem transplant_exact_upgrade : ∃ d after,
    transact plainRuntime bench 0 upgrade true = .ok (d, after) ∧
      d.consumed.map (·.2.id) = [203] ∧ Transplanted plainRuntime bench upgrade d after := by
  have hspent : (transact plainRuntime bench 0 upgrade true).toOption.map
      (·.1.consumed.map (·.2.id)) = some [203] := by decide +kernel
  rcases @transplant_exact plainRuntime weaponOnly weaponOnly_ofGear upgrade upgrade_handed rfl
    bench 0 true with
    ⟨e, h, _⟩ | ⟨d, after, h, _, hdone⟩
  · rw [h] at hspent
    cases hspent
  · rw [h] at hspent
    exact ⟨d, after, h, Option.some.inj hspent, hdone⟩

end LastSietch.Augments
