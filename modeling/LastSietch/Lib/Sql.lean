import Mathlib.Data.List.Basic

/-!
# Statements that raise, and `ORDER BY ... LIMIT 1`

A transaction is a value of `Except ε (α × σ)`: `error` is a raised exception, which
rolls everything back, and `ok` is the state that is committed. `require` and `orRaise`
are the two ways a statement raises, and `bind_eq_ok`, `require_eq_ok` and
`orRaise_eq_ok` turn a committed transaction into the facts its checks established;
`foldlM_rule` does it for a loop. `Raises p` is what all raised exceptions satisfy, statement by
statement.

`pick above rows` is `SELECT ... ORDER BY ... LIMIT 1`: the first row that no row of
`rows` ranks above, for a ranking `above` (`pick_first`).
-/

namespace LastSietch

section Raise

variable {ε α β : Type}

def require (p : Prop) [Decidable p] (e : ε) : Except ε Unit := if p then .ok () else .error e

def orRaise (o : Option α) (e : ε) : Except ε α :=
  match o with
  | some a => .ok a
  | none => .error e

variable {x : Except ε α} {f : α → Except ε β}

theorem bind_eq_ok {b : β} :
    (x >>= f) = .ok b ↔ ∃ a, x = .ok a ∧ f a = .ok b := by
  cases x with
  | error e => simp [bind, Except.bind]
  | ok a => simp [bind, Except.bind]

theorem bind_eq_error {e : ε} :
    (x >>= f) = .error e ↔ x = .error e ∨ ∃ a, x = .ok a ∧ f a = .error e := by
  cases x with
  | error e' => simp [bind, Except.bind]
  | ok a => simp [bind, Except.bind]

theorem pure_eq_ok {a b : α} : (pure a : Except ε α) = .ok b ↔ a = b := by
  simp [pure, Except.pure]

theorem map_eq_ok {f : α → β} {b : β} :
    x.map f = .ok b ↔ ∃ a, x = .ok a ∧ f a = b := by
  cases x with
  | error e => simp [Except.map]
  | ok a => simp [Except.map]

theorem map_bind {γ : Type} (x : Except ε α) (f : α → Except ε β) (g : β → γ) :
    (x >>= f).map g = x >>= fun a => (f a).map g := by
  cases x <;> rfl

theorem require_eq_ok {p : Prop} [Decidable p] {e : ε} {u : Unit} :
    require p e = .ok u ↔ p := by
  unfold require
  split <;> simp_all

theorem orRaise_eq_ok {o : Option α} {e : ε} {a : α} : orRaise o e = .ok a ↔ o = some a := by
  cases o <;> simp [orRaise]

theorem toOption_eq_some {a : α} : x.toOption = some a ↔ x = .ok a := by
  cases x with
  | error e => simp [Except.toOption]
  | ok b => simp [Except.toOption]

theorem eq_ok_get (h : x.toOption.isSome = true) : x = .ok (x.toOption.get h) := by
  cases x with
  | error e => cases h
  | ok a => rfl

/-- The loop rule: `I rest a` is what holds of the state `a` when the loop still has `rest` to
go through. -/
theorem foldlM_rule {γ : Type} {f : α → γ → Except ε α} {I : List γ → α → Prop}
    (hstep : ∀ c rest a a', I (c :: rest) a → f a c = .ok a' → I rest a') {cs : List γ} {a a' : α}
    (ha : I cs a) (h : cs.foldlM f a = .ok a') : I [] a' := by
  induction cs generalizing a with
  | nil =>
    cases pure_eq_ok.mp h
    exact ha
  | cons c cs ih =>
    rw [List.foldlM_cons] at h
    obtain ⟨m, hm, hrest⟩ := bind_eq_ok.mp h
    exact ih (hstep c cs a m ha hm) hrest

theorem forM_eq_ok {γ : Type} {f : γ → Except ε Unit} {cs : List γ} {u : Unit}
    (h : cs.forM f = .ok u) : ∀ c ∈ cs, f c = .ok () := by
  induction cs with
  | nil => simp
  | cons c cs ih =>
    obtain ⟨v, hv, hrest⟩ := bind_eq_ok.mp
      (show (f c >>= fun _ => cs.forM f) = .ok u from h)
    intro d hd
    rcases List.mem_cons.mp hd with rfl | hd
    · exact hv
    · exact ih hrest d hd

theorem mapM_eq_ok {l : List α} {rs : List β} (h : l.mapM f = .ok rs) :
    (∀ r ∈ rs, ∃ a ∈ l, f a = .ok r) ∧ ∀ a ∈ l, ∃ r ∈ rs, f a = .ok r := by
  induction l generalizing rs with
  | nil =>
    cases h
    exact ⟨nofun, nofun⟩
  | cons a l ih =>
    rw [List.mapM_cons] at h
    obtain ⟨r, hr, h⟩ := bind_eq_ok.mp h
    obtain ⟨rest, hrest, h⟩ := bind_eq_ok.mp h
    cases h
    obtain ⟨hfrom, hto⟩ := ih hrest
    simp only [List.forall_mem_cons]
    refine ⟨⟨⟨a, List.mem_cons_self, hr⟩, fun q hq => ?_⟩,
      ⟨r, List.mem_cons_self, hr⟩, fun b hb => ?_⟩
    · obtain ⟨b, hb, hq⟩ := hfrom q hq
      exact ⟨b, List.mem_cons_of_mem a hb, hq⟩
    · obtain ⟨q, hq, hb⟩ := hto b hb
      exact ⟨q, List.mem_cons_of_mem r hq, hb⟩

/-- A loop that raises does so at one of its turns. -/
theorem foldlM_eq_error {f : α → β → Except ε α} {cs : List β} {a : α} {e : ε}
    (h : cs.foldlM f a = .error e) : ∃ done c rest m, cs = done ++ c :: rest ∧
      done.foldlM f a = .ok m ∧ f m c = .error e := by
  induction cs generalizing a with
  | nil => cases h
  | cons c cs ih =>
    rw [List.foldlM_cons] at h
    cases hc : f a c with
    | error e' =>
      rw [hc] at h
      cases h
      exact ⟨[], c, cs, a, rfl, rfl, hc⟩
    | ok m =>
      rw [hc] at h
      obtain ⟨done, c', rest, m', rfl, hdone, hc'⟩ := ih h
      refine ⟨c :: done, c', rest, m', rfl, ?_, hc'⟩
      rw [List.foldlM_cons, hc]
      exact hdone

/-- Whatever `x` raises satisfies `p`. -/
def Raises (p : ε → Prop) (x : Except ε α) : Prop := ∀ e, x = .error e → p e

namespace Raises

variable {p : ε → Prop}

theorem ok {a : α} : Raises p (.ok a : Except ε α) := fun _ h => by cases h

theorem bind {x : Except ε α} {f : α → Except ε β} (hx : Raises p x) (hf : ∀ a, Raises p (f a)) :
    Raises p (x >>= f) := by
  intro e h
  cases x with
  | error e' =>
    cases h
    exact hx _ rfl
  | ok a => exact hf a e h

theorem require {q : Prop} [Decidable q] {e : ε} (he : p e) : Raises p (LastSietch.require q e) := by
  intro e' h
  unfold LastSietch.require at h
  split at h
  · cases h
  · cases h
    exact he

theorem orRaise {o : Option α} {e : ε} (he : p e) : Raises p (LastSietch.orRaise o e) := by
  intro e' h
  cases o with
  | none =>
    cases h
    exact he
  | some a => cases h

theorem forM {γ : Type} {f : γ → Except ε PUnit} {cs : List γ} (hf : ∀ c, Raises p (f c)) :
    Raises p (cs.forM f) := by
  induction cs with
  | nil => exact ok
  | cons c cs ih => exact bind (hf c) (fun _ => ih)

theorem foldlM {γ : Type} {f : α → γ → Except ε α} {cs : List γ} {a : α}
    (hf : ∀ a c, Raises p (f a c)) : Raises p (cs.foldlM f a) := by
  induction cs generalizing a with
  | nil => exact ok
  | cons c cs ih =>
    rw [List.foldlM_cons]
    exact bind (hf a c) fun _ => ih

theorem error {e : ε} (he : p e) : Raises p (.error e : Except ε α) := by
  rintro e' h
  cases h
  exact he

theorem map {x : Except ε α} {f : α → β} (hx : Raises p x) : Raises p (x.map f) := by
  intro e h
  cases x with
  | error e' =>
    cases h
    exact hx _ rfl
  | ok a => cases h

theorem mapM {f : α → Except ε β} {l : List α} (hf : ∀ a ∈ l, Raises p (f a)) :
    Raises p (l.mapM f) := by
  induction l with
  | nil => exact ok
  | cons a l ih =>
    rw [List.mapM_cons]
    refine bind (hf a List.mem_cons_self) fun _ => bind (ih fun b hb => ?_) fun _ => ok
    exact hf b (List.mem_cons_of_mem a hb)

end Raises

end Raise

section Pick

variable {α : Type}

def pickStep (above : α → α → Bool) (best b : α) : α := if above b best then b else best

def pick (above : α → α → Bool) : List α → Option α
  | [] => none
  | a :: l => some (l.foldl (pickStep above) a)

theorem foldl_pickStep_mem (above : α → α → Bool) (l : List α) (a : α) :
    l.foldl (pickStep above) a ∈ a :: l := by
  induction l generalizing a with
  | nil => simp
  | cons b l ih =>
    rw [List.foldl_cons]
    have h := ih (pickStep above a b)
    have hstep : pickStep above a b = a ∨ pickStep above a b = b := by
      unfold pickStep
      split
      · exact Or.inr rfl
      · exact Or.inl rfl
    rcases List.mem_cons.mp h with h | h
    · rw [h]
      rcases hstep with e | e <;> rw [e] <;> simp
    · exact List.mem_cons_of_mem _ (List.mem_cons_of_mem _ h)

variable {above : α → α → Bool}

theorem pick_mem {l : List α} {a : α} (h : pick above l = some a) :
    a ∈ l := by
  cases l with
  | nil => cases h
  | cons b l =>
    cases h
    exact foldl_pickStep_mem above l b

theorem pick_eq_none {l : List α} : pick above l = none ↔ l = [] := by
  cases l <;> simp [pick]

/-- No row ranks above the one that is picked. -/
theorem pick_first (hirrefl : ∀ a, above a a = false)
    (htrans : ∀ a b c, above a b = true → above b c = true → above a c = true) {l : List α} {a : α}
    (h : pick above l = some a) : ∀ b ∈ l, above b a = false := by
  have hloop : ∀ (seen rest : List α) (best : α), (∀ b ∈ best :: seen, above b best = false) →
      ∀ b ∈ seen ++ rest, above b (rest.foldl (pickStep above) best) = false := by
    intro seen rest
    induction rest generalizing seen with
    | nil => exact fun best hbest b hb => hbest b (List.mem_cons_of_mem best (by simpa using hb))
    | cons c rest ih =>
      intro best hbest b hb
      have hseen : ∀ b ∈ c :: seen, above b (pickStep above best c) = false := by
        intro b hb
        unfold pickStep
        split
        · rename_i hc
          rcases List.mem_cons.mp hb with rfl | hb
          · exact hirrefl b
          · refine Bool.eq_false_iff.mpr fun hbc => ?_
            have hlow := hbest b (List.mem_cons_of_mem best hb)
            rw [htrans b c best hbc hc] at hlow
            cases hlow
        · rename_i hc
          rcases List.mem_cons.mp hb with rfl | hb
          · exact Bool.eq_false_iff.mpr hc
          · exact hbest b (List.mem_cons_of_mem best hb)
      refine ih (c :: seen) _ (fun b hb => ?_) b (List.perm_middle.mem_iff.mp hb)
      rcases List.mem_cons.mp hb with rfl | hb
      · exact hirrefl _
      · exact hseen b hb
  cases l with
  | nil => cases h
  | cons c l =>
    cases h
    refine fun b hb => hloop [c] l c (fun b hb => ?_) b hb
    have hbc : b = c := by simpa using hb
    rw [hbc]
    exact hirrefl c

end Pick

end LastSietch
