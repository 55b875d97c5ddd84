import LastSietch.Lib.Table

/-!
# Rows that stand at places

`place r` is where a row stands, if it stands anywhere. `Apart` says that no two rows of a table
stand at one place. `Places ok t t'` is one statement of a writer: it puts at most one row at a
place that is free and `ok`, and every other row of `t'` stands where it stood.

* `Places.stay`, `Places.of_update`, `Places.of_insert` and `Places.of_move`: statements that are
  such steps.
* `Places.apart`: a step keeps rows apart; `apart_of_steps` and `placed_of_steps` are the same,
  and what is known of the places, for any number of steps.
-/

namespace LastSietch.Slots

open Relation

variable {α π κ : Type} {id : α → Nat} {key : α → κ} {place : α → Option π}
  {ok : π → Prop} {t t' t'' : SerialTable α id key}

def Apart (place : α → Option π) (t : SerialTable α id key) : Prop :=
  ∀ r ∈ t, ∀ s ∈ t, ∀ p, place r = some p → place s = some p → r = s

/-- The row stands where its row in `t` stood. -/
def Stays (place : α → Option π) (t : SerialTable α id key) (r : α) : Prop :=
  ∃ r₀ ∈ t, id r₀ = id r ∧ place r₀ = place r

/-- One statement: the row `i` alone may get a new place. -/
structure PlacesRow (place : α → Option π) (ok : π → Prop) (i : Nat)
    (t t' : SerialTable α id key) : Prop where
  stays : ∀ r ∈ t', id r ≠ i → Stays place t r
  placed : ∀ r ∈ t', id r = i → Stays place t r ∨
    ∀ p, place r = some p → ok p ∧ ∀ s ∈ t, id s ≠ i → place s ≠ some p

def Places (place : α → Option π) (ok : π → Prop) (t t' : SerialTable α id key) : Prop :=
  ∃ i, PlacesRow place ok i t t'

namespace Places

theorem stay (h : ∀ r ∈ t', Stays place t r) : Places place ok t t' :=
  ⟨0, fun r hr _ => h r hr, fun r hr _ => Or.inl (h r hr)⟩

theorem of_update {p : α → Bool} {f : α → α} (hid : ∀ r, id (f r) = id r)
    {hf : ∀ r, key (f r) = key r} (hplace : ∀ r, place (f r) = place r) :
    Places place ok t (t.update p f hid hf) := by
  refine stay (fun r hr => ?_)
  obtain ⟨r₀, hr₀, rfl⟩ := SerialTable.mem_update.mp hr
  refine ⟨r₀, hr₀, ?_⟩
  split
  · exact ⟨(hid r₀).symm, (hplace r₀).symm⟩
  · exact ⟨rfl, rfl⟩

theorem of_insert {mk : Nat → α} {hid : ∀ n, id (mk n) = n} [DecidableEq κ]
    (h : t.insert? mk hid = some t')
    (hfree : ∀ p, place (mk t.next) = some p → ok p ∧ ∀ s ∈ t, place s ≠ some p) :
    Places place ok t t' := by
  refine ⟨t.next, fun r hr hne => ?_, fun r hr hi => Or.inr (fun p hp => ?_)⟩
  · rcases (SerialTable.mem_insert? h).mp hr with rfl | hr
    · exact absurd (hid t.next) hne
    · exact ⟨r, hr, rfl, rfl⟩
  · rcases (SerialTable.mem_insert? h).mp hr with rfl | hr
    · exact ⟨(hfree p hp).1, fun s hs _ => (hfree p hp).2 s hs⟩
    · exact absurd hi (SerialTable.id_lt_next hr).ne

theorem of_move {r r' : α} (hid : id r' = id r)
    (hmem : ∀ s, s ∈ t' ↔ s ∈ t ∧ id s ≠ id r ∨ s ∈ some r')
    (hfree : ∀ p, place r' = some p → ok p ∧ ∀ s ∈ t, id s ≠ id r → place s ≠ some p) :
    Places place ok t t' := by
  refine ⟨id r, fun s hs hne => ?_, fun s hs heq => Or.inr ?_⟩
  · rcases (hmem s).mp hs with ⟨hs, -⟩ | hs
    · exact ⟨s, hs, rfl, rfl⟩
    · cases hs
      exact absurd hid hne
  · rcases (hmem s).mp hs with ⟨-, hne⟩ | hs
    · exact absurd heq hne
    · cases hs
      exact hfree

theorem apart (h : Places place ok t t') (ht : Apart place t) : Apart place t' := by
  obtain ⟨i, hstep⟩ := h
  have hstays : ∀ r ∈ t', ∀ s ∈ t', ∀ p, place r = some p → place s = some p →
      Stays place t r → Stays place t s → r = s := by
    rintro r hr s hs p hrp hsp ⟨r₀, hr₀, hrid, hrplace⟩ ⟨s₀, hs₀, hsid, hsplace⟩
    have heq := ht r₀ hr₀ s₀ hs₀ p (hrplace.trans hrp) (hsplace.trans hsp)
    rw [heq] at hrid
    exact SerialTable.eq_of_id_eq hr hs (hrid.symm.trans hsid)
  -- the placed row meets no row that stays
  have hplaced : ∀ r ∈ t', ∀ s ∈ t', ∀ p, place r = some p → place s = some p → id r = i →
      id s ≠ i → r = s := by
    intro r hr s hs p hrp hsp hri hsi
    have hs' := hstep.stays s hs hsi
    rcases hstep.placed r hr hri with hr' | hr'
    · exact hstays r hr s hs p hrp hsp hr' hs'
    · obtain ⟨s₀, hs₀, hsid, hsplace⟩ := hs'
      exact absurd (hsplace.trans hsp) ((hr' p hrp).2 s₀ hs₀ (hsid.trans_ne hsi))
  intro r hr s hs p hrp hsp
  by_cases hri : id r = i
  · by_cases hsi : id s = i
    · exact SerialTable.eq_of_id_eq hr hs (hri.trans hsi.symm)
    · exact hplaced r hr s hs p hrp hsp hri hsi
  · by_cases hsi : id s = i
    · exact (hplaced s hs r hr p hsp hrp hsi hri).symm
    · exact hstays r hr s hs p hrp hsp (hstep.stays r hr hri) (hstep.stays s hs hsi)

end Places

theorem apart_of_steps (h : ReflTransGen (Places place ok) t t') (ht : Apart place t) :
    Apart place t' := by
  induction h with
  | refl => exact ht
  | tail _ hstep ih => exact hstep.apart ih

/-- A row that has left its place has been put at one that is `ok`. -/
theorem placed_of_steps (h : ReflTransGen (Places place ok) t t') {r : α} (hr : r ∈ t') :
    Stays place t r ∨ ∀ p, place r = some p → ok p := by
  induction h generalizing r with
  | refl => exact Or.inl ⟨r, hr, rfl, rfl⟩
  | @tail t₁ t₂ _ hstep ih =>
    obtain ⟨i, hstep⟩ := hstep
    have hstays : Stays place t₁ r → Stays place t r ∨ ∀ p, place r = some p → ok p := by
      rintro ⟨r₀, hr₀, hid, hplace⟩
      rcases ih hr₀ with ⟨r₁, hr₁, hid₁, hplace₁⟩ | hok
      · exact Or.inl ⟨r₁, hr₁, hid₁.trans hid, hplace₁.trans hplace⟩
      · exact Or.inr (fun p hp => hok p (hplace.trans hp))
    by_cases hi : id r = i
    · rcases hstep.placed r hr hi with hstay | hplaced
      · exact hstays hstay
      · exact Or.inr (fun p hp => (hplaced p hp).1)
    · exact hstays (hstep.stays r hr hi)

end LastSietch.Slots
