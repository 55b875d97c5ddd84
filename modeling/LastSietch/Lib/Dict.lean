import LastSietch.Lib.Last
import Mathlib.Data.List.Nodup

/-!
# Dictionaries

A dictionary as the list of its entries, in the order in which their keys first came. An assignment
to a key that is there leaves the key where it is.

* `lookup_assign`: what one assignment changes.
* `lookup_assignAll`: after a list of them a key has the value of the last one to it.
* `mem_of_mem_assignAll`, `exists_mem_assignAll`: which entries there are then.
* `nodup_assign`: no key comes twice.
-/

namespace LastSietch.Dict

open Last

variable {κ ν : Type} [DecidableEq κ]

/-- `d[k] = v`. -/
def assign (d : List (κ × ν)) (k : κ) (v : ν) : List (κ × ν) :=
  match d with
  | [] => [(k, v)]
  | e :: rest => if e.1 = k then (k, v) :: rest else e :: assign rest k v

def assignAll (l : List (κ × ν)) : List (κ × ν) := l.foldl (fun d e => assign d e.1 e.2) []

theorem lookup_assign [BEq κ] [LawfulBEq κ] (d : List (κ × ν)) (k : κ) (v : ν) (k' : κ) :
    (assign d k v).lookup k' = if k' = k then some v else d.lookup k' := by
  induction d with
  | nil => by_cases h : k' = k <;> simp [assign, h]
  | cons e rest ih =>
    obtain ⟨key, w⟩ := e
    rw [assign]
    by_cases hkey : key = k
    · rw [if_pos hkey]
      by_cases h : k' = k
      · simp [h]
      · have hne : (k' == k) = false := beq_false_of_ne h
        have hne' : (k' == key) = false := by rw [hkey]; exact hne
        simp [List.lookup_cons, hne, hne', h]
    · rw [if_neg hkey]
      by_cases h : k' = key
      · subst h
        simp [hkey]
      · have hne : (k' == key) = false := beq_false_of_ne h
        simp only [List.lookup_cons, hne]
        exact ih

theorem lookup_assignAll [BEq κ] [LawfulBEq κ] (l : List (κ × ν)) (k : κ) :
    (assignAll l).lookup k = (last (fun e => e.1 = k) l).map (·.2) := by
  unfold assignAll
  induction l using List.reverseRecOn with
  | nil => rfl
  | append_singleton l e ih =>
    rw [List.foldl_append, List.foldl_cons, List.foldl_nil, lookup_assign, ih]
    unfold last
    rw [List.reverse_append, List.reverse_singleton, List.singleton_append, List.find?_cons]
    by_cases h : e.1 = k
    · simp [h]
    · have hne : ¬k = e.1 := fun heq => h heq.symm
      simp [h, hne]

theorem mem_assign {d : List (κ × ν)} {k : κ} {v : ν} {e : κ × ν} (he : e ∈ assign d k v) :
    e = (k, v) ∨ e ∈ d := by
  induction d with
  | nil => exact Or.inl (List.mem_singleton.mp he)
  | cons f rest ih =>
    rw [assign] at he
    split at he
    · exact (List.mem_cons.mp he).imp_right (List.mem_cons_of_mem f)
    · rcases List.mem_cons.mp he with rfl | he
      · exact Or.inr List.mem_cons_self
      · exact (ih he).imp_right (List.mem_cons_of_mem f)

theorem mem_of_mem_assignAll {l : List (κ × ν)} {e : κ × ν} (he : e ∈ assignAll l) : e ∈ l := by
  unfold assignAll at he
  induction l using List.reverseRecOn with
  | nil => exact he
  | append_singleton l f ih =>
    rw [List.foldl_append, List.foldl_cons, List.foldl_nil] at he
    rcases mem_assign he with rfl | he
    · exact List.mem_append_right l List.mem_cons_self
    · exact List.mem_append_left [f] (ih he)

theorem exists_mem_assignAll {l : List (κ × ν)} {e : κ × ν} (he : e ∈ l) :
    ∃ f ∈ assignAll l, f.1 = e.1 := by
  obtain ⟨f, hf⟩ := @last_isSome (κ × ν) (fun g => decide (g.1 = e.1)) l e he (decide_eq_true rfl)
  have hlookup : (assignAll l).lookup e.1 = some f.2 := by
    rw [lookup_assignAll, hf]
    rfl
  obtain ⟨before, after, hsplit, _⟩ := List.lookup_eq_some_iff.mp hlookup
  exact ⟨(e.1, f.2), by rw [hsplit]; simp, rfl⟩

/-! ## Keys -/

theorem keys_assign (d : List (κ × ν)) (k : κ) (v : ν) :
    (assign d k v).map (·.1) =
      if k ∈ d.map (·.1) then d.map (·.1) else d.map (·.1) ++ [k] := by
  induction d with
  | nil => rfl
  | cons e rest ih =>
    rw [assign]
    by_cases hkey : e.1 = k
    · simp [hkey]
    · have hne : ¬k = e.1 := fun heq => hkey heq.symm
      rw [if_neg hkey, List.map_cons, ih]
      by_cases hmem : k ∈ rest.map (·.1) <;> simp [hmem, hne]

theorem nodup_assign {d : List (κ × ν)} (h : (d.map (·.1)).Nodup) (k : κ) (v : ν) :
    ((assign d k v).map (·.1)).Nodup := by
  rw [keys_assign]
  split
  · exact h
  · rename_i hnew
    refine h.append (List.nodup_singleton k) fun a ha hk => hnew ?_
    rw [← List.mem_singleton.mp hk]
    exact ha

theorem mem_assign_of_nodup {d : List (κ × ν)} (h : (d.map (·.1)).Nodup) {k : κ} {v : ν} {e : κ × ν}
    (he : e ∈ assign d k v) : e = (k, v) ∨ e ∈ d ∧ e.1 ≠ k := by
  induction d with
  | nil => exact Or.inl (List.mem_singleton.mp he)
  | cons f rest ih =>
    rw [List.map_cons, List.nodup_cons] at h
    rw [assign] at he
    split at he
    · rename_i hkey
      refine (List.mem_cons.mp he).imp_right fun he => ⟨List.mem_cons_of_mem f he, fun heq => ?_⟩
      exact h.1 (hkey ▸ heq ▸ List.mem_map.mpr ⟨e, he, rfl⟩)
    · rename_i hkey
      rcases List.mem_cons.mp he with rfl | he
      · exact Or.inr ⟨List.mem_cons_self, hkey⟩
      · exact (ih h.2 he).imp_right fun he => ⟨List.mem_cons_of_mem f he.1, he.2⟩

theorem mem_of_lookup {κ ν : Type} [BEq κ] [LawfulBEq κ] {d : List (κ × ν)} {k : κ} {v : ν}
    (h : d.lookup k = some v) : (k, v) ∈ d := by
  obtain ⟨before, after, rfl, _⟩ := List.lookup_eq_some_iff.mp h
  simp

theorem assign_of_not_mem {d : List (κ × ν)} {k : κ} (h : k ∉ d.map (·.1)) (v : ν) :
    assign d k v = d ++ [(k, v)] := by
  induction d with
  | nil => rfl
  | cons e rest ih =>
    rw [List.map_cons, List.mem_cons, not_or] at h
    rw [assign, if_neg (Ne.symm h.1), ih h.2, List.cons_append]

theorem assignAll_of_nodup {l : List (κ × ν)} (h : (l.map (·.1)).Nodup) : assignAll l = l := by
  unfold assignAll
  induction l using List.reverseRecOn with
  | nil => rfl
  | append_singleton l e ih =>
    rw [List.map_append, List.nodup_append] at h
    have hnew : e.1 ∉ l.map (·.1) := fun hmem => h.2.2 e.1 hmem e.1 List.mem_cons_self rfl
    rw [List.foldl_append, ih h.1]
    exact assign_of_not_mem hnew e.2

theorem lookup_map_key {κ ν : Type} [BEq κ] [LawfulBEq κ] {l : List κ} {k : κ} (hk : k ∈ l)
    (f : κ → ν) : (l.map fun k => (k, f k)).lookup k = some (f k) := by
  induction l with
  | nil => cases hk
  | cons k' l ih =>
    rw [List.map_cons, List.lookup_cons]
    by_cases h : k = k'
    · simp [h]
    · have hne : (k == k') = false := beq_false_of_ne h
      rw [hne]
      exact ih ((List.mem_cons.mp hk).resolve_left h)

end LastSietch.Dict
