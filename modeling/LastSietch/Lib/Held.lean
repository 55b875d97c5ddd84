import Mathlib.Data.List.Basic

/-!
# Times that keep to a cap

`HeldTo n w l` says of a list of times that no window of the length `w`, both of its ends counted,
holds more than `n` of them. `heldTo_cons` is the check of a limiter: one more time, not before
those that are there, is within the cap exactly when fewer than `n` of them are at most `w` old.
-/

namespace LastSietch

def HeldTo (n : Nat) (w : Int) (l : List Int) : Prop :=
  ∀ t, l.countP (fun x => t ≤ x ∧ x ≤ t + w) ≤ n

namespace HeldTo

variable {n : Nat} {w x : Int} {l : List Int}

theorem nil : HeldTo n w [] := fun _ => Nat.zero_le n

theorem cons_iff (hw : 0 ≤ w) (hlast : ∀ y ∈ l, y ≤ x) :
    HeldTo n w (x :: l) ↔ HeldTo n w l ∧ l.countP (fun y => x - w ≤ y) < n := by
  have hcount : ∀ t, (x :: l).countP (fun y => t ≤ y ∧ y ≤ t + w) =
      l.countP (fun y => t ≤ y ∧ y ≤ t + w) + if t ≤ x ∧ x ≤ t + w then 1 else 0 := by
    intro t
    rw [List.countP_cons]
    simp only [decide_eq_true_eq]
  have hlate : l.countP (fun y => x - w ≤ y ∧ y ≤ x - w + w) = l.countP (fun y => x - w ≤ y) := by
    refine List.countP_congr (fun y hy => ?_)
    have := hlast y hy
    simp only [decide_eq_true_eq]
    omega
  constructor
  · intro h
    refine ⟨fun t => ?_, ?_⟩
    · have := h t
      rw [hcount] at this
      omega
    · have hwindow := h (x - w)
      rw [hcount, hlate, if_pos (by omega)] at hwindow
      omega
  · rintro ⟨h, hroom⟩ t
    rw [hcount]
    split
    · case isTrue hx =>
      -- the window of the new time holds at most what is at most `w` old
      have hle : l.countP (fun y => t ≤ y ∧ y ≤ t + w) ≤ l.countP (fun y => x - w ≤ y) := by
        refine List.countP_mono_left (fun y _ hy => ?_)
        simp only [decide_eq_true_eq] at hy ⊢
        omega
      omega
    · exact h t

end HeldTo

end LastSietch
