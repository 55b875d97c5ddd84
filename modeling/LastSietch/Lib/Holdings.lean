import Mathlib.Data.List.Nodup
import Mathlib.Data.List.Perm.Subperm

/-!
# Holdings

The rows of a list each give one place to one holder. `Sole` is that no place has two rows.
A change of the list either only takes rows away, or it is a grant: one row comes, and what had its
place goes. Both keep `Sole`, and a grant adds at most one to any count of the rows.
-/

namespace LastSietch

variable {α π : Type} {place : α → π} {rows rows' rows'' : List α} {r : α}

def Sole (place : α → π) (rows : List α) : Prop :=
  ∀ x ∈ rows, ∀ y ∈ rows, place x = place y → x = y

/-- `rows'` is made of `r` and of rows of other places. -/
def Granted (place : α → π) (rows : List α) (r : α) (rows' : List α) : Prop :=
  ∀ x ∈ rows', x = r ∨ x ∈ rows ∧ place x ≠ place r

theorem Sole.subset (h : Sole place rows) (hsub : rows' ⊆ rows) : Sole place rows' :=
  fun x hx y hy hxy => h x (hsub hx) y (hsub hy) hxy

theorem Sole.granted (h : Sole place rows) (hgrant : Granted place rows r rows') :
    Sole place rows' := by
  intro x hx y hy hxy
  rcases hgrant x hx with rfl | ⟨hx, hxr⟩
  · rcases hgrant y hy with rfl | ⟨_, hyr⟩
    · rfl
    · exact absurd hxy.symm hyr
  · rcases hgrant y hy with rfl | ⟨hy, _⟩
    · exact absurd hxy hxr
    · exact h x hx y hy hxy

theorem Granted.subset (h : Granted place rows r rows') (hsub : rows'' ⊆ rows') :
    Granted place rows r rows'' := fun x hx => h x (hsub hx)

theorem Granted.of_subset (hsub : rows ⊆ rows'') (h : Granted place rows r rows') :
    Granted place rows'' r rows' :=
  fun x hx => (h x hx).imp_right fun hx => ⟨hsub hx.1, hx.2⟩

theorem length_filter_le_of_subset {p : α → Bool} (hnd : rows'.Nodup) (hsub : rows' ⊆ rows) :
    (rows'.filter p).length ≤ (rows.filter p).length := by
  have hsubp : (rows'.filter p).Subperm (rows.filter p) := by
    refine List.subperm_of_subset (hnd.filter p) (fun x hx => ?_)
    rw [List.mem_filter] at hx ⊢
    exact ⟨hsub hx.1, hx.2⟩
  exact hsubp.length_le

theorem Granted.length_filter_le {p : α → Bool} (h : Granted place rows r rows')
    (hnd : rows'.Nodup) : (rows'.filter p).length ≤ (rows.filter p).length + 1 := by
  have hle : (rows'.filter p).length ≤ ((r :: rows).filter p).length := by
    refine length_filter_le_of_subset hnd (fun x hx => ?_)
    rcases h x hx with rfl | ⟨hx, _⟩
    · exact List.mem_cons_self
    · exact List.mem_cons_of_mem _ hx
  have hcons : ((r :: rows).filter p).length ≤ (rows.filter p).length + 1 := by
    rw [List.filter_cons]
    split
    · exact Nat.le_refl _
    · omega
  omega

end LastSietch
