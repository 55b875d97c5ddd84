import Mathlib.Data.List.Basic
import Mathlib.Data.Rat.Defs

/-!
# JSON values

`Json` keeps apart the numbers that are written with a point and the ones that are not, since a
reader that gives integers and floats keeps them apart; `numeric` forgets the difference again, for
the numbers of an array.

The fields of an object are an association list. `Fields.put` sets one of them, as `||` does with an
object of one key; `lookup_put` is what it leaves.
-/

namespace LastSietch

inductive Json
  | null
  | bool (b : Bool)
  | int (z : Int)
  | dec (q : ℚ)
  | str (s : String)
  | arr (l : List Json)
  | obj (fields : List (String × Json))

abbrev Fields := List (String × Json)

namespace Json

/-- `j[i]` of an array. -/
def nth? (j : Json) (i : Nat) : Option Json :=
  match j with
  | .arr l => l[i]?
  | _ => none

/-- `j[key]` of an object. -/
def get? (j : Json) (key : String) : Option Json :=
  match j with
  | .obj fields => fields.lookup key
  | _ => none

def elements : Json → List Json
  | .arr l => l
  | _ => []

/-- What an `if` takes for true. -/
def truthy : Json → Bool
  | .null => false
  | .bool b => b
  | .int z => z ≠ 0
  | .dec q => q ≠ 0
  | .str s => s ≠ ""
  | .arr l => !l.isEmpty
  | .obj fields => !fields.isEmpty

def str? : Json → Option String
  | .str s => some s
  | _ => none

def int? : Json → Option Int
  | .int z => some z
  | _ => none

def number? : Json → Option ℚ
  | .int z => some z
  | .dec q => some q
  | _ => none

def point : Json → Json
  | .int z => .dec z
  | j => j

def numeric : Json → Json
  | .arr l => .arr (l.map point)
  | j => j

/-! ### Equality -/

mutual

def beq : Json → Json → Bool
  | .null, .null => true
  | .bool a, .bool b => a == b
  | .int a, .int b => a == b
  | .dec a, .dec b => a == b
  | .str a, .str b => a == b
  | .arr a, .arr b => beqList a b
  | .obj a, .obj b => beqFields a b
  | _, _ => false

def beqList : List Json → List Json → Bool
  | [], [] => true
  | a :: l, b :: m => beq a b && beqList l m
  | _, _ => false

def beqFields : List (String × Json) → List (String × Json) → Bool
  | [], [] => true
  | (k, a) :: l, (k', b) :: m => k == k' && beq a b && beqFields l m
  | _, _ => false

end

mutual

theorem eq_of_beq : (a b : Json) → beq a b = true → a = b
  | .null, b, h => by cases b <;> simp_all [beq]
  | .bool _, b, h => by cases b <;> simp_all [beq]
  | .int _, b, h => by cases b <;> simp_all [beq]
  | .dec _, b, h => by cases b <;> simp_all [beq]
  | .str _, b, h => by cases b <;> simp_all [beq]
  | .arr l, b, h => by
    cases b with
    | arr m =>
      rw [beq] at h
      rw [eq_of_beqList l m h]
    | null | bool _ | int _ | dec _ | str _ | obj _ => cases h
  | .obj l, b, h => by
    cases b with
    | obj m =>
      rw [beq] at h
      rw [eq_of_beqFields l m h]
    | null | bool _ | int _ | dec _ | str _ | arr _ => cases h

theorem eq_of_beqList : (l m : List Json) → beqList l m = true → l = m
  | [], m, h => by cases m with
    | nil => rfl
    | cons b m => cases h
  | a :: l, m, h => by cases m with
    | nil => cases h
    | cons b m =>
      rw [beqList, Bool.and_eq_true] at h
      rw [eq_of_beq a b h.1, eq_of_beqList l m h.2]

theorem eq_of_beqFields : (l m : List (String × Json)) → beqFields l m = true → l = m
  | [], m, h => by cases m with
    | nil => rfl
    | cons b m => cases h
  | (k, a) :: l, m, h => by cases m with
    | nil => cases h
    | cons f m =>
      obtain ⟨k', b⟩ := f
      rw [beqFields, Bool.and_eq_true, Bool.and_eq_true, beq_iff_eq] at h
      rw [h.1.1, eq_of_beq a b h.1.2, eq_of_beqFields l m h.2]

end

mutual

theorem beq_refl : (a : Json) → beq a a = true
  | .null => rfl
  | .bool _ | .int _ | .dec _ | .str _ => by simp [beq]
  | .arr l => by rw [beq, beqList_refl l]
  | .obj l => by rw [beq, beqFields_refl l]

theorem beqList_refl : (l : List Json) → beqList l l = true
  | [] => rfl
  | a :: l => by rw [beqList, beq_refl a, beqList_refl l, Bool.and_self]

theorem beqFields_refl : (l : List (String × Json)) → beqFields l l = true
  | [] => rfl
  | (k, a) :: l => by simp [beqFields, beq_refl a, beqFields_refl l]

end

instance : DecidableEq Json := fun a b =>
  decidable_of_iff (beq a b = true) ⟨eq_of_beq a b, fun h => h ▸ beq_refl a⟩

@[simp] theorem nth?_arr (l : List Json) (i : Nat) : (Json.arr l).nth? i = l[i]? := rfl

@[simp] theorem get?_obj (fields : Fields) (key : String) :
    (Json.obj fields).get? key = fields.lookup key := rfl

@[simp] theorem elements_arr (l : List Json) : (Json.arr l).elements = l := rfl

end Json

namespace Fields

/-- `fields || '{key: v}'`. -/
def put (key : String) (v : Json) : Fields → Fields
  | [] => [(key, v)]
  | (k, w) :: rest => if k = key then (key, v) :: rest else (k, w) :: put key v rest

theorem lookup_put (fields : Fields) (key : String) (v : Json) (k : String) :
    (fields.put key v).lookup k = if k = key then some v else fields.lookup k := by
  induction fields with
  | nil =>
    by_cases h : k = key
    · simp [put, h]
    · have hne : (k == key) = false := by simpa using h
      simp [put, List.lookup_cons, hne, h]
  | cons f rest ih =>
    obtain ⟨k', w⟩ := f
    unfold put
    by_cases hkey : k' = key
    · rw [if_pos hkey]
      by_cases h : k = key
      · simp [h]
      · have hne : (k == key) = false := by simpa using h
        have hne' : (k == k') = false := by rw [hkey]; exact hne
        simp [List.lookup_cons, hne, hne', h]
    · rw [if_neg hkey]
      by_cases h : k = k'
      · have hne : ¬k' = key := hkey
        subst h
        simp [hne]
      · have hne : (k == k') = false := by simpa using h
        simp only [List.lookup_cons, hne]
        exact ih

/-- `stats ? key`. -/
def has (fields : Fields) (key : String) : Bool := (fields.lookup key).isSome

def ensure (key : String) (v : Json) (fields : Fields) : Fields :=
  if fields.has key then fields else fields.put key v

theorem lookup_ensure (fields : Fields) (key : String) (v : Json) (k : String) :
    (fields.ensure key v).lookup k = fields.lookup k ∨
      k = key ∧ fields.lookup k = none ∧ (fields.ensure key v).lookup k = some v := by
  unfold ensure has
  by_cases h : (fields.lookup key).isSome
  · rw [if_pos h]
    exact Or.inl rfl
  · rw [if_neg h, lookup_put]
    by_cases hk : k = key
    · rw [if_pos hk, hk]
      exact Or.inr ⟨rfl, Option.not_isSome_iff_eq_none.mp h, rfl⟩
    · rw [if_neg hk]
      exact Or.inl rfl

end Fields

end LastSietch
