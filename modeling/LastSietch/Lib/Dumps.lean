import LastSietch.Lib.Like

/-!
# Compact JSON

`dumps` writes a JSON value the way an encoder does that leaves out all blanks and escapes
everything that is not printable ASCII. `key_infix_dumps` says where the text of a key with the
beginning of a number can stand in what it has written: nowhere but at a field with that key and
a number that begins so. A quote inside of a string is escaped, so nothing in a string reads
like the end of a key (`Shielded`).
-/

namespace LastSietch.Dumps

open Like

inductive Value
  | null
  | bool (b : Bool)
  | int (z : Int)
  | str (s : List Char)
  | arr (l : List Value)
  | obj (fields : List (List Char × Value))

def hex4 (n : Nat) : List Char :=
  [Nat.digitChar (n / 4096 % 16), Nat.digitChar (n / 256 % 16), Nat.digitChar (n / 16 % 16),
    Nat.digitChar (n % 16)]

/-- The escape of a character: the short ones, `\u` with four digits, and two of these for a
character beyond sixteen bits. -/
def escapeChar (c : Char) : List Char :=
  if c = '"' ∨ c = '\\' then ['\\', c]
  else if ' ' ≤ c ∧ c ≤ '~' then [c]
  else if c = '\n' then ['\\', 'n']
  else if c = '\r' then ['\\', 'r']
  else if c = '\t' then ['\\', 't']
  else if c.toNat = 12 then ['\\', 'f']
  else if c.toNat = 8 then ['\\', 'b']
  else if c.toNat < 0x10000 then '\\' :: 'u' :: hex4 c.toNat
  else '\\' :: 'u' :: (hex4 (0xd800 + (c.toNat - 0x10000) / 1024) ++
    '\\' :: 'u' :: hex4 (0xdc00 + (c.toNat - 0x10000) % 1024))

def quote (s : List Char) : List Char := '"' :: (s.flatMap escapeChar ++ ['"'])

def intText : Int → List Char
  | .ofNat n => Nat.toDigits 10 n
  | .negSucc n => '-' :: Nat.toDigits 10 (n + 1)

mutual

def dumps : Value → List Char
  | .null => ['n', 'u', 'l', 'l']
  | .bool true => ['t', 'r', 'u', 'e']
  | .bool false => ['f', 'a', 'l', 's', 'e']
  | .int z => intText z
  | .str s => quote s
  | .arr l => '[' :: (dumpsItems l ++ [']'])
  | .obj fields => '{' :: (dumpsFields fields ++ ['}'])

def dumpsItems : List Value → List Char
  | [] => []
  | v :: l => dumps v ++ dumpsRest l

def dumpsRest : List Value → List Char
  | [] => []
  | v :: l => ',' :: (dumps v ++ dumpsRest l)

def dumpsFields : List (List Char × Value) → List Char
  | [] => []
  | (k, v) :: fields => quote k ++ ':' :: dumps v ++ dumpsMore fields

def dumpsMore : List (List Char × Value) → List Char
  | [] => []
  | (k, v) :: fields => ',' :: (quote k ++ ':' :: dumps v ++ dumpsMore fields)

end

/-- The key, as it is written and up to letter case, ends in the quoted `name`. -/
def readsKey (name key : List Char) : Bool := ('"' :: (name ++ ['"'])).isSuffixOf (fold (quote key))

/-- The value is a number that is written with `digits` first. -/
def startsWith (digits : List Char) : Value → Bool
  | .int z => digits.isPrefixOf (intText z)
  | _ => false

mutual

/-- Somewhere in the value there is a field whose key reads `name` and whose number starts with
`digits`. -/
def reads (name digits : List Char) : Value → Bool
  | .arr l => readsItems name digits l
  | .obj fields => readsFields name digits fields
  | _ => false

def readsItems (name digits : List Char) : List Value → Bool
  | [] => false
  | v :: l => reads name digits v || readsItems name digits l

def readsFields (name digits : List Char) : List (List Char × Value) → Bool
  | [] => false
  | (k, v) :: fields =>
    (readsKey name k && startsWith digits v) || reads name digits v ||
      readsFields name digits fields

end

/-! ## Characters -/

theorem digitChar_plain (n : Nat) : (n % 16).digitChar.isAlphanum = true := by
  have h : ∀ m < 16, (Nat.digitChar m).isAlphanum = true := by decide
  exact h _ (Nat.mod_lt _ (by decide))

theorem hex4_plain {n : Nat} {c : Char} (hc : c ∈ hex4 n) : c.isAlphanum = true := by
  simp only [hex4, List.mem_cons, List.not_mem_nil, or_false] at hc
  rcases hc with rfl | rfl | rfl | rfl <;> exact digitChar_plain _

def IsNumeral (c : Char) : Prop := c.isDigit = true ∨ c = '-'

theorem intText_numeral {z : Int} {c : Char} (hc : c ∈ intText z) : IsNumeral c := by
  cases z with
  | ofNat n => exact Or.inl (Nat.isDigit_of_mem_toDigits (by decide) (by decide) hc)
  | negSucc n =>
    rcases List.mem_cons.mp hc with rfl | hc
    · exact Or.inr rfl
    · exact Or.inl (Nat.isDigit_of_mem_toDigits (by decide) (by decide) hc)

theorem intText_ne_nil (z : Int) : intText z ≠ [] := by
  cases z with
  | ofNat n => exact Nat.toDigits_ne_nil
  | negSucc n => exact List.cons_ne_nil _ _

theorem isUpper_iff {c : Char} : c.isUpper = true ↔ 65 ≤ c.val.toNat ∧ c.val.toNat ≤ 90 := by
  show decide (c.val ≥ 'A'.val ∧ c.val ≤ 'Z'.val) = true ↔ _
  rw [decide_eq_true_eq, ge_iff_le, UInt32.le_iff_toNat_le, UInt32.le_iff_toNat_le]
  rfl

theorem isLower_iff {c : Char} : c.isLower = true ↔ 97 ≤ c.val.toNat ∧ c.val.toNat ≤ 122 := by
  show (decide (c.val ≥ 'a'.val) && decide (c.val ≤ 'z'.val)) = true ↔ _
  rw [Bool.and_eq_true, decide_eq_true_eq, decide_eq_true_eq, ge_iff_le, UInt32.le_iff_toNat_le,
    UInt32.le_iff_toNat_le]
  rfl

theorem isDigit_iff {c : Char} : c.isDigit = true ↔ 48 ≤ c.val.toNat ∧ c.val.toNat ≤ 57 := by
  show (decide (c.val ≥ '0'.val) && decide (c.val ≤ '9'.val)) = true ↔ _
  rw [Bool.and_eq_true, decide_eq_true_eq, decide_eq_true_eq, ge_iff_le, UInt32.le_iff_toNat_le,
    UInt32.le_iff_toNat_le]
  rfl

theorem isAlpha_eq_false {c : Char} : c.isAlpha = false ↔ c.isUpper = false ∧ c.isLower = false :=
  Bool.or_eq_false_iff

theorem toLower_of_not_upper {c : Char} (h : c.isUpper = false) : c.toLower = c := by
  unfold Char.toLower
  rw [dif_neg]
  intro hc
  have hupper : c.isUpper = true := decide_eq_true hc
  rw [h] at hupper
  cases hupper

theorem isLower_toLower {c : Char} (h : c.isUpper = true) : c.toLower.isLower = true := by
  have hc := of_decide_eq_true h
  have hrange := isUpper_iff.mp h
  unfold Char.toLower
  rw [dif_pos hc, isLower_iff]
  have hval : c.toNat = c.val.toNat := rfl
  simp
  omega

/-- Folding makes letters only of letters. -/
theorem toLower_eq_iff {c d : Char} (hd : d.isAlpha = false) : c.toLower = d ↔ c = d := by
  have hparts := isAlpha_eq_false.mp hd
  constructor
  · intro h
    cases hc : c.isUpper with
    | true =>
      have hlower := isLower_toLower hc
      rw [h, hparts.2] at hlower
      cases hlower
    | false => rwa [toLower_of_not_upper hc] at h
  · rintro rfl
    exact toLower_of_not_upper hparts.1

theorem mem_fold {c : Char} (hc : c.isAlpha = false) {a : List Char} : c ∈ fold a ↔ c ∈ a := by
  simp only [fold, List.mem_map, toLower_eq_iff hc, exists_eq_right]

theorem IsNumeral.not_alpha {c : Char} (h : IsNumeral c) : c.isAlpha = false := by
  rcases h with h | rfl
  · have hrange := isDigit_iff.mp h
    rw [isAlpha_eq_false, Bool.eq_false_iff, Bool.eq_false_iff, Ne, Ne, isUpper_iff, isLower_iff]
    omega
  · rfl

theorem fold_numerals {a : List Char} (h : ∀ c ∈ a, IsNumeral c) : fold a = a := by
  unfold fold
  conv_rhs => rw [← List.map_id a]
  exact List.map_congr_left (fun c hc => (toLower_eq_iff (h c hc).not_alpha).mpr rfl)

/-! ## Quotes in strings -/

/-- Every quote in the text stands behind a backslash, `prev` being the character before it. -/
def Shielded : Char → List Char → Prop
  | _, [] => True
  | prev, c :: l => (c = '"' → prev = '\\') ∧ Shielded c l

theorem shielded_append {a l : List Char} (ha : '"' ∉ a) (hl : ∀ prev, Shielded prev l)
    (prev : Char) : Shielded prev (a ++ l) := by
  induction a generalizing prev with
  | nil => exact hl prev
  | cons c a ih =>
    refine ⟨fun hc => absurd List.mem_cons_self (hc ▸ ha), ?_⟩
    exact ih (fun h => ha (List.mem_cons_of_mem c h)) c

theorem quote_notMem_hex4 (n : Nat) : '"' ∉ hex4 n := by
  intro h
  have := hex4_plain h
  revert this
  decide

theorem quote_notMem_escapeChar {c : Char} (hc : c ≠ '"') : '"' ∉ escapeChar c := by
  unfold escapeChar
  split
  · simp [Ne.symm hc]
  · split
    · simp [Ne.symm hc]
    · repeat' split
      all_goals simp [quote_notMem_hex4]

theorem shielded_escape (s : List Char) (prev : Char) : Shielded prev (fold (s.flatMap escapeChar)) := by
  induction s generalizing prev with
  | nil => trivial
  | cons c s ih =>
    rw [List.flatMap_cons, fold_append]
    by_cases hc : c = '"'
    · subst hc
      exact ⟨fun h => absurd h (by decide), fun _ => rfl, ih _⟩
    · exact shielded_append (fun h => quote_notMem_escapeChar hc ((mem_fold rfl).mp h)) ih prev

/-- A quote in a string does not follow a letter. -/
theorem Shielded.noPair {y : Char} (hy : y ≠ '\\') {l : List Char} {prev : Char}
    (h : Shielded prev l) : ¬ [y, '"'] <:+: l := by
  induction l generalizing prev with
  | nil => simp
  | cons c l ih =>
    rw [List.infix_cons_iff]
    rintro (hstarts | hinfix)
    · rw [List.cons_prefix_cons] at hstarts
      obtain ⟨rfl, hrest⟩ := hstarts
      cases l with
      | nil => simp at hrest
      | cons d l =>
        rw [List.cons_prefix_cons] at hrest
        exact hy (h.2.1 hrest.1.symm)
    · exact ih h.2 hinfix

theorem not_infix_quote {y : Char} (hy : y ≠ '\\') {z : Char} (hz : z ≠ '"') (hyq : y ≠ '"')
    (s : List Char) : ¬ [y, '"', z] <:+: fold (quote s) := by
  intro h
  rw [quote, fold_cons, fold_append, List.infix_cons_iff] at h
  rcases h with h | h
  · rw [List.cons_prefix_cons] at h
    exact hyq h.1
  · rw [show fold ['"'] = ['"'] from rfl, List.infix_concat_iff] at h
    rcases h with ⟨t, ht⟩ | h
    · have hlast := congrArg List.getLast? ht
      rw [List.getLast?_append_of_ne_nil _ (by simp), List.getLast?_concat] at hlast
      exact hz (Option.some.inj hlast)
    · have hpair : [y, '"'] <:+: [y, '"', z] := ⟨[], [z], rfl⟩
      exact (shielded_escape s '"').noPair hy (hpair.trans h)

/-! ## Where a key can be read -/

/-- The text of the key `name` with the first digits of its number. -/
def needle (name digits : List Char) : List Char := '"' :: (name ++ ['"']) ++ ':' :: digits

/-- A key of small letters, and the first characters of a number. -/
structure Plain (name digits : List Char) : Prop where
  letters : ∀ c ∈ name, c.isLower = true
  named : name ≠ []
  numerals : ∀ c ∈ digits, IsNumeral c
  number : digits ≠ []

section Needle

variable {name digits : List Char} (hp : Plain name digits)

theorem needle_ne_nil : needle name digits ≠ [] := List.cons_ne_nil _ _

def IsBracket (c : Char) : Prop := c = ',' ∨ c = '[' ∨ c = ']' ∨ c = '{' ∨ c = '}'

include hp

theorem Plain.notMem_needle {c : Char} (hc : IsBracket c) : c ∉ needle name digits := by
  intro h
  simp only [needle, List.cons_append, List.append_assoc, List.nil_append, List.mem_cons,
    List.mem_append] at h
  rcases h with rfl | h | rfl | rfl | h
  · rcases hc with h | h | h | h | h <;> exact absurd h (by decide)
  · have hlower := hp.letters c h
    rcases hc with rfl | rfl | rfl | rfl | rfl <;> exact absurd hlower (by decide)
  · rcases hc with h | h | h | h | h <;> exact absurd h (by decide)
  · rcases hc with h | h | h | h | h <;> exact absurd h (by decide)
  · have hnumeral := hp.numerals c h
    rcases hc with rfl | rfl | rfl | rfl | rfl <;>
      exact hnumeral.elim (fun h => absurd h (by decide)) (fun h => absurd h (by decide))

theorem Plain.infix_comma {a : List Char} {c : Char} (hc : IsBracket c) :
    needle name digits <:+: c :: a ↔ needle name digits <:+: a := by
  have h := @infix_separated _ (needle name digits) [] a c needle_ne_nil (hp.notMem_needle hc)
  rw [List.nil_append] at h
  rw [h, or_iff_right (fun h => needle_ne_nil (List.infix_nil.mp h))]

theorem Plain.infix_bracketed {a : List Char} {o c : Char} (ho : IsBracket o) (hc : IsBracket c) :
    needle name digits <:+: o :: (a ++ [c]) ↔ needle name digits <:+: a := by
  rw [hp.infix_comma ho, infix_separated needle_ne_nil (hp.notMem_needle hc),
    or_iff_left (fun h => needle_ne_nil (List.infix_nil.mp h))]

/-- The text is in no string. -/
theorem Plain.not_infix_quote (s : List Char) : ¬ needle name digits <:+: fold (quote s) := by
  intro h
  -- the end of the key is the last letter, a quote and a colon
  have hend : [name.getLast hp.named, '"', ':'] <:+: needle name digits := by
    refine ⟨'"' :: name.dropLast, digits, ?_⟩
    rw [needle, List.cons_append, List.cons_append, List.cons_append, List.append_assoc]
    congr 1
    conv_rhs => rw [← List.dropLast_append_getLast hp.named]
    simp
  have hlower := hp.letters _ (List.getLast_mem hp.named)
  refine Dumps.not_infix_quote (fun h => ?_) (by decide) (fun h => ?_) s (hend.trans h)
  · rw [h] at hlower
    exact absurd hlower (by decide)
  · rw [h] at hlower
    exact absurd hlower (by decide)

theorem Plain.colon_notMem : ':' ∉ '"' :: (name ++ ['"']) ∧ ':' ∉ digits := by
  constructor
  · intro h
    simp only [List.mem_cons, List.mem_append, List.not_mem_nil, or_false] at h
    rcases h with h | h | h
    · exact absurd h (by decide)
    · exact absurd (hp.letters _ h) (by decide)
    · exact absurd h (by decide)
  · intro h
    exact (hp.numerals _ h).elim (fun h => absurd h (by decide)) (fun h => absurd h (by decide))

/-- The text is at a field when the key ends so and the value begins so, or inside the value. -/
theorem Plain.infix_field (k : List Char) (w : List Char) :
    needle name digits <:+: fold (quote k) ++ ':' :: w ↔
      readsKey name k = true ∧ digits <+: w ∨ needle name digits <:+: w := by
  have hcolon : needle name digits <:+: ':' :: w ↔ needle name digits <:+: w := by
    rw [List.infix_cons_iff, or_iff_right]
    rintro ⟨t, ht⟩
    cases ht
  rw [infix_append_iff, hcolon, or_iff_right (hp.not_infix_quote k), or_comm]
  refine or_congr_left ?_
  unfold readsKey
  rw [List.isSuffixOf_iff_suffix]
  constructor
  · rintro ⟨u, v, -, hv, hsplit, hu, t, ht⟩
    cases v with
    | nil => exact absurd rfl hv
    | cons c v =>
      cases ht
      obtain ⟨rfl, rfl⟩ := split_at_separator hp.colon_notMem.1 hp.colon_notMem.2 hsplit
      exact ⟨hu, t, rfl⟩
  · rintro ⟨hkey, t, rfl⟩
    exact ⟨_, ':' :: digits, List.cons_ne_nil _ _, List.cons_ne_nil _ _, rfl, hkey, t, rfl⟩

/-- Nothing but a number begins like a number. -/
theorem Plain.prefix_dumps (v : Value) : digits <+: fold (dumps v) ↔ startsWith digits v = true := by
  have hother : ∀ {c : Char} {a : List Char}, ¬ IsNumeral c → ¬ digits <+: c :: a := by
    rintro c a hc ⟨t, ht⟩
    cases hd : digits with
    | nil => exact hp.number hd
    | cons d ds =>
      rw [hd, List.cons_append] at ht
      cases ht
      exact hc (hp.numerals _ (hd ▸ List.mem_cons_self))
  have hnot : ∀ {c : Char}, c.isDigit = false → c ≠ '-' → ¬ IsNumeral c := by
    rintro c hc hne (h | h)
    · rw [hc] at h
      cases h
    · exact hne h
  cases v with
  | int z =>
    rw [dumps, fold_numerals (fun c hc => intText_numeral hc), startsWith, List.isPrefixOf_iff_prefix]
  | null => exact iff_of_false (hother (hnot rfl (by decide))) (by simp [startsWith])
  | bool b =>
    cases b <;> exact iff_of_false (hother (hnot rfl (by decide))) (by simp [startsWith])
  | str s =>
    rw [dumps, quote, fold_cons]
    exact iff_of_false (hother (hnot rfl (by decide))) (by simp [startsWith])
  | arr l =>
    rw [dumps, fold_cons]
    exact iff_of_false (hother (hnot rfl (by decide))) (by simp [startsWith])
  | obj fields =>
    rw [dumps, fold_cons]
    exact iff_of_false (hother (hnot rfl (by decide))) (by simp [startsWith])

theorem Plain.infix_rest (a : List Char) (l : List Value) :
    needle name digits <:+: a ++ fold (dumpsRest l) ↔
      needle name digits <:+: a ∨ needle name digits <:+: fold (dumpsRest l) := by
  cases l with
  | nil =>
    rw [dumpsRest, show fold [] = [] from rfl, List.append_nil,
      or_iff_left (fun h => needle_ne_nil (List.infix_nil.mp h))]
  | cons v l =>
    rw [dumpsRest, fold_cons, show ','.toLower = ',' from rfl,
      infix_separated needle_ne_nil (hp.notMem_needle (Or.inl rfl)), hp.infix_comma (Or.inl rfl)]

theorem Plain.infix_more (a : List Char) (fields : List (List Char × Value)) :
    needle name digits <:+: a ++ fold (dumpsMore fields) ↔
      needle name digits <:+: a ∨ needle name digits <:+: fold (dumpsMore fields) := by
  cases fields with
  | nil =>
    rw [dumpsMore, show fold [] = [] from rfl, List.append_nil,
      or_iff_left (fun h => needle_ne_nil (List.infix_nil.mp h))]
  | cons f fields =>
    obtain ⟨k, v⟩ := f
    rw [dumpsMore, fold_cons, show ','.toLower = ',' from rfl,
      infix_separated needle_ne_nil (hp.notMem_needle (Or.inl rfl)), hp.infix_comma (Or.inl rfl)]

omit hp in
theorem not_infix_of_notMem {a : List Char} (ha : '"' ∉ a) : ¬ needle name digits <:+: a :=
  fun h => ha (h.subset List.mem_cons_self)

mutual

/-- The text of a key with the beginning of a number is in the written value exactly where a
field reads so. -/
theorem key_infix_dumps : (v : Value) →
    (needle name digits <:+: fold (dumps v) ↔ reads name digits v = true)
  | .null => iff_of_false (not_infix_of_notMem (by decide)) (by simp [reads])
  | .bool true => iff_of_false (not_infix_of_notMem (by decide)) (by simp [reads])
  | .bool false => iff_of_false (not_infix_of_notMem (by decide)) (by simp [reads])
  | .int z => by
    rw [dumps]
    refine iff_of_false (not_infix_of_notMem ?_) (by simp [reads])
    rw [mem_fold rfl]
    intro h
    exact (intText_numeral h).elim (fun h => absurd h (by decide)) (fun h => absurd h (by decide))
  | .str s => iff_of_false (by rw [dumps]; exact hp.not_infix_quote s) (by simp [reads])
  | .arr l => by
    rw [dumps, fold_cons, fold_append, reads, ← key_infix_items l]
    exact hp.infix_bracketed (Or.inr (Or.inl rfl)) (Or.inr (Or.inr (Or.inl rfl)))
  | .obj fields => by
    rw [dumps, fold_cons, fold_append, reads, ← key_infix_fields fields]
    exact hp.infix_bracketed (Or.inr (Or.inr (Or.inr (Or.inl rfl))))
      (Or.inr (Or.inr (Or.inr (Or.inr rfl))))

theorem key_infix_items : (l : List Value) →
    (needle name digits <:+: fold (dumpsItems l) ↔ readsItems name digits l = true)
  | [] => iff_of_false (not_infix_of_notMem (by simp [dumpsItems, fold])) (by simp [readsItems])
  | v :: l => by
    rw [dumpsItems, fold_append, hp.infix_rest, readsItems, Bool.or_eq_true, ← key_infix_dumps v,
      ← key_infix_rest l]

theorem key_infix_rest : (l : List Value) →
    (needle name digits <:+: fold (dumpsRest l) ↔ readsItems name digits l = true)
  | [] => iff_of_false (not_infix_of_notMem (by simp [dumpsRest, fold])) (by simp [readsItems])
  | v :: l => by
    rw [dumpsRest, fold_cons, fold_append, show ','.toLower = ',' from rfl,
      hp.infix_comma (Or.inl rfl), hp.infix_rest, readsItems, Bool.or_eq_true, ← key_infix_dumps v,
      ← key_infix_rest l]

theorem key_infix_fields : (fields : List (List Char × Value)) →
    (needle name digits <:+: fold (dumpsFields fields) ↔ readsFields name digits fields = true)
  | [] => iff_of_false (not_infix_of_notMem (by simp [dumpsFields, fold])) (by simp [readsFields])
  | (k, v) :: fields => by
    rw [dumpsFields, fold_append, fold_append, fold_cons, show ':'.toLower = ':' from rfl,
      hp.infix_more, hp.infix_field, readsFields, Bool.or_eq_true, Bool.or_eq_true,
      Bool.and_eq_true, ← key_infix_dumps v, ← key_infix_more fields, hp.prefix_dumps]

theorem key_infix_more : (fields : List (List Char × Value)) →
    (needle name digits <:+: fold (dumpsMore fields) ↔ readsFields name digits fields = true)
  | [] => iff_of_false (not_infix_of_notMem (by simp [dumpsMore, fold])) (by simp [readsFields])
  | (k, v) :: fields => by
    rw [dumpsMore, fold_cons, fold_append, fold_append, fold_cons, show ':'.toLower = ':' from rfl,
      show ','.toLower = ',' from rfl, hp.infix_comma (Or.inl rfl), hp.infix_more, hp.infix_field,
      readsFields, Bool.or_eq_true, Bool.or_eq_true, Bool.and_eq_true, ← key_infix_dumps v,
      ← key_infix_more fields, hp.prefix_dumps]

end

end Needle

end LastSietch.Dumps
