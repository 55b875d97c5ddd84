import LastSietch.Lib.Dict
import LastSietch.Lib.Json
import Mathlib

/-!
# Giveaways

The giveaways of the Cielago bot and the file that keeps them: the record with its `to_dict` and
`from_dict`, the store with `load` and `save`, and the three functions that change a giveaway at
once: an entry by the button, an entry by the founders' form, and the draw.

`fromDict_toDict` and `load_dump` say that nothing is lost on the way through the file.
-/

namespace LastSietch.Giveaways

open Dict

/-! ## Sets of users -/

structure IdSet where
  ids : List Nat
  sorted : ids.Pairwise (· < ·)

namespace IdSet

def insertInto (x : Nat) : List Nat → List Nat
  | [] => [x]
  | y :: l => if x < y then x :: y :: l else if x = y then y :: l else y :: insertInto x l

theorem mem_insertInto {x z : Nat} {l : List Nat} : z ∈ insertInto x l ↔ z = x ∨ z ∈ l := by
  induction l with
  | nil => simp [insertInto]
  | cons y l ih =>
    unfold insertInto
    split
    · exact List.mem_cons
    · split
      · rename_i hxy
        rw [hxy, List.mem_cons]
        simp
      · rw [List.mem_cons, ih, List.mem_cons]
        simp only [or_left_comm]

theorem sorted_insertInto {x : Nat} {l : List Nat} (h : l.Pairwise (· < ·)) :
    (insertInto x l).Pairwise (· < ·) := by
  induction l with
  | nil => exact List.pairwise_singleton _ _
  | cons y l ih =>
    obtain ⟨hy, hl⟩ := List.pairwise_cons.mp h
    unfold insertInto
    split
    · rename_i hxy
      refine List.pairwise_cons.mpr ⟨fun z hz => ?_, h⟩
      rcases List.mem_cons.mp hz with rfl | hz
      · exact hxy
      · exact hxy.trans (hy z hz)
    · split
      · exact h
      · rename_i hlt hne
        refine List.pairwise_cons.mpr ⟨fun z hz => ?_, ih hl⟩
        rcases mem_insertInto.mp hz with rfl | hz
        · omega
        · exact hy z hz

def empty : IdSet := ⟨[], List.Pairwise.nil⟩

def insert (s : IdSet) (x : Nat) : IdSet := ⟨insertInto x s.ids, sorted_insertInto s.sorted⟩

instance : Membership Nat IdSet := ⟨fun s x => x ∈ s.ids⟩

instance (x : Nat) (s : IdSet) : Decidable (x ∈ s) := inferInstanceAs (Decidable (x ∈ s.ids))

theorem mem_insert {s : IdSet} {x z : Nat} : z ∈ s.insert x ↔ z = x ∨ z ∈ s := mem_insertInto

theorem nodup (s : IdSet) : s.ids.Nodup := s.sorted.imp fun h => Nat.ne_of_lt h

def card (s : IdSet) : Nat := s.ids.length

/-- `set(ids)`. -/
def ofList (l : List Nat) : IdSet := l.foldr (fun x s => s.insert x) empty

theorem eq_of_ids {s t : IdSet} (h : s.ids = t.ids) : s = t := by
  obtain ⟨ids, _⟩ := s
  obtain ⟨ids', _⟩ := t
  cases h
  rfl

theorem ofList_ids (s : IdSet) : ofList s.ids = s := by
  obtain ⟨ids, sorted⟩ := s
  induction ids with
  | nil => rfl
  | cons x l ih =>
    obtain ⟨hx, hl⟩ := List.pairwise_cons.mp sorted
    have hrest : ofList (x :: l) = (⟨l, hl⟩ : IdSet).insert x := congrArg (insert · x) (ih hl)
    rw [hrest]
    refine eq_of_ids ?_
    cases l with
    | nil => rfl
    | cons y l => exact if_pos (hx y List.mem_cons_self)

end IdSet

/-! ## The record -/

structure Giveaway where
  messageId : Nat
  channelId : Nat
  guildId : Nat
  prizes : List String
  endsAt : Nat
  entrants : IdSet
  winners : List Nat
  ended : Bool
  isWeekend : Bool
  /-- As `parse_game_entry` gives them, or `null`. -/
  gameEntries : Json
  platform : Option String
  reminderSent : Bool
  foundersRoleId : Option Nat
  starterId : Option Nat
  codes : List (Nat × String)

def Giveaway.founders (g : Giveaway) : Bool := g.foundersRoleId.any (· ≠ 0)

def nullOr {α : Type} (f : α → Json) (o : Option α) : Json := (o.map f).getD .null

def natJson (n : Nat) : Json := .int n

def Giveaway.toDict (g : Giveaway) : Json :=
  .obj [("message_id", natJson g.messageId),
    ("channel_id", natJson g.channelId),
    ("guild_id", natJson g.guildId),
    ("prizes", .arr (g.prizes.map .str)),
    ("ends_at", natJson g.endsAt),
    ("entrants", .arr (g.entrants.ids.map natJson)),
    ("winners", .arr (g.winners.map natJson)),
    ("ended", .bool g.ended),
    ("is_weekend", .bool g.isWeekend),
    ("game_entries", g.gameEntries),
    ("platform", nullOr .str g.platform),
    ("reminder_sent", .bool g.reminderSent),
    ("founders_role_id", nullOr natJson g.foundersRoleId),
    ("starter_id", nullOr natJson g.starterId),
    ("codes", .obj (g.codes.map fun e => (e.1.repr, .str e.2)))]

/-- `int(...)` of what is not negative. -/
def intOf : Json → Option Nat
  | .int z => z.toNat?
  | .str t => t.toNat?
  | _ => none

def fieldsOf : Json → Fields
  | .obj fields => fields
  | _ => []

/-- `int(k): str(v)`. -/
def readCode (e : String × Json) : Option (Nat × String) := do
  let user ← e.1.toNat?
  let code ← e.2.str?
  some (user, code)

/-- `load` puts the key in where there is no `message_id`. -/
def fromDict (key : String) (data : Json) : Option Giveaway := do
  let field := data.get?
  let messageId ← intOf ((field "message_id").getD (.str key))
  let channelId ← (field "channel_id").bind intOf
  let guildId ← (field "guild_id").bind intOf
  let prizes ← ((field "prizes").getD (.arr [])).elements.mapM Json.str?
  let endsAt ← (field "ends_at").bind intOf
  let entrants ← ((field "entrants").getD (.arr [])).elements.mapM intOf
  let winners ← ((field "winners").getD (.arr [])).elements.mapM intOf
  let codes ← (fieldsOf ((field "codes").getD .null)).mapM readCode
  some {
    messageId, channelId, guildId, prizes, endsAt
    entrants := IdSet.ofList entrants
    winners
    ended := ((field "ended").getD (.bool false)).truthy
    isWeekend := ((field "is_weekend").getD (.bool false)).truthy
    gameEntries := (field "game_entries").getD .null
    platform := (field "platform").bind Json.str?
    reminderSent := ((field "reminder_sent").getD (.bool false)).truthy
    foundersRoleId := (field "founders_role_id").bind intOf
    starterId := (field "starter_id").bind intOf
    codes := assignAll codes }

/-! ## The file -/

theorem intOf_natJson (n : Nat) : intOf (natJson n) = some n := rfl

theorem readCode_writeCode (e : Nat × String) : readCode (e.1.repr, .str e.2) = some e := by
  simp [readCode, Json.str?]

theorem mapM_some {α β : Type} {f : α → β} {g : β → Option α} (h : ∀ a, g (f a) = some a)
    (l : List α) : (l.map f).mapM g = some l := by
  induction l with
  | nil => rfl
  | cons a l ih => simp [h, ih]

theorem of_nullOr {α : Type} {f : α → Json} {g : Json → Option α} (h : ∀ a, g (f a) = some a)
    (hnull : g .null = none) (o : Option α) : g (nullOr f o) = o := by
  cases o with
  | none => exact hnull
  | some a => exact h a

variable {g : Giveaway}

theorem fromDict_toDict (hcodes : (g.codes.map (·.1)).Nodup) (key : String) :
    fromDict key g.toDict = some g := by
  have hprizes : (g.prizes.map Json.str).mapM Json.str? = some g.prizes :=
    mapM_some (f := Json.str) (g := Json.str?) (fun _ => rfl) _
  have hentrants : (g.entrants.ids.map natJson).mapM intOf = some g.entrants.ids :=
    mapM_some intOf_natJson _
  have hwinners : (g.winners.map natJson).mapM intOf = some g.winners := mapM_some intOf_natJson _
  have hread : (g.codes.map fun e => (e.1.repr, Json.str e.2)).mapM readCode = some g.codes :=
    mapM_some readCode_writeCode _
  have hrole : intOf (nullOr natJson g.foundersRoleId) = g.foundersRoleId :=
    of_nullOr intOf_natJson rfl _
  have hstarter : intOf (nullOr natJson g.starterId) = g.starterId :=
    of_nullOr intOf_natJson rfl _
  have hplatform : (nullOr Json.str g.platform).str? = g.platform :=
    of_nullOr (f := Json.str) (g := Json.str?) (fun _ => rfl) rfl _
  show (do
    let messageId ← intOf (natJson g.messageId)
    let channelId ← intOf (natJson g.channelId)
    let guildId ← intOf (natJson g.guildId)
    let prizes ← (g.prizes.map Json.str).mapM Json.str?
    let endsAt ← intOf (natJson g.endsAt)
    let entrants ← (g.entrants.ids.map natJson).mapM intOf
    let winners ← (g.winners.map natJson).mapM intOf
    let codes ← (g.codes.map fun e => (e.1.repr, Json.str e.2)).mapM readCode
    some ({
      messageId, channelId, guildId, prizes, endsAt
      entrants := IdSet.ofList entrants
      winners
      ended := g.ended
      isWeekend := g.isWeekend
      gameEntries := g.gameEntries
      platform := (nullOr Json.str g.platform).str?
      reminderSent := g.reminderSent
      foundersRoleId := intOf (nullOr natJson g.foundersRoleId)
      starterId := intOf (nullOr natJson g.starterId)
      codes := assignAll codes } : Giveaway)) = some g
  simp [hprizes, hentrants, hwinners, hread, hrole, hstarter, hplatform, intOf_natJson,
    IdSet.ofList_ids, assignAll_of_nodup hcodes]

abbrev Store := List (Nat × Giveaway)

/-- What is on disk: a write that breaks off leaves what `json.loads` refuses. -/
inductive File
  | missing
  | broken
  | holds (data : Fields)

/-- What `save` writes. -/
def dump (store : Store) : Fields := store.map fun e => (e.1.repr, e.2.toDict)

/-- `load` into an empty store; `none` is a `from_dict` that raises. -/
def load : File → Option Store
  | .missing | .broken => some []
  | .holds data => (data.mapM fun e => fromDict e.1 e.2).map fun giveaways =>
      assignAll (giveaways.map fun g => (g.messageId, g))

structure Keyed (store : Store) : Prop where
  nodup : (store.map (·.1)).Nodup
  id_eq : ∀ e ∈ store, e.2.messageId = e.1
  codes : ∀ e ∈ store, (e.2.codes.map (·.1)).Nodup

theorem load_dump {store : Store} (h : Keyed store) : load (.holds (dump store)) = some store := by
  have hread : (dump store).mapM (fun e => fromDict e.1 e.2) = some (store.map (·.2)) := by
    have hcodes := h.codes
    clear h
    induction store with
    | nil => rfl
    | cons e store ih =>
      have hrest := ih fun e' he' => hcodes e' (List.mem_cons_of_mem e he')
      have hfirst := fromDict_toDict (hcodes e List.mem_cons_self) e.1.repr
      unfold dump at hrest ⊢
      rw [List.map_cons, List.mapM_cons, hrest, hfirst]
      rfl
  have hkeys : (store.map (·.2)).map (fun g => (g.messageId, g)) = store := by
    rw [List.map_map]
    refine (List.map_congr_left fun e he => ?_).trans (List.map_id store)
    exact Prod.ext (h.id_eq e he) rfl
  rw [load, hread, Option.map_some, hkeys, assignAll_of_nodup h.nodup]

theorem keyed_assign {store : Store} (h : Keyed store)
    (hcodes : (g.codes.map (·.1)).Nodup) : Keyed (assign store g.messageId g) := by
  refine ⟨nodup_assign h.nodup _ _, fun e he => ?_, fun e he => ?_⟩
  · rcases mem_assign he with rfl | he
    · rfl
    · exact h.id_eq e he
  · rcases mem_assign he with rfl | he
    · exact hcodes
    · exact h.codes e he

structure Python where
  strip : String → String
  isSpace : Char → Bool
  isDigit : Char → Bool

def plainPython : Python where
  strip text := String.ofList
    ((text.toList.dropWhile Char.isWhitespace).reverse.dropWhile Char.isWhitespace).reverse
  isSpace := Char.isWhitespace
  isDigit := Char.isDigit

variable (py : Python)

def dropText (text : String) (l : List Char) : Option (List Char) :=
  if text.toList <+: l then some (l.drop text.length) else none

def dropOptional (text : String) (l : List Char) : List Char := (dropText text l).getD l

/-- `[A-Za-z0-9_-]`. -/
def isNameChar (c : Char) : Bool := c.isAlphanum || c = '_' || c = '-'

/-- `_STEAM_PROFILE.match`. -/
def steamProfile (text : String) : Bool :=
  match dropText "steamcommunity.com/"
      (dropOptional "www." (dropOptional "http://" (dropOptional "https://" text.toList))) with
  | none => false
  | some rest =>
    let path := if rest.getLast? = some '/' then rest.dropLast else rest
    (dropText "id/" path).any (fun name =>
        2 ≤ name.length && name.length ≤ 64 && name.all isNameChar) ||
      (dropText "profiles/" path).any (fun digits => digits.length = 17 && digits.all py.isDigit)

def normalizeFriendCode (raw : String) : Option String :=
  let text := py.strip raw
  let digits := text.toList.filter fun c => !(py.isSpace c || c = '-')
  if digits.all py.isDigit && 5 ≤ digits.length && digits.length ≤ 10 then
    some (String.ofList digits)
  else if steamProfile py text then some text
  else none

/-! ## The draw -/

/-- `random.sample`: each choice is among what is left of the pool. -/
def sample (picks : Nat → Nat) : Nat → List Nat → List Nat
  | 0, _ => []
  | k + 1, pool =>
    let i := picks k % pool.length
    match pool[i]? with
    | none => []
    | some a => a :: sample picks k (pool.eraseIdx i)

def selectWinners (picks : Nat → Nat) (entrants : IdSet) (count : Nat) : List Nat :=
  sample picks (min count entrants.card) entrants.ids

/-- The first part of `_end_giveaway`, up to its save. -/
def Giveaway.draw (picks : Nat → Nat) (g : Giveaway) : Giveaway :=
  { g with ended := true, winners := selectWinners picks g.entrants g.prizes.length }

/-- The write of `reroll`. -/
def Giveaway.reroll (picks : Nat → Nat) (g : Giveaway) : Giveaway :=
  { g with winners := selectWinners picks g.entrants g.prizes.length }

def NO_CODE : String := "(no code)"

/-- The first part of `_finish_founders`, up to its save. -/
def Giveaway.finishFounders (g : Giveaway) : Giveaway :=
  { g with codes := assignAll (g.winners.map fun w => (w, (g.codes.lookup w).getD NO_CODE)) }

theorem sample_subperm (picks : Nat → Nat) (k : Nat) (pool : List Nat) :
    (sample picks k pool).Subperm pool := by
  induction k generalizing pool with
  | zero => exact List.nil_subperm
  | succ k ih =>
    rw [sample]
    split
    · exact List.nil_subperm
    · rename_i a ha
      obtain ⟨hlt, rfl⟩ := List.getElem?_eq_some_iff.mp ha
      have hperm := List.getElem_cons_eraseIdx_perm hlt
      exact (List.subperm_cons _ |>.mpr (ih _)).trans hperm.subperm

theorem length_sample (picks : Nat → Nat) {k : Nat} {pool : List Nat} (hk : k ≤ pool.length) :
    (sample picks k pool).length = k := by
  induction k generalizing pool with
  | zero => rfl
  | succ k ih =>
    have hlt : picks k % pool.length < pool.length := Nat.mod_lt _ (by omega)
    have hrest : k ≤ (pool.eraseIdx (picks k % pool.length)).length := by
      rw [List.length_eraseIdx_of_lt hlt]
      omega
    rw [sample]
    rw [List.getElem?_eq_getElem hlt, List.length_cons, ih hrest]

structure Drawn (g : Giveaway) : Prop where
  nodup : g.winners.Nodup
  mem : ∀ w ∈ g.winners, w ∈ g.entrants
  length : g.winners.length = min g.prizes.length g.entrants.card

theorem drawn_of_select (picks : Nat → Nat)
    (h : g.winners = selectWinners picks g.entrants g.prizes.length) : Drawn g := by
  have hsub : g.winners.Subperm g.entrants.ids := h ▸ sample_subperm picks _ _
  refine ⟨?_, fun w hw => hsub.subset hw, ?_⟩
  · obtain ⟨l, hl, hle⟩ := hsub
    exact hl.nodup_iff.mp (g.entrants.nodup.sublist hle)
  · rw [h]
    exact length_sample picks (Nat.min_le_right _ _)

theorem Drawn.mem_iff (h : Drawn g) (hall : g.entrants.card ≤ g.prizes.length)
    {u : Nat} : u ∈ g.winners ↔ u ∈ g.entrants := by
  refine ⟨h.mem u, fun hu => ?_⟩
  have hsub : g.winners.Subperm g.entrants.ids := List.subperm_of_subset h.nodup h.mem
  have hlength : g.entrants.ids.length ≤ g.winners.length := by
    rw [h.length, Nat.min_eq_right hall]
    exact le_rfl
  exact (hsub.perm_of_length_le hlength).mem_iff.mpr hu

inductive Reply
  | message (text : String)
  | form
  deriving DecidableEq

def HAS_ENDED : String := "This giveaway has ended."

def welcome (g : Giveaway) : String :=
  "You're in! 🎉 Entry #" ++ g.entrants.card.repr ++ ", good luck!"

/-- `handle_entry`: the giveaway where it is changed, and the reply. -/
def handleEntry (g : Option Giveaway) (user : Nat) (founder : Bool) : Option Giveaway × Reply :=
  match g with
  | none => (none, .message HAS_ENDED)
  | some g =>
    if g.ended then (none, .message HAS_ENDED)
    else if user ∈ g.entrants then (none, .message "You're already entered!")
    else if g.founders then
      if founder then (none, .form) else (none, .message "This giveaway is for Founders only.")
    else
      let entered := { g with entrants := g.entrants.insert user }
      (some entered, .message (welcome entered))

def finishFoundersEntry (g : Option Giveaway) (user : Nat) (raw : String) :
    Option Giveaway × Reply :=
  match g with
  | none => (none, .message HAS_ENDED)
  | some g =>
    if g.ended then (none, .message HAS_ENDED)
    else
      match normalizeFriendCode py raw with
      | none => (none, .message ("That doesn't look like a Steam friend code (digits only, from " ++
          "Steam → Friends → Add a Friend) or a steamcommunity.com profile link. " ++
          "Click Enter again to retry."))
      | some code =>
        let entered := { g with
          entrants := g.entrants.insert user, codes := assign g.codes user code }
        (some entered, .message (if user ∈ g.entrants then "Updated your friend code."
          else welcome entered))

end LastSietch.Giveaways
