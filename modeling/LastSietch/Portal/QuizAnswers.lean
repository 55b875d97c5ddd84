import Mathlib

/-!
# The answers of the linking quiz

`portal_quiz`, with the answer check of `portal_link_quiz_submit`. Every read has been made: one
that fails is `none`. The random generator is any that permutes what it shuffles; NFKD is the
parameter `Nfkd`, and `hashlib.sha256` the function `sha256`. A partition of the roster is left out.

* `fair_of_mem_candidates`: what a question shows has one choice like its answer.
* `passes_iff`: the answers that pass.
-/

namespace LastSietch.QuizAnswers

/-- What Python's `str.strip` removes. -/
def isSpace (c : Char) : Bool :=
  let n := c.toNat
  (9 ≤ n && n ≤ 13) || (28 ≤ n && n ≤ 32) || n == 0x85 || n == 0xA0 || n == 0x1680 ||
    (0x2000 ≤ n && n ≤ 0x200A) || n == 0x2028 || n == 0x2029 || n == 0x202F || n == 0x205F ||
    n == 0x3000

def strip (text : List Char) : List Char :=
  ((text.dropWhile isSpace).reverse.dropWhile isSpace).reverse

def isAscii (c : Char) : Bool := c.toNat < 128

/-- `unicodedata.normalize("NFKD", ·)`: ASCII text stays as it is, and of white space nothing but
white space and characters outside ASCII comes. -/
structure Nfkd where
  apply : String → String
  ascii : ∀ s, (∀ c ∈ s.toList, isAscii c) → apply s = s
  blank : ∀ s, (∀ c ∈ s.toList, isSpace c) → ∀ c ∈ (apply s).toList, isAscii c → isSpace c

/-- `random.Random` with any seed. -/
structure Rng where
  State : Type
  shuffle : {α : Type} → State → List α → List α × State
  perm : ∀ {α : Type} (s : State) (l : List α), (shuffle s l).1.Perm l

inductive Kind
  | charLevel | currentMap | factionAlignment | pledgedHouse | characterName
  deriving DecidableEq, Repr

def allowedKinds : List Kind :=
  [.charLevel, .currentMap, .factionAlignment, .pledgedHouse, .characterName]

inductive Format
  | radio | text | numeric
  deriving DecidableEq, Repr

structure GeneratedQuestion where
  kind : Kind
  prompt : String
  format : Format
  correct : String
  choices : Option (List String)
  inputName : String
  deriving DecidableEq, Repr

structure GeneratedQuiz where
  questions : List GeneratedQuestion
  correctHashes : List String
  kinds : List Kind
  deriving DecidableEq, Repr

structure Player where
  accountId : Option Int
  charName : Option String
  name : Option String
  lvl : Option Int

inductive Tag
  | text (s : String)
  | entry (name tag id : Option String)
  | other

/-- The `faction` of a progress payload. -/
structure Faction where
  factionName : Option String
  factionId : Option Int

structure RosterMap where
  map : Option String
  players : List (Option String)

structure Reads where
  players : Option (List Player)
  mirrorTags : Option (List Tag)
  relayTags : Option (List Tag)
  mirrorProgress : Option Faction
  relayProgress : Option Faction
  roster : Option (List RosterMap)

def factionChoices : List String := ["Atreides", "Harkonnen", "Unaligned"]

def mapDisplayNames : List (String × String) :=
  [("Survival_1", "Hagga Basin"), ("DeepDesert", "Deep Desert"), ("Overmap", "Overmap"),
    ("SH_Arrakeen", "Arrakeen"), ("SH_HarkoVillage", "Harko Village")]

def majorHouses : List String :=
  ["Atreides", "Harkonnen", "Corrino", "Vernius", "Moritani", "Richese"]

/-- Python's `a or b or ""`. -/
def orElse (a b : Option String) : String := if a.getD "" = "" then b.getD "" else a.getD ""

section Answers

variable (nfkd : Nfkd) (sha256 : String → String)

def normalize (answer : String) : String :=
  String.ofList ((strip ((nfkd.apply answer).toList.filter isAscii)).map Char.toLower)

def hashAnswer (answer : String) : String := sha256 (normalize nfkd answer)

def verifyAnswer (submitted expectedHash : String) : Bool :=
  if expectedHash = "" then false else hashAnswer nfkd sha256 submitted == expectedHash

/-! ## What the player is -/

def flatTag : Tag → Option String
  | .text s => some s
  | .entry name tag id => some (orElse name (some (orElse tag id))) |>.filter (· ≠ "")
  | .other => none

def readPlayerTags (r : Reads) : List String :=
  ((r.mirrorTags <|> r.relayTags).getD []).filterMap flatTag

def deriveFaction (tags : List String) : Option String :=
  if "DialogueFlags.Factions.AlignedAtreides" ∈ tags then some "Atreides"
  else if "DialogueFlags.Factions.AlignedHarkonnen" ∈ tags then some "Harkonnen"
  else
    let atreides := tags.any fun t => "Faction.Atreides".toList.isPrefixOf t.toList
    let harkonnen := tags.any fun t => "Faction.Harkonnen".toList.isPrefixOf t.toList
    match atreides, harkonnen with
    | true, false => some "Atreides"
    | false, true => some "Harkonnen"
    | false, false => some "Unaligned"
    | true, true => none

def currentFaction (progress : Option Faction) (tags : List String) : Option String :=
  let name := progress.bind Faction.factionName
  let fid := progress.bind Faction.factionId
  if name = some "Atreides" ∨ name = some "Harkonnen" then name
  else if fid = some 1 then some "Atreides"
  else if fid = some 2 then some "Harkonnen"
  else deriveFaction tags

def derivePledgedHouse (tags : List String) : Option String :=
  let pre := "Landsraad.PledgedHouse.".toList
  (tags.find? fun t => pre.isPrefixOf t.toList).map fun t =>
    String.ofList (t.toList.drop pre.length)

/-- `_SHARD_SUFFIX_RE.sub("", raw)`, with `\d` as `digit`. -/
def base (digit : Char → Bool) (raw : String) : String :=
  match raw.toList.reverse.span digit with
  | (_ :: _, '_' :: rest) => String.ofList rest.reverse
  | _ => raw

def friendly (digit : Char → Bool) (raw : String) : String :=
  orElse (mapDisplayNames.lookup raw) (some (orElse (mapDisplayNames.lookup (base digit raw)) raw))

/-- The map of the first player of the roster with this name. -/
def deriveCurrentMap (digit : Char → Bool) (roster : Option (List RosterMap)) (charName : String) :
    Option String :=
  if charName = "" then none
  else
    let index := (roster.getD []).flatMap fun m => m.players.filterMap fun p =>
      let key := normalize nfkd (p.getD "")
      if key = "" then none else some (key, friendly digit (m.map.getD ""))
    index.lookup (normalize nfkd charName)

/-! ## The questions -/

variable (rng : Rng)

/-- The values next to `level`, in order as the offsets are. -/
def levelDistractors (level : Int) (s : rng.State) : List Int × rng.State :=
  let pool := ([-2, -1, 1, 2, 3, 4, 5].map (level + ·)).filter fun l => 0 < l && l != level
  let (pool, s) := rng.shuffle s pool
  (pool.take 2, s)

/-- A selection of the right answer and the `distractors`. -/
def selection (kind : Kind) (prompt correct : String) (distractors : List String)
    (s : rng.State) : GeneratedQuestion × rng.State :=
  let (choices, s) := rng.shuffle s (correct :: distractors)
  (⟨kind, prompt, .radio, correct, some choices, ""⟩, s)

def qCharLevel (level : Int) (s : rng.State) : GeneratedQuestion × rng.State :=
  let (distractors, s) := levelDistractors rng level s
  selection rng .charLevel "What is your character's current level?" level.repr
    (distractors.map Int.repr) s

def qCurrentMap (currentMap : String) (s : rng.State) : GeneratedQuestion × rng.State :=
  let (distractors, s) := rng.shuffle s ((mapDisplayNames.map Prod.snd).filter (· ≠ currentMap))
  selection rng .currentMap "What map is your character currently in?" currentMap
    (distractors.take 2) s

def qFaction (faction : String) (s : rng.State) : GeneratedQuestion × rng.State :=
  let (choices, s) := rng.shuffle s factionChoices
  (⟨.factionAlignment, "What faction is your character aligned with?", .radio, faction,
    some choices, ""⟩, s)

def qPledgedHouse (house : String) (allHouses : List String) (s : rng.State) :
    GeneratedQuestion × rng.State :=
  let (distractors, s) := rng.shuffle s (allHouses.filter (· ≠ house))
  selection rng .pledgedHouse "Which house are you currently pledged to in the Landsraad?" house
    (distractors.take 2) s

/-- At most `n` names of the pool that are not empty, like each other or like one of `seen`. -/
def otherNames : Nat → List String → List String → List String
  | 0, _, _ => []
  | _, _, [] => []
  | n + 1, seen, name :: pool =>
    let nn := normalize nfkd name
    if nn = "" ∨ nn ∈ seen then otherNames (n + 1) seen pool
    else name :: otherNames n (nn :: seen) pool

def qCharacterName (charName : String) (namePool : List String) (s : rng.State) :
    GeneratedQuestion × rng.State :=
  let (pool, s) := rng.shuffle s namePool
  let distractors := otherNames nfkd 3 [normalize nfkd charName] pool
  if distractors.length < 3 then
    (⟨.characterName, "What is the exact character name on this account?", .text, charName, none,
      ""⟩, s)
  else
    selection rng .characterName "Which of these is your character's name?" charName distractors s

/-! ## The quiz -/

/-- `candidates.append`, when there is a question to build. -/
def offer (build : Option (rng.State → GeneratedQuestion × rng.State))
    (c : List GeneratedQuestion × rng.State) : List GeneratedQuestion × rng.State :=
  match build with
  | none => c
  | some f => (c.1 ++ [(f c.2).1], (f c.2).2)

def candidates (level : Option Int) (currentMap faction house : Option String) (name : String)
    (namePool : List String) (s : rng.State) : List GeneratedQuestion × rng.State :=
  ([], s)
    |> offer rng ((level.filter (0 < ·)).map (qCharLevel rng))
    |> offer rng ((currentMap.filter (· ≠ "")).map (qCurrentMap rng))
    |> offer rng ((faction.filter (· ∈ factionChoices)).map (qFaction rng))
    |> offer rng ((house.filter (· ≠ "")).map (qPledgedHouse rng · majorHouses))
    |> offer rng (if name = "" then none else some (qCharacterName nfkd rng name namePool))

/-- The first `n` candidates of kinds that are allowed and not among `seen`. -/
def select : Nat → List Kind → List GeneratedQuestion → List GeneratedQuestion
  | 0, _, _ => []
  | _, _, [] => []
  | n + 1, seen, q :: rest =>
    if q.kind ∈ seen ∨ q.kind ∉ allowedKinds then select (n + 1) seen rest
    else q :: select n (q.kind :: seen) rest

/-- `digit` is the `\d` of the shard suffix. -/
def generateQuiz (digit : Char → Bool) (accountId : Int) (r : Reads) (s : rng.State) :
    Option GeneratedQuiz := do
  let players ← r.players
  let mine (p : Player) : Bool := p.accountId.getD 0 = accountId
  -- a later row of the account replaces the one before it
  let snapshot ← (players.filter mine).getLast?
  let namePool := ((players.filter (!mine ·)).map fun p => orElse p.charName p.name).filter (· ≠ "")
  let name := orElse snapshot.charName snapshot.name
  let tags := readPlayerTags r
  let faction := currentFaction (r.mirrorProgress <|> r.relayProgress) tags
  let currentMap := deriveCurrentMap nfkd digit r.roster name
  let house := derivePledgedHouse tags
  let selected :=
    select 3 [] (candidates nfkd rng snapshot.lvl currentMap faction house name namePool s).1
  if selected.length < 3 then none
  else
    let questions := selected.mapIdx fun i q => { q with inputName := "q" ++ toString i }
    some ⟨questions, questions.map (hashAnswer nfkd sha256 ·.correct), questions.map (·.kind)⟩

/-- The answer of the form to question `i`. -/
def submitted (form : String → Option String) (i : Nat) : String :=
  orElse (form ("q" ++ toString i)) (form ("q" ++ toString i ++ "_answer"))

/-- `all_correct` of `portal_link_quiz_submit`. -/
def allCorrect (form : String → Option String) (expectedHashes : List String) : Bool :=
  (List.range 3).all fun i => verifyAnswer nfkd sha256 (submitted form i) (expectedHashes.getD i "")

end Answers

variable {nfkd : Nfkd} {sha256 : String → String} {rng : Rng}

/-! ## The choices -/

/-- No map or house that is offered beside the right one has its normal form. -/
def Distinguishable (nfkd : Nfkd) (q : GeneratedQuestion) : Prop :=
  (q.kind = .currentMap → ∀ m ∈ mapDisplayNames.map Prod.snd,
    normalize nfkd m = normalize nfkd q.correct → m = q.correct) ∧
  (q.kind = .pledgedHouse → ∀ h ∈ majorHouses,
    normalize nfkd h = normalize nfkd q.correct → h = q.correct)

/-- The choices of a question are its answer and others that are not like it. -/
def Fair (nfkd : Nfkd) (q : GeneratedQuestion) : Prop :=
  ∀ choices, q.choices = some choices → Distinguishable nfkd q →
    ∃ others, choices.Perm (q.correct :: others) ∧
      ∀ d ∈ others, normalize nfkd d ≠ normalize nfkd q.correct

theorem normalize_ascii {s : String} (h : ∀ c ∈ s.toList, isAscii c) :
    normalize nfkd s = String.ofList ((strip s.toList).map Char.toLower) := by
  have kept : s.toList.filter isAscii = s.toList := List.filter_eq_self.mpr h
  rw [normalize, nfkd.ascii s h, kept]

theorem strip_eq_self {text : List Char} (h : ∀ c ∈ text, isSpace c = false) :
    strip text = text := by
  have keep : ∀ l : List Char, (∀ c ∈ l, isSpace c = false) → l.dropWhile isSpace = l := by
    intro l hl
    cases l with
    | nil => rfl
    | cons c l => rw [List.dropWhile_cons, if_neg (by simp [hl c])]
  rw [strip, keep text h, keep _ (fun c hc => h c (List.mem_reverse.mp hc)), List.reverse_reverse]

theorem digit_plain {c : Char} (h : c.isDigit) :
    isAscii c ∧ isSpace c = false ∧ c.toLower = c := by
  simp only [Char.isDigit, Bool.and_eq_true, decide_eq_true_eq] at h
  have lo : 48 ≤ c.toNat := h.1
  have hi : c.toNat ≤ 57 := h.2
  refine ⟨by simp [isAscii]; omega, by simp [isSpace]; omega, ?_⟩
  have notUpper : ¬ (65 ≤ c.toNat ∧ c.toNat ≤ 90) := by omega
  exact dif_neg notUpper

theorem normalize_repr (n : Nat) : normalize nfkd n.repr = n.repr := by
  have digits : ∀ c ∈ n.repr.toList, c.isDigit := by
    intro c hc
    rw [Nat.repr, String.toList_ofList] at hc
    exact Nat.isDigit_of_mem_toDigits (by decide) (by decide) hc
  rw [normalize_ascii fun c hc => (digit_plain (digits c hc)).1,
    strip_eq_self fun c hc => (digit_plain (digits c hc)).2.1,
    List.map_congr_left fun c hc => (digit_plain (digits c hc)).2.2, List.map_id',
    String.ofList_toList]

theorem normalize_level {a b : Int} (ha : 0 < a) (hb : 0 < b)
    (h : normalize nfkd a.repr = normalize nfkd b.repr) : a = b := by
  obtain ⟨a, rfl⟩ := Int.eq_ofNat_of_zero_le ha.le
  obtain ⟨b, rfl⟩ := Int.eq_ofNat_of_zero_le hb.le
  have reprs : (a : Int).repr = (b : Int).repr := by
    have ea : (a : Int).repr = a.repr := rfl
    have eb : (b : Int).repr = b.repr := rfl
    rw [ea, eb, normalize_repr, normalize_repr] at h
    rw [ea, eb, h]
  exact Int.repr_injective reprs

theorem selection_fair {kind : Kind} {prompt correct : String} {others : List String}
    {s : rng.State}
    (h : Distinguishable nfkd (selection rng kind prompt correct others s).1 →
      ∀ d ∈ others, normalize nfkd d ≠ normalize nfkd correct) :
    Fair nfkd (selection rng kind prompt correct others s).1 := by
  intro choices hc hd
  obtain rfl : (rng.shuffle s (correct :: others)).1 = choices := Option.some.inj hc
  exact ⟨others, rng.perm s _, h hd⟩

theorem charLevel_fair {level : Int} (h : 0 < level) (s : rng.State) :
    Fair nfkd (qCharLevel rng level s).1 := by
  refine selection_fair fun _ d hd same => ?_
  obtain ⟨l, hl, rfl⟩ := List.mem_map.mp hd
  have mem := (rng.perm s _).mem_iff.mp (List.mem_of_mem_take hl)
  have ok := (List.mem_filter.mp mem).2
  simp only [Bool.and_eq_true, decide_eq_true_eq, bne_iff_ne] at ok
  exact ok.2 (normalize_level ok.1 h same)

theorem currentMap_fair (currentMap : String) (s : rng.State) :
    Fair nfkd (qCurrentMap rng currentMap s).1 := by
  refine selection_fair fun apart d hd same => ?_
  have mem := (rng.perm s _).mem_iff.mp (List.mem_of_mem_take hd)
  obtain ⟨known, other⟩ := List.mem_filter.mp mem
  exact of_decide_eq_true other (apart.1 rfl d known same)

theorem pledgedHouse_fair (house : String) (s : rng.State) :
    Fair nfkd (qPledgedHouse rng house majorHouses s).1 := by
  refine selection_fair fun apart d hd same => ?_
  have mem := (rng.perm s _).mem_iff.mp (List.mem_of_mem_take hd)
  obtain ⟨known, other⟩ := List.mem_filter.mp mem
  exact of_decide_eq_true other (apart.2 rfl d known same)

theorem normalize_faction {f : String} (h : f ∈ factionChoices) :
    normalize nfkd f = String.ofList (f.toList.map Char.toLower) := by
  have plain : factionChoices.all (·.toList.all fun c => isAscii c && !isSpace c) = true := by
    decide
  simp only [List.all_eq_true, Bool.and_eq_true, Bool.not_eq_true'] at plain
  rw [normalize_ascii fun c hc => (plain f h c hc).1, strip_eq_self fun c hc => (plain f h c hc).2]

theorem faction_fair {faction : String} (h : faction ∈ factionChoices) (s : rng.State) :
    Fair nfkd (qFaction rng faction s).1 := by
  intro choices hc _
  obtain rfl : (rng.shuffle s factionChoices).1 = choices := Option.some.inj hc
  refine ⟨factionChoices.erase faction, (rng.perm s _).trans (List.perm_cons_erase h), ?_⟩
  intro d hd same
  change normalize nfkd d = normalize nfkd faction at same
  rw [normalize_faction (List.mem_of_mem_erase hd), normalize_faction h] at same
  have apart : ∀ f ∈ factionChoices, ∀ d ∈ factionChoices.erase f,
      String.ofList (d.toList.map Char.toLower) ≠ String.ofList (f.toList.map Char.toLower) := by
    decide
  exact apart faction h d hd same

theorem otherNames_apart {n : Nat} {seen pool : List String} :
    ∀ d ∈ otherNames nfkd n seen pool, normalize nfkd d ∉ seen := by
  fun_induction otherNames nfkd n seen pool with
  | case1 => simp
  | case2 => simp
  | case3 n seen name pool nn skip ih => exact ih
  | case4 n seen name pool nn keep ih =>
    intro d hd
    obtain rfl | hd := List.mem_cons.mp hd
    · exact fun h => keep (.inr h)
    · exact fun h => ih d hd (List.mem_cons_of_mem _ h)

theorem characterName_fair (charName : String) (namePool : List String) (s : rng.State) :
    Fair nfkd (qCharacterName nfkd rng charName namePool s).1 := by
  simp only [qCharacterName]
  split
  · intro choices hc
    cases hc
  · refine selection_fair fun _ d hd same => ?_
    exact otherNames_apart d hd (List.mem_singleton.mpr same)

theorem forall_mem_offer {P : GeneratedQuestion → Prop}
    {build : Option (rng.State → GeneratedQuestion × rng.State)}
    {c : List GeneratedQuestion × rng.State}
    (hb : ∀ f, build = some f → ∀ s, P (f s).1) (hc : ∀ q ∈ c.1, P q) :
    ∀ q ∈ (offer rng build c).1, P q := by
  cases build with
  | none => exact hc
  | some f =>
    intro q hq
    obtain hq | hq := List.mem_append.mp hq
    · exact hc q hq
    · exact List.mem_singleton.mp hq ▸ hb f rfl c.2

theorem fair_of_mem_candidates {level : Option Int} {currentMap faction house : Option String}
    {name : String} {namePool : List String} {s : rng.State} :
    ∀ q ∈ (candidates nfkd rng level currentMap faction house name namePool s).1,
      Fair nfkd q := by
  refine forall_mem_offer ?_ <| forall_mem_offer ?_ <| forall_mem_offer ?_ <|
    forall_mem_offer ?_ <| forall_mem_offer ?_ (by simp)
  · intro f hf s
    split at hf
    · cases hf
    · obtain rfl := Option.some.inj hf
      exact characterName_fair name namePool s
  · intro f hf s
    obtain ⟨house, _, rfl⟩ := Option.map_eq_some_iff.mp hf
    exact pledgedHouse_fair house s
  · intro f hf s
    obtain ⟨faction, hm, rfl⟩ := Option.map_eq_some_iff.mp hf
    exact faction_fair (of_decide_eq_true (Option.filter_eq_some_iff.mp hm).2) s
  · intro f hf s
    obtain ⟨map, _, rfl⟩ := Option.map_eq_some_iff.mp hf
    exact currentMap_fair map s
  · intro f hf s
    obtain ⟨level, hl, rfl⟩ := Option.map_eq_some_iff.mp hf
    exact charLevel_fair (of_decide_eq_true (Option.filter_eq_some_iff.mp hl).2) s

theorem select_sublist {n : Nat} {seen : List Kind} {l : List GeneratedQuestion} :
    (select n seen l).Sublist l ∧ (select n seen l).length ≤ n := by
  fun_induction select n seen l with
  | case1 => simp
  | case2 => simp
  | case3 n seen q rest skip ih => exact ⟨ih.1.cons q, ih.2⟩
  | case4 n seen q rest keep ih => exact ⟨ih.1.cons_cons q, Nat.succ_le_succ ih.2⟩

theorem generateQuiz_spec {digit : Char → Bool} {accountId : Int} {r : Reads} {s : rng.State}
    {quiz : GeneratedQuiz} (h : generateQuiz nfkd sha256 rng digit accountId r s = some quiz) :
    quiz.questions.length = 3 ∧ (∀ q ∈ quiz.questions, Fair nfkd q) ∧
      quiz.correctHashes = quiz.questions.map (hashAnswer nfkd sha256 ·.correct) := by
  simp only [generateQuiz, Option.bind_eq_bind, Option.bind_eq_some_iff] at h
  obtain ⟨players, -, snapshot, -, h⟩ := h
  split at h
  · cases h
  · next enough =>
    obtain rfl := Option.some.inj h
    refine ⟨?_, ?_, rfl⟩
    · rw [List.length_mapIdx]
      exact Nat.le_antisymm select_sublist.2 (by omega)
    · intro q hq
      obtain ⟨i, hi, rfl⟩ := List.mem_mapIdx.mp hq
      have fair := fair_of_mem_candidates _ (select_sublist.1.subset (List.getElem_mem hi))
      exact fair

/-! ## The answers -/

/-- An answer that is missing or nothing but white space. -/
def Blank (answer : String) : Prop := ∀ c ∈ answer.toList, isSpace c

/-- The digests of what is answered or shown differ where the normal forms do, and none is empty. -/
def Collisionless (nfkd : Nfkd) (sha256 : String → String) (quiz : GeneratedQuiz)
    (form : String → Option String) : Prop :=
  ∀ q ∈ quiz.questions, hashAnswer nfkd sha256 q.correct ≠ "" ∧
    ∀ t, (t ∈ q.choices.getD [] ∨ ∃ i, t = submitted form i) →
      hashAnswer nfkd sha256 t = hashAnswer nfkd sha256 q.correct →
      normalize nfkd t = normalize nfkd q.correct

theorem verifyAnswer_iff {q : GeneratedQuestion} {t : String}
    (hne : hashAnswer nfkd sha256 q.correct ≠ "")
    (h : hashAnswer nfkd sha256 t = hashAnswer nfkd sha256 q.correct →
      normalize nfkd t = normalize nfkd q.correct) :
    verifyAnswer nfkd sha256 t (hashAnswer nfkd sha256 q.correct) = true ↔
      normalize nfkd t = normalize nfkd q.correct := by
  rw [verifyAnswer, if_neg hne, beq_iff_eq]
  exact ⟨h, fun same => congrArg sha256 same⟩

theorem normalize_blank {answer : String} (h : Blank answer) : normalize nfkd answer = "" := by
  have spaces : ∀ c ∈ (nfkd.apply answer).toList.filter isAscii, isSpace c := fun c hc =>
    nfkd.blank answer h c (List.mem_filter.mp hc).1 (List.mem_filter.mp hc).2
  rw [normalize, strip, List.dropWhile_eq_nil_iff.mpr spaces]
  rfl

theorem passes_iff {quiz : GeneratedQuiz} {form : String → Option String}
    (three : quiz.questions.length = 3)
    (hashes : quiz.correctHashes = quiz.questions.map (hashAnswer nfkd sha256 ·.correct))
    (hc : Collisionless nfkd sha256 quiz form) :
    allCorrect nfkd sha256 form quiz.correctHashes = true ↔
      ∀ i q, quiz.questions[i]? = some q →
        normalize nfkd (submitted form i) = normalize nfkd q.correct := by
  have one : ∀ i q, quiz.questions[i]? = some q →
      (verifyAnswer nfkd sha256 (submitted form i) (quiz.correctHashes.getD i "") = true ↔
        normalize nfkd (submitted form i) = normalize nfkd q.correct) := by
    intro i q hq
    obtain ⟨hne, apart⟩ := hc q (List.mem_of_getElem? hq)
    have stored : quiz.correctHashes.getD i "" = hashAnswer nfkd sha256 q.correct := by
      simp [hashes, List.getD_eq_getElem?_getD, hq]
    rw [stored]
    exact verifyAnswer_iff hne (apart _ (.inr ⟨i, rfl⟩))
  simp only [allCorrect, List.all_eq_true, List.mem_range]
  constructor
  · intro h i q hq
    have lt := (List.getElem?_eq_some_iff.mp hq).1
    exact (one i q hq).mp (h i (three ▸ lt))
  · intro h i hi
    have hq := List.getElem?_eq_getElem (three.symm ▸ hi : i < quiz.questions.length)
    exact (one i _ hq).mpr (h i _ hq)

theorem one_accepted {quiz : GeneratedQuiz} {form : String → Option String}
    (hc : Collisionless nfkd sha256 quiz form) {q : GeneratedQuestion} (hq : q ∈ quiz.questions)
    (fair : Fair nfkd q) {choices : List String} (shown : q.choices = some choices)
    (hd : Distinguishable nfkd q) :
    q.correct ∈ choices ∧
      choices.countP (verifyAnswer nfkd sha256 · (hashAnswer nfkd sha256 q.correct)) = 1 := by
  obtain ⟨others, perm, apart⟩ := fair choices shown hd
  obtain ⟨hne, digests⟩ := hc q hq
  have accepts : ∀ t ∈ choices,
      (verifyAnswer nfkd sha256 t (hashAnswer nfkd sha256 q.correct) = true ↔
        normalize nfkd t = normalize nfkd q.correct) := fun t ht =>
    verifyAnswer_iff hne (digests t (.inl (by rw [shown]; exact ht)))
  have right : q.correct ∈ choices := perm.mem_iff.mpr List.mem_cons_self
  refine ⟨right, ?_⟩
  have none_other : others.countP
      (verifyAnswer nfkd sha256 · (hashAnswer nfkd sha256 q.correct)) = 0 := by
    rw [List.countP_eq_zero]
    intro d hd' accepted
    exact apart d hd' ((accepts d (perm.mem_iff.mpr (List.mem_cons_of_mem _ hd'))).mp accepted)
  rw [perm.countP_eq, List.countP_cons, none_other, if_pos ((accepts _ right).mpr rfl)]

/-- The answers to a quiz pass exactly when each has the normal form of its question's correct
answer: compatibility decomposed, without the characters outside ASCII and the space around, and in
small letters. No answer that is missing or blank passes for a correct answer whose normal form is
not empty; and of the choices of a question one is accepted, unless a map or a house is shown
beside the right one that only the normal form takes for it. -/
theorem answers_checked {digit : Char → Bool} {accountId : Int} {r : Reads} {s : rng.State}
    {quiz : GeneratedQuiz} (h : generateQuiz nfkd sha256 rng digit accountId r s = some quiz)
    {form : String → Option String} (hc : Collisionless nfkd sha256 quiz form) :
    quiz.questions.length = 3 ∧
    (allCorrect nfkd sha256 form quiz.correctHashes = true ↔
      ∀ i q, quiz.questions[i]? = some q →
        normalize nfkd (submitted form i) = normalize nfkd q.correct) ∧
    (∀ i q, quiz.questions[i]? = some q → Blank (submitted form i) →
      normalize nfkd q.correct ≠ "" →
        allCorrect nfkd sha256 form quiz.correctHashes = false) ∧
    ∀ q ∈ quiz.questions, ∀ choices, q.choices = some choices → Distinguishable nfkd q →
      q.correct ∈ choices ∧
        choices.countP (verifyAnswer nfkd sha256 · (hashAnswer nfkd sha256 q.correct)) = 1 := by
  obtain ⟨three, fair, hashes⟩ := generateQuiz_spec h
  have passes := passes_iff three hashes hc
  refine ⟨three, passes, ?_, ?_⟩
  · intro i q hq blank nonempty
    rw [← Bool.not_eq_true]
    intro pass
    exact nonempty ((passes.mp pass i q hq).symm.trans (normalize_blank blank))
  · intro q hq choices shown hd
    exact one_accepted hc hq (fair q hq) shown hd

/-! ## A name with a letter outside ASCII -/

/-- What two answers share that are equal up to letter case, diacritics and surrounding space. -/
def plain (nfkd : Nfkd) (answer : String) : String :=
  let mark (c : Char) := 0x300 ≤ c.toNat && c.toNat ≤ 0x36F
  String.ofList ((strip ((nfkd.apply answer).toList.filter (!mark ·))).map Char.toLower)

/-- No character of the texts below has a decomposition. -/
def composed : Nfkd := ⟨id, fun _ _ => rfl, fun _ h c hc _ => h c hc⟩

def unshuffled : Rng := ⟨Unit, fun _ l => (l, ()), fun _ l => .refl l⟩

/-- Chani, of level 5 and house Atreides, is offline. -/
def chani : Reads :=
  ⟨some [⟨some 1, some "Chani", none, some 5⟩], none, some [], none,
    some ⟨some "Atreides", some 1⟩, some []⟩

def chaniQuiz : GeneratedQuiz :=
  ⟨[⟨.charLevel, "What is your character's current level?", .radio, "5",
      some ["5", "3", "4"], "q0"⟩,
    ⟨.factionAlignment, "What faction is your character aligned with?", .radio, "Atreides",
      some factionChoices, "q1"⟩,
    ⟨.characterName, "What is the exact character name on this account?", .text, "Chani", none,
      "q2"⟩],
    ["#5", "#atreides", "#chani"], [.charLevel, .factionAlignment, .characterName]⟩

def filled (name : String) : String → Option String :=
  fun k => [("q0", "5"), ("q1", "Atreides"), ("q2", name)].lookup k

theorem answers_checked_chani :
    generateQuiz composed ("#" ++ ·) unshuffled Char.isDigit 1 chani () = some chaniQuiz ∧
      allCorrect composed ("#" ++ ·) (filled " CHANI") chaniQuiz.correctHashes = true := by
  have issued : generateQuiz composed ("#" ++ ·) unshuffled Char.isDigit 1 chani () =
      some chaniQuiz := by decide
  refine ⟨issued, (answers_checked issued ?_).2.1.mpr ?_⟩
  · intro q _
    refine ⟨by simp [hashAnswer], fun t _ same => ?_⟩
    exact String.append_right_inj "#" |>.mp same
  · intro i q hq
    have lt : i < 3 := (List.getElem?_eq_some_iff.mp hq).1
    interval_cases i <;> obtain rfl := Option.some.inj hq <;> decide

/-- A letter outside ASCII after the name is no matter of case, diacritics or space. -/
theorem other_name_passes :
    generateQuiz composed ("#" ++ ·) unshuffled Char.isDigit 1 chani () = some chaniQuiz ∧
      allCorrect composed ("#" ++ ·) (filled "ChaniЖ") chaniQuiz.correctHashes = true ∧
      plain composed (submitted (filled "ChaniЖ") 2) ≠ plain composed "Chani" := by
  refine ⟨by decide, by decide, by decide⟩

end LastSietch.QuizAnswers
