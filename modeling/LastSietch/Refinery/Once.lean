import LastSietch.Refinery.Exchange

/-!
# The exchange is atomic, conserving and once-only

`turns` follows the requests of a run, the game being free to change its own tables between
them. A turn is `Lawful` when it changes nothing or is an exact trade, and `Settles` says what
an answered live request means for a later one under its key.

* `lawful_turn`: one request.
-/

namespace LastSietch.Refinery

/-! ## Runs -/

inductive Event
  | request (c : Call)
  | game (g : Game)

structure Turn where
  before : Db
  call : Call
  reply : Except Refusal Result
  after : Db

def turn (delete : Items → Nat → Int → Items) (c : Call) (db : Db) : Turn :=
  ⟨db, c, (exchange delete c db).1, (exchange delete c db).2⟩

def turns (delete : Items → Nat → Int → Items) : Db → List Event → List Turn
  | _, [] => []
  | db, .request c :: es => turn delete c db :: turns delete (turn delete c db).after es
  | db, .game g :: es => turns delete { db with game := g } es

def Turn.Live (t : Turn) : Prop := t.call.dryRun = false ∧ ∃ r, t.reply = .ok r

def Turn.Used (t : Turn) (e : Exchange) : Prop :=
  e ∈ t.before.ledger ∧ e.idempotencyKey = t.call.idempotencyKey

structure Turn.Lawful (t : Turn) : Prop where
  raise : ∀ e, t.reply = .error e → t.after = t.before
  dryRun : t.call.dryRun = true → t.after = t.before
  used : ∀ e, t.Used e → t.after = t.before ∧
    ∀ r, t.reply = .ok r → ∃ terms, accept t.call = .ok terms ∧ e.Agrees terms
  fresh : t.Live → (∀ e, ¬ t.Used e) →
    ∃ terms, accept t.call = .ok terms ∧ Traded terms t.before t.after

/-- A later request under the key of `s` changes nothing, and it succeeds only if the two agree
with one stored row. -/
def Settles (s t : Turn) : Prop :=
  s.Live → t.call.idempotencyKey = s.call.idempotencyKey →
    t.after = t.before ∧ ∀ r, t.reply = .ok r →
      ∃ (e : Exchange) (terms terms' : Terms), accept s.call = .ok terms ∧
        accept t.call = .ok terms' ∧ e.Agrees terms ∧ e.Agrees terms'

section Run

variable {delete : Items → Nat → Int → Items} (hdel : RemovesExactly delete)

include hdel in
theorem lawful_turn (c : Call) (db : Db) : (turn delete c db).Lawful where
  raise _ h := exchange_error h
  dryRun hdry := exchange_dryRun hdry
  used _ he := exchange_used he.1 he.2
  fresh hlive hfresh := by
    obtain ⟨hdry, r, hr⟩ := hlive
    exact exchange_fresh hdel hdry (fun e he hkey => hfresh e ⟨he, hkey⟩) hr

include hdel in
theorem stored {c : Call} {db : Db} (hlive : (turn delete c db).Live) :
    ∃ e ∈ (turn delete c db).after.ledger, e.idempotencyKey = c.idempotencyKey ∧
      ∃ terms, accept c = .ok terms ∧ e.Agrees terms := by
  have hlaw := lawful_turn hdel c db
  by_cases hused : ∃ e, (turn delete c db).Used e
  · obtain ⟨e, he⟩ := hused
    obtain ⟨hsame, hagrees⟩ := hlaw.used e he
    obtain ⟨-, r, hr⟩ := hlive
    rw [hsame]
    exact ⟨e, he.1, he.2, hagrees r hr⟩
  · obtain ⟨terms, haccept, p, ingots, melange, items₁, items₂, row, htrade⟩ :=
      hlaw.fresh hlive (not_exists.mp hused)
    refine ⟨row, (Table.mem_of_rows htrade.ledger).mpr (Or.inl rfl), ?_, terms, haccept,
      htrade.agrees⟩
    exact htrade.key.trans (accept_spec haccept).2.2.2.1

include hdel in
theorem ledger_stays (c : Call) {db : Db} {e : Exchange} (he : e ∈ db.ledger) :
    e ∈ (turn delete c db).after.ledger := by
  have hlaw := lawful_turn hdel c db
  by_cases hsame : (turn delete c db).after = db
  · rw [hsame]
    exact he
  · have hdry : c.dryRun = false := by
      cases hdry : c.dryRun with
      | false => rfl
      | true => exact absurd (hlaw.dryRun hdry) hsame
    have hok : ∃ r, (turn delete c db).reply = .ok r := by
      cases hreply : (turn delete c db).reply with
      | error e => exact absurd (hlaw.raise e hreply) hsame
      | ok r => exact ⟨r, rfl⟩
    obtain ⟨terms, -, p, ingots, melange, items₁, items₂, row, htrade⟩ :=
      hlaw.fresh ⟨hdry, hok⟩ (fun e he => hsame (hlaw.used e he).1)
    exact (Table.mem_of_rows htrade.ledger).mpr (Or.inr he)

include hdel in
theorem stays_stored {db : Db} {es : List Event} {e : Exchange} (he : e ∈ db.ledger) {t : Turn}
    (ht : t ∈ turns delete db es) : e ∈ t.before.ledger := by
  induction es generalizing db with
  | nil => cases ht
  | cons ev es ih =>
    cases ev with
    | request c =>
      rcases List.mem_cons.mp ht with rfl | ht
      · exact he
      · exact ih (ledger_stays hdel c he) ht
    | game g =>
      have he' : e ∈ ({ db with game := g } : Db).ledger := he
      exact ih he' ht

include hdel in
theorem lawful_turns {db : Db} {es : List Event} {t : Turn} (ht : t ∈ turns delete db es) :
    t.Lawful := by
  induction es generalizing db with
  | nil => cases ht
  | cons ev es ih =>
    cases ev with
    | request c =>
      rcases List.mem_cons.mp ht with rfl | ht
      · exact lawful_turn hdel c db
      · exact ih ht
    | game g => exact ih ht

include hdel in
theorem settles_turns (db : Db) (es : List Event) : (turns delete db es).Pairwise Settles := by
  induction es generalizing db with
  | nil => exact List.Pairwise.nil
  | cons ev es ih =>
    cases ev with
    | request c =>
      refine List.Pairwise.cons ?_ (ih _)
      intro t ht hlive hkey
      obtain ⟨e, he, hekey, terms, haccept, hagrees⟩ := stored hdel hlive
      have hused : t.Used e := ⟨stays_stored hdel he ht, hekey.trans hkey.symm⟩
      obtain ⟨hsame, hreplay⟩ := (lawful_turns hdel ht).used e hused
      refine ⟨hsame, fun r hr => ?_⟩
      obtain ⟨terms', haccept', hagrees'⟩ := hreplay r hr
      exact ⟨e, terms, terms', haccept, haccept', hagrees, hagrees'⟩
    | game g => exact ih _

end Run

def copper (inputPerBatch : Nat) : Recipe where
  tier := 1
  inputTemplate := "CopperBar"
  spiceTemplate := "MelangeSpice"
  outputTemplate := "T1UniqueComponent"
  inputPerBatch := inputPerBatch
  spicePerBatch := 1
  outputPerBatch := 10
  maxStack := 500
  enabled := true

def copperRates (inputPerBatch : Nat) (h : 1 ≤ inputPerBatch := by decide) : Rates where
  rateVersion := "2026-09-07a"
  maxBatchesPerRequest := 50
  weeklyDustCap := 250
  windowDays := 7
  recipes := [copper inputPerBatch]
  version_ok := by decide
  recipes_ne := List.cons_ne_nil _ _
  valid := by
    intro r hr
    rw [List.mem_singleton.mp hr]
    exact
      { inputTemplate := (by decide : templateRe "CopperBar" = true)
        spiceTemplate := (by decide : templateRe "MelangeSpice" = true)
        outputTemplate := (by decide : templateRe "T1UniqueComponent" = true)
        tier := le_rfl
        inputPerBatch := h
        spicePerBatch := le_rfl
        outputPerBatch := (by decide : 1 ≤ 10)
        maxStack := (by decide : 1 ≤ 500) }
  outputs := List.nodup_singleton _
  maxBatches_pos := by decide
  cap_pos := by decide
  window_pos := by decide

theorem ctrl_pos : 1 ≤ 7 := by decide

theorem week_pos : 1 ≤ 25 := by decide

def copperCall (key inputPerBatch : Nat) (dryRun : Bool) (h : 1 ≤ inputPerBatch := by decide) :
    Call where
  accountId := 1
  ownerCtrl := 7
  outputTemplate := "T1UniqueComponent"
  batches := 1
  idempotencyKey := key
  expectedInputTemplate := none
  expectedSpiceTemplate := none
  expectedInputPerBatch := some inputPerBatch
  expectedSpicePerBatch := none
  expectedOutputPerBatch := none
  expectedRateVersion := some "2026-09-07a"
  dryRun := dryRun
  account_pos := le_rfl
  owner_pos := ctrl_pos
  batches_pos := le_rfl
  rates := some (copperRates inputPerBatch h)
  refineryEnabled := true
  unitVol := none
  now := 1000000

def bankRow (id inv : Nat) (position : Int) (template : String) (stack : Int) : Item :=
  ⟨id, some inv, stack, position, template, defaultStatsJson, 0, 0, false, none⟩

def sharedDb : Db where
  game :=
    { characters := [⟨1, some 7, some 5, none, some .offline, none, none⟩]
      inventories := ⟨[⟨90, some 5, some 30, some 20, none⟩, ⟨91, some 5, some 0, some 35, none⟩],
        by decide⟩
      items := ⟨⟨[bankRow 1 90 0 "CopperBar" 5, bankRow 2 91 0 "CopperBar" 50,
        bankRow 3 90 1 "MelangeSpice" 2, bankRow 4 90 7 "Water" 1, bankRow 5 90 7 "Sand" 1],
        by decide⟩, 6, by decide, by decide⟩ }
  ledger := Table.empty

def twoBanks : Inventories :=
  ⟨[⟨90, some 5, some 30, some 20, none⟩, ⟨91, some 5, some 0, some 35, none⟩,
    ⟨92, some 6, some 30, some 20, none⟩, ⟨93, some 6, some 0, some 35, none⟩], by decide⟩

def weekStock : Items :=
  ⟨⟨[bankRow 1 90 0 "CopperBar" 30, bankRow 2 90 1 "MelangeSpice" 30,
    bankRow 3 92 0 "CopperBar" 30, bankRow 4 92 1 "MelangeSpice" 30], by decide⟩, 5, by decide,
    by decide⟩

instance (items : Items) (inv i j : Nat) : Decidable (items.Share inv i j) := by
  unfold Items.Share
  infer_instance

def sharedRun : List Event :=
  [.request (copperCall 3 25 false), .request (copperCall 3 20 false),
    .request (copperCall 4 25 true)]

end LastSietch.Refinery
