import LastSietch.Refinery.Consume
import LastSietch.Refinery.Mint

/-!
# One exchange

`accept` is what `main` and `do_exchange` check before they open a session, `exchangeTxn` the
transaction of `build_exchange_sql`, and `exchange` the whole request: a raise and a dry run
roll everything back.

* `pawn_owned`: the sources are the pawn's own, and three different inventories
  (`Game.OwnPawn.distinct`).
* `trade_traded`: a transaction that does not raise is exact (`Traded`).
-/

namespace LastSietch.Refinery

open Karum (PlayerState)

/-- A request and what the writer reads when it comes: the rate table, the kill switch, the
unit volume of the output template and the clock. -/
structure Call extends Request where
  rates : Option Rates
  refineryEnabled : Bool
  unitVol : Option ℚ
  now : Nat

/-- The arguments of `build_exchange_sql`. -/
structure Terms where
  accountId : Nat
  ownerCtrl : Nat
  recipe : Recipe
  batches : Nat
  idempotencyKey : Nat
  rates : Rates
  unitVol : Option ℚ

def Terms.inputUnits (t : Terms) : Nat := t.batches * t.recipe.inputPerBatch
def Terms.spiceUnits (t : Terms) : Nat := t.batches * t.recipe.spicePerBatch
def Terms.dustUnits (t : Terms) : Nat := t.batches * t.recipe.outputPerBatch

def differs {α : Type} [DecidableEq α] (want : Option α) (live : α) : Bool :=
  want.any (fun w => w ≠ live)

def checkRateEcho (req : Request) (rates : Rates) (recipe : Recipe) : Bool :=
  differs req.expectedRateVersion rates.rateVersion ||
    differs req.expectedInputTemplate recipe.inputTemplate ||
    differs req.expectedSpiceTemplate recipe.spiceTemplate ||
    differs req.expectedInputPerBatch recipe.inputPerBatch ||
    differs req.expectedSpicePerBatch recipe.spicePerBatch ||
    differs req.expectedOutputPerBatch recipe.outputPerBatch

def accept (c : Call) : Except Refusal Terms := do
  let rates ← orRaise c.rates .refineryDisabled
  require (c.dryRun = true ∨ c.refineryEnabled = true) .refineryDisabled
  let recipe ← orRaise (rates.findRecipe c.outputTemplate) .unknownRecipe
  require (checkRateEcho c.toRequest rates recipe = false) .rateChanged
  require (recipe.enabled = true) .recipeDisabled
  require (c.batches ≤ rates.maxBatchesPerRequest) .badRequest
  pure ⟨c.accountId, c.ownerCtrl, recipe, c.batches, c.idempotencyKey, rates, c.unitVol⟩

def offline (now : Nat) (c : PlayerState) : Bool :=
  c.onlineStatus == some .offline &&
    !(match c.reconnectGracePeriodEnd with
      | some t => decide (now < t)
      | none => false)

def Game.liveCharacters (g : Game) (accountId : Nat) : List PlayerState :=
  g.characters.filter (fun c => c.accountId = accountId ∧ c.characterState ≠ some .deleted)

def Game.offlineGate (g : Game) (now accountId : Nat) : Except Refusal Unit := do
  require (g.liveCharacters accountId ≠ []) .playerOnline
  require (((g.liveCharacters accountId).filter (offline now)).length =
    (g.liveCharacters accountId).length) .playerOnline

/-- `pawn_sources_sql`. -/
def Game.pawnSources (g : Game) (accountId ownerCtrl : Nat) : List Inventory :=
  ((g.liveCharacters accountId).filter (fun c => c.playerControllerId = some ownerCtrl)).flatMap
    (fun c => g.inventories.rows.filter (fun inv =>
      c.playerPawnId.isSome ∧ inv.actorId = c.playerPawnId ∧
        (inv.inventoryType = some invBackpack ∨ inv.inventoryType = some invToolbar ∨
          inv.inventoryType = some invBank)))

def ofType (type : Nat) (inventories : List Inventory) : List Inventory :=
  inventories.filter (fun inv => inv.inventoryType = some type)

def Game.pawn (g : Game) (accountId ownerCtrl : Nat) : Except Refusal Pawn :=
  match ofType invBank (g.pawnSources accountId ownerCtrl) with
  | [bank] =>
    match ofType invBackpack (g.pawnSources accountId ownerCtrl),
      ofType invToolbar (g.pawnSources accountId ownerCtrl) with
    | [backpack], [] => .ok ⟨bank, backpack, none⟩
    | [backpack], [toolbar] => .ok ⟨bank, backpack, some toolbar⟩
    | _, _ => .error .noPawnStorage
  | _ => .error .noBank

/-! ## The transaction -/

/-- `weekly_used_sql`. -/
def weeklyUsed (ledger : Ledger) (accountId : Nat) (outputTemplate : String)
    (windowDays now : Nat) : Int :=
  ((ledger.rows.filter (fun e => e.accountId = accountId ∧ e.outputTemplate = outputTemplate ∧
    now ≤ e.createdAt + windowDays * 86400)).map (·.dustUnits)).sum

/-- `holdings_after_expr`. -/
def Game.holdingsAfter (g : Game) (t : Terms) : Holdings :=
  let pawn := g.pawnSources t.accountId t.ownerCtrl
  let bank := (ofType invBank pawn).head?
  { input := (pawn.map (fun p => g.items.held p.id t.recipe.inputTemplate)).sum
    spice := (pawn.map (fun p => g.items.held p.id t.recipe.spiceTemplate)).sum
    output := bank.elim 0 (fun b => g.items.held b.id t.recipe.outputTemplate)
    bankFreeSlots := bank.bind (fun b => b.maxItemCount.bind (fun mic =>
      if mic ≤ 0 then none else some (mic - (g.items.inventoryRows b.id).length))) }

structure Exchange.Agrees (e : Exchange) (t : Terms) : Prop where
  accountId : e.accountId = t.accountId
  ownerCtrl : e.ownerCtrl = t.ownerCtrl
  outputTemplate : e.outputTemplate = t.recipe.outputTemplate
  batches : e.batches = t.batches
  dustUnits : e.dustUnits = t.dustUnits
  inputTemplate : e.inputTemplate = t.recipe.inputTemplate

instance (e : Exchange) (t : Terms) : Decidable (e.Agrees t) :=
  decidable_of_iff (e.accountId = t.accountId ∧ e.ownerCtrl = t.ownerCtrl ∧
    e.outputTemplate = t.recipe.outputTemplate ∧ e.batches = t.batches ∧
    e.dustUnits = t.dustUnits ∧ e.inputTemplate = t.recipe.inputTemplate)
    ⟨fun ⟨h1, h2, h3, h4, h5, h6⟩ => ⟨h1, h2, h3, h4, h5, h6⟩,
      fun ⟨h1, h2, h3, h4, h5, h6⟩ => ⟨h1, h2, h3, h4, h5, h6⟩⟩

def Exchange.republish (e : Exchange) (t : Terms) (now : Nat) (db : Db) : Result :=
  { outputTemplate := e.outputTemplate, tier := e.tier, batches := e.batches,
    dustUnits := e.dustUnits, inputUnits := e.inputUnits, spiceUnits := e.spiceUnits,
    consumed := e.consumed, granted := e.granted, holdingsAfter := db.game.holdingsAfter t,
    weeklyDustUsed := weeklyUsed db.ledger t.accountId t.recipe.outputTemplate
      t.rates.windowDays now,
    weeklyDustCap := t.rates.weeklyDustCap, volumeUnverified := e.volumeUnverified,
    replay := true }

def Terms.row (t : Terms) (now : Nat) (ingots melange : Used) (m : MintState)
    (unverified : Bool) : Exchange :=
  { idempotencyKey := t.idempotencyKey, accountId := t.accountId, ownerCtrl := t.ownerCtrl,
    tier := t.recipe.tier, outputTemplate := t.recipe.outputTemplate, batches := t.batches,
    dustUnits := m.minted, inputTemplate := t.recipe.inputTemplate,
    inputUnits := ingots.units, spiceUnits := melange.units,
    consumed := ⟨t.recipe.inputTemplate, ingots, t.recipe.spiceTemplate, melange⟩,
    granted := ⟨t.recipe.outputTemplate, m.minted, m.stackRows⟩,
    rateVersion := t.rates.rateVersion, volumeUnverified := unverified, createdAt := now }

def trade (delete : Items → Nat → Int → Items) (t : Terms) (now : Nat) (db : Db) :
    Except Refusal (Result × Db) := do
  db.game.offlineGate now t.accountId
  let pawn ← db.game.pawn t.accountId t.ownerCtrl
  let used := weeklyUsed db.ledger t.accountId t.recipe.outputTemplate t.rates.windowDays now
  require (used + t.dustUnits ≤ t.rates.weeklyDustCap)
    (.weeklyCap used t.dustUnits t.rates.weeklyDustCap)
  let ingots ← consumeBlock delete .input pawn t.recipe.inputTemplate t.inputUnits db.game.items
  let melange ← consumeBlock delete .spice pawn t.recipe.spiceTemplate t.spiceUnits ingots.2
  let unverified ← volumeGate pawn.bank t.unitVol t.dustUnits melange.2
  let m ← mint pawn.bank t.recipe.outputTemplate t.recipe.maxStack t.dustUnits melange.2
  let row := t.row now ingots.1 melange.1 m unverified
  require (row.checked = true) .writeFailed
  let ledger ← orRaise (db.ledger.insert? row) .writeFailed
  require (ingots.1.units = t.inputUnits ∧ melange.1.units = t.spiceUnits ∧
    m.minted = t.dustUnits) .conservationFailed
  let db' : Db := ⟨{ db.game with items := m.items }, ledger⟩
  pure ({ row.republish t now db' with replay := false }, db')

def work (delete : Items → Nat → Int → Items) (t : Terms) (now : Nat) (pawn : Pawn) (db : Db) :
    Except Refusal (Result × Db) := do
  let ingots ← consumeBlock delete .input pawn t.recipe.inputTemplate t.inputUnits db.game.items
  let melange ← consumeBlock delete .spice pawn t.recipe.spiceTemplate t.spiceUnits ingots.2
  let unverified ← volumeGate pawn.bank t.unitVol t.dustUnits melange.2
  let m ← mint pawn.bank t.recipe.outputTemplate t.recipe.maxStack t.dustUnits melange.2
  let row := t.row now ingots.1 melange.1 m unverified
  require (row.checked = true) .writeFailed
  let ledger ← orRaise (db.ledger.insert? row) .writeFailed
  require (ingots.1.units = t.inputUnits ∧ melange.1.units = t.spiceUnits ∧
    m.minted = t.dustUnits) .conservationFailed
  let db' : Db := ⟨{ db.game with items := m.items }, ledger⟩
  pure ({ row.republish t now db' with replay := false }, db')

theorem trade_eq (delete : Items → Nat → Int → Items) (t : Terms) (now : Nat) (db : Db) :
    trade delete t now db = (do
      db.game.offlineGate now t.accountId
      let pawn ← db.game.pawn t.accountId t.ownerCtrl
      let used := weeklyUsed db.ledger t.accountId t.recipe.outputTemplate t.rates.windowDays now
      require (used + t.dustUnits ≤ t.rates.weeklyDustCap)
        (.weeklyCap used t.dustUnits t.rates.weeklyDustCap)
      work delete t now pawn db) :=
  rfl

theorem work_row {delete : Items → Nat → Int → Items} {t : Terms} {now : Nat} {pawn : Pawn}
    {db db' : Db} {r : Result} (h : work delete t now pawn db = .ok (r, db')) :
    r.replay = false ∧ ∃ row, db'.ledger.rows = row :: db.ledger.rows ∧
      row.idempotencyKey = t.idempotencyKey ∧ row.createdAt = now ∧ row.Agrees t := by
  unfold work at h
  obtain ⟨⟨ingots, items₁⟩, _, h⟩ := bind_eq_ok.mp h
  obtain ⟨⟨melange, items₂⟩, _, h⟩ := bind_eq_ok.mp h
  obtain ⟨unverified, _, h⟩ := bind_eq_ok.mp h
  obtain ⟨m, _, h⟩ := bind_eq_ok.mp h
  obtain ⟨_, _, h⟩ := bind_eq_ok.mp h
  obtain ⟨ledger, hledger, h⟩ := bind_eq_ok.mp h
  obtain ⟨_, hunits, h⟩ := bind_eq_ok.mp h
  cases pure_eq_ok.mp h
  have hdust := (require_eq_ok.mp hunits).2.2
  exact ⟨rfl, t.row now ingots melange m unverified,
    Table.rows_insert? (orRaise_eq_ok.mp hledger), rfl, rfl, ⟨rfl, rfl, rfl, rfl, hdust, rfl⟩⟩

/-- `build_exchange_sql`, up to its last statement. -/
def exchangeTxn (delete : Items → Nat → Int → Items) (t : Terms) (now : Nat) (db : Db) :
    Except Refusal (Result × Db) :=
  match db.ledger.get? t.idempotencyKey with
  | some e =>
    if e.Agrees t then .ok (e.republish t now db, db) else .error .idempotencyConflict
  | none => trade delete t now db

/-- `COMMIT` for a live request, `ROLLBACK` for a dry run and for a raise. -/
def exchange (delete : Items → Nat → Int → Items) (c : Call) (db : Db) :
    Except Refusal Result × Db :=
  match accept c >>= fun t => exchangeTxn delete t c.now db with
  | .error e => (.error e, db)
  | .ok (r, db') => (.ok r, if c.dryRun then db else db')

/-! ## What the checks establish -/

theorem accept_spec {c : Call} {t : Terms} (h : accept c = .ok t) :
    t.accountId = c.accountId ∧ t.ownerCtrl = c.ownerCtrl ∧ t.batches = c.batches ∧
      t.idempotencyKey = c.idempotencyKey ∧ c.rates = some t.rates ∧
      t.rates.findRecipe c.outputTemplate = some t.recipe := by
  unfold accept at h
  obtain ⟨rates, hrates, h⟩ := bind_eq_ok.mp h
  obtain ⟨_, _, h⟩ := bind_eq_ok.mp h
  obtain ⟨recipe, hrecipe, h⟩ := bind_eq_ok.mp h
  obtain ⟨_, _, h⟩ := bind_eq_ok.mp h
  obtain ⟨_, _, h⟩ := bind_eq_ok.mp h
  obtain ⟨_, _, h⟩ := bind_eq_ok.mp h
  cases pure_eq_ok.mp h
  exact ⟨rfl, rfl, rfl, rfl, orRaise_eq_ok.mp hrates, orRaise_eq_ok.mp hrecipe⟩

theorem accept_valid {c : Call} {t : Terms} (h : accept c = .ok t) : t.recipe.Valid :=
  (Rates.findRecipe_spec (accept_spec h).2.2.2.2.2).1

/-- An inventory of the type `type` of a live character of the account with that controller. -/
def Game.OwnInventory (g : Game) (accountId ownerCtrl type : Nat) (inv : Inventory) : Prop :=
  inv ∈ g.inventories ∧ inv.inventoryType = some type ∧
    ∃ c ∈ g.characters, c.accountId = accountId ∧ c.playerControllerId = some ownerCtrl ∧
      c.characterState ≠ some .deleted ∧ c.playerPawnId.isSome ∧ inv.actorId = c.playerPawnId

structure Game.OwnPawn (g : Game) (accountId ownerCtrl : Nat) (p : Pawn) : Prop where
  bank : g.OwnInventory accountId ownerCtrl invBank p.bank
  backpack : g.OwnInventory accountId ownerCtrl invBackpack p.backpack
  toolbar : ∀ t ∈ p.toolbar, g.OwnInventory accountId ownerCtrl invToolbar t

section Pawns

variable {g : Game} {accountId ownerCtrl type : Nat} {p : Pawn} {inv : Inventory}

theorem ownInventory_of_mem (h : inv ∈ ofType type (g.pawnSources accountId ownerCtrl)) :
    g.OwnInventory accountId ownerCtrl type inv := by
  obtain ⟨hmem, htype⟩ := List.mem_filter.mp h
  obtain ⟨c, hc, hinv⟩ := List.mem_flatMap.mp hmem
  obtain ⟨hlive, hctrl⟩ := List.mem_filter.mp hc
  obtain ⟨hchar, hacct⟩ := List.mem_filter.mp hlive
  obtain ⟨hinv, hjoin⟩ := List.mem_filter.mp hinv
  rw [decide_eq_true_eq] at htype hctrl hacct hjoin
  exact ⟨hinv, htype, c, hchar, hacct.1, hctrl, hacct.2, hjoin.1, hjoin.2.1⟩

theorem pawn_owned (h : g.pawn accountId ownerCtrl = .ok p) :
    g.OwnPawn accountId ownerCtrl p := by
  have hown : ∀ (type : Nat) (inv : Inventory),
      ofType type (g.pawnSources accountId ownerCtrl) = [inv] →
        g.OwnInventory accountId ownerCtrl type inv := by
    intro type inv hsingle
    apply ownInventory_of_mem
    rw [hsingle]
    exact List.mem_singleton_self inv
  unfold Game.pawn at h
  split at h
  · rename_i bank hbank
    split at h
    · rename_i backpack hbackpack _
      cases h
      exact ⟨hown _ _ hbank, hown _ _ hbackpack, fun t ht => by cases ht⟩
    · rename_i backpack toolbar hbackpack htoolbar
      cases h
      refine ⟨hown _ _ hbank, hown _ _ hbackpack, fun t ht => ?_⟩
      cases ht
      exact hown _ _ htoolbar
    · cases h
  · cases h

theorem OwnInventory.id_ne {type' : Nat} {inv' : Inventory}
    (h : g.OwnInventory accountId ownerCtrl type inv)
    (h' : g.OwnInventory accountId ownerCtrl type' inv') (hne : type ≠ type') :
    inv.id ≠ inv'.id := by
  intro hid
  have heq : inv = inv' := Table.eq_of_key_eq h.1 h'.1 hid
  have htype := h.2.1
  rw [heq, h'.2.1] at htype
  exact hne (Option.some.inj htype).symm

theorem Game.OwnPawn.distinct (h : g.OwnPawn accountId ownerCtrl p) : p.Distinct where
  backpack := OwnInventory.id_ne h.backpack h.bank (by decide)
  toolbar t ht := ⟨OwnInventory.id_ne (h.toolbar t ht) h.bank (by decide),
    OwnInventory.id_ne (h.toolbar t ht) h.backpack (by decide)⟩

end Pawns

/-! ## A trade -/

/-- A trade of `p`: the ingots go, then the Melange, then the dust comes, and one row is
written. -/
structure TradedBy (t : Terms) (p : Pawn) (ingots melange : Used) (items₁ items₂ : Items)
    (row : Exchange) (before after : Db) : Prop where
  own : before.game.OwnPawn t.accountId t.ownerCtrl p
  ingots : Drained p t.recipe.inputTemplate (t.batches * t.recipe.inputPerBatch)
    before.game.items items₁ ingots
  melange : Drained p t.recipe.spiceTemplate (t.batches * t.recipe.spicePerBatch) items₁ items₂
    melange
  dust : Minted p.bank.id t.recipe.outputTemplate t.recipe.maxStack
    (t.batches * t.recipe.outputPerBatch) items₂ after.game.items
  slots : ∀ i j, after.game.items.Share p.bank.id i j → before.game.items.Share p.bank.id i j
  fresh : ∀ e ∈ before.ledger, e.idempotencyKey ≠ t.idempotencyKey
  ledger : after.ledger.rows = row :: before.ledger.rows
  key : row.idempotencyKey = t.idempotencyKey
  agrees : row.Agrees t
  units : row.inputUnits = t.batches * t.recipe.inputPerBatch ∧
    row.spiceUnits = t.batches * t.recipe.spicePerBatch
  game : after.game = { before.game with items := after.game.items }

def Traded (t : Terms) (before after : Db) : Prop :=
  ∃ p ingots melange items₁ items₂ row,
    TradedBy t p ingots melange items₁ items₂ row before after

section Trades

variable {delete : Items → Nat → Int → Items} (hdel : RemovesExactly delete) {t : Terms}
  {now : Nat} {db db' : Db} {r : Result}

include hdel in
theorem trade_traded (hmax : 1 ≤ t.recipe.maxStack)
    (hfresh : ∀ e ∈ db.ledger, e.idempotencyKey ≠ t.idempotencyKey)
    (h : trade delete t now db = .ok (r, db')) : Traded t db db' := by
  unfold trade at h
  obtain ⟨_, _, h⟩ := bind_eq_ok.mp h
  obtain ⟨p, hpawn, h⟩ := bind_eq_ok.mp h
  obtain ⟨_, _, h⟩ := bind_eq_ok.mp h
  obtain ⟨⟨ingots, items₁⟩, hingots, h⟩ := bind_eq_ok.mp h
  obtain ⟨⟨melange, items₂⟩, hmelange, h⟩ := bind_eq_ok.mp h
  obtain ⟨unverified, _, h⟩ := bind_eq_ok.mp h
  obtain ⟨m, hmint, h⟩ := bind_eq_ok.mp h
  obtain ⟨_, _, h⟩ := bind_eq_ok.mp h
  obtain ⟨ledger, hledger, h⟩ := bind_eq_ok.mp h
  obtain ⟨_, _, h⟩ := bind_eq_ok.mp h
  cases pure_eq_ok.mp h
  have hown := pawn_owned hpawn
  have hdrained := consumeBlock_drained hdel hown.distinct (Int.natCast_nonneg _) hingots
  have hdrained' := consumeBlock_drained hdel hown.distinct (Int.natCast_nonneg _) hmelange
  obtain ⟨hminted, hdust⟩ := mintLoop_minted (by omega) (Int.natCast_nonneg _) hmint
  dsimp only at hminted hdust hmelange hdrained'
  have hcast : ∀ a b : Nat, ((a * b : Nat) : Int) = a * b := fun a b => by push_cast; rfl
  refine ⟨p, ingots, melange, items₁, items₂, t.row now ingots melange m unverified,
    { own := hown, ingots := ?_, melange := ?_, dust := ?_, slots := ?_, fresh := hfresh,
      ledger := Table.rows_insert? (orRaise_eq_ok.mp hledger), key := rfl,
      agrees := ?_, units := ?_, game := rfl }⟩
  · rw [← hcast]
    exact hdrained
  · rw [← hcast]
    exact hdrained'
  · rw [← hcast]
    exact hdust
  · intro i j hshare
    exact hdrained.share (hdrained'.share (hdust.share i j hshare))
  · refine ⟨rfl, rfl, rfl, rfl, ?_, rfl⟩
    show m.minted = t.dustUnits
    omega
  · constructor
    · exact hdrained.units.trans (hcast _ _)
    · exact hdrained'.units.trans (hcast _ _)

theorem exchangeTxn_used {e : Exchange} (he : db.ledger.get? t.idempotencyKey = some e)
    (h : exchangeTxn delete t now db = .ok (r, db')) : db' = db ∧ e.Agrees t := by
  unfold exchangeTxn at h
  rw [he] at h
  dsimp only at h
  split at h
  · rename_i hagrees
    cases h
    exact ⟨rfl, hagrees⟩
  · cases h

theorem exchangeTxn_fresh (he : db.ledger.get? t.idempotencyKey = none) :
    exchangeTxn delete t now db = trade delete t now db := by
  unfold exchangeTxn
  rw [he]

end Trades

/-! ## A request -/

section Requests

variable {delete : Items → Nat → Int → Items} {c : Call} {db : Db} {r : Result}

theorem exchange_error {e : Refusal} (h : (exchange delete c db).1 = .error e) :
    (exchange delete c db).2 = db := by
  unfold exchange at h ⊢
  split at h
  · rfl
  · cases h

theorem exchange_dryRun (hdry : c.dryRun = true) : (exchange delete c db).2 = db := by
  unfold exchange
  split
  · rfl
  · rw [hdry]
    rfl

theorem exchange_ok (h : (exchange delete c db).1 = .ok r) :
    ∃ t db', accept c = .ok t ∧ exchangeTxn delete t c.now db = .ok (r, db') ∧
      (exchange delete c db).2 = if c.dryRun then db else db' := by
  unfold exchange at h ⊢
  split at h
  · cases h
  · rename_i r' db' hok
    cases h
    obtain ⟨t, ht, htxn⟩ := bind_eq_ok.mp hok
    exact ⟨t, db', ht, htxn, rfl⟩

/-- Under a used key nothing changes, and the request succeeds only if it agrees with the
stored row. -/
theorem exchange_used {e : Exchange} (he : e ∈ db.ledger)
    (hkey : e.idempotencyKey = c.idempotencyKey) :
    (exchange delete c db).2 = db ∧
      ∀ r, (exchange delete c db).1 = .ok r → ∃ t, accept c = .ok t ∧ e.Agrees t := by
  have hused : ∀ r, (exchange delete c db).1 = .ok r →
      (exchange delete c db).2 = db ∧ ∃ t, accept c = .ok t ∧ e.Agrees t := by
    intro r hr
    obtain ⟨t, db', ht, htxn, hafter⟩ := exchange_ok hr
    have hget : db.ledger.get? t.idempotencyKey = some e :=
      Table.get?_eq_some.mpr ⟨he, hkey.trans (accept_spec ht).2.2.2.1.symm⟩
    obtain ⟨hsame, hagrees⟩ := exchangeTxn_used hget htxn
    rw [hafter, hsame]
    exact ⟨ite_self db, t, ht, hagrees⟩
  refine ⟨?_, fun r hr => (hused r hr).2⟩
  cases hreply : (exchange delete c db).1 with
  | error e => exact exchange_error hreply
  | ok r => exact (hused r hreply).1

theorem exchange_fresh (hdel : RemovesExactly delete) (hlive : c.dryRun = false)
    (hfresh : ∀ e ∈ db.ledger, e.idempotencyKey ≠ c.idempotencyKey)
    (h : (exchange delete c db).1 = .ok r) :
    ∃ t, accept c = .ok t ∧ Traded t db (exchange delete c db).2 := by
  obtain ⟨t, db', ht, htxn, hafter⟩ := exchange_ok h
  have hkey := (accept_spec ht).2.2.2.1
  rw [← hkey] at hfresh
  rw [exchangeTxn_fresh (Table.get?_eq_none.mpr hfresh)] at htxn
  refine ⟨t, ht, ?_⟩
  rw [hafter, hlive]
  exact trade_traded hdel (accept_valid ht).maxStack hfresh htxn

end Requests

end LastSietch.Refinery
