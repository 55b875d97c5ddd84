import LastSietch.Landsraad.Tables
import LastSietch.Refinery.Mint

/-!
# The claim writer

The transaction of `build_claim_sql`, statement by statement. What the withdraw procedure of the
game does, and the order that the database gives to texts, are arguments. `now` is the clock at the
first offline gate and the `now()` of the transaction, `later` the clock at the last gate.

* `Bag.fill` is the inner loop over the chunks of a line, `Bag.turn` one line, and `claimLines` the
  loop over the ledger.
* `Db.claim` is the transaction, and `Db.settled` what is committed of it.
-/

namespace LastSietch.Landsraad

open Refinery (Inventory Item Items)
open Karum (Account)

/-- A row of `_lc_out`. -/
structure Out where
  lane : Lane
  house : String
  template : String
  qty : Nat
  itemId : Option Nat
  orderId : Option Nat
  note : Option String
  deriving DecidableEq, Repr

/-- A line of the ledger, and a `landsraadplayerhousereward`. -/
structure Line where
  house : String
  template : String
  amount : Nat
  deriving DecidableEq, Repr

structure Setting where
  owner : Nat
  backpack : Nat
  pawn : Nat
  swatches : Bool
  cap : String → Option Cap
  cat : String → Option (Int × Int)
  expiry : Option Int

/-- What the loop changes. `free` are the slots from `v_free_i` on. -/
structure Bag where
  items : Items
  free : List Nat
  orders : Orders
  fulfilled : List Fulfilled
  actors : Table Actor Actor.id
  out : List Out

namespace Bag

/-- `INSERT INTO _lc_out`. -/
def log (lane : Lane) (line : Line) (qty : Nat) (item order : Option Nat) (note : Option String)
    (s : Bag) : Bag :=
  { s with out := s.out ++ [⟨lane, line.house, line.template, qty, item, order, note⟩] }

/-! ## The chunks of a line -/

def newItem (inventory : Nat) (position : Int) (template : String) (qty id : Nat) : Item :=
  ⟨id, some inventory, qty, position, template,
    if template = solarisTemplate then statsJson else "\x7b\x7d", 0, 0, true, none⟩

def toBackpack (e : Setting) (line : Line) (qty slot : Nat) (rest : List Nat) (s : Bag) :
    Except Refusal Bag := do
  let item := s.items.next
  let items ← orRaise (s.items.insert? (newItem e.backpack slot line.template qty)) .writeFailed
  pure ({ s with items, free := rest }.log .backpack line qty (some item) none none)

/-- `COALESCE(MAX(position_index), 0) + 1` in the inventory of the exchange. -/
def exchangePosition (items : Items) : Int :=
  (((items.rows.filter (fun r => r.inventoryId = some exchangeInv)).map (·.positionIndex)).max?.getD
    0) + 1

def newOrder (owner item : Nat) (template : String) (cat : Int × Int) (expiry : Int) (id : Nat) :
    Order :=
  ⟨id, 1, exchangeId, owner, some item, template, cat.1, cat.2, accessPoint, false, exchangePrice,
    some expiry, 0, 0, 0⟩

def toExchange (e : Setting) (line : Line) (qty : Nat) (cat : Int × Int) (expiry : Int) (s : Bag) :
    Except Refusal Bag := do
  let item := s.items.next
  let items ← orRaise (s.items.insert?
    (newItem exchangeInv (exchangePosition s.items) line.template qty)) .writeFailed
  let order := s.orders.next
  let orders ← orRaise (s.orders.insert? (newOrder e.owner item line.template cat expiry))
    .writeFailed
  let fulfilled := ⟨order, completionType, qty, none, some order⟩ :: s.fulfilled
  pure ({ s with items, orders, fulfilled }.log .exchange line qty (some item) (some order) none)

def room (s : Bag) : Option (Nat × List Nat) :=
  match s.free with
  | slot :: rest => if slotSafety < (slot :: rest).length then some (slot, rest) else none
  | [] => none

/-- One turn of the `WHILE` loop; it exits where there is no room for a chunk. -/
def place (e : Setting) (line : Line) (qty : Nat) (s : Bag) : Option (Except Refusal Bag) :=
  match s.room, e.cat line.template, e.expiry with
  | some (slot, rest), _, _ => some (s.toBackpack e line qty slot rest)
  | none, some cat, some expiry => some (s.toExchange e line qty cat expiry)
  | _, _, _ => none

/-- The `WHILE` loop; it gives what is left of the line. -/
def fill (e : Setting) (line : Line) (cap : Cap) (left : Nat) (s : Bag) :
    Except Refusal (Nat × Bag) :=
  match left with
  | 0 => pure (0, s)
  | rest + 1 =>
    match s.place e line (min (rest + 1) cap.size) with
    | some placed => do
      let s ← placed
      fill e line cap (rest + 1 - min (rest + 1) cap.size) s
    | none => pure (rest + 1, s)
termination_by left
decreasing_by
  have hsize := cap.size_pos
  omega

/-! ## A line -/

def grow (qty : Nat) (r : Item) : Item := { r with stackSize := r.stackSize + qty }

theorem id_grow (qty : Nat) (r : Item) : (grow qty r).id = r.id := rfl

def coinStack (e : Setting) (s : Bag) : Option Item :=
  pick Refinery.firstStack ((s.items.rowsOf e.backpack solarisTemplate).filter
    (fun r => r.stackSize < solarisStackMax))

def mergeCoins (e : Setting) (line : Line) (s : Bag) : Nat × Bag :=
  match s.coinStack e with
  | some r =>
    let qty := min line.amount ((solarisStackMax : Int) - r.stackSize).toNat
    let items := s.items.update (fun q => q.id = r.id) (grow qty) (id_grow qty) (id_grow qty)
    (line.amount - qty,
      { s with items }.log .backpack line qty (some r.id) none (some "merged"))
  | none => (line.amount, s)

def stay (line : Line) (qty : Nat) (note : String) (s : Bag) : Bag :=
  s.log .rep line qty none none (some note)

/-- An item line; it gives `v_done`. -/
def deliver (e : Setting) (line : Line) (cap : Cap) (left : Nat) (s : Bag) :
    Except Refusal (Nat × Bag) := do
  let (left, s) ← s.fill e line cap left
  pure (line.amount - left, if 0 < left then s.stay line left "no_room" else s)

/-- `v_has`. -/
def hasUnlock (actors : Table Actor Actor.id) (pawn : Nat) (unlock : String) :
    Except Refusal Bool :=
  match (actors.get? pawn).map Actor.unlocks with
  | some (.ids ids) => .ok (unlock ∈ ids)
  | some .malformed => .error .writeFailed
  | some .noParent | none => .ok false

/-- `jsonb_set` on the properties of the pawn. -/
def addUnlock (pawn : Nat) (unlock : String) (actors : Table Actor Actor.id) :
    Table Actor Actor.id :=
  actors.update (fun a => a.id = pawn) (fun a => { a with
    unlocks := match a.unlocks with
      | .ids ids => .ids (ids ++ [unlock])
      | other => other })

def unlock (e : Setting) (line : Line) (unlock : String) (s : Bag) : Except Refusal (Nat × Bag) := do
  let has ← hasUnlock s.actors e.pawn unlock
  if has then
    pure (line.amount, s.log .unlock line line.amount none none (some "already_unlocked"))
  else
    let actors := addUnlock e.pawn unlock s.actors
    let has ← hasUnlock actors e.pawn unlock
    require (has = true) .unlockWriteFailed
    pure (line.amount, { s with actors }.log .unlock line line.amount none none (some unlock))

/-- One line of the ledger; it gives `v_done`. -/
def turn (e : Setting) (line : Line) (s : Bag) : Except Refusal (Nat × Bag) :=
  if isSwatch line.template then
    if e.swatches then
      match swatchUnlock line.template with
      | some unlock => s.unlock e line unlock
      | none => pure (0, s.stay line line.amount "swatch_unmapped")
    else
      pure (0, s.stay line line.amount "swatch_at_rep")
  else if line.template = solarisTemplate then
    let (left, s) := s.mergeCoins e line
    s.deliver e line Cap.solaris left
  else
    match e.cap line.template with
    | some cap => s.deliver e line cap line.amount
    | none => pure (0, s.stay line line.amount "unknown_item")

end Bag

/-- The loop over the ledger, with `v_withdraw`. -/
def claimLines (e : Setting) : List Line → List Line × Bag → Except Refusal (List Line × Bag) :=
  fun lines start => lines.foldlM (fun (withdraw, s) line => do
    let (done, s) ← s.turn e line
    pure (if 0 < done then withdraw ++ [{ line with amount := done }] else withdraw, s)) start

/-! ## Before and after the loop -/

def taken (owner : Nat) (lines : List Line) (r : Reward) : Nat :=
  if r.playerId = owner then
    ((lines.filter (fun line => line.house = r.houseName ∧ line.template = r.templateId)).map
      (·.amount)).sum
  else 0

def Reward.less (n : Nat) (r : Reward) : Reward := { r with amount := r.amount - n }

structure Native where
  withdraw : Nat → List Line → Ledger → Except Refusal Ledger
  decrements : ∀ {owner lines ledger ledger'}, withdraw owner lines ledger = .ok ledger' →
    ∀ r, r ∈ ledger' ↔ ∃ r₀ ∈ ledger, r = r₀.less (taken owner lines r₀)

/-- `landsraad_withdraw_house_reward`, as the game has it. -/
def landsraadWithdrawHouseReward (owner : Nat) (lines : List Line) (ledger : Ledger) :
    Except Refusal Ledger :=
  if ∀ line ∈ lines, ∃ r ∈ ledger.rows, (r.playerId = owner ∧ line.house = r.houseName ∧
      line.template = r.templateId) ∧ (taken owner lines r : Int) ≤ r.amount then
    .ok (ledger.update (fun r => r.playerId = owner ∧ ∃ line ∈ lines,
        line.house = r.houseName ∧ line.template = r.templateId)
      (fun r => r.less (taken owner lines r)))
  else .error .withdrawRejected

theorem taken_eq_zero {owner : Nat} {lines : List Line} {r : Reward}
    (h : ¬ (r.playerId = owner ∧ ∃ line ∈ lines,
      line.house = r.houseName ∧ line.template = r.templateId)) : taken owner lines r = 0 := by
  unfold taken
  split
  · case isTrue howner =>
    have hnone : lines.filter (fun line => line.house = r.houseName ∧
        line.template = r.templateId) = [] := by
      refine List.filter_eq_nil_iff.mpr (fun line hline hmatch => h ⟨howner, line, hline, ?_⟩)
      exact of_decide_eq_true hmatch
    rw [hnone]
    rfl
  · rfl

def Native.apply (native : Native) (owner : Nat) (withdraw : List Line) (ledger : Ledger) :
    Except Refusal Ledger :=
  if withdraw = [] then pure ledger else native.withdraw owner withdraw ledger

def Native.game : Native where
  withdraw := landsraadWithdrawHouseReward
  decrements := by
    intro owner lines ledger ledger' h r
    unfold landsraadWithdrawHouseReward at h
    split at h
    · cases h
      refine Table.mem_update.trans (exists_congr (fun r₀ => and_congr_right (fun _ => ?_)))
      by_cases hlisted : r₀.playerId = owner ∧ ∃ line ∈ lines,
          line.house = r₀.houseName ∧ line.template = r₀.templateId
      · rw [if_pos (decide_eq_true hlisted)]
      · rw [if_neg (by simpa using hlisted), taken_eq_zero hlisted]
        simp [Reward.less]
    · cases h

def Character.up (now : ℚ) (c : Character) : Prop :=
  c.onlineStatus ≠ some .offline ∨ (∃ t ∈ c.reconnectGracePeriodEnd, now < t) ∨
    ∃ t ∈ c.logoffPersistenceEndTime, now < t

instance (now : ℚ) (c : Character) : Decidable (c.up now) :=
  inferInstanceAs (Decidable (_ ∨ (∃ t ∈ c.reconnectGracePeriodEnd, now < t) ∨
    ∃ t ∈ c.logoffPersistenceEndTime, now < t))

/-- `ORDER BY last_login_time DESC NULLS LAST`. -/
def laterLogin (a b : Character) : Bool :=
  match a.lastLoginTime, b.lastLoginTime with
  | some x, some y => y < x
  | some _, none => true
  | none, _ => false

/-- The arguments of `build_claim_sql` before `safe_stacks` and `safe_cats`, and the clocks. -/
structure Call where
  owner : Nat
  ctx : Context
  pak : String → Option Int
  swatches : Bool
  preview : Bool
  runToken : String
  operator : String
  now : ℚ
  later : ℚ

structure Report where
  online : Bool
  withdrawn : Nat
  lines : List Out
  deriving DecidableEq, Repr

namespace Db

def character (db : Db) (owner : Nat) : Option Character :=
  pick laterLogin (db.characters.filter (fun c =>
    c.playerControllerId = some owner ∧ c.characterState ≠ some .deleted))

/-- `ONLINE_SQL`. -/
def online (db : Db) (account : Nat) (now : ℚ) : Prop :=
  ∃ c ∈ db.characters, c.accountId = account ∧ c.up now

instance (db : Db) (account : Nat) (now : ℚ) : Decidable (db.online account now) :=
  inferInstanceAs (Decidable (∃ c ∈ db.characters, _))

def backpack (db : Db) (pawn : Nat) : Option Inventory :=
  db.inventories.rows.find? (fun inv => inv.actorId = some pawn ∧ inv.inventoryType = some 0)

/-- `v_free`. -/
def freeSlots (db : Db) (inv : Inventory) : List Nat :=
  (List.range (inv.maxItemCount.getD 0).toNat).filter (fun i =>
    ∀ r ∈ db.items, ¬ (r.inventoryId = some inv.id ∧ r.positionIndex = (i : Int)))

/-- The cast of a numeric to `bigint`: halves go away from zero. -/
def toBigint (q : ℚ) : Int := if 0 ≤ q then ⌊q + 1 / 2⌋ else ⌈q - 1 / 2⌉

/-- The game clock of `deliver-claim.py`. -/
def gameNow (db : Db) (now : ℚ) : Option Int :=
  db.farm.bind fun f => f.universeTimeTimestamp.map fun start =>
    toBigint (now - start - (f.downTimeAccumulation.getD 0 : ℚ) / 1000000)

/-- `v_expiry`. -/
def expiry (db : Db) (now : ℚ) : Option Int :=
  (db.gameNow now).map (fun t => t + exchangeExpiryDays * 86400)

/-- The first `ORDER BY` key of the lines. -/
def lineClass (cat : String → Option (Int × Int)) (template : String) : Nat :=
  if template = solarisTemplate then 0
  else if isSwatch template then 3
  else if cat template = none then 1
  else 2

def lineLe (collate : String → String → Bool) (cat : String → Option (Int × Int)) (a b : Line) :
    Bool :=
  let ka := lineClass cat a.template
  let kb := lineClass cat b.template
  ka < kb || ka == kb && (if a.template = b.template then collate a.house b.house
    else collate a.template b.template)

def pending (collate : String → String → Bool) (cat : String → Option (Int × Int)) (owner : Nat)
    (ledger : Ledger) : List Line :=
  ((ledger.rows.filter (fun r => r.playerId = owner ∧ 0 < r.amount)).map (fun r =>
    ⟨r.houseName, r.templateId, r.amount.toNat⟩)).insertionSort
      (fun a b => lineLe collate cat a b = true)

def delivery (c : Call) (account pawn : Nat) (fls : Option String) (seq : Nat) (o : Out) : Delivery :=
  ⟨(c.runToken, seq), o.lane, account, fls, pawn, o.template, o.qty, o.lane = .backpack, o.itemId,
    c.operator⟩

/-- `INSERT INTO ls_item_delivery_log ... SELECT`. -/
def trace (c : Call) (account pawn : Nat) (fls : Option String) (out : List Out)
    (deliveries : Deliveries) : Except Refusal Deliveries :=
  (out.zipIdx 1).foldlM (fun deliveries (o, seq) =>
    if o.lane = .backpack ∨ o.lane = .exchange then
      orRaise (deliveries.insert? (delivery c account pawn fls seq o)) .writeFailed
    else pure deliveries) deliveries

def setting (c : Call) (db : Db) (inv : Inventory) (pawn : Nat) : Setting :=
  { owner := c.owner, backpack := inv.id, pawn, swatches := c.swatches,
    cap := safeStacks c.pak c.ctx, cat := safeCats c.ctx, expiry := db.expiry c.now }

def claim (native : Native) (collate : String → String → Bool) (c : Call) (db : Db) :
    Except Refusal (Report × Db) := do
  let character ← orRaise (db.character c.owner) .noCharacter
  let pawn ← orRaise character.playerPawnId .noCharacter
  let account := character.accountId
  require (c.preview = true ∨ ¬ db.online account c.now) .playerOnline
  let inv ← orRaise (db.backpack pawn) .noBackpack
  let e := db.setting c inv pawn
  let (withdraw, s) ← claimLines e (pending collate e.cat c.owner db.ledger)
    ([], ⟨db.items, db.freeSlots inv, db.orders, db.fulfilled, db.actors, []⟩)
  let ledger ← native.apply c.owner withdraw db.ledger
  let fls := (db.accounts.get? account).bind (·.user)
  let deliveries ← trace c account pawn fls s.out db.deliveries
  require (c.preview = true ∨ ¬ db.online account c.later) .playerOnline
  pure (⟨db.online account c.now, withdraw.length, s.out⟩,
    { db with items := s.items, orders := s.orders, fulfilled := s.fulfilled, actors := s.actors,
              ledger, deliveries })

def settled (native : Native) (collate : String → String → Bool) (c : Call) (db : Db) : Db :=
  match db.claim native collate c with
  | .ok (_, db') => if c.preview then db else db'
  | .error _ => db

end Db

end LastSietch.Landsraad
