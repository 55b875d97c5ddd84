import LastSietch.Karum.Solari

/-!
# Conservation of items

In every run of the writer's transactions, under any correlation ids and with any
retries:

* the item rows stay, each with its template, its stack and its grade, and each in one
  inventory;
* an escrow row leaves `held` at most once (`leavesHeld_once`);
* at most one exchange order is made for an escrow row (`makesOrder_once`), and an order
  is made only by handing over the item of an escrow row that was held.

`items_conserved` puts the parts together.
-/

namespace LastSietch.Karum

open Runs

/-! ## What one transaction does to escrow -/

/-- The row `id` is in the escrow ledger and no longer held. -/
def Closed (id : Nat) (db : GameDb) : Prop := ∃ e ∈ db.escrow.rows, e.id = id ∧ e.state ≠ .held

def leavesHeld (id : Nat) (db db' : GameDb) : Prop :=
  (∃ e ∈ db.escrow.rows, e.id = id ∧ e.state = .held) ∧ Closed id db'

/-- The exchange order that the escrow row `id` names. -/
def GameDb.orderOf (db : GameDb) (id : Nat) : Option Nat :=
  (db.escrow.rows.find? (fun e => e.id = id)).bind (·.orderId)

/-- The escrow row `id` gets a new exchange order. -/
def makesOrder (id : Nat) (db db' : GameDb) : Prop :=
  ∃ o ∈ db'.world.orders.rows, db.world.orders.next ≤ o.id ∧ db'.orderOf id = some o.id ∧
    db.orderOf id ≠ some o.id

instance (id : Nat) (db : GameDb) : Decidable (Closed id db) := by
  unfold Closed
  infer_instance

instance (id : Nat) (db db' : GameDb) : Decidable (leavesHeld id db db') := by
  unfold leavesHeld
  infer_instance

instance (id : Nat) (db db' : GameDb) : Decidable (makesOrder id db db') := by
  unfold makesOrder
  infer_instance

/-- The law of one transaction: rows that are not held stay as they are, rows that are
held stay or close, and new rows have no order. -/
structure EscrowStep (db db' : GameDb) : Prop where
  stays : ∀ e ∈ db.escrow, e ∈ db'.escrow ∨ e.state = .held ∧ Closed e.id db'
  fresh : ∀ e' ∈ db'.escrow, (∃ e ∈ db.escrow, e.id = e'.id) ∨ e'.orderId = none

theorem EscrowStep.refl {db db' : GameDb} (h : db'.escrow = db.escrow) : EscrowStep db db' := by
  refine ⟨fun e he => Or.inl ?_, fun e' he' => Or.inl ⟨e', ?_, rfl⟩⟩
  · rw [h]
    exact he
  · rw [h] at he'
    exact he'

variable {db db' : GameDb} {e : EscrowRow}

theorem EscrowStep.insert {corr : Corr} {listing item seller : Nat} {template : String}
    (hrows : db'.escrow.rows = e :: db.escrow.rows)
    (hheld : Held e corr listing item seller template) : EscrowStep db db' := by
  refine ⟨fun f hf => Or.inl ((SerialTable.mem_of_rows hrows).mpr (Or.inr hf)), fun f hf => ?_⟩
  rcases (SerialTable.mem_of_rows hrows).mp hf with rfl | hf
  · exact Or.inr hheld.orderId
  · exact Or.inl ⟨f, hf, rfl⟩

theorem EscrowStep.close {f : EscrowRow → EscrowRow} (he : e ∈ db.escrow) (hheld : e.state = .held)
    (hmem : ∀ g, g ∈ db'.escrow ↔ ∃ r ∈ db.escrow, g = if r.id = e.id then f r else r)
    (hf : (f e).state ≠ .held) (hid : ∀ r : EscrowRow, (f r).id = r.id := by intro _; rfl) :
    EscrowStep db db' := by
  refine ⟨fun g hg => ?_, fun g' hg' => ?_⟩
  · by_cases hge : g.id = e.id
    · have heq : g = e := SerialTable.eq_of_id_eq hg he hge
      subst heq
      exact Or.inr ⟨hheld, f g, (hmem _).mpr ⟨g, hg, by simp⟩, hid g, hf⟩
    · exact Or.inl ((hmem g).mpr ⟨g, hg, by simp [hge]⟩)
  · obtain ⟨r, hr, rfl⟩ := (hmem g').mp hg'
    refine Or.inl ⟨r, hr, ?_⟩
    split
    · exact (hid r).symm
    · rfl

theorem Effect.escrowStep {proc : SolarisProc} {t : Txn} {res : TxnResult}
    (heff : Effect proc db t res db') : EscrowStep db db' := by
  cases heff with
  | listReplay | payReplay | fillReplay | refundReplay => exact EscrowStep.refl rfl
  | paid | refunded => exact EscrowStep.refl rfl
  | listed a e escrow res world htake hheld hid hrows => exact EscrowStep.insert hrows hheld
  | filled a e escrow p payments res world htake hheld heid herows =>
    exact EscrowStep.insert herows hheld
  | delivered a res db' hdlv =>
    cases hdlv with
    | settled | logged => exact EscrowStep.refl rfl
    | missing e he hstack =>
      obtain ⟨hmem, -, hheld⟩ := heldEscrow_some he
      exact EscrowStep.close hmem hheld (fun _ => mem_markMissing) (by simp [EscrowRow.missing])
    | handed e who stack mask depth expiry orders log he =>
      obtain ⟨hmem, -, hheld⟩ := heldEscrow_some he
      exact EscrowStep.close hmem hheld (fun _ => mem_closeEscrow) (EndState.state_ne_held _)

theorem commit_escrowStep (proc : SolarisProc) (t : Txn) (db : GameDb) :
    EscrowStep db (commit proc t db) := by
  rcases commit_spec proc t db with heq | ⟨res, heff⟩
  · rw [heq]
    exact EscrowStep.refl rfl
  · exact heff.escrowStep

/-! ## Once -/

theorem Closed.step {proc : SolarisProc} {id : Nat} (t : Txn)
    (h : Closed id db) : Closed id (commit proc t db) := by
  obtain ⟨e, he, hid, hstate⟩ := h
  rcases (commit_escrowStep proc t db).stays e he with hstay | ⟨hheld, -⟩
  · exact ⟨e, hstay, hid, hstate⟩
  · exact absurd hheld hstate

theorem GameDb.orderOf_eq (he : e ∈ db.escrow) :
    db.orderOf e.id = e.orderId := by
  unfold GameDb.orderOf
  cases hfind : db.escrow.rows.find? (fun r => r.id = e.id) with
  | none =>
    have := List.find?_eq_none.mp hfind e he
    simp at this
  | some r =>
    have hid : r.id = e.id := by simpa using List.find?_some hfind
    rw [SerialTable.eq_of_id_eq (List.mem_of_find?_eq_some hfind) he hid]
    rfl

theorem GameDb.orderOf_some {id order : Nat} (h : db.orderOf id = some order) :
    ∃ e ∈ db.escrow, e.id = id ∧ e.orderId = some order := by
  unfold GameDb.orderOf at h
  obtain ⟨e, hfind, horder⟩ := Option.bind_eq_some_iff.mp h
  exact ⟨e, List.mem_of_find?_eq_some hfind, by simpa using List.find?_some hfind, horder⟩

/-- An escrow row leaves `held` at most once. -/
theorem leavesHeld_once (proc : SolarisProc) (id : Nat) (db : GameDb) (ts : List Txn) :
    countAlong (writerStep proc) (leavesHeld id) db ts ≤ 1 := by
  refine @countAlong_le_one _ _ _ _ _ (Closed id) ?_ ?_ db ts
  · intro db t db' _ hleaves
    exact hleaves.2
  · intro db t db' h hclosed
    cases h
    refine ⟨hclosed.step t, ?_⟩
    rintro ⟨⟨e, he, hid, hheld⟩, -⟩
    obtain ⟨f, hf, hfid, hstate⟩ := hclosed
    rw [SerialTable.eq_of_id_eq hf he (hfid.trans hid.symm)] at hstate
    exact hstate hheld

theorem makesOrder_once (proc : SolarisProc) (id : Nat) (db : GameDb) (ts : List Txn) :
    countAlong (writerStep proc) (makesOrder id) db ts ≤ 1 := by
  refine @countAlong_le_one _ _ _ _ _ (Closed id) ?_ ?_ db ts
  · intro db t db' h hmakes
    cases h
    obtain ⟨o, -, -, hnew, hold⟩ := hmakes
    obtain ⟨e', he', hid', horder⟩ := GameDb.orderOf_some hnew
    have hstep := commit_escrowStep proc t db
    rcases hstep.fresh e' he' with ⟨e, he, hid⟩ | hnone
    · rcases hstep.stays e he with hstay | ⟨-, hclosed⟩
      · rw [← hid', ← hid, GameDb.orderOf_eq he] at hold
        rw [SerialTable.eq_of_id_eq hstay he' hid] at hold
        exact absurd horder hold
      · rwa [hid, hid'] at hclosed
    · rw [hnone] at horder
      cases horder
  · intro db t db' h hclosed
    cases h
    refine ⟨hclosed.step t, ?_⟩
    rintro ⟨o, -, -, hnew, hold⟩
    obtain ⟨e, he, hid, hstate⟩ := hclosed
    rcases (commit_escrowStep proc t db).stays e he with hstay | ⟨hheld, -⟩
    · rw [← hid, GameDb.orderOf_eq hstay] at hnew
      rw [← hid, GameDb.orderOf_eq he] at hold
      exact hold hnew
    · exact hstate hheld

/-! ## The item rows -/

def Item.goods (i : Item) : Nat × String × Option Nat × Option Int :=
  (i.id, i.templateId, i.stackSize, i.qualityLevel)

/-- The orders that a transaction makes: none, or one that adopts the item of an escrow
row, which was held and is closed. -/
def OrderStep (db db' : GameDb) : Prop :=
  db'.world.orders.rows = db.world.orders.rows ∨
  ∃ e ∈ db.escrow, e.state = .held ∧ leavesHeld e.id db db' ∧
    ∃ o, db'.world.orders.rows = o :: db.world.orders.rows ∧ o.itemId = e.itemId ∧
      db'.orderOf e.id = some o.id

theorem karumTakeItem_goods {a : TakeArgs} {w w' : World} {r : TakeResult}
    (h : karumTakeItem a w = .ok (r, w')) :
    w'.items.rows.map Item.goods = w.items.rows.map Item.goods := by
  obtain ⟨item, -, -, -, -, -, -, -, -, rfl⟩ := karumTakeItem_spec h
  exact Table.map_key_update _ _ _ (fun _ => rfl)

theorem commit_goods (proc : SolarisProc) (t : Txn) (db : GameDb) :
    (commit proc t db).world.items.rows.map Item.goods = db.world.items.rows.map Item.goods := by
  rcases commit_spec proc t db with heq | ⟨res, heff⟩
  · rw [heq]
  generalize commit proc t db = db' at heff
  cases heff with
  | listReplay | payReplay | fillReplay | refundReplay | paid | refunded => rfl
  | listed a e escrow res world htake => exact karumTakeItem_goods htake
  | filled a e escrow p payments res world htake =>
    have hgoods := karumTakeItem_goods htake
    exact hgoods
  | delivered a res db' hdlv => cases hdlv <;> rfl

theorem handOver_orderStep {a : DeliveryArgs} {who : Recipient}
    {stack : Nat} {mask depth expiry : Int} {orders : ExchangeOrders} {log : DeliveryLog}
    (he : heldEscrow db.escrow a.listingId = some e)
    (horders : db.world.orders.insert? (claimOrder a e who.ctrl mask depth expiry) =
      some orders) : OrderStep db (handOver a e who stack orders log db) := by
  obtain ⟨hmem, -, hheld⟩ := heldEscrow_some he
  have hclosed : e.close a.endState.state (if a.role = .buyer then some who.ctrl else none)
      (some db.world.orders.next) db.world.now ∈ (handOver a e who stack orders log db).escrow :=
    mem_closeEscrow.mpr ⟨e, hmem, by simp⟩
  refine Or.inr ⟨e, hmem, hheld, ⟨⟨e, hmem, rfl, hheld⟩, _, hclosed, rfl, ?_⟩,
    _, (SerialTable.rows_insert? horders).1, rfl, GameDb.orderOf_eq hclosed⟩
  exact EndState.state_ne_held _

theorem commit_orderStep (proc : SolarisProc) (t : Txn) (db : GameDb) :
    OrderStep db (commit proc t db) := by
  rcases commit_spec proc t db with heq | ⟨res, heff⟩
  · rw [heq]
    exact Or.inl rfl
  generalize commit proc t db = db' at heff
  cases heff with
  | listReplay | payReplay | fillReplay | refundReplay | paid | refunded => exact Or.inl rfl
  | listed a e escrow res world htake =>
    exact Or.inl (congrArg (·.rows) (karumTakeItem_frame htake).2.1)
  | filled a e escrow p payments res world htake =>
    exact Or.inl (congrArg (·.rows) (karumTakeItem_frame htake).2.1)
  | delivered a res db' hdlv =>
    cases hdlv with
    | settled | missing | logged => exact Or.inl rfl
    | handed e who stack mask depth expiry orders log he hstack hlog horders =>
      exact handOver_orderStep he horders

theorem one_inventory (t : Items) {i : Item} (hi : i ∈ t) :
    ∃! inv, ∃ j ∈ t, j.id = i.id ∧ j.inventoryId = inv := by
  refine ⟨i.inventoryId, ⟨i, hi, rfl, rfl⟩, ?_⟩
  rintro inv ⟨j, hj, hid, rfl⟩
  rw [Table.eq_of_key_eq hj hi hid]

/-- Conservation of items over every run of the writer. -/
theorem items_conserved (proc : SolarisProc) {db db' : GameDb} {ts : List Txn}
    (hrun : exec (writerStep proc) db ts = some db') :
    db'.world.items.rows.map Item.goods = db.world.items.rows.map Item.goods ∧
      (∀ i ∈ db'.world.items, ∃! inv, ∃ j ∈ db'.world.items, j.id = i.id ∧ j.inventoryId = inv) ∧
      Along (writerStep proc) (fun d t => OrderStep d (commit proc t d)) db ts ∧
      ∀ id, countAlong (writerStep proc) (leavesHeld id) db ts ≤ 1 ∧
        countAlong (writerStep proc) (makesOrder id) db ts ≤ 1 := by
  refine ⟨?_, fun i hi => one_inventory _ hi, ?_, fun id => ⟨?_, ?_⟩⟩
  · refine @exec_invariant' _ _ (writerStep proc)
      (fun d => d.world.items.rows.map Item.goods = db.world.items.rows.map Item.goods)
      ?_ _ _ _ rfl hrun
    intro d t d' hd h
    cases h
    exact (commit_goods proc t d).trans hd
  · exact along_mono (fun d t _ => commit_orderStep proc t d) (along_true db ts)
  · exact leavesHeld_once proc id db ts
  · exact makesOrder_once proc id db ts

def lateCancelRun : List Txn :=
  [.list ⟨⟨1, 0⟩, 1, 2, 51, "spice", .bank⟩, .pay ⟨⟨2, 0⟩, 1, 1, 2, 100⟩,
    .deliver ⟨⟨2, 0⟩, 1, 1, .buyer, .delivered, 100, none⟩,
    .deliver ⟨⟨3, 0⟩, 1, 2, .seller, .returned, 100, none⟩]

theorem items_conserved_lateCancel :
    (exec (writerStep plainProc) sampleDb lateCancelRun).map
      (fun db => (db.escrow.rows.map (·.state), db.world.orders.rows.map (·.itemId))) =
        some ([.delivered], [51, 900, 900]) ∧
    ∃ db', exec (writerStep plainProc) sampleDb lateCancelRun = some db' ∧
      db'.world.items.rows.map Item.goods = sampleWorld.items.rows.map Item.goods :=
  ⟨by decide, _, rfl, (@items_conserved plainProc sampleDb _ lateCancelRun rfl).1⟩

end LastSietch.Karum
