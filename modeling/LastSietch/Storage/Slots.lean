import LastSietch.Lib.Slots
import LastSietch.Refinery.Once
import LastSietch.Storage.Conservation

/-!
# No two items share a slot

Four writers put rows into inventories: the withdrawal, the pawn move, the mint of the refinery
and the gated take. `Realm` is the database they share, and each call of theirs is a number of
`Slots.Places` steps on its items.

* `withdraw_places`, `pawnMove_places`, `exchange_places` and `take_places`: the four writers.
-/

namespace LastSietch.Storage

open Refinery (Inventories Inventory Item Items RemovesExactly appendSlot firstGap freeSlot
  mintPass mintLoop MintState consumeBlock)
open Karum (TakeArgs)
open Relation Runs Slots

def itemPlace (r : Item) : Option (Nat × Int) := r.inventoryId.map (fun inv => (inv, r.positionIndex))

theorem itemPlace_eq {r : Item} {p : Nat × Int} :
    itemPlace r = some p ↔ r.inventoryId = some p.1 ∧ r.positionIndex = p.2 := by
  unfold itemPlace
  rw [Option.map_eq_some_iff]
  constructor
  · rintro ⟨inv, hinv, rfl⟩
    exact ⟨hinv, rfl⟩
  · rintro ⟨hinv, hpos⟩
    exact ⟨p.1, hinv, by rw [hpos]⟩

def Below (inventories : Inventories) (p : Nat × Int) : Prop :=
  ∀ inv ∈ inventories, inv.id = p.1 → ∀ mic, inv.maxItemCount = some mic → 0 < mic →
    0 ≤ p.2 ∧ p.2 < mic

abbrev Fills (inventories : Inventories) (items items' : Items) : Prop :=
  ReflTransGen (Places itemPlace (Below inventories)) items items'

section Fill

variable {inventories : Inventories} {inv : Inventory} {items items' : Items} {slot : Int}

theorem below_of_mem (hinv : inv ∈ inventories)
    (h : ∀ mic, inv.maxItemCount = some mic → 0 < mic → 0 ≤ slot ∧ slot < mic) :
    Below inventories (inv.id, slot) := by
  intro inv' hinv' hid
  rw [Table.eq_of_key_eq hinv' hinv hid]
  exact h

theorem insert_places {ok : Nat × Int → Prop} {mk : Nat → Item} {hid : ∀ n, (mk n).id = n}
    {inv : Nat} (h : items.insert? mk hid = some items')
    (hplace : itemPlace (mk items.next) = some (inv, slot)) (hok : ok (inv, slot))
    (hfree : ∀ r ∈ items, r.inventoryId = some inv → r.positionIndex ≠ slot) :
    Places itemPlace ok items items' := by
  refine Places.of_insert h (fun p hp => ?_)
  rw [hplace] at hp
  cases hp
  refine ⟨hok, fun s hs heq => ?_⟩
  obtain ⟨hinv, hpos⟩ := itemPlace_eq.mp heq
  exact hfree s hs hinv hpos

theorem rehome_places {ok : Nat × Int → Prop} {item : Item} {src dst : Nat} (hitem : item ∈ items)
    (hsrc : item.inventoryId = some src) (hok : ok (dst, slot))
    (hfree : ∀ r ∈ items, r.inventoryId = some dst → r.positionIndex ≠ slot) :
    Places itemPlace ok items (rehome items item.id src dst slot) := by
  refine Places.of_move (r := item) ?_ (fun s => mem_rehome hitem hsrc) (fun p hp => ?_)
  · rfl
  · cases hp
    refine ⟨hok, fun s hs _ heq => ?_⟩
    obtain ⟨hinv, hpos⟩ := itemPlace_eq.mp heq
    exact hfree s hs hinv hpos

end Fill

/-! ## Withdraw -/

section Storage

variable {e : Engine} {db db' : Db} {now : Nat}

theorem mem_of_ownedInv {owner : Nat} {inv : Inventory} (h : inv ∈ db.ownedInv owner) :
    inv ∈ db.game.inventories := by
  rw [Db.ownedInv, List.mem_dedup] at h
  rcases List.mem_append.mp h with h | h
  · rcases List.mem_append.mp h with h | h
    · obtain ⟨p, -, h⟩ := List.mem_flatMap.mp h
      obtain ⟨afe, -, h⟩ := List.mem_flatMap.mp h
      exact (List.mem_filter.mp h).1
    · exact (mem_pawnInventories.mp h).1
  · obtain ⟨a, -, h⟩ := List.mem_flatMap.mp h
    exact (List.mem_filter.mp h).1

theorem mem_of_deliveryDst {owner : Nat} {selected : Option Nat} {c : Candidate}
    (h : c ∈ db.deliveryDst owner selected) : c.inv ∈ db.game.inventories := by
  rcases List.mem_append.mp h with h | h
  · obtain ⟨inv, hinv, rfl⟩ := List.mem_map.mp h
    exact (mem_pawnInventories.mp hinv).1
  · obtain ⟨inv, hinv, rfl⟩ := List.mem_map.mp h
    exact mem_of_ownedInv hinv

theorem destination_mem {a : Withdraw} {c : Candidate} {f : Fit}
    (h : db.destination a = some (c, f)) : c.inv ∈ db.game.inventories := by
  obtain ⟨c', hc', hfit⟩ := List.exists_of_findSome?_eq_some h
  obtain ⟨f', -, heq⟩ := Option.map_eq_some_iff.mp hfit
  cases heq
  rw [List.mem_insertionSort] at hc'
  exact mem_of_deliveryDst hc'

theorem fit_slot {items : Items} {amount : Nat} {inv : Inventory} {i : Int}
    (h : fit items amount inv = some (.slot i)) : emptySlot items inv = some i := by
  unfold fit at h
  split at h
  · cases h
  · obtain ⟨i', hi', heq⟩ := Option.map_eq_some_iff.mp h
    cases heq
    exact hi'

theorem addCoins_places {inventories : Inventories} {items items' : Items} {inv : Inventory}
    {amount coinId : Nat} {f : Fit} {slot : Int} (hinv : inv ∈ inventories)
    (hfit : fit items amount inv = some f)
    (h : addCoins items inv.id amount f = .ok (items', coinId, slot)) :
    Fills inventories items items' := by
  cases f with
  | merge r =>
    -- the merged stack keeps its slot
    cases h
    exact ReflTransGen.single (Places.of_update (by intro _; rfl) (by intro _; rfl))
  | slot i =>
    obtain ⟨items₁, hins, heq⟩ := map_eq_ok.mp h
    cases heq
    obtain ⟨hfree, hrange⟩ := emptySlot_spec (fit_slot hfit)
    exact ReflTransGen.single
      (insert_places (orRaise_eq_ok.mp hins) rfl (below_of_mem hinv hrange) hfree)

theorem withdraw_places {a : Withdraw} {r : WithdrawResult}
    (h : withdraw e a now db = .ok (r, db')) :
    Fills db.game.inventories db.game.items db'.game.items := by
  unfold withdraw at h
  obtain ⟨_, _, h⟩ := bind_eq_ok.mp h
  obtain ⟨bankInv, _, h⟩ := bind_eq_ok.mp h
  obtain ⟨bank, _, h⟩ := bind_eq_ok.mp h
  obtain ⟨_, _, h⟩ := bind_eq_ok.mp h
  obtain ⟨⟨dst, f⟩, hdst, h⟩ := bind_eq_ok.mp h
  obtain ⟨⟨items, coinId, slot⟩, hadd, h⟩ := bind_eq_ok.mp h
  cases pure_eq_ok.mp h
  rw [orRaise_eq_ok] at hdst
  exact addCoins_places (destination_mem hdst) (destination_spec hdst).2 hadd

theorem slotGate_spec {items : Items} {dst : Inventory} {slot : Int}
    (h : slotGate items dst = .ok slot) :
    (∀ r ∈ items, r.inventoryId = some dst.id → r.positionIndex ≠ slot) ∧
      ∀ mic, dst.maxItemCount = some mic → 0 < mic → 0 ≤ slot ∧ slot < mic := by
  unfold slotGate at h
  cases hmic : dst.maxItemCount with
  | none =>
    rw [hmic] at h
    cases h
  | some mic =>
    rw [hmic] at h
    dsimp only at h
    split at h
    · cases h
    · split at h
      · rename_i hall
        cases h
        refine ⟨fun r hr hinv => (Refinery.lt_appendSlot hr hinv).ne, fun mic' hmic' hpos => ?_⟩
        cases hmic'
        omega
      · obtain ⟨hfree, hrange⟩ := Refinery.firstGap_spec (orRaise_eq_ok.mp h)
        refine ⟨hfree, fun mic' hmic' _ => ?_⟩
        cases hmic'
        exact hrange

theorem pawnMove_places {a : PawnMove} {enabled : Bool} {vmap : String → Option ℚ} {r : MoveResult}
    (h : pawnMove a enabled vmap now db = .ok (r, db')) :
    Fills db.game.inventories db.game.items db'.game.items := by
  rcases pawnMove_cases h with rfl | ⟨item, src, dst, position, hmove⟩
  · exact ReflTransGen.refl
  · obtain ⟨moves, rfl⟩ := hmove.after_eq
    obtain ⟨hfree, hrange⟩ := slotGate_spec hmove.slot
    exact ReflTransGen.single (rehome_places hmove.item_mem hmove.item_src
      (below_of_mem hmove.dst_mem hrange) hfree)

end Storage

/-! ## The mint of the refinery -/

section Refinery

variable {bank : Inventory} {inventories : Inventories} {template stats : String} {maxStack : Int}
  {m m' : MintState}

theorem mintPass_places (hbank : bank ∈ inventories)
    (h : mintPass bank template stats maxStack m = .ok m') :
    Places itemPlace (Below inventories) m.items m'.items := by
  unfold mintPass at h
  split at h
  · cases h
    exact Places.of_update (by intro _; rfl) (by intro _; rfl)
  · obtain ⟨slot, hslot, h⟩ := bind_eq_ok.mp h
    obtain ⟨items, hins, h⟩ := bind_eq_ok.mp h
    cases pure_eq_ok.mp h
    obtain ⟨hfree, hrange⟩ := Refinery.freeSlot_spec hslot
    exact insert_places (orRaise_eq_ok.mp hins) rfl (below_of_mem hbank hrange) hfree

theorem mintLoop_places (hbank : bank ∈ inventories) {fuel : Nat}
    (h : mintLoop bank template stats maxStack fuel m = .ok m') :
    Fills inventories m.items m'.items := by
  induction fuel generalizing m with
  | zero =>
    unfold mintLoop at h
    split at h
    · cases h
    · cases h
      exact ReflTransGen.refl
  | succ fuel ih =>
    unfold mintLoop at h
    split at h
    · obtain ⟨m₁, hpass, hrest⟩ := bind_eq_ok.mp h
      exact ReflTransGen.head (mintPass_places hbank hpass) (ih hrest)
    · cases h
      exact ReflTransGen.refl

theorem drained_places {p : Refinery.Pawn} {template : String} {need : Int} {before after : Items}
    {u : Refinery.Used} (h : Refinery.Drained p template need before after u) :
    Places itemPlace (Below inventories) before after := by
  refine Places.stay (fun r hr => ?_)
  rcases h.shrunk r hr with hr | ⟨r₀, hr₀, -, -, heq⟩
  · exact ⟨r, hr, rfl, rfl⟩
  · rw [heq]
    exact ⟨r₀, hr₀, rfl, rfl⟩

variable {delete : Items → Nat → Int → Items} (hdel : RemovesExactly delete)

include hdel in
theorem trade_places {t : Refinery.Terms} {now : Nat} {db db' : Refinery.Db} {r : Refinery.Result}
    (h : Refinery.trade delete t now db = .ok (r, db')) :
    db'.game = { db.game with items := db'.game.items } ∧
      Fills db.game.inventories db.game.items db'.game.items := by
  unfold Refinery.trade at h
  obtain ⟨_, _, h⟩ := bind_eq_ok.mp h
  obtain ⟨p, hpawn, h⟩ := bind_eq_ok.mp h
  obtain ⟨_, _, h⟩ := bind_eq_ok.mp h
  obtain ⟨⟨ingots, items₁⟩, hingots, h⟩ := bind_eq_ok.mp h
  obtain ⟨⟨melange, items₂⟩, hmelange, h⟩ := bind_eq_ok.mp h
  obtain ⟨unverified, _, h⟩ := bind_eq_ok.mp h
  obtain ⟨m, hmint, h⟩ := bind_eq_ok.mp h
  obtain ⟨_, _, h⟩ := bind_eq_ok.mp h
  obtain ⟨ledger, _, h⟩ := bind_eq_ok.mp h
  obtain ⟨_, _, h⟩ := bind_eq_ok.mp h
  cases pure_eq_ok.mp h
  have hown := Refinery.pawn_owned hpawn
  have hdrained := Refinery.consumeBlock_drained hdel hown.distinct (Int.natCast_nonneg _) hingots
  have hdrained' :=
    Refinery.consumeBlock_drained hdel hown.distinct (Int.natCast_nonneg _) hmelange
  refine ⟨rfl, ReflTransGen.head (drained_places hdrained)
    (ReflTransGen.head (drained_places hdrained') ?_)⟩
  exact mintLoop_places hown.bank.1 hmint

include hdel in
theorem exchange_places (c : Refinery.Call) (db : Refinery.Db) :
    (Refinery.exchange delete c db).2.game =
        { db.game with items := (Refinery.exchange delete c db).2.game.items } ∧
      Fills db.game.inventories db.game.items (Refinery.exchange delete c db).2.game.items := by
  cases hreply : (Refinery.exchange delete c db).1 with
  | error refusal =>
    rw [Refinery.exchange_error hreply]
    exact ⟨rfl, ReflTransGen.refl⟩
  | ok r =>
    obtain ⟨t, db', -, htxn, hafter⟩ := Refinery.exchange_ok hreply
    rw [hafter]
    cases c.dryRun with
    | true => exact ⟨rfl, ReflTransGen.refl⟩
    | false =>
      cases hget : db.ledger.get? t.idempotencyKey with
      | none =>
        rw [Refinery.exchangeTxn_fresh hget] at htxn
        exact trade_places hdel htxn
      | some row =>
        rw [(Refinery.exchangeTxn_used hget htxn).1]
        exact ⟨rfl, ReflTransGen.refl⟩

end Refinery

/-! ## The gated take -/

def karumRow (r : Item) : Option Karum.Item :=
  r.inventoryId.map (fun inv =>
    { id := r.id, inventoryId := inv, positionIndex := r.positionIndex, templateId := r.templateId,
      stackSize := some r.stackSize.toNat, qualityLevel := some r.qualityLevel, isNew := r.isNew })

def karumInventory (inv : Inventory) : Option Karum.Inventory :=
  inv.actorId.bind (fun actor => inv.inventoryType.map (fun type => ⟨inv.id, actor, type⟩))

theorem id_of_karumRow {r : Item} {i : Karum.Item} (h : karumRow r = some i) : i.id = r.id := by
  obtain ⟨inv, -, rfl⟩ := Option.map_eq_some_iff.mp h
  rfl

theorem nodup_karumRows (items : Items) :
    ((items.rows.filterMap karumRow).map (·.id)).Nodup := by
  rw [List.map_filterMap]
  have hserial : (items.rows.map (·.id)).Nodup := items.serial
  rw [List.Nodup, List.pairwise_filterMap]
  rw [List.Nodup, List.pairwise_map] at hserial
  refine hserial.imp ?_
  intro r s hne i hi j hj hij
  obtain ⟨i', hi', rfl⟩ := Option.map_eq_some_iff.mp hi
  obtain ⟨j', hj', rfl⟩ := Option.map_eq_some_iff.mp hj
  exact hne ((id_of_karumRow hi').symm.trans (hij.trans (id_of_karumRow hj')))

def karumItems (items : Items) : Karum.Items := ⟨items.rows.filterMap karumRow, nodup_karumRows items⟩

def Db.karumWorld (db : Db) (exchangeInventory : Option Nat) (now : Nat) : Karum.World where
  now := now
  players := db.game.characters
  accounts := []
  inventories := db.game.inventories.rows.filterMap karumInventory
  items := karumItems db.game.items
  orders := SerialTable.empty
  fulfilled := []
  balances := db.balances
  farmSeconds := none
  exchangeInventory := exchangeInventory

/-- `karum_take_item` on the full rows. -/
def take (a : TakeArgs) (exchangeInventory : Option Nat) (now : Nat) (db : Db) :
    Except Karum.Token (Karum.TakeResult × Db) :=
  (Karum.karumTakeItem a (db.karumWorld exchangeInventory now)).map (fun p =>
    (p.1, { db with game := { db.game with
      items := rehome db.game.items p.1.itemId p.1.srcInv p.1.dstInv p.1.positionIndex } }))

def takeRun (a : TakeArgs) (exchangeInventory : Option Nat) (now : Nat) (db : Db) : Db :=
  match take a exchangeInventory now db with
  | .error _ => db
  | .ok (_, db') => db'

section Take

variable {a : TakeArgs} {x : Option Nat} {now : Nat} {db db' : Db} {r : Karum.TakeResult}

theorem karumItems_rehome (items : Items) (item src dst : Nat) (position : Int) :
    karumItems (rehome items item src dst position) =
      (karumItems items).update (fun i => i.id = item ∧ i.inventoryId = src)
        (fun i => { i with inventoryId := dst, positionIndex := position, isNew := true }) := by
  apply Table.eq_of_rows
  show ((items.rows.map _).filterMap karumRow) = (items.rows.filterMap karumRow).map _
  rw [List.filterMap_map, List.map_filterMap]
  apply List.filterMap_congr
  intro q _
  by_cases hq : q.id = item ∧ q.inventoryId = some src
  · simp [karumRow, hq]
  · cases hinv : q.inventoryId with
    | none => simp [karumRow, hinv]
    | some inv =>
      rw [hinv, Option.some.injEq] at hq
      simp [karumRow, hinv, hq]

theorem take_simulates (h : take a x now db = .ok (r, db')) :
    Karum.karumTakeItem a (db.karumWorld x now) = .ok (r, db'.karumWorld x now) := by
  obtain ⟨⟨r', w'⟩, htake, heq⟩ := map_eq_ok.mp h
  cases heq
  obtain ⟨item, -, -, -, hid, -, -, -, -, rfl⟩ := Karum.karumTakeItem_spec htake
  rw [htake]
  unfold Karum.World.moveItem Db.karumWorld
  rw [hid, karumItems_rehome]

theorem take_places (h : take a x now db = .ok (r, db')) :
    Places itemPlace (fun _ => True) db.game.items db'.game.items := by
  obtain ⟨⟨r', w'⟩, htake, heq⟩ := map_eq_ok.mp h
  cases heq
  obtain ⟨item, hitem, hsrc, -, hid, -⟩ := Karum.karumTakeItem_spec htake
  have hposition := Karum.karumTakeItem_position htake
  obtain ⟨q, hq, hrow⟩ := List.mem_filterMap.mp (Table.mem_of_get? hitem)
  have hqid : q.id = r'.itemId :=
    (id_of_karumRow hrow).symm.trans ((Table.key_of_get? hitem).trans hid.symm)
  have hqsrc : q.inventoryId = some r'.srcInv := by
    obtain ⟨inv, hinv, rfl⟩ := Option.map_eq_some_iff.mp hrow
    rw [hinv, ← hsrc]
  have hmove : Places itemPlace (fun _ => True) db.game.items
      (rehome db.game.items q.id r'.srcInv r'.dstInv r'.positionIndex) := by
    refine rehome_places hq hqsrc trivial (fun s hs hinv => ?_)
    have hmem : (⟨s.id, r'.dstInv, s.positionIndex, s.templateId, some s.stackSize.toNat,
        some s.qualityLevel, s.isNew⟩ : Karum.Item) ∈ karumItems db.game.items := by
      refine List.mem_filterMap.mpr ⟨s, hs, ?_⟩
      unfold karumRow
      rw [hinv]
      rfl
    have hlt := Karum.lt_nextPosition (w := db.karumWorld x now) hmem a.minPosition
    rw [hposition]
    exact hlt.ne
  rwa [hqid] at hmove

theorem takeRun_places (a : TakeArgs) (x : Option Nat) (now : Nat) (db : Db) :
    ReflTransGen (Places itemPlace (fun _ => True)) db.game.items
      (takeRun a x now db).game.items := by
  unfold takeRun
  split
  · exact ReflTransGen.refl
  · rename_i h
    exact ReflTransGen.single (take_places h)

end Take

/-! ## Runs -/

structure Realm where
  storage : Db
  exchanges : Refinery.Ledger

def Realm.items (realm : Realm) : Items := realm.storage.game.items

inductive RealmOp
  | withdraw (a : Withdraw) (now : Nat)
  | pawnMove (a : PawnMove) (enabled : Bool) (vmap : String → Option ℚ) (now : Nat)
  | exchange (c : Refinery.Call)
  | take (a : TakeArgs) (exchangeInventory : Option Nat) (now : Nat)

def RealmOp.capped : RealmOp → Bool
  | .take _ _ _ => false
  | _ => true

def RealmOp.run (e : Engine) (op : RealmOp) (realm : Realm) : Realm :=
  match op with
  | .withdraw a now => { realm with storage := ((Op.withdraw a now).run e realm.storage).2 }
  | .pawnMove a enabled vmap now =>
    { realm with storage := ((Op.pawnMove a enabled vmap now).run e realm.storage).2 }
  | .exchange c =>
    let db := (Refinery.exchange e.deleteInventoryItem c ⟨realm.storage.game, realm.exchanges⟩).2
    { storage := { realm.storage with game := db.game }, exchanges := db.ledger }
  | .take a exchangeInventory now =>
    { realm with storage := takeRun a exchangeInventory now realm.storage }

def realmStep (e : Engine) (realm : Realm) (op : RealmOp) : Option Realm := some (op.run e realm)

def Distinct (items : Items) : Prop :=
  ∀ r ∈ items, ∀ s ∈ items, ∀ inv, r.inventoryId = some inv → s.inventoryId = some inv →
    r.positionIndex = s.positionIndex → r = s

instance (items : Items) : Decidable (Distinct items) :=
  inferInstanceAs (Decidable (∀ r ∈ items.rows, ∀ s ∈ items.rows, ∀ inv ∈ r.inventoryId,
    s.inventoryId = some inv → r.positionIndex = s.positionIndex → r = s))

theorem distinct_iff {items : Items} : Distinct items ↔ Apart itemPlace items := by
  constructor
  · intro h r hr s hs p hrp hsp
    obtain ⟨hri, hrpos⟩ := itemPlace_eq.mp hrp
    obtain ⟨hsi, hspos⟩ := itemPlace_eq.mp hsp
    exact h r hr s hs p.1 hri hsi (hrpos.trans hspos.symm)
  · intro h r hr s hs inv hri hsi hpos
    exact h r hr s hs (inv, r.positionIndex) (itemPlace_eq.mpr ⟨hri, rfl⟩)
      (itemPlace_eq.mpr ⟨hsi, hpos.symm⟩)

/-- What a call leaves: distinct positions, and, if it is a call of the storage or the refinery
writer, no row at a new place beyond a positive cap. -/
structure Tidy (e : Engine) (realm : Realm) (op : RealmOp) : Prop where
  distinct : Distinct (op.run e realm).items
  placed : op.capped = true → ∀ r ∈ (op.run e realm).items,
    (∃ r₀ ∈ realm.items, r₀.id = r.id ∧ r₀.inventoryId = r.inventoryId ∧
        r₀.positionIndex = r.positionIndex) ∨
      ∀ inv ∈ realm.storage.game.inventories, r.inventoryId = some inv.id →
        ∀ mic, inv.maxItemCount = some mic → 0 < mic →
          0 ≤ r.positionIndex ∧ r.positionIndex < mic

section Run

variable {e : Engine} {realm : Realm}

theorem withdraw_fills (a : Withdraw) (now : Nat) (db : Db) :
    Fills db.game.inventories db.game.items ((Op.withdraw a now).run e db).2.game.items := by
  unfold Op.run
  cases hexec : (Op.withdraw a now).exec e db with
  | error refusal => exact ReflTransGen.refl
  | ok answer =>
    obtain ⟨⟨r, db'⟩, h, rfl⟩ := map_eq_ok.mp hexec
    exact withdraw_places h

theorem pawnMove_fills (a : PawnMove) (enabled : Bool) (vmap : String → Option ℚ) (now : Nat)
    (db : Db) : Fills db.game.inventories db.game.items
      ((Op.pawnMove a enabled vmap now).run e db).2.game.items := by
  unfold Op.run
  cases hexec : (Op.pawnMove a enabled vmap now).exec e db with
  | error refusal => exact ReflTransGen.refl
  | ok answer =>
    obtain ⟨⟨r, db'⟩, h, rfl⟩ := map_eq_ok.mp hexec
    exact pawnMove_places h

theorem capped_fills {op : RealmOp} (hop : op.capped = true) :
    Fills realm.storage.game.inventories realm.items (op.run e realm).items := by
  cases op with
  | withdraw a now => exact withdraw_fills a now realm.storage
  | pawnMove a enabled vmap now => exact pawnMove_fills a enabled vmap now realm.storage
  | exchange c =>
    exact (exchange_places e.removesExactly c ⟨realm.storage.game, realm.exchanges⟩).2
  | take a exchangeInventory now => cases hop

theorem run_tidy (h : Distinct realm.items) (op : RealmOp) : Tidy e realm op where
  distinct := by
    rw [distinct_iff] at h ⊢
    by_cases hop : op.capped = true
    · exact apart_of_steps (capped_fills hop) h
    · cases op with
      | take a x now => exact apart_of_steps (takeRun_places a x now realm.storage) h
      | withdraw a now => exact absurd rfl hop
      | pawnMove a enabled vmap now => exact absurd rfl hop
      | exchange c => exact absurd rfl hop
  placed hop r hr := by
    rcases placed_of_steps (capped_fills hop) hr with ⟨r₀, hr₀, hid, hplace⟩ | hbelow
    · cases hinv : r.inventoryId with
      | none =>
        refine Or.inr (fun inv _ hsome => ?_)
        cases hsome
      | some inv =>
        have hp : itemPlace r = some (inv, r.positionIndex) := itemPlace_eq.mpr ⟨hinv, rfl⟩
        obtain ⟨hinv₀, hpos₀⟩ := itemPlace_eq.mp (hplace.trans hp)
        exact Or.inl ⟨r₀, hr₀, hid, hinv₀, hpos₀⟩
    · refine Or.inr (fun inv hinv hr => ?_)
      exact hbelow (inv.id, r.positionIndex) (itemPlace_eq.mpr ⟨hr, rfl⟩) inv hinv rfl

end Run

/-- Every call of every run leaves distinct positions. -/
theorem slots_distinct (e : Engine) {realm : Realm} (hstart : Distinct realm.items)
    (ops : List RealmOp) : Along (realmStep e) (Tidy e) realm ops := by
  induction ops generalizing realm with
  | nil => trivial
  | cons op ops ih =>
    have htidy := run_tidy (e := e) hstart op
    refine along_cons.mpr ⟨htidy, fun realm' hstep => ih ?_⟩
    cases hstep
    exact htidy.distinct

/-! ## A small realm

The bank of player 11 has five slots and a row at slot 9. -/

def sampleRealm : Realm where
  storage := { sampleDb with game := { sampleDb.game with
    items := ⟨⟨[coinStack 1 201 10 2, Refinery.bankRow 2 201 0 "CopperBar" 30,
      Refinery.bankRow 3 201 9 "MelangeSpice" 2, Refinery.bankRow 4 203 7 "Water" 1], by decide⟩,
      5, by decide, by decide⟩ } }
  exchanges := Table.empty

def copperMint : Refinery.Call :=
  { Refinery.copperCall 3 25 false Refinery.week_pos with
    ownerCtrl := 11, owner_pos := sampleOwner_pos }

def sampleRealmRun : List RealmOp :=
  [.withdraw sampleWithdraw 0,
    .pawnMove sampleMove true (fun _ => none) 0,
    .exchange copperMint,
    .take ⟨4, 2, .bank 1, .bank, some "Water", none, .exact, none, 0⟩ none 0]

theorem slots_distinct_sample :
    ((exec (realmStep sampleEngine) sampleRealm sampleRealmRun).map
        (fun realm => realm.items.rows.map (fun r => (r.id, r.inventoryId, r.positionIndex)))) =
      some [(6, some 201, 1), (5, some 202, 0), (1, some 202, 1), (2, some 201, 0),
        (3, some 201, 9), (4, some 201, 10)] ∧
      Along (realmStep sampleEngine) (Tidy sampleEngine) sampleRealm sampleRealmRun :=
  ⟨by decide, slots_distinct sampleEngine (by decide) sampleRealmRun⟩

end LastSietch.Storage
