import LastSietch.Karum.Solari
import LastSietch.Storage.Wealth

/-!
# The storage writer conserves wealth

`Kept` says what a committed call may do to the database, and `Lawful` what any call does in a
run, a raise included.

* `withdraw_kept`, `deposit_kept` and `pawnMove_kept`: the three transactions.
-/

namespace LastSietch.Storage

open Refinery (Inventory Item Items)
open Karum (Balances plainProc)
open Runs

/-! ## Committed calls -/

/-- What a committed call of `owner` may do. -/
structure Kept (owner : Nat) (before after : Db) : Prop where
  characters : after.game.characters = before.game.characters
  inventories : after.game.inventories = before.game.inventories
  land : after.land = before.land
  wealth : after.wealth owner = before.wealth owner
  others : ∀ c, c ≠ owner → after.balances.of c = before.balances.of c
  nonneg : 0 ≤ before.balances.of owner → 0 ≤ after.balances.of owner
  rows : ∀ r, ¬ InSet (before.owned owner) r → (r ∈ after.game.items ↔ r ∈ before.game.items)
  sizes : ∀ r ∈ after.game.items, r.templateId = solarisTemplate →
    solarisStackMax < r.stackSize → ∃ r₀ ∈ before.game.items, r₀.id = r.id ∧
      r₀.templateId = solarisTemplate ∧ r.stackSize ≤ r₀.stackSize
  checked : Checked before.game.items → Checked after.game.items

theorem owned_congr {db db' : Db} (hcharacters : db'.game.characters = db.game.characters)
    (hinventories : db'.game.inventories = db.game.inventories) (hland : db'.land = db.land)
    (owner : Nat) : db'.owned owner = db.owned owner := by
  obtain ⟨⟨characters, inventories, items⟩, land, balances, moves⟩ := db
  obtain ⟨⟨characters', inventories', items'⟩, land', balances', moves'⟩ := db'
  cases hcharacters
  cases hinventories
  cases hland
  rfl

section Calls

variable {e : Engine} {db db' : Db} {now : Nat}

theorem kept_of_shifts {owner : Nat} {delta : Int} {items : Items} {balances : Balances}
    {moves : Moves} (hshifts : Shifts (db.owned owner) delta db.game.items items)
    (hbalances : ∀ c, balances.of c =
      if c = owner then db.balances.of c - delta else db.balances.of c)
    (hnonneg : 0 ≤ db.balances.of owner → 0 ≤ db.balances.of owner - delta) :
    Kept owner db { db with game := { db.game with items }, balances, moves } where
  characters := rfl
  inventories := rfl
  land := rfl
  wealth := by
    have hset : Db.owned { db with game := { db.game with items }, balances, moves } owner =
        db.owned owner := owned_congr rfl rfl rfl owner
    have hcoins : Items.coins items (db.owned owner) =
        Items.coins db.game.items (db.owned owner) + delta := hshifts.coins
    have hbalance := hbalances owner
    rw [if_pos rfl] at hbalance
    show balances.of owner + Items.coins items (Db.owned _ owner) =
      db.balances.of owner + Items.coins db.game.items (db.owned owner)
    rw [hset, hcoins, hbalance]
    omega
  others c hc := (hbalances c).trans (if_neg hc)
  nonneg h := by
    have hbalance := hbalances owner
    rw [if_pos rfl] at hbalance
    show 0 ≤ balances.of owner
    rw [hbalance]
    exact hnonneg h
  rows := hshifts.rows
  sizes := hshifts.sizes
  checked := hshifts.checked

theorem destination_spec {a : Withdraw} {c : Candidate} {f : Fit}
    (h : db.destination a = some (c, f)) :
    c.inv.id ∈ db.owned a.owner ∧ fit db.game.items a.amount c.inv = some f := by
  obtain ⟨c', hc', hfit⟩ := List.exists_of_findSome?_eq_some h
  obtain ⟨f', hf', heq⟩ := Option.map_eq_some_iff.mp hfit
  cases heq
  rw [List.mem_insertionSort] at hc'
  exact ⟨owned_of_deliveryDst hc', hf'⟩

theorem withdraw_kept {a : Withdraw} {r : WithdrawResult}
    (h : withdraw e a now db = .ok (r, db')) : Kept a.owner db db' := by
  unfold withdraw at h
  obtain ⟨_, _, h⟩ := bind_eq_ok.mp h
  obtain ⟨bankInv, _, h⟩ := bind_eq_ok.mp h
  obtain ⟨bank, hbank, h⟩ := bind_eq_ok.mp h
  obtain ⟨_, hfunds, h⟩ := bind_eq_ok.mp h
  obtain ⟨⟨dst, f⟩, hdst, h⟩ := bind_eq_ok.mp h
  obtain ⟨⟨items, coinId, slot⟩, hadd, h⟩ := bind_eq_ok.mp h
  cases pure_eq_ok.mp h
  rw [orRaise_eq_ok] at hbank hdst
  rw [require_eq_ok] at hfunds
  obtain ⟨hin, hfit⟩ := destination_spec hdst
  have hbalance : db.balances.of a.owner = bank.balance := by
    rw [Balances.of, hbank]
    rfl
  refine kept_of_shifts (addCoins_shifts hin a.amount_pos a.amount_cap (fit_spec hfit) hadd) ?_ ?_
  · exact fun c => (e.solaris.of_adjust db.balances a.owner (-(a.amount : Int)) c)
  · omega

variable {a : Deposit}

theorem mem_sourceCoins {r : Item} : r ∈ db.sourceCoins a ↔
    r ∈ db.game.items ∧ InSet (db.depositSrc a.owner a.srcInv) r ∧
      r.templateId = solarisTemplate := by
  rw [Db.sourceCoins, List.mem_insertionSort, List.mem_filter, decide_eq_true_eq]
  exact Iff.rfl

theorem sourceCoins_stacks (hpos : Checked db.game.items) :
    Stacks (db.owned a.owner) db.game.items (db.sourceCoins a) where
  mem r hr := (mem_sourceCoins.mp hr).1
  inSet r hr := by
    obtain ⟨id, hid, hinv⟩ := (mem_sourceCoins.mp hr).2.1
    exact ⟨id, owned_of_depositSrc hid, hinv⟩
  coin r hr := (mem_sourceCoins.mp hr).2.2
  pos r hr := hpos r (mem_sourceCoins.mp hr).1
  nodup := by
    rw [Db.sourceCoins, ((List.perm_insertionSort _ _).map _).nodup_iff]
    exact db.game.items.serial.sublist ((List.filter_sublist).map _)

theorem consumeCoins_shifts {total : Int} {items : Items} (hpos : Checked db.game.items)
    (h : consumeCoins e a.mode (db.sourceCoins a) db.game.items = .ok (total, items)) :
    0 ≤ total ∧ Shifts (db.owned a.owner) (-total) db.game.items items := by
  have hstacks := sourceCoins_stacks (a := a) hpos
  unfold consumeCoins at h
  obtain ⟨_, _, h⟩ := bind_eq_ok.mp h
  cases hmode : a.mode with
  | sweep =>
    rw [hmode] at h
    cases pure_eq_ok.mp h
    refine ⟨hstacks.sum_nonneg, ?_⟩
    exact deleteItems_shifts (fun id => owned_of_depositSrc) (fun r => mem_sourceCoins)
      (hstacks.nodup.of_map _)
  | amount n =>
    rw [hmode] at h
    obtain ⟨_, henough, h⟩ := bind_eq_ok.mp h
    cases pure_eq_ok.mp h
    exact ⟨Int.natCast_nonneg n,
      consumeStacks_shifts hstacks (Int.natCast_nonneg n) (require_eq_ok.mp henough)⟩

theorem deposit_kept {r : DepositResult} (hpos : Checked db.game.items)
    (h : deposit e a now db = .ok (r, db')) : Kept a.owner db db' := by
  unfold deposit at h
  obtain ⟨_, _, h⟩ := bind_eq_ok.mp h
  obtain ⟨⟨total, items⟩, hconsume, h⟩ := bind_eq_ok.mp h
  cases pure_eq_ok.mp h
  obtain ⟨htotal, hshifts⟩ := consumeCoins_shifts hpos hconsume
  refine kept_of_shifts hshifts (fun c => ?_) (by omega)
  rw [sub_neg_eq_add]
  exact e.solaris.of_adjust db.balances a.owner total c

theorem mem_rehome {items : Items} {item s : Item} {src dst : Nat} {position : Int}
    (hitem : item ∈ items) (hsrc : item.inventoryId = some src) :
    s ∈ rehome items item.id src dst position ↔ s ∈ items ∧ s.id ≠ item.id ∨
      s ∈ some { item with inventoryId := some dst, positionIndex := position, isNew := true } := by
  unfold rehome
  refine Iff.trans SerialTable.mem_update ?_
  simp only [decide_eq_true_eq, Option.mem_some_iff]
  constructor
  · rintro ⟨q, hq, rfl⟩
    by_cases hid : q.id = item.id
    · have hqi : q = item := SerialTable.eq_of_id_eq hq hitem hid
      subst hqi
      rw [if_pos ⟨rfl, hsrc⟩]
      exact Or.inr rfl
    · rw [if_neg (fun h => hid h.1)]
      exact Or.inl ⟨hq, hid⟩
  · rintro (⟨hs, hid⟩ | rfl)
    · exact ⟨s, hs, (if_neg (fun h => hid h.1)).symm⟩
    · exact ⟨item, hitem, (if_pos ⟨rfl, hsrc⟩).symm⟩

theorem rehome_shifts {S : List Nat} {items : Items} {item : Item} {src dst : Nat}
    {position : Int} (hitem : item ∈ items) (hinv : item.inventoryId = some src) (hsrc : src ∈ S)
    (hdst : dst ∈ S) : Shifts S 0 items (rehome items item.id src dst position) := by
  refine Shifts.of_swap hitem ⟨src, hsrc, hinv⟩ ?_ ?_ (fun s => mem_rehome hitem hinv) ?_ ?_ ?_
  · intro s hs
    cases hs
    rfl
  · intro s hs
    cases hs
    exact ⟨dst, hdst, rfl⟩
  · have hold : InSet S item := ⟨src, hsrc, hinv⟩
    have hnew : InSet S { item with
        inventoryId := some dst, positionIndex := position, isNew := true } := ⟨dst, hdst, rfl⟩
    rw [Option.elim_some, add_zero]
    unfold coinsIn
    by_cases hcoin : item.templateId = solarisTemplate
    · rw [if_pos ⟨hcoin, hnew⟩, if_pos ⟨hcoin, hold⟩]
    · rw [if_neg (fun h => hcoin h.1), if_neg (fun h => hcoin h.1)]
  · intro s hs
    cases hs
    exact ⟨rfl, Or.inr le_rfl⟩
  · intro s hs hold
    cases hs
    exact hold

theorem pawnStorage_spec {owner : Nat} {backpack bank : Inventory}
    (h : db.pawnStorage owner = .ok (backpack, bank)) :
    backpack ∈ db.pawnInventories (db.liveCharacters owner) 0 ∧
      bank ∈ db.pawnInventories (db.liveCharacters owner) 30 := by
  unfold Db.pawnStorage at h
  split at h
  · rename_i backpack' hbackpack
    split at h
    · rename_i bank' hbank
      cases h
      rw [hbackpack, hbank]
      exact ⟨List.mem_singleton_self _, List.mem_singleton_self _⟩
    · cases h
  · cases h

theorem srcKindOf_spec {backpack bank : Inventory} {inv : Nat} {kind : StorageKind}
    (h : srcKindOf backpack bank inv = .ok kind) : inv = bank.id ∨ inv = backpack.id := by
  unfold srcKindOf at h
  split at h
  · rename_i heq
    exact Or.inl heq
  · split at h
    · rename_i heq
      exact Or.inr heq
    · cases h

structure Relocated (a : PawnMove) (before after : Db) (item : Item) (src : Nat)
    (dst : Inventory) (position : Int) : Prop where
  item_mem : item ∈ before.game.items
  item_id : item.id = a.itemId
  item_src : item.inventoryId = some src
  src_owned : src ∈ before.owned a.owner
  dst_owned : dst.id ∈ before.owned a.owner
  dst_mem : dst ∈ before.game.inventories
  src_ne : src ≠ dst.id
  slot : slotGate before.game.items dst = .ok position
  after_eq : ∃ moves, after = { before with
    game := { before.game with items := rehome before.game.items item.id src dst.id position }
    moves }

theorem relocate_spec {a : PawnMove} {unitVol : Option ℚ} {r : MoveResult}
    (h : relocate a unitVol now db = .ok (r, db')) :
    ∃ item src dst position, Relocated a db db' item src dst position := by
  unfold relocate at h
  obtain ⟨_, _, h⟩ := bind_eq_ok.mp h
  obtain ⟨⟨backpack, bank⟩, hstorage, h⟩ := bind_eq_ok.mp h
  obtain ⟨item, hitem, h⟩ := bind_eq_ok.mp h
  obtain ⟨src, hsrc, h⟩ := bind_eq_ok.mp h
  obtain ⟨_, _, h⟩ := bind_eq_ok.mp h
  obtain ⟨srcKind, hkind, h⟩ := bind_eq_ok.mp h
  obtain ⟨_, _, h⟩ := bind_eq_ok.mp h
  obtain ⟨_, hne, h⟩ := bind_eq_ok.mp h
  obtain ⟨position, hposition, h⟩ := bind_eq_ok.mp h
  obtain ⟨unverified, _, h⟩ := bind_eq_ok.mp h
  obtain ⟨moves, _, h⟩ := bind_eq_ok.mp h
  cases pure_eq_ok.mp h
  rw [orRaise_eq_ok] at hitem hsrc
  obtain ⟨hitem, hid⟩ := SerialTable.byId?_eq_some.mp hitem
  obtain ⟨hbackpack, hbank⟩ := pawnStorage_spec hstorage
  have hbackpack_owned := owned_of_live (Or.inl rfl) hbackpack
  have hbank_owned := owned_of_live (Or.inr rfl) hbank
  refine ⟨item, src, _, position,
    { item_mem := hitem, item_id := hid, item_src := hsrc, src_owned := ?_, dst_owned := ?_,
      dst_mem := ?_, src_ne := (require_eq_ok.mp hne).2, slot := hposition,
      after_eq := ⟨moves, ?_⟩ }⟩
  · rcases srcKindOf_spec hkind with rfl | rfl
    · exact hbank_owned
    · exact hbackpack_owned
  · cases a.dstStorage
    · exact hbank_owned
    · exact hbackpack_owned
  · cases a.dstStorage
    · exact (mem_pawnInventories.mp hbank).1
    · exact (mem_pawnInventories.mp hbackpack).1
  · rw [hid]

theorem Kept.refl (owner : Nat) (db : Db) : Kept owner db db where
  characters := rfl
  inventories := rfl
  land := rfl
  wealth := rfl
  others _ _ := rfl
  nonneg h := h
  rows _ _ := Iff.rfl
  sizes r hr hcoin _ := ⟨r, hr, rfl, hcoin, le_rfl⟩
  checked h := h

theorem pawnMove_cases {a : PawnMove} {enabled : Bool} {vmap : String → Option ℚ} {r : MoveResult}
    (h : pawnMove a enabled vmap now db = .ok (r, db')) :
    db' = db ∨ ∃ item src dst position, Relocated a db db' item src dst position := by
  unfold pawnMove at h
  obtain ⟨_, _, h⟩ := bind_eq_ok.mp h
  unfold pawnMoveTxn at h
  split at h
  · split at h
    · cases h
      exact Or.inl rfl
    · cases h
  · exact Or.inr (relocate_spec h)

theorem pawnMove_kept {a : PawnMove} {enabled : Bool} {vmap : String → Option ℚ} {r : MoveResult}
    (h : pawnMove a enabled vmap now db = .ok (r, db')) : Kept a.owner db db' := by
  rcases pawnMove_cases h with rfl | ⟨item, src, dst, position, hmove⟩
  · exact Kept.refl a.owner db'
  · obtain ⟨moves, rfl⟩ := hmove.after_eq
    refine kept_of_shifts (rehome_shifts hmove.item_mem hmove.item_src hmove.src_owned
      hmove.dst_owned) (fun c => ?_) (by omega)
    rw [sub_zero, ite_self]

theorem run_kept (hpos : Checked db.game.items) (op : Op) :
    Kept op.owner db (op.run e db).2 := by
  unfold Op.run
  cases hexec : op.exec e db with
  | error refusal => exact Kept.refl op.owner db
  | ok answer =>
    obtain ⟨answer, db'⟩ := answer
    cases op with
    | withdraw a now =>
      obtain ⟨⟨r, db₁⟩, h, heq⟩ := map_eq_ok.mp hexec
      cases heq
      exact withdraw_kept h
    | deposit a now =>
      obtain ⟨⟨r, db₁⟩, h, heq⟩ := map_eq_ok.mp hexec
      cases heq
      exact deposit_kept hpos h
    | pawnMove a enabled vmap now =>
      obtain ⟨⟨r, db₁⟩, h, heq⟩ := map_eq_ok.mp hexec
      cases heq
      exact pawnMove_kept h

end Calls

/-! ## Runs -/

def Db.shared (db : Db) (o o' : Nat) : List Nat :=
  (db.owned o).filter (fun id => id ∈ db.owned o')

def step (e : Engine) (db : Db) (op : Op) : Option Db := some (op.run e db).2

/-- The law of a call: it keeps the wealth of the caller, and that of another owner but for the
coins of the inventories that the two share. -/
structure Lawful (e : Engine) (db : Db) (op : Op) : Prop where
  sets : ∀ o, (op.run e db).2.owned o = db.owned o
  own : (op.run e db).2.wealth op.owner = db.wealth op.owner
  other : ∀ o, o ≠ op.owner → (op.run e db).2.wealth o = db.wealth o +
    (Items.coins (op.run e db).2.game.items (db.shared o op.owner) -
      Items.coins db.game.items (db.shared o op.owner))
  nonneg : ∀ c, 0 ≤ db.balances.of c → 0 ≤ (op.run e db).2.balances.of c
  sizes : ∀ r ∈ (op.run e db).2.game.items, r.templateId = solarisTemplate →
    solarisStackMax < r.stackSize → ∃ r₀ ∈ db.game.items, r₀.id = r.id ∧
      r₀.templateId = solarisTemplate ∧ r.stackSize ≤ r₀.stackSize
  rows : ∀ r, ¬ InSet (db.owned op.owner) r →
    (r ∈ (op.run e db).2.game.items ↔ r ∈ db.game.items)
  raise : ∀ refusal, (op.run e db).1 = .error refusal → (op.run e db).2 = db

theorem run_error {e : Engine} {op : Op} {db : Db} {refusal : Refusal}
    (h : (op.run e db).1 = .error refusal) : (op.run e db).2 = db := by
  unfold Op.run at h ⊢
  cases hexec : op.exec e db with
  | error refusal' => rfl
  | ok answer =>
    rw [hexec] at h
    cases h

theorem coins_split (items : Items) (S : List Nat) (p : Nat → Bool) :
    Items.coins items S =
      Items.coins items (S.filter p) + Items.coins items (S.filter (fun id => !p id)) := by
  unfold Items.coins
  rw [← List.sum_map_add]
  congr 1
  apply List.map_congr_left
  intro r _
  unfold coinsIn InSet
  by_cases hcoin : r.templateId = solarisTemplate
  · rcases Option.eq_none_or_eq_some r.inventoryId with hinv | ⟨inv, hinv⟩
    · simp [hinv]
    · by_cases hin : inv ∈ S <;> by_cases hp : p inv <;> simp [hcoin, hinv, hin, hp]
  · simp [hcoin]

namespace Kept

variable {owner : Nat} {db db' : Db}

theorem owned_eq (h : Kept owner db db') (o : Nat) : db'.owned o = db.owned o :=
  owned_congr h.characters h.inventories h.land o

theorem coins_outside (h : Kept owner db db') {S : List Nat}
    (hout : ∀ id ∈ S, id ∉ db.owned owner) :
    Items.coins db'.game.items S = Items.coins db.game.items S := by
  refine SerialTable.sum_eq_of_mem (fun r hr => h.rows r ?_)
  rintro ⟨id, hid, hinv⟩
  apply hr
  unfold coinsIn
  rw [if_neg]
  rintro ⟨-, id', hid', hinv'⟩
  rw [hinv] at hinv'
  cases hinv'
  exact hout id hid' hid

theorem wealth_other (h : Kept owner db db') {o : Nat} (ho : o ≠ owner) :
    db'.wealth o = db.wealth o + (Items.coins db'.game.items (db.shared o owner) -
      Items.coins db.game.items (db.shared o owner)) := by
  have hbefore := coins_split db.game.items (db.owned o) (fun id => id ∈ db.owned owner)
  have hafter := coins_split db'.game.items (db.owned o) (fun id => id ∈ db.owned owner)
  have hrest : Items.coins db'.game.items ((db.owned o).filter (fun id => id ∉ db.owned owner)) =
      Items.coins db.game.items ((db.owned o).filter (fun id => id ∉ db.owned owner)) := by
    refine h.coins_outside (fun id hid => ?_)
    have hp := (List.mem_filter.mp hid).2
    rwa [decide_eq_true_eq] at hp
  have hnot : (fun id => !decide (id ∈ db.owned owner)) =
      (fun id => decide (id ∉ db.owned owner)) := by
    funext id
    exact (decide_not ..).symm
  rw [hnot] at hbefore hafter
  have hbalance := h.others o ho
  show db'.balances.of o + Items.coins db'.game.items (db'.owned o) =
    db.balances.of o + Items.coins db.game.items (db.owned o) +
      (Items.coins db'.game.items ((db.owned o).filter (fun id => id ∈ db.owned owner)) -
        Items.coins db.game.items ((db.owned o).filter (fun id => id ∈ db.owned owner)))
  rw [h.owned_eq o]
  omega

end Kept

theorem lawful_run (e : Engine) {db : Db} (hpos : Checked db.game.items) (op : Op) :
    Lawful e db op := by
  have hkept := run_kept (e := e) hpos op
  refine { sets := hkept.owned_eq, own := hkept.wealth, other := fun o => hkept.wealth_other,
           nonneg := ?_, sizes := hkept.sizes, rows := hkept.rows,
           raise := fun _ => run_error }
  intro c hc
  by_cases howner : c = op.owner
  · rw [howner] at hc ⊢
    exact hkept.nonneg hc
  · rw [hkept.others c howner]
    exact hc

/-- Every call of every run is lawful. -/
theorem wealth_conserved (e : Engine) {db : Db} (hstart : Checked db.game.items)
    (ops : List Op) : Along (step e) (Lawful e) db ops := by
  induction ops generalizing db with
  | nil => trivial
  | cons op ops ih =>
    refine along_cons.mpr ⟨lawful_run e hstart op, fun db' hstep => ih ?_⟩
    cases hstep
    exact (run_kept hstart op).checked hstart

/-! ## A small world

Players 11 and 12 are offline, each with a bank and a backpack. Both have rank 1 on the base in
which container 300 stands. -/

def sampleEngine : Engine where
  solaris := plainProc
  deleteItems items ids := items.filter (fun r => r.id ∉ ids)
  deleteInventoryItem := Refinery.deleteInventoryItem
  mem_deleteItems items ids r := by
    rw [SerialTable.mem_filter, decide_eq_true_eq]
  removesExactly := Refinery.removesExactly_deleteInventoryItem

def coinStack (id inv : Nat) (stackSize position : Int) : Item :=
  { id, inventoryId := some inv, stackSize, positionIndex := position,
    templateId := solarisTemplate, stats := statsJson, qualityLevel := 0, acquisitionTime := 0,
    isNew := false, volumeOverride := none }

def chest (id actor type : Nat) (slots : Int) : Inventory :=
  { id, actorId := some actor, inventoryType := some type, maxItemCount := some slots,
    maxItemVolume := none }

def sampleDb : Db where
  game :=
    { characters := [Karum.samplePlayer 1, Karum.samplePlayer 2]
      inventories := ⟨[chest 201 101 30 5, chest 202 101 0 5, chest 203 102 30 5,
        chest 204 102 0 5, chest 300 400 2 5], by decide⟩
      items := ⟨⟨[coinStack 3 300 70 0, coinStack 2 202 20 0, coinStack 1 201 10 2], by decide⟩, 4,
        by decide, by decide⟩ }
  land :=
    { placeables := [⟨400, some 7, some "GenericContainer_Placeable", some false⟩]
      entities := [⟨500, 7⟩]
      ranks := [⟨500, 11, 1⟩, ⟨500, 12, 1⟩]
      actors := [] }
  balances := ⟨[⟨11, 500⟩, ⟨12, 0⟩], by decide⟩
  moves := Table.empty

theorem sampleOwner_pos : 1 ≤ 11 := by decide

def sampleWithdraw : Withdraw := ⟨11, 90, none, sampleOwner_pos, by decide, by decide, by decide⟩

def sampleMove : PawnMove :=
  ⟨11, 1, .bank, .backpack, 9, none, sampleOwner_pos, Nat.one_pos, by decide, by decide⟩

def sampleRun : List Op :=
  [.withdraw { sampleWithdraw with dstInv := some 300, dst_pos := by decide } 0,
    .deposit ⟨11, .sweep, some 204, sampleOwner_pos, by decide, by decide⟩ 0,
    .pawnMove sampleMove true (fun _ => none) 0,
    .deposit ⟨11, .amount 25, some 202, sampleOwner_pos, by decide, by decide⟩ 0,
    .deposit ⟨11, .sweep, none, sampleOwner_pos, by decide, by decide⟩ 0]

theorem wealth_conserved_sample :
    ((exec (step sampleEngine) sampleDb sampleRun).map (fun db => (db.wealth 11, db.wealth 12)) =
        some (600, 0)) ∧ Along (step sampleEngine) (Lawful sampleEngine) sampleDb sampleRun :=
  ⟨by decide, wealth_conserved sampleEngine (by decide) sampleRun⟩

def ownerSweep : Op := .deposit ⟨11, .sweep, none, sampleOwner_pos, by decide, by decide⟩ 0

/-- What the one owner sweeps out of the container is gone for the other. -/
theorem coOwned_sweep :
    Checked sampleDb.game.items ∧ sampleDb.wealth 12 = 70 ∧
      (ownerSweep.run sampleEngine sampleDb).2.wealth 12 = 0 ∧
      (ownerSweep.run sampleEngine sampleDb).2.wealth 11 = sampleDb.wealth 11 := by
  decide

/-- A run leaves alone what its callers have no part in: the balances of the others, the rows
outside of the callers' inventories, and the wealth of whoever shares no inventory with another. -/
theorem run_isolated (e : Engine) {db db' : Db} (hstart : Checked db.game.items) {ops : List Op}
    (hrun : exec (step e) db ops = some db') :
    (∀ o, db'.owned o = db.owned o) ∧
    (∀ c, (∀ op ∈ ops, op.owner ≠ c) → db'.balances.of c = db.balances.of c) ∧
    (∀ r, (∀ op ∈ ops, ¬ InSet (db.owned op.owner) r) →
      (r ∈ db'.game.items ↔ r ∈ db.game.items)) ∧
    ∀ o, (∀ op ∈ ops, op.owner = o ∨ db.shared o op.owner = []) → db'.wealth o = db.wealth o := by
  induction ops generalizing db with
  | nil =>
    cases hrun
    exact ⟨fun _ => rfl, fun _ _ => rfl, fun _ _ => Iff.rfl, fun _ _ => rfl⟩
  | cons op ops ih =>
    obtain ⟨m, hstep, hrest⟩ := exec_cons.mp hrun
    obtain rfl := Option.some.inj hstep
    have hkept := run_kept (e := e) hstart op
    have howned := hkept.owned_eq
    have hshared : ∀ o o', (op.run e db).2.shared o o' = db.shared o o' := by
      intro o o'
      unfold Db.shared
      rw [howned, howned]
    obtain ⟨hsets, hbalances, hrows, hwealth⟩ := ih (hkept.checked hstart) hrest
    refine ⟨fun o => (hsets o).trans (howned o), fun c hc => ?_, fun r hr => ?_, fun o ho => ?_⟩
    · rw [hbalances c (fun q hq => hc q (List.mem_cons_of_mem _ hq))]
      exact hkept.others c (Ne.symm (hc op (List.mem_cons_self ..)))
    · rw [hrows r (fun q hq => by rw [howned]; exact hr q (List.mem_cons_of_mem _ hq))]
      exact hkept.rows r (hr op (List.mem_cons_self ..))
    · rw [hwealth o (fun q hq => by rw [hshared]; exact ho q (List.mem_cons_of_mem _ hq))]
      rcases ho op (List.mem_cons_self ..) with rfl | hnone
      · exact hkept.wealth
      · by_cases heq : o = op.owner
        · rw [heq]
          exact hkept.wealth
        · rw [hkept.wealth_other heq, hnone,
            hkept.coins_outside (fun id hid => absurd hid List.not_mem_nil)]
          omega

theorem run_isolated_sample : ∃ db', exec (step sampleEngine) sampleDb sampleRun = some db' ∧
    db'.balances.of 11 = 505 ∧ db'.balances.of 12 = sampleDb.balances.of 12 ∧
      db'.wealth 11 = sampleDb.wealth 11 := by
  obtain ⟨db', hrun, hbalance⟩ : ∃ db', exec (step sampleEngine) sampleDb sampleRun = some db' ∧
      db'.balances.of 11 = 505 := exec_shows (by decide)
  obtain ⟨-, hbalances, -, hwealth⟩ := run_isolated sampleEngine (by decide) hrun
  exact ⟨db', hrun, hbalance, hbalances 12 (by decide), hwealth 11 (by decide)⟩

end LastSietch.Storage
