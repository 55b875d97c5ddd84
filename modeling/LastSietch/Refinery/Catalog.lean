import LastSietch.Refinery.Room
import LastSietch.Refinery.Weekly

/-!
# The catalog and its stepper

`doCatalog` is what the writer answers a catalog request with, and `shapeRecipe` what the portal
makes of a recipe of it. Both publish `max_batches_affordable`, which is counted apart from the
exchange: from sums and row counts, without locks.

* `weekly_of_offered` and `held_of_offered`: what an offer promises.
* `trade_clear_iff`: when a trade keeps clear of the refusals a stepper should foresee.
-/

namespace LastSietch.Refinery

open Drain

/-! ## The read -/

structure Held where
  bank : Int
  backpack : Int
  toolbar : Int
  total : Int
  deriving DecidableEq, Repr

/-- What `read_catalog` reads. `holdings`, `bankDustStacks` and `weekly` are given by template. -/
structure Plan where
  chars : Nat
  offlineChars : Nat
  bankCount : Nat
  backpackCount : Nat
  toolbarCount : Nat
  bank : Option Inventory
  backpack : Option Inventory
  toolbar : Option Inventory
  bankUsed : Nat
  holdings : String → Held
  bankDustStacks : String → List Int
  weekly : String → Int

/-- `_pivot_holdings`, for one template. -/
def pivotHoldings (items : Items) (pawn : List Inventory) (template : String) : Held :=
  let units := fun type => ((ofType type pawn).map (fun inv => items.held inv.id template)).sum
  { bank := units invBank
    backpack := units invBackpack
    toolbar := units invToolbar
    total := units invBank + units invBackpack + units invToolbar }

def readCatalog (accountId ownerCtrl : Nat) (rates : Rates) (now : Nat) (db : Db) : Plan :=
  let live := db.game.liveCharacters accountId
  let pawn := db.game.pawnSources accountId ownerCtrl
  let bank := (ofType invBank pawn).head?
  { chars := live.length
    offlineChars := (live.filter (offline now)).length
    bankCount := (ofType invBank pawn).length
    backpackCount := (ofType invBackpack pawn).length
    toolbarCount := (ofType invToolbar pawn).length
    bank
    backpack := (ofType invBackpack pawn).head?
    toolbar := (ofType invToolbar pawn).head?
    bankUsed := bank.elim 0 (fun b => (db.game.items.inventoryRows b.id).length)
    holdings := pivotHoldings db.game.items pawn
    bankDustStacks := fun template =>
      bank.elim [] (fun b => (db.game.items.rowsOf b.id template).map (·.stackSize))
    weekly := fun template => weeklyUsed db.ledger accountId template rates.windowDays now }

def Plan.offlineOk (plan : Plan) : Bool := 0 < plan.chars && plan.offlineChars == plan.chars

def Plan.pawnOk (plan : Plan) : Bool :=
  plan.bankCount == 1 && plan.backpackCount == 1 && plan.toolbarCount ≤ 1

def Plan.pawnRefusal (plan : Plan) : Option Refusal :=
  if plan.bankCount ≠ 1 then some .noBank
  else if plan.pawnOk = false then some .noPawnStorage
  else none

/-- `bank_free`: `none` is a bank without a slot cap. -/
def Plan.bankFree (plan : Plan) : Option Int :=
  match plan.bank.bind (·.maxItemCount) with
  | none => none
  | some mic =>
    if mic < 0 then none
    else if mic = 0 then some 0
    else some (max (mic - plan.bankUsed) 0)

/-- `merge_room`, over the stacks of any quality. -/
def Plan.mergeRoom (plan : Plan) (row : Recipe) : Int :=
  ((plan.bankDustStacks row.outputTemplate).map (fun n => max ((row.maxStack : Int) - n) 0)).sum

def Plan.room (plan : Plan) (row : Recipe) : Option Int :=
  plan.bankFree.map (fun free => plan.mergeRoom row + free * row.maxStack)

/-! ## The answer -/

/-- A recipe of the catalog. What was not read is `none`. -/
structure Entry where
  recipe : Recipe
  heldInput : Option Held
  heldSpice : Option Held
  heldOutput : Option Held
  heldOutputUnits : Option Int
  outputRoomUnits : Option Int
  weeklyDustUsedAccount : Option Int
  weeklyDustLeftAccount : Option Int
  maxBatchesAffordable : Option Int

def Entry.dark (row : Recipe) : Entry := ⟨row, none, none, none, none, none, none, none, none⟩

/-- The least of the limits, which is none when there are no limits but `base`. -/
def capped (base : Int) (limit : Option Int) : Int := limit.elim base (min base)

def Plan.limits (plan : Plan) (rates : Rates) (row : Recipe) : Int :=
  let left := max (rates.weeklyDustCap - plan.weekly row.outputTemplate) 0
  capped
    (min (min ((plan.holdings row.inputTemplate).total / row.inputPerBatch)
        ((plan.holdings row.spiceTemplate).total / row.spicePerBatch))
      (min (left / row.outputPerBatch) rates.maxBatchesPerRequest))
    ((plan.room row).map (· / row.outputPerBatch))

def Plan.entry (plan : Plan) (rates : Rates) (row : Recipe) : Entry :=
  let whenRead := fun {α : Type} (a : α) => if plan.pawnOk then some a else none
  { recipe := row
    heldInput := whenRead (plan.holdings row.inputTemplate)
    heldSpice := whenRead (plan.holdings row.spiceTemplate)
    heldOutput := whenRead (plan.holdings row.outputTemplate)
    heldOutputUnits := whenRead (plan.holdings row.outputTemplate).total
    outputRoomUnits := if plan.pawnOk then plan.room row else none
    weeklyDustUsedAccount := some (plan.weekly row.outputTemplate)
    weeklyDustLeftAccount := some (max (rates.weeklyDustCap - plan.weekly row.outputTemplate) 0)
    maxBatchesAffordable := whenRead (max (plan.limits rates row) 0) }

structure Reach where
  invId : Option Nat
  count : Nat
  reachable : Bool

structure Payload where
  enabled : Bool
  rateVersion : String
  maxBatchesPerRequest : Nat
  weeklyDustCap : Nat
  windowDays : Nat
  holdingsRead : Bool
  pawnRefusal : Option Refusal
  plan : Option Plan
  freeSlots : Option Int
  sources : List Reach
  recipes : List Entry

/-- `do_catalog`: a dark refinery opens no session. -/
def doCatalog (enabled : Bool) (accountId ownerCtrl : Nat) (rates : Rates) (now : Nat) (db : Db) :
    Payload :=
  let answer := fun holdingsRead pawnRefusal plan freeSlots sources recipes =>
    (⟨enabled, rates.rateVersion, rates.maxBatchesPerRequest, rates.weeklyDustCap,
      rates.windowDays, holdingsRead, pawnRefusal, plan, freeSlots, sources, recipes⟩ : Payload)
  if enabled then
    let plan := readCatalog accountId ownerCtrl rates now db
    let reach := fun (inv : Option Inventory) count => (⟨inv.map (·.id), count, count == 1⟩ : Reach)
    answer plan.pawnOk plan.pawnRefusal (some plan) plan.bankFree
      [reach plan.bank plan.bankCount, reach plan.backpack plan.backpackCount,
        reach plan.toolbar plan.toolbarCount]
      (rates.recipes.map (plan.entry rates))
  else answer false none none none [] (rates.recipes.map Entry.dark)

def Entry.held (raw : Option Held) (unread : Bool) : Option Held :=
  if unread then none
  else raw.map (fun h => ⟨max 0 h.bank, max 0 h.backpack, max 0 h.toolbar, max 0 h.total⟩)

def affordable (recipe : Recipe) (heldInput heldSpice : Option Held) (dustLeft : Int)
    (outputRoom : Option Int) (maxBatches : Nat) : Option Int := do
  let input ← heldInput
  let spice ← heldSpice
  some (max 0 (capped
    (min (min maxBatches (input.total / recipe.inputPerBatch))
      (min (spice.total / recipe.spicePerBatch) (max 0 dustLeft / recipe.outputPerBatch)))
    (outputRoom.map (fun room => max 0 room / recipe.outputPerBatch))))

/-- `max_batches_affordable` as `_shape_recipes` publishes it, for an identity that has `dustLeft`
left on its own weekly counter. -/
def Payload.shapeRecipe (payload : Payload) (dustLeft : Int) (e : Entry) : Option Int :=
  let unread := payload.holdingsRead == false
  affordable e.recipe (Entry.held e.heldInput unread) (Entry.held e.heldSpice unread) dustLeft
    (e.outputRoomUnits.map (fun room => (pos (some room) 0 : Int)))
    (min (pos (some payload.maxBatchesPerRequest) safetyMaxBatches) safetyMaxBatches)

/-! ## Offers -/

def Refusal.Foreseen : Refusal → Prop
  | .insufficient _ _ _ | .shortBy _ _ | .weeklyCap _ _ _ | .noSpace _ | .bankVolume => True
  | _ => False

def Terms.Offered (t : Terms) (now : Nat) (db : Db) : Prop :=
  ∃ e ∈ (doCatalog true t.accountId t.ownerCtrl t.rates now db).recipes, e.recipe = t.recipe ∧
    ∃ n, e.maxBatchesAffordable = some n ∧ (t.batches : Int) ≤ n

def Terms.OfferedByPortal (t : Terms) (dustLeft : Int) (now : Nat) (db : Db) : Prop :=
  let payload := doCatalog true t.accountId t.ownerCtrl t.rates now db
  ∃ e ∈ payload.recipes, e.recipe = t.recipe ∧
    ∃ n, payload.shapeRecipe dustLeft e = some n ∧ (t.batches : Int) ≤ n

def Terms.ingotsGone (t : Terms) (p : Pawn) (items : Items) : Items :=
  items.withdraw (p.gives items t.recipe.inputTemplate t.inputUnits)

def Terms.melangeGone (t : Terms) (p : Pawn) (items : Items) : Items :=
  (t.ingotsGone p items).withdraw
    (p.gives (t.ingotsGone p items) t.recipe.spiceTemplate t.spiceUnits)

def Terms.VolumeFits (t : Terms) (bank : Inventory) (items : Items) : Prop :=
  bank.maxItemVolume.getD 0 ≤ 0 ∨ ∀ v ∈ t.unitVol,
    usedVolume items bank.id + v * (t.dustUnits : Int) ≤ bank.maxItemVolume.getD 0

structure Terms.Met (t : Terms) (p : Pawn) (items : Items) : Prop where
  both : t.recipe.inputTemplate = t.recipe.spiceTemplate →
    (t.inputUnits + t.spiceUnits : Int) ≤ p.held items t.recipe.inputTemplate
  volume : t.VolumeFits p.bank (t.melangeGone p items)
  room : (t.melangeGone p items).Fits p.bank t.recipe.outputTemplate t.recipe.maxStack t.dustUnits

section Offers

variable {t : Terms} {p : Pawn} {now : Nat} {db : Db} {dustLeft : Int}

theorem ofType_of_pawn {g : Game} {accountId ownerCtrl : Nat}
    (h : g.pawn accountId ownerCtrl = .ok p) :
    ofType invBank (g.pawnSources accountId ownerCtrl) = [p.bank] ∧
      ofType invBackpack (g.pawnSources accountId ownerCtrl) = [p.backpack] ∧
      ofType invToolbar (g.pawnSources accountId ownerCtrl) = p.toolbar.toList := by
  unfold Game.pawn at h
  split at h
  · rename_i bank hbank
    split at h
    · rename_i backpack hbackpack htoolbar
      cases h
      exact ⟨hbank, hbackpack, htoolbar⟩
    · rename_i backpack toolbar hbackpack htoolbar
      cases h
      exact ⟨hbank, hbackpack, htoolbar⟩
    · cases h
  · cases h

section Plans

variable (hpawn : db.game.pawn t.accountId t.ownerCtrl = .ok p)

include hpawn in
theorem pawnOk_of_pawn (rates : Rates) :
    (readCatalog t.accountId t.ownerCtrl rates now db).pawnOk = true := by
  obtain ⟨hbank, hbackpack, htoolbar⟩ := ofType_of_pawn hpawn
  unfold readCatalog Plan.pawnOk
  simp only [hbank, hbackpack, htoolbar]
  cases p.toolbar <;> rfl

include hpawn in
theorem holdings_of_pawn (rates : Rates) (template : String) :
    ((readCatalog t.accountId t.ownerCtrl rates now db).holdings template).total =
      p.held db.game.items template := by
  obtain ⟨hbank, hbackpack, htoolbar⟩ := ofType_of_pawn hpawn
  unfold readCatalog pivotHoldings Pawn.held
  simp only [hbank, hbackpack, htoolbar, List.map_cons, List.map_nil, List.sum_cons, List.sum_nil,
    add_zero]
  cases p.toolbar with
  | none => rfl
  | some inv => simp

end Plans

theorem capped_le (base : Int) (limit : Option Int) : capped base limit ≤ base := by
  cases limit with
  | none => exact le_rfl
  | some n => exact min_le_left ..

theorem mul_le_of_le_ediv {b per : Nat} {units : Int} (hper : 1 ≤ per)
    (h : (b : Int) ≤ units / per) : ((b * per : Nat) : Int) ≤ units := by
  push_cast
  exact (Int.le_ediv_iff_mul_le (by omega)).mp h

theorem le_of_le_max {b : Nat} {x : Int} (hb : 1 ≤ b) (h : (b : Int) ≤ max 0 x) :
    (b : Int) ≤ x := by
  omega

structure Terms.Affords (t : Terms) (p : Pawn) (items : Items) : Prop where
  valid : t.recipe.Valid
  input : (t.inputUnits : Int) ≤ p.held items t.recipe.inputTemplate
  spice : (t.spiceUnits : Int) ≤ p.held items t.recipe.spiceTemplate

def Terms.WithinCap (t : Terms) (now : Nat) (db : Db) : Prop :=
  weeklyUsed db.ledger t.accountId t.recipe.outputTemplate t.rates.windowDays now +
    t.dustUnits ≤ t.rates.weeklyDustCap

section Promises

variable (hb : 1 ≤ t.batches) (hpawn : db.game.pawn t.accountId t.ownerCtrl = .ok p)

theorem exists_entry {e : Entry}
    (he : e ∈ (doCatalog true t.accountId t.ownerCtrl t.rates now db).recipes)
    (hrecipe : e.recipe = t.recipe) :
    t.recipe.Valid ∧
      e = (readCatalog t.accountId t.ownerCtrl t.rates now db).entry t.rates t.recipe := by
  obtain ⟨row, hrow, rfl⟩ := List.mem_map.mp he
  have hrow' : row = t.recipe := hrecipe
  subst hrow'
  exact ⟨t.rates.valid _ hrow, rfl⟩

include hb hpawn in
theorem affords_of_offered (h : t.Offered now db) :
    t.Affords p db.game.items ∧ t.WithinCap now db := by
  obtain ⟨e, he, hrecipe, n, hn, hle⟩ := h
  obtain ⟨hvalid, rfl⟩ := exists_entry he hrecipe
  unfold Plan.entry at hn
  simp only [pawnOk_of_pawn hpawn, if_true, Option.some.injEq] at hn
  have hlimits : (t.batches : Int) ≤
      (readCatalog t.accountId t.ownerCtrl t.rates now db).limits t.rates t.recipe := by
    omega
  have hbase := hlimits.trans (capped_le _ _)
  simp only [holdings_of_pawn hpawn, le_min_iff] at hbase
  obtain ⟨⟨hinput, hspice⟩, hweek, -⟩ := hbase
  have hdust : ((t.dustUnits : Nat) : Int) ≤ max (t.rates.weeklyDustCap -
      weeklyUsed db.ledger t.accountId t.recipe.outputTemplate t.rates.windowDays now) 0 :=
    mul_le_of_le_ediv hvalid.outputPerBatch hweek
  have hpos : 0 < t.dustUnits := Nat.mul_pos hb hvalid.outputPerBatch
  refine ⟨⟨hvalid, mul_le_of_le_ediv hvalid.inputPerBatch hinput,
    mul_le_of_le_ediv hvalid.spicePerBatch hspice⟩, ?_⟩
  unfold Terms.WithinCap
  omega

include hb hpawn in
theorem affords_of_offeredByPortal (h : t.OfferedByPortal dustLeft now db) :
    t.Affords p db.game.items := by
  obtain ⟨e, he, hrecipe, n, hn, hle⟩ := h
  obtain ⟨hvalid, rfl⟩ := exists_entry he hrecipe
  have hread : (doCatalog true t.accountId t.ownerCtrl t.rates now db).holdingsRead = true :=
    pawnOk_of_pawn hpawn _
  unfold Payload.shapeRecipe Plan.entry at hn
  simp only [hread, pawnOk_of_pawn hpawn, if_true, Entry.held, affordable, Option.map_some,
    beq_false, Bool.not_true, Bool.false_eq_true, if_false, bind,
    Option.bind_some, Option.some.injEq, holdings_of_pawn hpawn] at hn
  have hbase := (le_of_le_max hb (hle.trans hn.ge)).trans (capped_le _ _)
  rw [le_min_iff, le_min_iff, le_min_iff] at hbase
  obtain ⟨⟨-, hinput⟩, hspice, -⟩ := hbase
  refine ⟨hvalid, ?_, ?_⟩
  · exact le_of_le_max (Nat.mul_pos hb hvalid.inputPerBatch)
      (mul_le_of_le_ediv hvalid.inputPerBatch hinput)
  · exact le_of_le_max (Nat.mul_pos hb hvalid.spicePerBatch)
      (mul_le_of_le_ediv hvalid.spicePerBatch hspice)

end Promises

end Offers

/-! ## The trade behind an offer -/

def Clear {α : Type} (x : Except Refusal α) : Prop := Raises (fun e => ¬ e.Foreseen) x

theorem not_clear {α : Type} {e : Refusal} (he : e.Foreseen) :
    ¬ Clear (.error e : Except Refusal α) :=
  fun h => h e rfl he

def Terms.deliver (t : Terms) (now : Nat) (pawn : Pawn) (db : Db) (ingots melange : Used)
    (items : Items) : Except Refusal (Result × Db) := do
  let unverified ← volumeGate pawn.bank t.unitVol t.dustUnits items
  let m ← mint pawn.bank t.recipe.outputTemplate t.recipe.maxStack t.dustUnits items
  let row := t.row now ingots melange m unverified
  require (row.checked = true) .writeFailed
  let ledger ← orRaise (db.ledger.insert? row) .writeFailed
  require (ingots.units = t.inputUnits ∧ melange.units = t.spiceUnits ∧
    m.minted = t.dustUnits) .conservationFailed
  let db' : Db := ⟨{ db.game with items := m.items }, ledger⟩
  pure ({ row.republish t now db' with replay := false }, db')

theorem work_eq (delete : Items → Nat → Int → Items) (t : Terms) (now : Nat) (pawn : Pawn)
    (db : Db) :
    work delete t now pawn db = (do
      let ingots ← consumeBlock delete .input pawn t.recipe.inputTemplate t.inputUnits
        db.game.items
      let melange ← consumeBlock delete .spice pawn t.recipe.spiceTemplate t.spiceUnits ingots.2
      t.deliver now pawn db ingots.1 melange.1 melange.2) :=
  rfl

section Trades

variable {delete : Items → Nat → Int → Items} (hdel : RemovesExactly delete) {t : Terms} {p : Pawn}
  {now : Nat} {db : Db} {items items' : Items}

theorem volumeGate_eq (t : Terms) (bank : Inventory) (items : Items) :
    (t.VolumeFits bank items ∧ ∃ b, volumeGate bank t.unitVol t.dustUnits items = .ok b) ∨
      ¬ t.VolumeFits bank items ∧
        volumeGate bank t.unitVol t.dustUnits items = .error .bankVolume := by
  unfold volumeGate
  by_cases hcap : bank.maxItemVolume.getD 0 ≤ 0
  · rw [if_pos hcap]
    exact Or.inl ⟨Or.inl hcap, _, rfl⟩
  · rw [if_neg hcap]
    cases hv : t.unitVol with
    | none =>
      refine Or.inl ⟨Or.inr (fun v hmem => ?_), _, rfl⟩
      rw [hv] at hmem
      cases hmem
    | some v =>
      dsimp only
      by_cases hlt : bank.maxItemVolume.getD 0 < usedVolume items bank.id + v * (t.dustUnits : Int)
      · rw [if_pos hlt]
        refine Or.inr ⟨fun h => ?_, rfl⟩
        have hle := (h.resolve_left hcap) v hv
        exact absurd hlt (not_lt.mpr hle)
      · rw [if_neg hlt]
        refine Or.inl ⟨Or.inr (fun w hw => ?_), _, rfl⟩
        rw [hv] at hw
        cases hw
        exact not_lt.mp hlt

theorem deliver_clear_iff {ingots melange : Used} (hmax : 1 ≤ t.recipe.maxStack) :
    Clear (t.deliver now p db ingots melange items) ↔
      t.VolumeFits p.bank items ∧
        items.Fits p.bank t.recipe.outputTemplate t.recipe.maxStack t.dustUnits := by
  unfold Terms.deliver
  rcases volumeGate_eq t p.bank items with ⟨hfits, b, hgate⟩ | ⟨hfits, hgate⟩
  · rw [hgate]
    have hpos : (0 : Int) < t.recipe.maxStack := by omega
    rcases mint_room items p.bank t.recipe.outputTemplate hpos t.dustUnits with
      ⟨hroom, m, hmint⟩ | ⟨hroom, why, hmint⟩
    · rw [hmint]
      refine iff_of_true (Raises.bind Raises.ok (fun _ => Raises.bind Raises.ok (fun _ => ?_)))
        ⟨hfits, hroom⟩
      refine Raises.bind (Raises.require (fun h => h)) (fun _ => ?_)
      refine Raises.bind (Raises.orRaise (fun h => h)) (fun _ => ?_)
      exact Raises.bind (Raises.require (fun h => h)) (fun _ => Raises.ok)
    · rw [hmint]
      exact iff_of_false (not_clear trivial) (fun h => hroom h.2)
  · rw [hgate]
    exact iff_of_false (not_clear trivial) (fun h => hfits h.1)

theorem Items.Same.volumeFits (h : items.Same items') (bank : Inventory) :
    t.VolumeFits bank items ↔ t.VolumeFits bank items' := by
  unfold Terms.VolumeFits
  rw [h.usedVolume]

/-- The Melange is enough after the ingots are gone, unless one template must serve for both. -/
theorem enough_iff (hp : p.Distinct) (ha : t.Affords p items) :
    (t.spiceUnits : Int) ≤ p.held (t.ingotsGone p items) t.recipe.spiceTemplate ↔
      (t.recipe.inputTemplate = t.recipe.spiceTemplate →
        (t.inputUnits + t.spiceUnits : Int) ≤ p.held items t.recipe.inputTemplate) := by
  have hspice := ha.spice
  unfold Terms.ingotsGone
  rw [held_withdraw hp (Int.natCast_nonneg _) ha.input]
  by_cases heq : t.recipe.spiceTemplate = t.recipe.inputTemplate
  · rw [if_pos heq, heq]
    constructor
    · intro h _
      omega
    · intro h
      have hboth := h rfl
      omega
  · rw [if_neg heq, sub_zero]
    exact iff_of_true hspice (fun h => absurd h.symm heq)

include hdel in
theorem work_clear_iff (hp : p.Distinct) (ha : t.Affords p db.game.items) :
    Clear (work delete t now p db) ↔ t.Met p db.game.items := by
  have hin : (0 : Int) ≤ t.inputUnits := Int.natCast_nonneg _
  have hsp : (0 : Int) ≤ t.spiceUnits := Int.natCast_nonneg _
  have hsame := takeAll_withdraw hdel db.game.items hp t.recipe.inputTemplate t.inputUnits
  have hspice : p.held (takeAll delete (drain Source.size t.inputUnits
      (p.sourceRows db.game.items t.recipe.inputTemplate)) db.game.items) t.recipe.spiceTemplate =
        p.held (t.ingotsGone p db.game.items) t.recipe.spiceTemplate := by
    unfold Pawn.held
    simp only [hsame.held]
    rfl
  have hbind : ∀ (a : Used × Items) (f : Used × Items → Except Refusal (Result × Db)),
      (Except.ok a >>= f) = f a := fun _ _ => rfl
  rw [work_eq, consumeBlock_eq hin, if_pos ha.input, hbind]
  dsimp only
  rw [consumeBlock_eq hsp, hspice]
  by_cases henough : (t.spiceUnits : Int) ≤
      p.held (t.ingotsGone p db.game.items) t.recipe.spiceTemplate
  · rw [if_pos henough]
    have hgone := (takeAll_withdraw hdel _ hp t.recipe.spiceTemplate t.spiceUnits).trans
      (hsame.withdraw p t.recipe.spiceTemplate t.spiceUnits)
    refine (deliver_clear_iff ha.valid.maxStack).trans ?_
    rw [hgone.volumeFits, hgone.fits]
    exact ⟨fun h => ⟨(enough_iff hp ha).mp henough, h.1, h.2⟩, fun h => ⟨h.volume, h.room⟩⟩
  · rw [if_neg henough]
    exact iff_of_false (not_clear trivial) (fun h => henough ((enough_iff hp ha).mpr h.both))

include hdel in
theorem trade_clear_iff (hgate : db.game.offlineGate now t.accountId = .ok ())
    (hpawn : db.game.pawn t.accountId t.ownerCtrl = .ok p) (ha : t.Affords p db.game.items) :
    Clear (trade delete t now db) ↔ t.WithinCap now db ∧ t.Met p db.game.items := by
  have hwork : Clear (work delete t now p db) ↔ t.Met p db.game.items :=
    work_clear_iff hdel (pawn_owned hpawn).distinct ha
  rw [trade_eq, hgate, hpawn, ← hwork]
  by_cases hcap : t.WithinCap now db
  · have hcheck : ∀ e : Refusal, require (weeklyUsed db.ledger t.accountId t.recipe.outputTemplate
        t.rates.windowDays now + t.dustUnits ≤ t.rates.weeklyDustCap) e = .ok () :=
      fun _ => if_pos hcap
    simp only [bind, Except.bind, hcheck]
    exact (and_iff_right hcap).symm
  · have hcheck : ∀ e : Refusal, require (weeklyUsed db.ledger t.accountId t.recipe.outputTemplate
        t.rates.windowDays now + t.dustUnits ≤ t.rates.weeklyDustCap) e = .error e :=
      fun _ => if_neg hcap
    simp only [bind, Except.bind, hcheck]
    exact iff_of_false (not_clear trivial) (fun h => hcap h.1)

include hdel in
theorem txn_clear_iff (hgate : db.game.offlineGate now t.accountId = .ok ())
    (hpawn : db.game.pawn t.accountId t.ownerCtrl = .ok p) (ha : t.Affords p db.game.items) :
    Clear (exchangeTxn delete t now db) ↔
      (∃ e ∈ db.ledger, e.idempotencyKey = t.idempotencyKey) ∨
        t.WithinCap now db ∧ t.Met p db.game.items := by
  cases hget : db.ledger.get? t.idempotencyKey with
  | some e =>
    obtain ⟨he, hkey⟩ := Table.get?_eq_some.mp hget
    refine iff_of_true ?_ (Or.inl ⟨e, he, hkey⟩)
    unfold exchangeTxn
    rw [hget]
    dsimp only
    split
    · exact Raises.ok
    · intro e' he'
      cases he'
      exact fun h => h
  | none =>
    have hfresh := Table.get?_eq_none.mp hget
    rw [exchangeTxn_fresh hget, trade_clear_iff hdel hgate hpawn ha, or_iff_right]
    rintro ⟨e, he, hkey⟩
    exact hfresh e he hkey

end Trades

theorem copperPerBatch_pos : 1 ≤ 25 := by decide

def oneBatch : Terms where
  accountId := 1
  ownerCtrl := 7
  recipe := copper 25
  batches := 1
  idempotencyKey := 3
  rates := copperRates 25 copperPerBatch_pos
  unitVol := some 1

/-- The bank of `sharedDb`, with a volume cap of five if it is `tight`. -/
def smallBank (tight : Bool) : Inventory :=
  ⟨90, some 5, some 30, some 20, if tight then some 5 else none⟩

def smallDb (tight : Bool) : Db where
  game :=
    { sharedDb.game with
      inventories := ⟨[smallBank tight, ⟨91, some 5, some 0, some 35, none⟩],
        (by decide : [90, 91].Nodup)⟩ }
  ledger := Table.empty

def smallPawn (tight : Bool) : Pawn :=
  ⟨smallBank tight, ⟨91, some 5, some 0, some 35, none⟩, none⟩

def raised {α : Type} : Except Refusal α → Option Refusal
  | .error e => some e
  | .ok _ => none

theorem raised_eq_some {α : Type} {x : Except Refusal α} {e : Refusal} (h : raised x = some e) :
    x = .error e := by
  cases x with
  | error e' =>
    cases h
    rfl
  | ok a => cases h

theorem oneBatch_offered (tight : Bool) : oneBatch.Offered 1000000 (smallDb tight) :=
  ⟨_, List.mem_singleton_self _, rfl, 2, by cases tight <;> decide, by decide⟩

end LastSietch.Refinery
