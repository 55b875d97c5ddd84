import LastSietch.Nights.Wares

/-!
# One grant of the Stall

`doSnShop` is a call of the game writer with its transaction: the row of the idempotency key, the
caps, and one of five kinds of grant. An exception rolls everything back, the row with it.

* `grants_cases`: what a call can do.
-/

namespace LastSietch.Nights

open DuneGrant Grants Runs

inductive Raised
  | fail (code : FailCode)
  | defer
  | other
  deriving DecidableEq

structure ShopProcs where
  adjustPlayerVirtualCurrencyBalance : Purses → Nat → Int → Option Purses
  setSpecializationXpAndLevel : TrackRows → Nat → String → Int → ℚ → Option TrackRows
  levelFunctions : Bool

section Body

variable (procs : ShopProcs) (g : ShopGame)

def ShopGame.pawnOf (accountId ctrl : Nat) : Option Nat :=
  (g.players.find? fun p => p.accountId = accountId ∧ p.playerControllerId = some ctrl ∧
    p.deleted = false).bind (·.playerPawnId)

def ShopGame.inGame (now : Int) (ctrl : Nat) : Bool :=
  g.players.any fun p => p.playerControllerId = some ctrl ∧
    (p.offline = false ∨ ∃ grace ∈ p.reconnectGracePeriodEnd, now < grace)

def ShopGame.credit (ctrl solari : Nat) : Except Raised ShopGame := do
  let purses ← orRaise (procs.adjustPlayerVirtualCurrencyBalance g.purses ctrl solari) .other
  pure { g with purses }

def ShopGame.creditAny (ctrl solari : Nat) : Except Raised ShopGame :=
  if 0 < solari then g.credit procs ctrl solari else .ok g

/-! ### Experience -/

/-- The `DuneCharacter` entities of the pawn that have a level. -/
def ShopGame.characters (pawn : Nat) : List Entity :=
  (g.links.filter fun l => l.actorId = pawn ∧ l.slotName = "DuneCharacter").filterMap fun l =>
    (g.entities.get? l.entityId).filter (·.level.join.isSome)

def ShopActor.addIntel (intel : Int) (a : ShopActor) : ShopActor :=
  { a with techKnowledge := a.techKnowledge.map fun points => some (points.getD 0 + intel) }

/-- `sn_shop_charxp`. -/
def ShopGame.grantCharXp (pawn charXp : Nat) : Except Raised (ShopGame × Done) := do
  require (procs.levelFunctions = true) (.fail .rejected)
  match g.characters pawn with
  | [e] =>
    let l := e.level.join.getD ⟨none, none, none⟩
    let before := l.totalXpEarned.getD 0
    require (before < maxXp) (.fail .alreadyOwned)
    let after := min (before + charXp) maxXp
    let levels : Int := xpToLevel g.curve after - xpToLevel g.curve before
    let intel := max 0 (intelAtLevel (xpToLevel g.curve after) -
      intelAtLevel (xpToLevel g.curve before))
    pure
      ({ g with
          entities := raiseEntities g.curve charXp (fun r => r.id = e.id) g.entities
          actors := g.actors.update (fun a => a.id = pawn ∧ 0 < intel) (ShopActor.addIntel intel) },
        .charXp before after levels intel)
  | _ => .error (.fail .rejected)

def specCurve : List (Int × ℚ) :=
  [(0, 0), (100, 1), (125, 1.2380953), (225, 2.1818182), (250, 2.409091), (350, 3.3017242),
    (375, 3.5172415), (625, 5.5625), (750, 6.5111113), (875, 7.415493), (1000, 8.281879),
    (1250, 9.910828), (1350, 10.52439), (1375, 10.676829), (1600, 12.005618), (1875, 13.526882),
    (1975, 14.061855), (2000, 14.1907215), (2250, 15.460396), (2375, 16.075829), (2500, 16.668247),
    (2750, 17.818182), (3375, 20.475609), (3500, 20.98374), (3625, 21.47826), (3750, 21.972332),
    (4750, 25.665493), (5125, 26.958904), (6250, 30.56135), (6875, 32.432747), (7125, 33.16),
    (7500, 34.226257), (8625, 37.278645), (9000, 38.249363), (10750, 42.528168), (11000, 43.112904),
    (12100, 45.606667), (12350, 46.159042), (14750, 51.17729), (15225, 52.121567),
    (17375, 56.22836), (18375, 58.051693), (21750, 63.90339), (26625, 71.863785),
    (42750, 97.70513), (44182, 100)]

def specLevel (xp : Int) : Option ℚ :=
  ((specCurve.zip specCurve.tail).find? fun s => s.1.1 < xp ∧ xp ≤ s.2.1).map fun s =>
    s.1.2 + ((xp - s.1.1 : Int) : ℚ) / ((s.2.1 - s.1.1 : Int) : ℚ) * (s.2.2 - s.1.2)

/-- `sn_shop_spec`. -/
def ShopGame.grantSpecXp (ctrl : Nat) (track : String) (specXp : Nat) :
    Except Raised (ShopGame × Done) := do
  let before : Int := ((g.tracks.get? (ctrl, track)).map (·.xpAmount)).getD 0
  require (before < snSpecXpCap) (.fail .alreadyOwned)
  let after : Int := min (before + specXp) snSpecXpCap
  let level ← orRaise (specLevel after) .other
  let tracks ← orRaise (procs.setSpecializationXpAndLevel g.tracks ctrl track after level) .other
  pure ({ g with tracks }, .specXp before after level)

/-! ### Items -/

def ShopGame.holds (pawn : Nat) (items : Items) (templateId : String) : Bool :=
  items.rows.any fun it => it.templateId = templateId ∧ ∃ inv ∈ g.inventories.rows,
    it.inventoryId = some inv.id ∧ inv.actorId = some pawn ∧
      ∃ type ∈ inv.inventoryType, type ∈ [14, 27, 30]

def ShopGame.learned (pawn : Nat) : List String := ((g.actors.get? pawn).map (·.unlocked)).getD []

def choose (learned : List String) (holds : String → Bool) : List Pick → List Skip × Option Pick
  | [] => ([], none)
  | p :: rest =>
    match p.skipIfUnlocked with
    | none => ([], some p)
    | some ids =>
      let (skips, pick) := choose learned holds rest
      if ids ≠ [] ∧ ∀ u ∈ ids, u ∈ learned then (⟨p.templateId, true⟩ :: skips, pick)
      else if holds p.templateId then (⟨p.templateId, false⟩ :: skips, pick)
      else ([], some p)

structure Loading where
  items : Items
  pos : Int
  ids : List Nat
  subs : List Substitution

def bankItem (inv : Nat) (p : Pick) (pos : Int) (id : Nat) : Item where
  id
  inventoryId := some inv
  stackSize := p.qty
  positionIndex := pos
  templateId := p.templateId
  stats := []
  qualityLevel := p.grade
  acquisitionTime := 0
  isNew := true

def ShopGame.load (pawn inv : Nat) (s : Loading) (w : Ware) : Loading :=
  let (skips, pick) := choose (g.learned pawn) (g.holds pawn s.items) w.picks
  let subs := if skips = [] then s.subs else
    s.subs ++ [⟨w.first.templateId, pick.map (·.templateId), skips⟩]
  match pick with
  | none => { s with subs }
  | some p =>
    { items := s.items.insert (bankItem inv p (s.pos + 1))
      pos := s.pos + 1
      ids := s.ids ++ [s.items.next]
      subs }

/-- `sn_shop_bank`. -/
def ShopGame.grantBank (pawn ctrl : Nat) (e : ShopSku) : Except Raised (ShopGame × Done) := do
  require (¬ (e.dedupe = .emote ∧ ∃ w ∈ e.items.head?, g.holds pawn g.items w.first.templateId = true))
    (.fail .alreadyOwned)
  require (e.dedupe = .unlock → ∃ u ∈ e.unlockIds, u ∉ g.learned pawn) (.fail .alreadyOwned)
  require (¬ (e.dedupe = .unlock ∧ ∃ w ∈ e.items, g.holds pawn g.items w.first.templateId = true))
    (.fail .alreadyOwned)
  let bank ← orRaise (pick (fun a b => decide (a.id < b.id)) (g.inventories.rows.filter fun inv =>
    inv.actorId = some pawn ∧ inv.inventoryType = some 30)) (.fail .bankUnopened)
  let stored := g.items.rows.filter (·.inventoryId = some bank.id)
  require (∀ cap ∈ bank.maxItemCount, (stored.length + e.items.length : Int) ≤ cap) (.fail .capacity)
  let s := e.items.foldl (g.load pawn bank.id)
    ⟨g.items, (stored.map (·.positionIndex)).max?.getD (-1), [], []⟩
  let g ← { g with items := s.items }.creditAny procs ctrl e.solari
  pure (g, .bank bank.id s.ids s.subs)

def ShopGame.grant (now : Int) (ctrl pawn : Nat) (e : ShopSku) :
    Except Raised (ShopGame × Option Done) :=
  match e.kind with
  | .snShopSolari => do
    let g ← g.credit procs ctrl e.solari
    pure (g, none)
  | .snShopCharxp => do
    require (g.inGame now ctrl = false) .defer
    let (g, done) ← g.grantCharXp procs pawn e.charXp
    pure (g, some done)
  | .snShopSpec => do
    require (g.inGame now ctrl = false) .defer
    let (g, done) ← g.grantSpecXp procs ctrl e.track e.specXp
    pure (g, some done)
  | .snShopBank | .dailySolari | .weeklyItem | .monthlyAugment => do
    let (g, done) ← g.grantBank procs pawn ctrl e
    pure (g, some done)

end Body

/-! ### The caps -/

def othersOf (claims : RewardRows) (op : Nat) : List RewardRow :=
  claims.rows.filter (fun r => r.id ≠ op)

def grantsOf (rows : List RewardRow) (kind : RewardKind) (profileId sku : String) : Nat :=
  rows.countP fun r => r.rewardKind = kind ∧ r.status = .applied ∧
    r.detail.profileId = some profileId ∧ r.detail.sku = some sku

def solariOn (rows : List RewardRow) (profileId : String) : Nat :=
  ((rows.filter fun r => (r.rewardKind = .snShopSolari ∨ r.rewardKind = .snShopBank) ∧
    r.status = .applied ∧ r.detail.profileId = some profileId).map fun r => r.detail.solari.getD 0).sum

def ShopCall.row (q : ShopCall) (e : ShopSku) (ctrl : Nat) (id : Nat) : RewardRow where
  id
  idempotencyKey := q.idem
  accountId := q.accountId
  rewardKind := q.rewardKind
  detail :=
    { sku := some q.sku
      controllerId := some ctrl
      profileId := some q.profileId
      discordId := if q.discordId = "" then none else some q.discordId
      solari := if q.rewardKind = .snShopSolari ∨ (q.rewardKind = .snShopBank ∧ 0 < e.solari) then
        some e.solari else none
      done := none }
  operator := q.operator
  status := .applied

def RewardRow.finish (done : Option Done) (r : RewardRow) : RewardRow :=
  { r with detail := { r.detail with done } }

/-- `UPDATE ... SET detail = detail || ... WHERE id = v_op`. -/
def finishRow (claims : RewardRows) (op : Nat) (done : Option Done) : RewardRows :=
  claims.update (fun r => r.id = op) (RewardRow.finish done)

structure Committed where
  db : ShopDb
  isNew : Bool
  row : RewardRow

/-- A number that is a `bigint`. -/
def IsBigint (n : Nat) : Prop := n < 2 ^ 63

instance (n : Nat) : Decidable (IsBigint n) := inferInstanceAs (Decidable (_ < _))

def shopTxn (procs : ShopProcs) (cfg : ShopConfig) (now : Int) (q : ShopCall) (e : ShopSku)
    (ctrl : Nat) (db : ShopDb) : Except Raised Committed := do
  require (IsBigint q.accountId) .other
  -- the block's variables are set before its first statement
  require (IsBigint ctrl) .other
  match db.claims.insert? (q.row e ctrl) (fun _ => rfl) with
  | none =>
    let row ← orRaise (db.claims.get? q.idem) .other
    pure ⟨db, false, row⟩
  | some claims =>
    let op := db.claims.next
    require (grantsOf (othersOf claims op) q.rewardKind q.profileId q.sku < e.limit) (.fail .cap)
    let pawn ← orRaise (db.game.pawnOf q.accountId ctrl) (.fail .notOwner)
    require (0 < e.solari → solariOn (othersOf claims op) q.profileId + e.solari ≤ cfg.solariMax)
      (.fail .cap)
    let (game, done) ← db.game.grant procs now ctrl pawn e
    pure ⟨⟨finishRow claims op done, game⟩, true,
      (q.row e ctrl op).finish done⟩

/-- What becomes of a call besides: its session may break before the commit, or between the commit
and the answer. -/
inductive Fate
  | whole | broken | unanswered
  deriving DecidableEq

/-- The last lines of `do_sn_shop`: without a controller in the row there is no valid echo. -/
def Committed.answer (c : Committed) : ShopAnswer :=
  match c.row.detail.controllerId with
  | some ctrl => .done c.isNew c.row.id (c.row.detail.sku.getD "") ctrl
  | none => .failed

/-- A failure without a code ends the script: `grep` finds nothing, under `set -e`. -/
def Raised.answer : Raised → Option ShopAnswer
  | .fail code => some (.refused code)
  | .defer => some .deferred
  | .other => none

/-- `do_sn_shop` behind `sn_gate_open`: the database afterwards, and what is printed. -/
def doSnShopCall (procs : ShopProcs) (cfg : ShopConfig) (db : ShopDb) (gateOpen : Bool) (now : Int)
    (fate : Fate) (q : ShopCall) : ShopDb × Option ShopAnswer :=
  if gateOpen = false then (db, some .deferred)
  else
    match cfg.entry q with
    | .error a => (db, some a)
    | .ok (e, ctrl) =>
      if q.dry then (db, some .dryRun)
      else if fate = .broken then (db, none)
      else
        match shopTxn procs cfg now q e ctrl db with
        | .error r => (db, if fate = .unanswered then none else r.answer)
        | .ok c => (c.db, if fate = .unanswered then none else some c.answer)

/-! ## What a call can do -/

section Call

variable {procs : ShopProcs} {cfg : ShopConfig} {now : Int} {q : ShopCall} {e : ShopSku}
  {ctrl : Nat} {db db' : ShopDb} {a : Option ShopAnswer}

def GrantsWhole (e : ShopSku) : Option Done → Prop
  | some (.bank _ ids subs) =>
    ids.length + subs.countP (fun s => s.delivered = none) = e.items.length
  | some (.charXp ..) | some (.specXp ..) | none => True

/-- A grant in full: every check passed, all of it was delivered, and its row was recorded under a
key that had none. -/
structure Granted (procs : ShopProcs) (cfg : ShopConfig) (now : Int) (q : ShopCall) (db : ShopDb)
    (c : Committed) : Prop where
  fresh : ∀ r ∈ db.claims, r.idempotencyKey ≠ q.idem
  granted : ∃ e ctrl pawn done, cfg.entry q = .ok (e, ctrl) ∧
    grantsOf db.claims.rows q.rewardKind q.profileId q.sku < e.limit ∧
    db.game.pawnOf q.accountId ctrl = some pawn ∧
    (0 < e.solari → solariOn db.claims.rows q.profileId + e.solari ≤ cfg.solariMax) ∧
    db.game.grant procs now ctrl pawn e = .ok (c.db.game, done) ∧ GrantsWhole e done ∧
    c.row = (q.row e ctrl db.claims.next).finish done
  recorded : c.db.claims.rows = c.row :: db.claims.rows

def NotDone (x : ShopAnswer) : Prop := x.isDone = false

inductive ShopEffect (procs : ShopProcs) (cfg : ShopConfig) (now : Int) (q : ShopCall)
    (db : ShopDb) : ShopDb → Option ShopAnswer → Prop
  | nothing (a : Option ShopAnswer) (hdone : ∀ x ∈ a, NotDone x) :
      ShopEffect procs cfg now q db db a
  | replay (row : RewardRow) (hrow : row ∈ db.claims) (hkey : row.idempotencyKey = q.idem)
      (a : Option ShopAnswer) (hanswer : ∀ x ∈ a, x = Committed.answer ⟨db, false, row⟩) :
      ShopEffect procs cfg now q db db a
  | granted (c : Committed) (h : Granted procs cfg now q db c) (hnew : c.isNew = true)
      (a : Option ShopAnswer) (hanswer : ∀ x ∈ a, x = c.answer) :
      ShopEffect procs cfg now q db c.db a

theorem choose_of_none {learned : List String} {holds : String → Bool} {p : Pick}
    {rest : List Pick} (h : (choose learned holds (p :: rest)).2 = none) :
    (choose learned holds (p :: rest)).1 ≠ [] := by
  unfold choose at h ⊢
  cases hskip : p.skipIfUnlocked with
  | none =>
    rw [hskip] at h
    cases h
  | some ids =>
    rw [hskip] at h
    simp only [] at h ⊢
    split
    · exact List.cons_ne_nil _ _
    · rename_i hlearned
      rw [if_neg hlearned] at h
      split
      · exact List.cons_ne_nil _ _
      · rename_i hheld
        rw [if_neg hheld] at h
        cases h

theorem load_counts (g : ShopGame) (pawn inv : Nat) (s : Loading) (w : Ware) :
    (g.load pawn inv s w).ids.length + (g.load pawn inv s w).subs.countP (fun s => s.delivered = none) =
      s.ids.length + s.subs.countP (fun s => s.delivered = none) + 1 := by
  unfold ShopGame.load
  have hnone := @choose_of_none (g.learned pawn) (g.holds pawn s.items) w.first w.fallbacks
  rw [show w.first :: w.fallbacks = w.picks from rfl] at hnone
  generalize choose (g.learned pawn) (g.holds pawn s.items) w.picks = chosen at hnone
  obtain ⟨skips, pick⟩ := chosen
  cases pick with
  | none =>
    have hskips : skips ≠ [] := hnone rfl
    simp [hskips, List.countP_append]
    omega
  | some p =>
    by_cases hskips : skips = []
    · simp [hskips]
      omega
    · simp [hskips, List.countP_append]
      omega

theorem foldl_load_counts (g : ShopGame) (pawn inv : Nat) (ws : List Ware) (s : Loading) :
    (ws.foldl (g.load pawn inv) s).ids.length +
        (ws.foldl (g.load pawn inv) s).subs.countP (fun s => s.delivered = none) =
      s.ids.length + s.subs.countP (fun s => s.delivered = none) + ws.length := by
  induction ws generalizing s with
  | nil => rfl
  | cons w ws ih =>
    have hone := load_counts g pawn inv s w
    rw [List.foldl_cons, ih, List.length_cons]
    omega

theorem grantBank_whole {g g' : ShopGame} {pawn : Nat} {done : Done}
    (h : g.grantBank procs pawn ctrl e = .ok (g', done)) : GrantsWhole e (some done) := by
  unfold ShopGame.grantBank at h
  obtain ⟨-, -, h⟩ := bind_eq_ok.mp h
  obtain ⟨-, -, h⟩ := bind_eq_ok.mp h
  obtain ⟨-, -, h⟩ := bind_eq_ok.mp h
  obtain ⟨bank, -, h⟩ := bind_eq_ok.mp h
  obtain ⟨-, -, h⟩ := bind_eq_ok.mp h
  obtain ⟨g₁, -, h⟩ := bind_eq_ok.mp h
  cases pure_eq_ok.mp h
  have hcount := foldl_load_counts g pawn bank.id e.items
    ⟨g.items, ((g.items.rows.filter (·.inventoryId = some bank.id)).map (·.positionIndex)).max?.getD
      (-1), [], []⟩
  rw [List.length_nil, List.countP_nil] at hcount
  show _ = _
  omega

theorem grantCharXp_whole {g g' : ShopGame} {pawn : Nat} {done : Done}
    (h : g.grantCharXp procs pawn e.charXp = .ok (g', done)) : GrantsWhole e (some done) := by
  unfold ShopGame.grantCharXp at h
  obtain ⟨-, -, h⟩ := bind_eq_ok.mp h
  split at h
  · obtain ⟨-, -, h⟩ := bind_eq_ok.mp h
    cases pure_eq_ok.mp h
    trivial
  · cases h

theorem grantSpecXp_whole {g g' : ShopGame} {done : Done}
    (h : g.grantSpecXp procs ctrl e.track e.specXp = .ok (g', done)) : GrantsWhole e (some done) := by
  unfold ShopGame.grantSpecXp at h
  obtain ⟨-, -, h⟩ := bind_eq_ok.mp h
  obtain ⟨level, -, h⟩ := bind_eq_ok.mp h
  obtain ⟨tracks, -, h⟩ := bind_eq_ok.mp h
  cases pure_eq_ok.mp h
  trivial

theorem grant_whole {g g' : ShopGame} {pawn : Nat} {done : Option Done}
    (h : g.grant procs now ctrl pawn e = .ok (g', done)) : GrantsWhole e done := by
  unfold ShopGame.grant at h
  split at h
  · obtain ⟨g₁, -, h⟩ := bind_eq_ok.mp h
    cases pure_eq_ok.mp h
    trivial
  · obtain ⟨-, -, h⟩ := bind_eq_ok.mp h
    obtain ⟨⟨g₁, d⟩, hxp, h⟩ := bind_eq_ok.mp h
    cases pure_eq_ok.mp h
    exact grantCharXp_whole hxp
  · obtain ⟨-, -, h⟩ := bind_eq_ok.mp h
    obtain ⟨⟨g₁, d⟩, hxp, h⟩ := bind_eq_ok.mp h
    cases pure_eq_ok.mp h
    exact grantSpecXp_whole hxp
  all_goals
    obtain ⟨⟨g₁, d⟩, hbank, h⟩ := bind_eq_ok.mp h
    cases pure_eq_ok.mp h
    exact grantBank_whole hbank

theorem othersOf_next {claims : RewardRows} {rows : List RewardRow} {r : RewardRow}
    (hrows : claims.rows = r :: rows) (hnew : ∀ s ∈ rows, s.id < r.id) :
    othersOf claims r.id = rows := by
  rw [othersOf, hrows, List.filter_cons_of_neg (by simp)]
  refine List.filter_eq_self.mpr (fun s hs => decide_eq_true ?_)
  have := hnew s hs
  omega

theorem rows_finishRow {claims claims' : RewardRows} {mk : Nat → RewardRow}
    {hid : ∀ n, (mk n).id = n} {done : Option Done} (hins : claims.insert? mk hid = some claims') :
    (finishRow claims' claims.next done).rows = (mk claims.next).finish done :: claims.rows :=
  @SerialTable.rows_update_insert? _ _ _ _ _ claims claims' mk hid (RewardRow.finish done)
    (fun _ => rfl) (fun _ => rfl) hins

theorem shopTxn_ok {c : Committed} (hentry : cfg.entry q = .ok (e, ctrl))
    (h : shopTxn procs cfg now q e ctrl db = .ok c) :
    (c.isNew = false ∧ c.db = db ∧ c.row ∈ db.claims ∧ c.row.idempotencyKey = q.idem) ∨
      (c.isNew = true ∧ Granted procs cfg now q db c) := by
  unfold shopTxn at h
  obtain ⟨-, -, h⟩ := bind_eq_ok.mp h
  obtain ⟨-, -, h⟩ := bind_eq_ok.mp h
  split at h
  · obtain ⟨row, hrow, h⟩ := bind_eq_ok.mp h
    obtain rfl := pure_eq_ok.mp h
    obtain ⟨hmem, hkey⟩ := Table.get?_eq_some.mp (orRaise_eq_ok.mp hrow)
    exact Or.inl ⟨rfl, rfl, hmem, hkey⟩
  · rename_i claims hins
    have hold : othersOf claims db.claims.next = db.claims.rows :=
      othersOf_next (SerialTable.rows_insert? hins).1 (fun s hs => SerialTable.id_lt_next hs)
    simp only [hold] at h
    obtain ⟨_, hcap, h⟩ := bind_eq_ok.mp h
    obtain ⟨pawn, hpawn, h⟩ := bind_eq_ok.mp h
    obtain ⟨_, hsolari, h⟩ := bind_eq_ok.mp h
    obtain ⟨⟨game, done⟩, hgrant, h⟩ := bind_eq_ok.mp h
    obtain rfl := pure_eq_ok.mp h
    refine Or.inr ⟨rfl, ?_, ?_, ?_⟩
    · exact fun r hr => SerialTable.fresh_of_insert? hins hr
    · exact ⟨e, ctrl, pawn, done, hentry, require_eq_ok.mp hcap, orRaise_eq_ok.mp hpawn,
        require_eq_ok.mp hsolari, hgrant, grant_whole hgrant, rfl⟩
    · exact rows_finishRow hins

theorem kindCheck_raises {solariMax : Nat} : Raises NotDone (e.kindCheck solariMax) := by
  unfold ShopSku.kindCheck
  cases e.kind with
  | snShopBank => exact .bind (.require rfl) (fun _ => .require rfl)
  | snShopSolari => exact .bind (.require rfl) (fun _ => .require rfl)
  | snShopSpec =>
    exact .bind (.require rfl) (fun _ => .bind (.require rfl) (fun _ =>
      .bind (.require rfl) (fun _ => .require rfl)))
  | snShopCharxp => exact .bind (.require rfl) (fun _ => .bind (.require rfl) (fun _ => .require rfl))
  | dailySolari | weeklyItem | monthlyAugment => exact .ok

theorem check_raises {solariMax : Nat} : Raises NotDone (e.check solariMax) := by
  unfold ShopSku.check
  refine .bind (.require rfl) (fun _ => .bind (.forM fun p => ?_) (fun _ => ?_))
  · exact .bind (.require rfl) (fun _ => .require rfl)
  · refine .bind (.require rfl) (fun _ => .bind (.require rfl) (fun _ => ?_))
    exact .bind (.require rfl) (fun _ => .bind (.require rfl) (fun _ => kindCheck_raises))

theorem entry_raises : Raises NotDone (cfg.entry q) := by
  unfold ShopConfig.entry
  refine .bind (.require rfl) (fun _ => .bind (.require rfl) (fun _ => .bind (.require rfl) (fun _ =>
    .bind (.require rfl) (fun _ => .bind (.require rfl) (fun _ => ?_)))))
  refine .bind (.orRaise rfl) (fun e => .bind (.require rfl) (fun _ => ?_))
  exact .bind check_raises (fun _ => .bind (.orRaise rfl) (fun ctrl => .ok))

theorem doSnShopCall_effect {gateOpen : Bool} {fate : Fate}
    (h : doSnShopCall procs cfg db gateOpen now fate q = (db', a)) :
    ShopEffect procs cfg now q db db' a := by
  unfold doSnShopCall at h
  split at h
  · cases h
    exact .nothing _ (fun x hx => Option.some.inj hx ▸ rfl)
  · split at h
    · rename_i x hentry
      cases h
      exact .nothing _ (fun y hy => Option.some.inj hy ▸ entry_raises _ hentry)
    · rename_i e ctrl hentry
      split at h
      · cases h
        exact .nothing _ (fun x hx => Option.some.inj hx ▸ rfl)
      · split at h
        · cases h
          exact .nothing _ (fun x hx => by cases hx)
        · split at h
          · rename_i r hraise
            cases h
            refine .nothing _ (fun x hx => ?_)
            split at hx
            · cases hx
            · cases r <;> cases hx <;> rfl
          · rename_i c hcommit
            cases h
            have hanswer : ∀ x ∈ (if fate = .unanswered then none else some c.answer), x = c.answer := by
              intro x hx
              split at hx
              · cases hx
              · exact (Option.some.inj hx).symm
            rcases shopTxn_ok hentry hcommit with ⟨hnew, hdb, hrow, hkey⟩ | ⟨hnew, hgranted⟩
            · rw [hdb]
              refine .replay c.row hrow hkey _ (fun x hx => ?_)
              rw [hanswer x hx]
              unfold Committed.answer
              rw [hnew]
            · exact .granted c hgranted hnew _ hanswer

theorem doSnShopCall_of_row (hentry : cfg.entry q = .ok (e, ctrl)) (hwet : q.dry = false)
    (haccount : IsBigint q.accountId) (hctrl : IsBigint ctrl) {row : RewardRow}
    (hrow : row ∈ db.claims) (hkey : row.idempotencyKey = q.idem) :
    doSnShopCall procs cfg db true now .whole q = (db, some (Committed.answer ⟨db, false, row⟩)) := by
  have hins : db.claims.insert? (q.row e ctrl) (fun _ => rfl) = none :=
    SerialTable.insert?_eq_none.mpr ⟨row, hrow, hkey⟩
  have hget : db.claims.get? q.idem = some row := Table.get?_eq_some.mpr ⟨hrow, hkey⟩
  have htxn : shopTxn procs cfg now q e ctrl db = .ok ⟨db, false, row⟩ := by
    unfold shopTxn
    rw [hins, hget, require, require, if_pos haccount, if_pos hctrl]
    rfl
  unfold doSnShopCall
  rw [if_neg (by decide), hentry]
  simp only [hwet, htxn, Bool.false_eq_true, if_false, reduceCtorEq]

end Call

/-! ## Sequences of calls -/

inductive CallAct
  | call (gateOpen : Bool) (now : Int) (fate : Fate) (q : ShopCall)
  | play (game : ShopGame)

def callStep (procs : ShopProcs) (cfg : ShopConfig) (db : ShopDb) : CallAct → Option ShopDb
  | .call gateOpen now fate q => some (doSnShopCall procs cfg db gateOpen now fate q).1
  | .play game => some { db with game }

def Records (key : Nat) (db db' : ShopDb) : Prop :=
  (db.claims.get? key).isNone = true ∧ (db'.claims.get? key).isSome = true

instance (key : Nat) (db db' : ShopDb) : Decidable (Records key db db') :=
  inferInstanceAs (Decidable (_ ∧ _))

section Runs

variable {procs : ShopProcs} {cfg : ShopConfig} {db db' : ShopDb} {act : CallAct}

theorem callStep_cases (hstep : callStep procs cfg db act = some db') :
    db'.claims = db.claims ∨
      ∃ now q c, Granted procs cfg now q db c ∧ db'.claims.rows = c.row :: db.claims.rows := by
  cases act with
  | play game =>
    cases hstep
    exact Or.inl rfl
  | call gateOpen now fate q =>
    cases hstep
    cases hcall : doSnShopCall procs cfg db gateOpen now fate q with
    | mk db' a =>
      cases doSnShopCall_effect hcall with
      | nothing => exact Or.inl rfl
      | replay => exact Or.inl rfl
      | granted c h => exact Or.inr ⟨now, q, c, h, h.recorded⟩

theorem recorded_step {key : Nat} (hstep : callStep procs cfg db act = some db')
    (h : (db.claims.get? key).isSome = true) : (db'.claims.get? key).isSome = true := by
  rcases callStep_cases hstep with heq | ⟨now, q, c, -, hrows⟩
  · rw [heq]
    exact h
  · obtain ⟨row, hrow⟩ := Option.isSome_iff_exists.mp h
    obtain ⟨hmem, hkey⟩ := Table.get?_eq_some.mp hrow
    have hmem' : row ∈ db'.claims.toTable := (Table.mem_of_rows hrows).mpr (Or.inr hmem)
    exact Option.isSome_iff_exists.mpr ⟨row, Table.get?_eq_some.mpr ⟨hmem', hkey⟩⟩

theorem entry_ok {q : ShopCall} {e : ShopSku} {ctrl : Nat} (h : cfg.entry q = .ok (e, ctrl)) :
    e ∈ cfg.skus ∧ e.sku = q.sku ∧ e.kind = q.rewardKind := by
  unfold ShopConfig.entry at h
  obtain ⟨-, -, h⟩ := bind_eq_ok.mp h
  obtain ⟨-, -, h⟩ := bind_eq_ok.mp h
  obtain ⟨-, -, h⟩ := bind_eq_ok.mp h
  obtain ⟨-, -, h⟩ := bind_eq_ok.mp h
  obtain ⟨-, -, h⟩ := bind_eq_ok.mp h
  obtain ⟨e', hget, h⟩ := bind_eq_ok.mp h
  obtain ⟨_, hkind, h⟩ := bind_eq_ok.mp h
  obtain ⟨-, -, h⟩ := bind_eq_ok.mp h
  obtain ⟨ctrl', -, h⟩ := bind_eq_ok.mp h
  cases pure_eq_ok.mp h
  obtain ⟨hmem, hsku⟩ := Table.get?_eq_some.mp (orRaise_eq_ok.mp hget)
  exact ⟨hmem, hsku, require_eq_ok.mp hkind⟩

theorem grantsOf_step {start : ShopDb} {e : ShopSku} (he : e ∈ cfg.skus) {profileId : String}
    (hle : grantsOf db.claims.rows e.kind profileId e.sku ≤
      max e.limit (grantsOf start.claims.rows e.kind profileId e.sku))
    (hstep : callStep procs cfg db act = some db') :
    grantsOf db'.claims.rows e.kind profileId e.sku ≤
      max e.limit (grantsOf start.claims.rows e.kind profileId e.sku) := by
  rcases callStep_cases hstep with heq | ⟨now, q, c, hgranted, hrows⟩
  · rw [heq]
    exact hle
  · obtain ⟨e', ctrl, pawn, done, hentry, hcap, -, -, -, -, hrow⟩ := hgranted.granted
    rw [grantsOf, hrows, List.countP_cons]
    split
    · rename_i hcounts
      obtain ⟨hkind, -, hprofile, hsku⟩ := of_decide_eq_true hcounts
      rw [hrow] at hkind hprofile hsku
      have hkind : q.rewardKind = e.kind := hkind
      have hprofile : q.profileId = profileId := Option.some.inj hprofile
      have hsku : q.sku = e.sku := Option.some.inj hsku
      obtain ⟨he', hsku', -⟩ := entry_ok hentry
      have heq : e' = e := Table.eq_of_key_eq he' he (hsku'.trans hsku)
      rw [hkind, hprofile, hsku, heq, grantsOf] at hcap
      omega
    · exact hle

end Runs

/-- Over any sequence of calls, with anything that the game does in between: a key is recorded at
most once, no sku goes beyond its limit where it was not beyond before, and a call does nothing,
repeats the answer of its row, or grants in full under a new key. -/
theorem shop_grants (procs : ShopProcs) (cfg : ShopConfig) {start db : ShopDb} {acts : List CallAct}
    (hrun : exec (callStep procs cfg) start acts = some db) :
    (∀ key, countAlong (callStep procs cfg) (Records key) start acts ≤ 1) ∧
    (∀ e ∈ cfg.skus, ∀ profileId, grantsOf db.claims.rows e.kind profileId e.sku ≤
      max e.limit (grantsOf start.claims.rows e.kind profileId e.sku)) ∧
    (∀ gateOpen now fate q, ShopEffect procs cfg now q db
      (doSnShopCall procs cfg db gateOpen now fate q).1
      (doSnShopCall procs cfg db gateOpen now fate q).2) ∧
    ∀ now q e ctrl, cfg.entry q = .ok (e, ctrl) → q.dry = false → IsBigint q.accountId →
      IsBigint ctrl → ∀ row ∈ db.claims, row.idempotencyKey = q.idem →
        doSnShopCall procs cfg db true now .whole q =
          (db, some (Committed.answer ⟨db, false, row⟩)) := by
  refine ⟨fun key => ?_, fun e he profileId => ?_, fun gateOpen now fate q => ?_, ?_⟩
  · refine @countAlong_le_one _ _ _ _ _ (fun s => (s.claims.get? key).isSome = true)
      (fun s a m _ h => h.2) (fun s a m hstep hs => ⟨recorded_step hstep hs, fun h => ?_⟩) start acts
    rw [Option.isNone_iff_eq_none.mp h.1] at hs
    cases hs
  · exact exec_invariant' (fun s a s' h hstep => grantsOf_step he h hstep) (le_max_right _ _) hrun
  · exact doSnShopCall_effect rfl
  · intro now q e ctrl hentry hwet haccount hctrl row hrow hkey
    exact doSnShopCall_of_row hentry hwet haccount hctrl hrow hkey

def gameProcs : ShopProcs where
  adjustPlayerVirtualCurrencyBalance purses ctrl delta :=
    some (purses.put ⟨ctrl, ((purses.get? ctrl).map (·.balance)).getD 0 + delta⟩)
  setSpecializationXpAndLevel tracks ctrl track xp level := some (tracks.put ⟨ctrl, track, xp, level⟩)
  levelFunctions := true

def purseSku : ShopSku := ⟨"sn-solari-purse", .snShopSolari, 2, [], 50000, .off, [], "", 0, 0⟩

def purseConfig : ShopConfig := ⟨⟨[purseSku], List.nodup_singleton _⟩, 400000⟩

def purseCall : ShopCall :=
  ⟨7, .snShopSolari, 1, "lastsietch-reward", "", "sn-solari-purse", "70",
    "0123456789abcdef0123456789abcdef", "", false⟩

def purseDb : ShopDb where
  claims := SerialTable.empty
  game :=
    { players := [⟨7, some 70, some 71, false, true, none⟩]
      actors := Table.empty
      links := []
      entities := Table.empty
      tracks := Table.empty
      inventories := Table.empty
      items := Serial.empty
      purses := Table.empty
      curve := [] }

/-- The answer of the first call is lost, and the call is made again. -/
theorem shop_grants_purse :
    ∃ db, exec (callStep gameProcs purseConfig) purseDb
        [.call true 0 .unanswered purseCall, .call true 5 .whole purseCall] = some db ∧
      db.game.purses.rows = [⟨70, 50000⟩] ∧
      grantsOf db.claims.rows .snShopSolari purseCall.profileId "sn-solari-purse" ≤ max 2 0 := by
  obtain ⟨db, hrun, hpurses⟩ := @exec_shows ShopDb CallAct (callStep gameProcs purseConfig)
    (fun db => db.game.purses.rows = [⟨70, 50000⟩]) _ purseDb
    [.call true 0 .unanswered purseCall, .call true 5 .whole purseCall] (by decide)
  exact ⟨db, hrun, hpurses, (shop_grants gameProcs purseConfig hrun).2.1 purseSku
    (List.mem_singleton_self _) purseCall.profileId⟩

end LastSietch.Nights
