import LastSietch.Grants.Keystones

/-!
# The builders of items, Solari, rewards and XP

`build_item_grant`, `build_solari_grant`, `build_item_live_grant` and `build_char_xp_grant`. Their
SQL joins `encrypted_player_state` by the account, so that it runs over every slot of it. What the
database is free to do is in a `Backend`.
-/

namespace LastSietch.Grants

open DuneGrant

/-- The numbers that `random()` gives for a length, and whether a `DELETE` evaluates its subquery
when there are no rows to compare. -/
structure Backend where
  draw : Nat → List ℚ
  eager : Bool

/-- `validate_int_in_range`, for a range of positive numbers. -/
def validateIntInRange (value : String) (low high : Nat) : Option Nat :=
  (digits value).filter fun n => low ≤ n ∧ n ≤ high

def isWord (s : String) : Bool := s ≠ "" && s.toList.all fun c => c.isAlphanum || c == '_'

def validateTemplateId (s : String) : Bool := isWord s

def validateQuality (s : String) : Option Nat :=
  if s ∈ ["0", "1", "2", "3", "4", "5", "6"] then digits s else none

def Game.validateActiveLandsraadHouse (g : Game) (h : String) : Bool :=
  h.startsWith "DA_House" && isWord h && h ≠ "DA_House" && h ∈ g.houses

/-! ## Items and Solari -/

section Items

variable (g : Game)

def Game.backpacks (account : Nat) : List Inventory :=
  (g.pawnsOf account).flatMap fun pawn =>
    g.inventories.rows.filter fun inv => inv.actorId = some pawn ∧ inv.inventoryType = some 0

/-- `v_used >= v_cap`, where a missing `max_item_count` compares to nothing. -/
def Game.full (inv : Inventory) : Bool :=
  inv.maxItemCount.any fun cap => cap ≤ (g.items.rows.countP (·.inventoryId = some inv.id) : Int)

/-- `COALESCE(MAX(position_index), -1) + 1`. -/
def Items.nextPosition (items : Items) (inv : Inventory) : Int :=
  (((items.rows.filter (·.inventoryId = some inv.id)).map (·.positionIndex)).max?).getD (-1) + 1

/-- The row that an `INSERT` of a builder makes. -/
def newItem (items : Items) (templateId : String) (stackSize : Nat) (stats : Fields)
    (qualityLevel : Nat) (inv : Inventory) (id : Nat) : Item where
  id
  inventoryId := some inv.id
  stackSize
  positionIndex := items.nextPosition inv
  templateId
  stats
  qualityLevel
  acquisitionTime := 0
  isNew := true

/-- `INSERT ... SELECT`: one row for each backpack, all as the table was before. -/
def Items.insertInto (items : Items) (templateId : String) (stackSize : Nat) (stats : Fields)
    (qualityLevel : Nat) (invs : List Inventory) : Items :=
  invs.foldl (fun rows inv =>
    rows.insert (newItem items templateId stackSize stats qualityLevel inv)) items

/-- `jsonb_set(d.stats, '{FAugmentItemStats,1,StatRolls}', ...)`, with as many new rolls; `none` where
the rolls are not an array. -/
def Backend.redraw (b : Backend) (stats : Fields) : Option Fields :=
  match stats.lookup "FAugmentItemStats" with
  | some (.arr (head :: .obj inner :: rest)) =>
    let rolls := match inner.lookup "StatRolls" with
      | none => some []
      | some (.arr l) => some ((b.draw l.length).map Json.dec)
      | some _ => none
    rolls.map fun rolls =>
      let inner := Fields.put "StatRolls" (.arr rolls) inner
      stats.put "FAugmentItemStats" (.arr (head :: .obj inner :: rest))
  | _ => some stats

def Game.shapes (templateId : String) : List Item :=
  g.items.rows.filter fun it => it.templateId = templateId ∧ it.stats.has "FAugmentItemStats"

/-- The stats of the row with the least id, or `'{}'`. -/
def Game.itemStats (b : Backend) (templateId : String) : Option Fields :=
  match (g.shapes templateId).getLast? with
  | none => some []
  | some it => b.redraw it.stats

/-- The preflight and the body of `build_item_grant`. -/
def Game.itemSql (b : Backend) (account : Nat) (templateId : String) (quantity quality : Nat) :
    Option Game :=
  match g.backpacks account with
  | [] => none
  | inv :: rest =>
    if g.full inv then none
    else if templateId.startsWith "T6_Augment_" ∧ g.shapes templateId = [] then none
    else
      (g.itemStats b templateId).map fun stats =>
        { g with items := g.items.insertInto templateId quantity stats quality (inv :: rest) }

/-- The `SolarisCoin` stacks of a backpack. -/
def Items.coins (items : Items) (inv : Inventory) : List Item :=
  items.rows.filter fun it => it.inventoryId = some inv.id ∧ it.templateId = "SolarisCoin"

/-- `ORDER BY position_index LIMIT 1`. -/
def Items.firstCoin (items : Items) (inv : Inventory) : Option Item :=
  pick (fun best it => it.positionIndex < best.positionIndex) (items.coins inv)

def coinStats : Fields :=
  [("FItemStackAndDurabilityStats", .arr [.arr [], .obj [("DecayedMaxDurability", .dec 0)]])]

def Item.addStack (amount : Nat) (it : Item) : Item := { it with stackSize := it.stackSize + amount }

/-- `UPDATE dune.items SET stack_size = stack_size + amount WHERE p`. -/
def Items.addStacks (items : Items) (amount : Nat) (p : Item → Bool) : Items :=
  items.update p (Item.addStack amount)

/-- The `UPDATE` of the stacks. -/
def Items.addToCoins (items : Items) (amount : Nat) (invs : List Inventory) : Items :=
  items.addStacks amount fun it => ∃ inv ∈ invs, items.firstCoin inv = some it

/-- The preflight and the body of `build_solari_grant`. -/
def Game.solariSql (account amount : Nat) : Option Game :=
  match g.backpacks account with
  | [] => none
  | inv :: rest =>
    if g.items.firstCoin inv = none ∧ g.full inv then none
    else
      let items := g.items.addToCoins amount (inv :: rest)
      some { g with
        items := items.insertInto "SolarisCoin" amount coinStats 0
          ((inv :: rest).filter fun inv => items.coins inv = []) }

end Items

/-- The `INSERT` of a reward for each controller; a missing one and a second row of one key break
the constraints. -/
def insertRewards (houseName : String) (amount : Nat) (templateId : String) :
    List SlotRow → Table Reward Reward.key → Option (Table Reward Reward.key)
  | [], rewards => some rewards
  | e :: es, rewards =>
    e.playerControllerId.bind fun ctrl =>
      (rewards.insert? ⟨ctrl, houseName, amount, templateId⟩).bind
        (insertRewards houseName amount templateId es)

/-- What the `DELETE` leaves; more than one slot makes its subquery raise, where it is evaluated. -/
def Game.clearReward (g : Game) (b : Backend) (account : Nat) (houseName templateId : String) :
    Option (Table Reward Reward.key) :=
  match g.slotsOf account with
  | [] => some g.rewards
  | [e] => some (g.rewards.filter fun r => ¬ e.playerControllerId.any fun ctrl =>
      r.key = (ctrl, houseName, templateId))
  | _ => if b.eager = false ∧ g.rewards.rows = [] then some g.rewards else none

/-- The body of `build_item_live_grant`. -/
def Game.itemLiveSql (g : Game) (b : Backend) (account : Nat) (houseName templateId : String)
    (amount : Nat) : Option Game :=
  (g.clearReward b account houseName templateId).bind fun rewards =>
    (insertRewards houseName amount templateId (g.slotsOf account) rewards).map fun rewards =>
      { g with rewards }

/-! ## Experience -/

/-- The cap of `build_char_xp_grant`, the XP of level 200. -/
def maxXp : Int := 344440

section Experience

variable (curve : List (Nat × Int))

/-- `ls_xp_to_level`. -/
def xpToLevel (xp : Int) : Nat :=
  ((curve.filter fun row => row.2 ≤ max xp 0).map (·.1)).max?.getD 0

/-- `ls_intel_at_level`. -/
def intelAtLevel (level : Nat) : Int :=
  if level ≤ 0 then 0
  else if level = 1 then 4
  else if level ≤ 3 then 4 + (level - 1) * 2
  else if level ≤ 15 then 8 + (level - 3) * 3
  else if level ≤ 30 then 44 + (level - 15) * 5
  else if level ≤ 50 then 119 + (level - 30) * 10
  else if level ≤ 69 then 319 + (level - 50) * 20
  else if level ≤ 85 then 699 + (level - 69) * 30
  else if level ≤ 125 then 1179 + (level - 85) * 40
  else 2779

/-- The three `jsonb_set` of the XP write. -/
def Level.raise (amount : Nat) (l : Level) : Level :=
  let preXp := l.totalXpEarned.getD 0
  let newXp := min (preXp + amount) maxXp
  let gained : Int := xpToLevel curve newXp - xpToLevel curve preXp
  { totalXpEarned := some newXp
    totalSkillPoints := some (l.totalSkillPoints.getD 0 + gained)
    unspentSkillPoints := some (l.unspentSkillPoints.getD 0 + gained) }

def Entity.raise (amount : Nat) (e : Entity) : Entity :=
  { e with level := e.level.map (·.map (Level.raise curve amount)) }

/-- The XP write, where `p` holds. -/
def raiseEntities (amount : Nat) (p : Entity → Bool) (entities : Entities) : Entities :=
  entities.update p (Entity.raise curve amount)

/-- `intel_delta`, from the XP after the write. -/
def intelDelta (amount : Nat) (e : Entity) : Int :=
  let postXp := (e.level.join.bind (·.totalXpEarned)).getD 0
  max 0 (intelAtLevel (xpToLevel curve postXp) -
    intelAtLevel (xpToLevel curve (max (postXp - amount) 0)))

end Experience

section CharXp

variable (g : Game)

/-- The `DuneCharacter` entities that the account joins to. -/
def Game.characters (account : Nat) : List Entity :=
  (g.pawnsOf account).flatMap fun pawn => g.entities.rows.filter (g.IsCharacter pawn ·)

def Actor.addIntel (n : Int) (a : Actor) : Actor :=
  { a with techKnowledge := a.techKnowledge.map fun points => some (points.getD 0 + n) }

/-- The first positive `intel_delta` of an actor's entities. -/
def Game.intelOf (amount : Nat) (a : Actor) : Option Int :=
  ((g.entities.rows.filter (g.IsCharacter a.id ·)).map (intelDelta g.curve amount)).find? (0 < ·)

def Game.giveIntel (amount : Nat) (a : Actor) : Actor := (g.intelOf amount a).elim a (a.addIntel ·)

theorem Game.giveIntel_id (amount : Nat) (a : Actor) : (g.giveIntel amount a).id = a.id := by
  unfold Game.giveIntel
  cases g.intelOf amount a <;> rfl

def Game.addIntel (account amount : Nat) : Game :=
  { g with
    actors := g.actors.update (fun a => a.id ∈ g.pawnsOf account) (g.giveIntel amount)
      (g.giveIntel_id amount) }

/-- The game between the two writes of `build_char_xp_grant`. -/
def Game.withXp (account amount : Nat) : Game :=
  { g with
    entities := raiseEntities g.curve amount (g.IsHit (g.pawnsOf account) ·) g.entities }

/-- The preflight and the body of `build_char_xp_grant`. -/
def Game.charXpSql (account amount : Nat) : Option Game :=
  match g.characters account with
  | [] => none
  | e :: _ =>
    if e.level = none then none
    else
      some ((g.withXp account amount).addIntel account amount)

/-- The XP of the account as `psql_scalar` reads it: the rows after each other, without a break. -/
def Game.readXp (account : Nat) : Option Nat :=
  digits (String.join ((g.characters account).map fun e =>
    toString ((e.level.join.bind (·.totalXpEarned)).getD 0)))

/-- The amount of `build_char_xp_grant`: that of the request, or what is missing to its level. -/
def Game.charXpAmount (q : Request) : Except Nat Nat :=
  let targetLevel := q.detail.nested "target_level"
  let amount : Except Nat String :=
    if targetLevel = "" ∨ targetLevel = "0" then .ok (q.detail.nested "amount")
    else do
      let level ← orRaise (validateIntInRange targetLevel 1 200) 2
      let targetXp ← orRaise ((g.curve.lookup level).filter (0 ≤ ·)) 3
      let preXp ← orRaise (g.readXp q.accountId) 5
      require (xpToLevel g.curve preXp < level) 2
      pure (toString (targetXp - preXp))
  amount.bind fun amount => orRaise (validateIntInRange amount 1 344440) 2

end CharXp

def buildItemGrant (b : Backend) : Builders Game := fun q _ _ =>
  let templateId := q.detail.nested "template_id"
  match validateTemplateId templateId, validateIntInRange (q.detail.nested "quantity") 1 10000,
    validateQuality (q.detail.nested "quality") with
  | true, some quantity, some quality =>
    .ok (planOf [("template_id", templateId), ("quantity", q.detail.nested "quantity"),
        ("quality", q.detail.nested "quality"),
        ("kind", if q.grantType = .item then "item" else "schematic_item")]
      (·.itemSql b q.accountId templateId quantity quality))
  | _, _, _ => .error 2

def buildSolariGrant : Builders Game := fun q _ _ =>
  match validateIntInRange (q.detail.nested "amount") 1 100000000 with
  | some amount =>
    .ok (planOf [("amount", q.detail.nested "amount"), ("template_id", "SolarisCoin")]
      (·.solariSql q.accountId amount))
  | none => .error 2

def buildItemLiveGrant (b : Backend) : Builders Game := fun q _ g =>
  let templateId := q.detail.nested "template_id"
  let houseName := q.detail.nested "house_name"
  match validateTemplateId templateId, validateIntInRange (q.detail.nested "amount") 1 9999,
    g.validateActiveLandsraadHouse houseName with
  | true, some amount, true =>
    .ok (planOf [("template_id", templateId), ("amount", q.detail.nested "amount"),
        ("house_name", houseName)]
      (·.itemLiveSql b q.accountId houseName templateId amount))
  | _, _, _ => .error 2

def buildCharXpGrant : Builders Game := fun q _ g =>
  (g.charXpAmount q).map fun amount =>
    planOf [("amount", toString amount),
        ("force_wipe_points_ack", q.detail.nested "force_wipe_points_ack"),
        ("resolved_from", if q.detail.nested "target_level" ∈ ["", "0"] then "amount"
          else "target_level"), ("target_level", q.detail.nested "target_level")]
      (·.charXpSql q.accountId amount)

/-- The builders; `others` are those of the other grant types. -/
def grantBuilders (b : Backend) (others : Builders Game) : Builders Game := fun q =>
  match q.grantType with
  | .item => buildItemGrant b q
  | .schematicItem => buildItemGrant b q
  | .solari => buildSolariGrant q
  | .itemLive => buildItemLiveGrant b q
  | .charXp => buildCharXpGrant q
  | _ => keystoneBuilders others q

end LastSietch.Grants
