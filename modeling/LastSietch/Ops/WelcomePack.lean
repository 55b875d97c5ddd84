import LastSietch.Karum.Tables

/-!
# The welcome pack

What `grant.sh` reads, what its transaction writes, and the pack itself. Each lookup is a
`psql` call of its own and answers as of the time of the call; the shell takes what is printed, without the
blanks, so that an id that several rows answer is their digits in a row.

A pack is 27 rows of the backpack, four tools on the first free places of the hotbar (behind the
others in the backpack when the bar is full), scrip, research, and one row of
`ls_welcome_pack_grants`.
-/

namespace LastSietch.Welcome

open Karum (CharacterState)

/-! ## Tables -/

/-- A row of `encrypted_player_state`. -/
structure PlayerState where
  accountId : Nat
  playerPawnId : Option Nat
  playerControllerId : Option Nat
  characterState : Option CharacterState
  lastLoginTime : Option Nat
  deriving DecidableEq

structure Inventory where
  id : Nat
  actorId : Nat
  inventoryType : Nat
  deriving DecidableEq

/-- A row of `items`; its id is the database's business. -/
structure Item where
  inventoryId : Nat
  stackSize : Nat
  positionIndex : Nat
  templateId : String
  stats : String
  qualityLevel : Nat
  acquisitionTime : Nat
  isNew : Bool
  deriving DecidableEq

/-- An entry of `m_TechKnowledgeData`. -/
structure Tech where
  itemKey : String
  unlockedState : String
  isNewEntry : Bool
  deriving DecidableEq

/-- The research in the properties of a row of `actors`. -/
structure Actor where
  id : Nat
  techKnowledge : List Tech
  deriving DecidableEq

/-- A row of `player_virtual_currency_balances`, for `HouseCredit`. -/
structure Balance where
  playerControllerId : Nat
  balance : Nat
  deriving DecidableEq

structure Account where
  id : Nat
  user : Option String
  funcomId : Option String
  deriving DecidableEq

/-- A row of `ls_welcome_pack_grants`. -/
structure Grant where
  accountId : Nat
  flsId : Option String
  funcomId : Option String
  grantedItems : Nat
  notes : Option String
  grantedActorId : Option Nat
  grantedAt : Nat
  deriving DecidableEq

structure Game where
  players : List PlayerState
  inventories : List Inventory
  items : List Item
  actors : List Actor
  balances : Table Balance (·.playerControllerId)

abbrev Accounts := Table Account (·.id)
abbrev Grants := Table Grant (·.accountId)

/-- `[:space:]`. -/
def isSpace (c : Char) : Bool := c.isWhitespace || c.toNat == 11 || c.toNat == 12

/-- `tr -d '[:space:]'`. -/
def squeeze (s : String) : String := String.ofList (s.toList.filter (fun c => !isSpace c))

/-- The two `s///` of `sed`. -/
def trim (s : String) : String :=
  String.ofList ((s.toList.dropWhile isSpace).reverse.dropWhile isSpace).reverse

def mash : List Nat → Option Nat
  | [] => none
  | id :: ids => some (ids.foldl (fun n id => n * 10 ^ (Nat.toDigits 10 id).length + id) id)

/-- `NULLIF(s, '')`. -/
def nullIf (s : String) : Option String := if s = "" then none else some s

/-- `[[ "$NOTES" == *"v"* ]]`. -/
def mentions (v : String) (notes : String) : Bool := v.toList <:+: notes.toList

/-- `ORDER BY last_login_time DESC`: no login stands before all. -/
def laterLogin (a b : PlayerState) : Bool :=
  match a.lastLoginTime, b.lastLoginTime with
  | none, some _ => true
  | some t, some u => u < t
  | _, none => false

def Game.inventoriesOf (g : Game) (actor type : Nat) : List Nat :=
  (g.inventories.filter (fun v => v.actorId = actor ∧ v.inventoryType = type)).map (·.id)

def Game.actorId (g : Game) (account : Nat) : Option Nat :=
  (pick (fun best b => laterLogin b best) (g.players.filter (fun p =>
    p.accountId = account ∧ p.characterState ≠ some .deleted ∧
      ∃ pawn ∈ p.playerPawnId, g.inventoriesOf pawn 0 ≠ []))).bind (·.playerPawnId)

def Accounts.flsId (accounts : Accounts) (account : Nat) : String :=
  squeeze (((accounts.get? account).bind (·.user)).getD "")

def Accounts.funcomId (accounts : Accounts) (account : Nat) : String :=
  trim (((accounts.get? account).bind (·.funcomId)).getD "")

def Grants.inCooldown (grants : Grants) (cooldown now : Nat) (flsId : String) (account : Nat) : Bool :=
  grants.rows.any (fun g =>
    decide (g.flsId = some flsId ∧ g.accountId ≠ account ∧ now < g.grantedAt + cooldown))

def Grants.notes (grants : Grants) (account : Nat) : String :=
  squeeze (((grants.get? account).bind (·.notes)).getD "")

def Game.positions (g : Game) (inventory : Nat) : List Nat :=
  (g.items.filter (·.inventoryId = inventory)).map (·.positionIndex)

def Game.nextMain (g : Game) (inventory : Nat) : Nat :=
  ((g.positions inventory).map (· + 1)).foldl max 0

/-- `FREE_HB`. -/
def Game.freeHotbar (g : Game) (inventory : Nat) : List Nat :=
  (List.range 8).filter (fun p => p ∉ g.positions inventory)

/-! ## The pack -/

/-- A row of the `VALUES` without its place. -/
structure Line where
  stackSize : Nat
  templateId : String
  stats : String := "\x7b\x7d"
  qualityLevel : Nat := 0
  deriving DecidableEq

def mainPack : List Line :=
  [{ stackSize := 1, templateId := "Combat_Choam_Light03_Helmet" },
   { stackSize := 1, templateId := "Combat_Choam_Light03_Top" },
   { stackSize := 1, templateId := "Combat_Choam_Light03_Bottom" },
   { stackSize := 1, templateId := "Combat_Choam_Light03_Gloves" },
   { stackSize := 1, templateId := "Combat_Choam_Light03_Boots" },
   { stackSize := 1, templateId := "fullsuspensorbelt" },
   { stackSize := 1, templateId := "PowerPack6" },
   { stackSize := 1, templateId := "HoltzmanShieldActiveDrain2" },
   { stackSize := 1, templateId := "ornithopterlightchassis_6", qualityLevel := 5 },
   { stackSize := 1, templateId := "ornithopterlighthullback_6", qualityLevel := 5 },
   { stackSize := 1, templateId := "ornithopterlighthullfront_6", qualityLevel := 5 },
   { stackSize := 1, templateId := "ornithopterlightlocomotion_6", qualityLevel := 5 },
   { stackSize := 1, templateId := "ornithopterlightlocomotion_6", qualityLevel := 5 },
   { stackSize := 1, templateId := "ornithopterlightlocomotion_6", qualityLevel := 5 },
   { stackSize := 1, templateId := "ornithopterlightlocomotion_6", qualityLevel := 5 },
   { stackSize := 1, templateId := "ornithopterlightengine_6", qualityLevel := 5 },
   { stackSize := 1, templateId := "ornithopterlightgenerator_6", qualityLevel := 5 },
   { stackSize := 1, templateId := "ornithopterlightboost_6", qualityLevel := 5 },
   { stackSize := 1, templateId := "FuelCanister_Large" },
   { stackSize := 1, templateId := "FuelCanister_Large" },
   { stackSize := 1, templateId := "weldingmaterial" },
   { stackSize := 100000, templateId := "SolarisCoin"
     stats := "\x7b\"FItemStackAndDurabilityStats\": [[], \x7b\"DecayedMaxDurability\": 0.0\x7d]\x7d" },
   { stackSize := 1, templateId := "CHOAMSword_0" },
   { stackSize := 1, templateId := "ChoamSda4" },
   { stackSize := 250, templateId := "Ammo" },
   { stackSize := 1, templateId := "BodyFluidExtractor_Unique_Water_03" },
   { stackSize := 1, templateId := "Bloodsack_02" }]

def hotbarPack : List Line :=
  [{ stackSize := 1, templateId := "miningtool_2h_light" },
   { stackSize := 1, templateId := "repairtool5" },
   { stackSize := 1, templateId := "vehiclebackuptool" },
   { stackSize := 1, templateId := "decajon"
     stats := "\x7b\"FFillableItemStats\": [[], \x7b\"FillableType\": \"Water\", \"CurrentAmount\": 10000.0\x7d], \"FItemStackAndDurabilityStats\": [[], \x7b\x7d]\x7d" }]

/-- The `ItemKey`s that become `Purchased`. -/
def research : List String :=
  ["BLD_BasicLighting_Patent", "BLD_ChoamShelterSet", "BLD_PowerGenerator_Patent",
    "BLD_SpiceSilo_Patent", "BLD_Totem_Small_Patent", "DA_GRP_ConstructionStarterPack",
    "RCP_BuildingDroneRecipe"]

def packNotes : String :=
  "v1.8: 27 main (Mk3 fight gear: Slaver Scout armor + Artisan Sword + Artisan Maula Pistol + 250 Light Darts + Holtzman Mk3 + Power Pack Mk3 + Filter Extractor Mk3 + Medium Blood Sack; Scout Ornithopter Mk6 kit) + 4 hotbar (decajon prefilled) + 7 base-construction research + 100k Solari + 100k Scrip + 100 Intel"

def Line.at (l : Line) (inventoryId positionIndex : Nat) : Item where
  inventoryId := inventoryId
  stackSize := l.stackSize
  positionIndex := positionIndex
  templateId := l.templateId
  stats := l.stats
  qualityLevel := l.qualityLevel
  acquisitionTime := 0
  isNew := true

/-- `T0_INV`, `T0_POS` and their three likes. -/
def toolPlaces (mainId hotbarId nextMain : Nat) (freeHb : List Nat) : List (Nat × Nat) :=
  (List.range 4).map (fun i =>
    match freeHb[i]? with
    | some p => (hotbarId, p)
    | none => (mainId, nextMain + 27 + (i - freeHb.length)))

def packItems (mainId hotbarId nextMain : Nat) (freeHb : List Nat) : List Item :=
  mainPack.zipIdx.map (fun (l, i) => l.at mainId (nextMain + i)) ++
    (hotbarPack.zip (toolPlaces mainId hotbarId nextMain freeHb)).map (fun (l, inv, p) => l.at inv p)

def Tech.purchase (t : Tech) : Tech :=
  if t.itemKey ∈ research then { t with unlockedState := "Purchased", isNewEntry := false } else t

/-- `ON CONFLICT DO UPDATE SET balance = balance + 100000`. -/
def payScrip (balances : Table Balance (·.playerControllerId)) (ctl : Nat) :
    Table Balance (·.playerControllerId) :=
  balances.put ⟨ctl, ((balances.get? ctl).map (·.balance)).getD 0 + 100000⟩

def Game.pack (g : Game) (account actorId mainId hotbarId nextMain : Nat) (freeHb : List Nat) : Game :=
  { g with
    items := g.items ++ packItems mainId hotbarId nextMain freeHb
    balances := ((g.players.filter (fun p =>
      p.accountId = account ∧ p.playerPawnId = some actorId)).filterMap (·.playerControllerId)).foldl
        payScrip g.balances
    actors := g.actors.map (fun a =>
      if a.id = actorId then { a with techKnowledge := a.techKnowledge.map Tech.purchase } else a) }

/-- The row that `INSERT ... ON CONFLICT (account_id) DO UPDATE` leaves. -/
def Grants.stamped (grants : Grants) (account : Nat) (flsId funcomId : String) (actorId grantedAt : Nat) :
    Grant :=
  match grants.get? account with
  | none =>
    { accountId := account
      flsId := nullIf flsId
      funcomId := nullIf funcomId
      grantedItems := 31
      notes := some packNotes
      grantedActorId := some actorId
      grantedAt }
  | some old =>
    { accountId := account
      flsId := old.flsId <|> nullIf flsId
      funcomId := old.funcomId <|> nullIf funcomId
      grantedItems := old.grantedItems + 31
      notes := some packNotes
      grantedActorId := some actorId
      grantedAt }

/-! ## The stamp and the two guards -/

section Stamp

variable (grants : Grants) (account : Nat) (flsId funcomId : String) (actorId grantedAt : Nat)

theorem stamped_accountId :
    (grants.stamped account flsId funcomId actorId grantedAt).accountId = account := by
  unfold Grants.stamped
  split <;> rfl

theorem stamped_grantedAt :
    (grants.stamped account flsId funcomId actorId grantedAt).grantedAt = grantedAt := by
  unfold Grants.stamped
  split <;> rfl

theorem stamped_notes :
    (grants.stamped account flsId funcomId actorId grantedAt).notes = some packNotes := by
  unfold Grants.stamped
  split <;> rfl

variable {grants account flsId funcomId actorId grantedAt}

/-- The stamp keeps the identity that a row has, and gives the run's to a row that has none. -/
theorem stamped_flsId (hne : flsId ≠ "")
    (hold : ∀ g ∈ grants, g.accountId = account → g.flsId = some flsId ∨ g.flsId = none) :
    (grants.stamped account flsId funcomId actorId grantedAt).flsId = some flsId := by
  unfold Grants.stamped
  split
  · exact if_neg hne
  · rename_i old hget
    obtain ⟨hmem, hacct⟩ := Table.get?_eq_some.mp hget
    rcases hold old hmem hacct with hfls | hfls
    · simp [hfls]
    · rw [hfls]
      exact if_neg hne

end Stamp

set_option maxRecDepth 4000 in
theorem packNotes_toList : ∃ l, packNotes.toList = 'v' :: '1' :: l := ⟨_, String.toList_ofList⟩

theorem packNotes_v1 : mentions "v1" (squeeze packNotes) = true := by
  obtain ⟨l, hl⟩ := packNotes_toList
  have hprefix : "v1".toList <+: (squeeze packNotes).toList := by
    rw [squeeze, String.toList_ofList, String.toList_ofList, hl]
    exact ⟨l.filter fun c => !isSpace c, rfl⟩
  exact decide_eq_true hprefix.isInfix

/-- Who gets past the guard has no pack of the identity in the window under another account. -/
theorem inCooldown_eq_false {grants : Grants} {cooldown now account : Nat} {flsId : String} :
    grants.inCooldown cooldown now flsId account = false ↔
      ∀ g ∈ grants, g.flsId = some flsId → g.accountId ≠ account → g.grantedAt + cooldown ≤ now := by
  unfold Grants.inCooldown
  rw [List.any_eq_false]
  constructor
  · intro h g hg hfls hacct
    have hrow := h g hg
    rw [decide_eq_true_eq] at hrow
    exact not_lt.mp (fun hlt => hrow ⟨hfls, hacct, hlt⟩)
  · intro h g hg hrow
    obtain ⟨hfls, hacct, hlt⟩ := of_decide_eq_true hrow
    exact absurd (h g hg hfls hacct) (not_le.mpr hlt)

theorem notes_of_stamp {grants : Grants} {g : Grant} (hg : g ∈ grants)
    (hnotes : g.notes = some packNotes) : mentions "v1" (grants.notes g.accountId) = true := by
  have hget : grants.get? g.accountId = some g := Table.get?_eq_some.mpr ⟨hg, rfl⟩
  unfold Grants.notes
  rw [hget]
  simpa [hnotes] using packNotes_v1

end LastSietch.Welcome
