import LastSietch.Grants.Bodies
import LastSietch.Nights.Writer

/-!
# What the Stall's game writer sells

The allowlist of `dune-reward-op.sh` with its checks before the transaction, and the tables that
`do_sn_shop` reads and writes. An item of a bundle is a chain: each pick is the `fallback` of the
one before.
-/

namespace LastSietch.Nights

open DuneGrant Grants

inductive RewardKind
  | dailySolari | weeklyItem | monthlyAugment
  | snShopBank | snShopSolari | snShopSpec | snShopCharxp
  deriving DecidableEq

def RewardKind.isShop : RewardKind → Bool
  | .snShopBank | .snShopSolari | .snShopSpec | .snShopCharxp => true
  | .dailySolari | .weeklyItem | .monthlyAugment => false

structure Pick where
  templateId : String
  qty : Nat
  grade : Nat
  skipIfUnlocked : Option (List String)
  deriving DecidableEq

structure Ware where
  first : Pick
  fallbacks : List Pick
  deriving DecidableEq

def Ware.picks (w : Ware) : List Pick := w.first :: w.fallbacks

/-- An entry of `SN_SHOP_SKUS`; a field that is missing has the default that `jq` gives it. -/
structure ShopSku where
  sku : String
  kind : RewardKind
  limit : Nat
  items : List Ware
  solari : Nat
  dedupe : Dedupe
  unlockIds : List String
  track : String
  specXp : Nat
  charXp : Nat

structure ShopConfig where
  skus : Table ShopSku ShopSku.sku
  /-- `SN_SOLARI_MAX_PER_PROFILE`. -/
  solariMax : Nat

/-- A call of `do_sn_shop`: the fields that `do_op` has validated, and those that it has not. -/
structure ShopCall where
  accountId : Nat
  rewardKind : RewardKind
  idem : Nat
  operator : String
  opJson : String
  sku : String
  controllerId : String
  profileId : String
  discordId : String
  dry : Bool

/-! ## The checks before the transaction -/

def lower (s : String) : List Char := s.toList.map Char.toLower

def bannedVerbs : List String :=
  ["cheatscript", "mtxstop", "endactivemtx", "endallmtx", "endmtxevent", "schedulemtx"]

def namesBannedVerb (opJson : String) : Bool :=
  bannedVerbs.any fun v => decide (v.toList <:+: lower opJson)

/-- `^sn-[a-z0-9-]{1,48}$`. -/
def isSku (s : String) : Bool :=
  match s.toList with
  | 's' :: 'n' :: '-' :: rest =>
    1 ≤ rest.length && rest.length ≤ 48 && rest.all fun c => c.isLower || c.isDigit || c == '-'
  | _ => false

/-- `^[1-9][0-9]{0,m}$`. -/
def isPositive (s : String) (m : Nat) : Bool :=
  match s.toList with
  | c :: rest => c.isDigit && c ≠ '0' && rest.length ≤ m && rest.all Char.isDigit
  | [] => false

/-- `^[0-9a-f]{32}$`. -/
def isProfileId (s : String) : Bool :=
  s.length = 32 && s.toList.all fun c => c.isDigit || ('a' ≤ c && c ≤ 'f')

def snTemplateDenied (s : String) : Bool :=
  let t := lower s
  "mtx_".toList.isPrefixOf t || "dlc_".toList.isPrefixOf t || "halloween".toList.isPrefixOf t ||
    decide ("twitch".toList <:+: t)

def snSpecTracks : List String := ["Combat", "Crafting", "Gathering", "Exploration", "Sabotage"]
def snSpecXpCap : Nat := 44182
def snCharXpCap : Nat := 344440

/-- What `do_sn_shop` prints. -/
inductive ShopAnswer
  /-- `sn_fail`. -/
  | refused (code : FailCode)
  /-- `fail_json`. -/
  | failed
  | deferred
  | dryRun
  | done (isNew : Bool) (auditId : Nat) (sku : String) (controllerId : Nat)
  deriving DecidableEq

def ShopAnswer.isDone : ShopAnswer → Bool
  | .done .. => true
  | .refused _ | .failed | .deferred | .dryRun => false

def ShopSku.kindCheck (e : ShopSku) (solariMax : Nat) : Except ShopAnswer Unit :=
  match e.kind with
  | .snShopBank => do
    require (1 ≤ e.items.length ∧ e.items.length ≤ 5) (.refused .rejected)
    require (e.solari ≤ solariMax) (.refused .rejected)
  | .snShopSolari => do
    require (0 < e.solari) .failed
    require (e.solari ≤ solariMax) (.refused .rejected)
  | .snShopSpec => do
    require (e.items = [] ∧ e.solari = 0) (.refused .rejected)
    require (e.track ∈ snSpecTracks) (.refused .rejected)
    require (0 < e.specXp) .failed
    require (e.specXp ≤ snSpecXpCap) (.refused .rejected)
  | .snShopCharxp => do
    require (e.items = [] ∧ e.solari = 0 ∧ e.specXp = 0 ∧ e.track = "") (.refused .rejected)
    require (0 < e.charXp) .failed
    require (e.charXp ≤ snCharXpCap) (.refused .rejected)
  | .dailySolari | .weeklyItem | .monthlyAugment => .ok ()

def ShopSku.check (e : ShopSku) (solariMax : Nat) : Except ShopAnswer Unit := do
  let picks := e.items.flatMap Ware.picks
  require (0 < e.limit) .failed
  picks.forM fun p => do
    require (validateTemplateId p.templateId = true) .failed
    require (snTemplateDenied p.templateId = false) (.refused .rejected)
  require (∀ u ∈ e.unlockIds, validateTemplateId u = true) .failed
  require (∀ p ∈ picks, ∀ u ∈ p.skipIfUnlocked.getD [], validateTemplateId u = true) .failed
  require (e.dedupe = .unlock → e.unlockIds ≠ []) (.refused .rejected)
  require (∀ p ∈ picks, 1 ≤ p.qty ∧ p.qty ≤ 500) (.refused .rejected)
  e.kindCheck solariMax

def ShopConfig.entry (cfg : ShopConfig) (q : ShopCall) : Except ShopAnswer (ShopSku × Nat) := do
  require (namesBannedVerb q.opJson = false) (.refused .rejected)
  require (isSku q.sku = true) (.refused .rejected)
  require (isPositive q.controllerId 18 = true) (.refused .rejected)
  require (isProfileId q.profileId = true) (.refused .rejected)
  require (q.discordId = "" ∨ isPositive q.discordId 19 = true) (.refused .rejected)
  let e ← orRaise (cfg.skus.get? q.sku) (.refused .rejected)
  require (e.kind = q.rewardKind) (.refused .rejected)
  e.check cfg.solariMax
  let ctrl ← orRaise (digits q.controllerId) (.refused .rejected)
  pure (e, ctrl)

/-! ## Tables -/

/-- A row of `encrypted_player_state`. -/
structure ShopPlayer where
  accountId : Nat
  playerControllerId : Option Nat
  playerPawnId : Option Nat
  deleted : Bool
  offline : Bool
  reconnectGracePeriodEnd : Option Int
  deriving DecidableEq

/-- A row of `actors`: the intel points, where the component is there, and the ids in
`m_UnlockedCustomizationIds`. -/
structure ShopActor where
  id : Nat
  techKnowledge : Option (Option Int)
  unlocked : List String
  deriving DecidableEq

/-- A row of `specialization_tracks`. -/
structure TrackRow where
  playerId : Nat
  trackType : String
  xpAmount : Int
  level : ℚ
  deriving DecidableEq

def TrackRow.key (r : TrackRow) : Nat × String := (r.playerId, r.trackType)

abbrev TrackRows := Table TrackRow TrackRow.key

/-- A row of `player_virtual_currency_balances` for `Solaris`. -/
structure Purse where
  playerControllerId : Nat
  balance : Int
  deriving DecidableEq

abbrev Purses := Table Purse Purse.playerControllerId

structure Skip where
  templateId : String
  learned : Bool
  deriving DecidableEq

structure Substitution where
  wanted : String
  delivered : Option String
  skipped : List Skip
  deriving DecidableEq

inductive Done
  | charXp (before after : Int) (levels intel : Int)
  | specXp (before after : Int) (level : ℚ)
  | bank (inv : Nat) (itemIds : List Nat) (substitutions : List Substitution)
  deriving DecidableEq

/-- The `detail` of a row, as far as the writer reads it back or a grant writes it. -/
structure ShopDetail where
  sku : Option String
  controllerId : Option Nat
  profileId : Option String
  discordId : Option String
  solari : Option Nat
  done : Option Done
  deriving DecidableEq

inductive RewardStatus
  | pending | applied | failed
  deriving DecidableEq

/-- A row of `ls_reward_claims`. -/
structure RewardRow where
  id : Nat
  idempotencyKey : Nat
  accountId : Nat
  rewardKind : RewardKind
  detail : ShopDetail
  operator : String
  status : RewardStatus
  deriving DecidableEq

abbrev RewardRows := SerialTable RewardRow RewardRow.id RewardRow.idempotencyKey

structure ShopGame where
  players : List ShopPlayer
  actors : Table ShopActor ShopActor.id
  links : List Grants.Link
  entities : Entities
  tracks : TrackRows
  inventories : Table Inventory (·.id)
  items : Items
  purses : Purses
  /-- `ls_char_xp_curve`. -/
  curve : List (Nat × Int)

structure ShopDb where
  claims : RewardRows
  game : ShopGame

end LastSietch.Nights
