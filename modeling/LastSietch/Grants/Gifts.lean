import LastSietch.Grants.Lands
import LastSietch.Grants.Levels

/-!
# Gifts

The requests for an item, Solari, a reward, XP or a keystone, with the fields that their builders take.
-/

namespace LastSietch.Grants

open DuneGrant

inductive Gift
  | item (templateId : String) (quantity quality : Nat)
  | solari (amount : Nat)
  | itemLive (houseName templateId : String) (amount : Nat)
  | charXp (amount : Nat)
  | keystone (k : Nat)
  deriving DecidableEq

/-! ### The fields of a request, as its builder takes them -/

def itemGift (q : Request) : Option Gift :=
  if validateTemplateId (q.detail.nested "template_id") then
    (validateIntInRange (q.detail.nested "quantity") 1 10000).bind fun quantity =>
      (validateQuality (q.detail.nested "quality")).map
        (.item (q.detail.nested "template_id") quantity)
  else none

def solariGift (q : Request) : Option Gift :=
  (validateIntInRange (q.detail.nested "amount") 1 100000000).map .solari

def itemLiveGift (g : Game) (q : Request) : Option Gift :=
  if validateTemplateId (q.detail.nested "template_id") ∧
      g.validateActiveLandsraadHouse (q.detail.nested "house_name") then
    (validateIntInRange (q.detail.nested "amount") 1 9999).map
      (.itemLive (q.detail.nested "house_name") (q.detail.nested "template_id"))
  else none

def charXpGift (g : Game) (q : Request) : Option Gift := (g.charXpAmount q).toOption.map .charXp

def keystoneGift (q : Request) : Option Gift := (keystoneId q).map .keystone

def giftTypes : List GrantType := [.item, .schematicItem, .solari, .itemLive, .charXp, .keystone]

def giftOf (g : Game) (q : Request) : Option Gift :=
  match q.grantType with
  | .item | .schematicItem => itemGift q
  | .solari => solariGift q
  | .itemLive => itemLiveGift g q
  | .charXp => charXpGift g q
  | .keystone => keystoneGift q
  | _ => none

namespace Gift

def sql (b : Backend) (account : Nat) (g : Game) : Gift → Option Game
  | item templateId quantity quality => g.itemSql b account templateId quantity quality
  | solari amount => g.solariSql account amount
  | itemLive houseName templateId amount => g.itemLiveSql b account houseName templateId amount
  | charXp amount => g.charXpSql account amount
  | keystone k => g.keystoneBody account k

def Lands (g g' : Game) (pawn ctrl : Nat) : Gift → Prop
  | item templateId quantity quality => g.ItemLands g' pawn templateId quantity quality
  | solari amount => g.SolariLands g' pawn amount
  | itemLive houseName templateId amount => g.RewardLands g' ctrl houseName templateId amount
  | charXp amount => g.XpLands g' pawn amount
  | keystone k => g.KeystoneLands g' pawn ctrl k

def Single (g : Game) (account pawn ctrl : Nat) : Gift → Prop
  | item .. => ∃ inv, g.backpacks account = [inv] ∧ inv.actorId = some pawn
  | solari _ => g.OneForSolari account pawn
  | itemLive .. => ∃ e, g.slotsOf account = [e]
  | charXp amount => g.OneForXp account pawn amount
  | keystone k => g.OneForKeystone account pawn ctrl k

def Positive : Gift → Prop
  | solari amount | charXp amount => 0 < amount
  | item .. | itemLive .. | keystone _ => True

end Gift

section Requests

variable {b : Backend} {others : Builders Game} {g g' : Game} {q : Request} {gift : Gift}
  {account pawn ctrl : Nat} {target : Slot} {plan : Plan Game}

theorem validateIntInRange_le {value : String} {low high n : Nat}
    (h : validateIntInRange value low high = some n) : low ≤ n := by
  have hrange := (Option.filter_eq_some_iff.mp h).2
  exact (of_decide_eq_true hrange).1

theorem charXpAmount_pos {amount : Nat} (h : g.charXpAmount q = .ok amount) : 0 < amount := by
  unfold Game.charXpAmount at h
  obtain ⟨text, -, hrange⟩ := bind_eq_ok.mp h
  exact validateIntInRange_le (orRaise_eq_ok.mp hrange)

theorem itemGift_eq_some (h : itemGift q = some gift) :
    ∃ templateId quantity quality, gift = .item templateId quantity quality := by
  unfold itemGift at h
  split at h
  · obtain ⟨quantity, -, h⟩ := Option.bind_eq_some_iff.mp h
    obtain ⟨quality, -, rfl⟩ := Option.map_eq_some_iff.mp h
    exact ⟨_, quantity, quality, rfl⟩
  · cases h

theorem giftOf_positive (h : giftOf g q = some gift) : gift.Positive := by
  unfold giftOf at h
  split at h
  · obtain ⟨templateId, quantity, quality, rfl⟩ := itemGift_eq_some h
    trivial
  · obtain ⟨templateId, quantity, quality, rfl⟩ := itemGift_eq_some h
    trivial
  · obtain ⟨amount, hamount, rfl⟩ := Option.map_eq_some_iff.mp h
    exact validateIntInRange_le hamount
  · unfold itemLiveGift at h
    split at h
    · obtain ⟨amount, -, rfl⟩ := Option.map_eq_some_iff.mp h
      trivial
    · cases h
  · unfold charXpGift at h
    cases hamount : g.charXpAmount q with
    | error code =>
      rw [hamount] at h
      cases h
    | ok amount =>
      rw [hamount] at h
      cases h
      exact charXpAmount_pos hamount
  · obtain ⟨k, -, rfl⟩ := Option.map_eq_some_iff.mp h
    trivial
  · cases h

def Plan.Gives (b : Backend) (account : Nat) (plan : Plan Game) (gift : Gift) : Prop :=
  ∃ detail, plan = planOf detail (gift.sql b account ·)

theorem item_gives (h : buildItemGrant b q target g = .ok plan) :
    ∃ gift, itemGift q = some gift ∧ Plan.Gives b q.accountId plan gift := by
  unfold buildItemGrant at h
  generalize (if q.grantType = .item then "item" else "schematic_item") = kind at h
  dsimp only at h
  split at h
  · case h_1 quantity quality htemplate hquantity hquality =>
    cases h
    refine ⟨.item (q.detail.nested "template_id") quantity quality, ?_, _, rfl⟩
    unfold itemGift
    rw [if_pos htemplate, hquantity, hquality]
    rfl
  · cases h

theorem solari_gives (h : buildSolariGrant q target g = .ok plan) :
    ∃ gift, solariGift q = some gift ∧ Plan.Gives b q.accountId plan gift := by
  unfold buildSolariGrant at h
  split at h
  · case h_1 amount hamount =>
    cases h
    refine ⟨.solari amount, ?_, _, rfl⟩
    unfold solariGift
    rw [hamount]
    rfl
  · cases h

theorem itemLive_gives (h : buildItemLiveGrant b q target g = .ok plan) :
    ∃ gift, itemLiveGift g q = some gift ∧ Plan.Gives b q.accountId plan gift := by
  unfold buildItemLiveGrant at h
  dsimp only at h
  split at h
  · case h_1 amount htemplate hamount hhouse =>
    cases h
    refine ⟨.itemLive (q.detail.nested "house_name") (q.detail.nested "template_id") amount, ?_, _, rfl⟩
    unfold itemLiveGift
    rw [if_pos ⟨htemplate, hhouse⟩, hamount]
    rfl
  · cases h

theorem charXp_gives (h : buildCharXpGrant q target g = .ok plan) :
    ∃ gift, charXpGift g q = some gift ∧ Plan.Gives b q.accountId plan gift := by
  unfold buildCharXpGrant at h
  unfold charXpGift
  cases hamount : g.charXpAmount q with
  | error code =>
    rw [hamount] at h
    cases h
  | ok amount =>
    rw [hamount] at h
    cases h
    exact ⟨.charXp amount, rfl, _, rfl⟩

theorem keystone_gives (h : buildKeystoneGrant q target g = .ok plan) :
    ∃ gift, keystoneGift q = some gift ∧ Plan.Gives b q.accountId plan gift := by
  unfold buildKeystoneGrant at h
  split at h
  · case h_1 k hk =>
    cases h
    refine ⟨.keystone k, ?_, _, rfl⟩
    unfold keystoneGift
    rw [hk]
    rfl
  · cases h

theorem built_gives (hkind : q.grantType ∈ giftTypes)
    (h : grantBuilders b others q target g = .ok plan) :
    ∃ gift, giftOf g q = some gift ∧ Plan.Gives b q.accountId plan gift := by
  unfold giftOf
  unfold grantBuilders at h
  cases htype : q.grantType <;> rw [htype] at h hkind <;> try exact absurd hkind (by decide)
  case item => exact item_gives h
  case schematicItem => exact item_gives h
  case solari => exact solari_gives h
  case itemLive => exact itemLive_gives h
  case charXp => exact charXp_gives h
  case keystone =>
    unfold keystoneBuilders at h
    rw [htype] at h
    exact keystone_gives h

theorem Gift.sql_lands (hpositive : gift.Positive) (hpawn : pawn ∈ g.pawnsOf account)
    (hctrl : ctrl ∈ g.controllersOf account) (h : gift.sql b account g = some g') :
    gift.Lands g g' pawn ctrl ↔ gift.Single g account pawn ctrl := by
  cases gift with
  | item templateId quantity quality => exact items_iff h
  | solari amount => exact solari_iff hpositive h
  | itemLive houseName templateId amount =>
    obtain ⟨e, he, hctrl⟩ := List.mem_filterMap.mp hctrl
    exact rewards_iff ⟨e, he, hctrl⟩ h
  | charXp amount => exact experience_iff hpositive hpawn h
  | keystone k => exact keystones_iff hpawn hctrl h

structure Call where
  now : Nat
  request : Request
  kind : request.grantType ∈ giftTypes

def Received (g g' : Game) (q : Request) : Prop :=
  ∃ target pawn ctrl gift, g.target q.accountId = some target ∧ target.playerPawnId = some pawn ∧
    target.playerControllerId = some ctrl ∧ giftOf g q = some gift ∧ gift.Lands g g' pawn ctrl

/-- If the request comes to its write with a new key, the SQL of its gift finds the account's
character only. -/
def Call.Single (b : Backend) (others : Builders Game) (ledger : Ledger) (g : Game) (c : Call) : Prop :=
  ∀ target plan pawn ctrl gift, Goes (grantBuilders b others) c.now (g.db ledger) c.request target plan →
    target.playerPawnId = some pawn → target.playerControllerId = some ctrl →
    giftOf g c.request = some gift → gift.Single g c.request.accountId pawn ctrl

theorem Goes.sql {now : Nat} {ledger : Ledger} (hkind : q.grantType ∈ giftTypes)
    (h : Goes (grantBuilders b others) now (g.db ledger) q target plan) : ∃ gift,
      giftOf g q = some gift ∧ gift.sql b q.accountId g = some (plan.body g) := by
  obtain ⟨gift, hgift, detail, rfl⟩ := built_gives hkind h.built
  obtain ⟨g', hg'⟩ := Option.isSome_iff_exists.mp h.preflight
  refine ⟨gift, hgift, ?_⟩
  have hbody : (gift.sql b q.accountId g).getD g = g' := by
    rw [show gift.sql b q.accountId g = some g' from hg']
    rfl
  show gift.sql b q.accountId g = some ((gift.sql b q.accountId g).getD g)
  rw [hbody]
  exact hg'

/-- A grant lands once and for the account's character, or changes nothing, exactly where its SQL finds
that character only. -/
theorem lands_iff (b : Backend) (others : Builders Game) (ledger : Ledger) (g : Game) (c : Call) :
    (∀ a db', doGrant (grantBuilders b others) c.now (g.db ledger) c.request = (a, db') →
      (a.commits = true → Received g db'.game c.request) ∧ (a.commits = false → db'.game = g)) ↔
      c.Single b others ledger g := by
  constructor
  · intro h target plan pawn ctrl gift hgoes hpawn hctrl hgift
    obtain ⟨id, ledger', -, hdoes⟩ := hgoes.doGrant
    obtain ⟨target', pawn', ctrl', gift', htarget, hpawn', hctrl', hgift', hlands⟩ := (h _ _ hdoes).1 rfl
    obtain ⟨gift₁, hgift₁, hsql⟩ := hgoes.sql c.kind
    have hsame : target' = target := Option.some.inj (htarget.symm.trans hgoes.resolved)
    subst hsame
    have hpawns : pawn' = pawn := Option.some.inj (hpawn'.symm.trans hpawn)
    have hctrls : ctrl' = ctrl := Option.some.inj (hctrl'.symm.trans hctrl)
    have hgifts : gift' = gift := Option.some.inj (hgift'.symm.trans hgift)
    have hgifts₁ : gift₁ = gift := Option.some.inj (hgift₁.symm.trans hgift)
    rw [hpawns, hctrls, hgifts] at hlands
    rw [hgifts₁] at hsql
    exact (gift.sql_lands (giftOf_positive hgift) (Game.pawn_mem htarget hpawn)
      (Game.controller_mem htarget hctrl) hsql).mp hlands
  · intro hsingle a db' hdoes
    rcases doGrant_cases hdoes with ⟨target, plan, hgoes, ⟨id, rfl⟩, -, hgame⟩ | ⟨hno, -, -, hgame⟩
    · refine ⟨fun _ => ?_, fun h => Bool.noConfusion h⟩
      obtain ⟨gift, hgift, hsql⟩ := hgoes.sql c.kind
      obtain ⟨pawn, hpawn⟩ := Option.ne_none_iff_exists'.mp hgoes.pawn
      obtain ⟨ctrl, hctrl⟩ := Option.ne_none_iff_exists'.mp hgoes.controller
      have htarget : g.target c.request.accountId = some target := hgoes.resolved
      refine ⟨target, pawn, ctrl, gift, htarget, hpawn, hctrl, hgift, ?_⟩
      rw [hgame]
      exact (gift.sql_lands (giftOf_positive hgift) (Game.pawn_mem htarget hpawn)
        (Game.controller_mem htarget hctrl) hsql).mpr
          (hsingle target plan pawn ctrl gift hgoes hpawn hctrl hgift)
    · refine ⟨fun hcommits => ?_, fun _ => hgame⟩
      cases a with
      | applied id => exact absurd rfl (hno id)
      | _ => cases hcommits

end Requests

def twoCharacters : Game where
  slots := [⟨1, 7, some 21, some 11, some .other, none⟩, ⟨2, 7, some 22, some 12, some .other, none⟩]
  playerStates := [⟨1, some 21, some 5⟩, ⟨2, some 22, some 4⟩]
  inventories := ⟨[⟨41, some 11, some 0, some 40⟩, ⟨42, some 12, some 0, some 40⟩], by decide⟩
  items := Serial.empty
  links := []
  entities := Table.empty
  actors := Table.empty
  keystones := []
  catalog := Table.empty
  rewards := Table.empty
  curve := []
  houses := []

def knifeCall : Call where
  now := 100
  request := ⟨7, .item, 1, "ops", false, false,
    [("template_id", "Knife"), ("quantity", "1"), ("quality", "0")], none⟩
  kind := by decide

def idleBackend : Backend := ⟨fun _ => [], false⟩

/-- Each of the two characters gets the item. -/
theorem both_backpacks : ¬ ∀ a db',
    doGrant (grantBuilders idleBackend noOthers) knifeCall.now (twoCharacters.db SerialTable.empty)
      knifeCall.request = (a, db') →
    (a.commits = true → Received twoCharacters db'.game knifeCall.request) ∧
      (a.commits = false → db'.game = twoCharacters) := by
  intro h
  have hrun : (doGrant (grantBuilders idleBackend noOthers) knifeCall.now
      (twoCharacters.db SerialTable.empty) knifeCall.request).1.commits = true ∧
      (doGrant (grantBuilders idleBackend noOthers) knifeCall.now
        (twoCharacters.db SerialTable.empty) knifeCall.request).2.game.items.next = 3 := by
    decide
  have hgift : giftOf twoCharacters knifeCall.request = some (.item "Knife" 1 0) := by
    decide
  obtain ⟨a, db', hdoes⟩ : ∃ a db', doGrant (grantBuilders idleBackend noOthers) knifeCall.now
      (twoCharacters.db SerialTable.empty) knifeCall.request = (a, db') := ⟨_, _, rfl⟩
  rw [hdoes] at hrun
  obtain ⟨_, pawn, ctrl, gift, -, -, -, hgift', hlands⟩ := (h a db' hdoes).1 hrun.1
  rw [hgift] at hgift'
  cases hgift'
  obtain ⟨inv, -, stats, heq⟩ := hlands
  have hnext : (3 : Nat) = 2 := hrun.2.symm.trans (congrArg (fun g : Game => g.items.next) heq)
  exact absurd hnext (by decide)

end LastSietch.Grants
