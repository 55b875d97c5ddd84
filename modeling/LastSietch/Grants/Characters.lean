import LastSietch.Lib.Serial
import LastSietch.Lib.Json
import LastSietch.Ops.GrantGate

/-!
# Characters

The tables that the builders of `dune-grant.sh` read and write. `encrypted_player_state` has one row
for each character slot of an account; an empty slot has no `player_state`, and `RESOLVE_TARGET_SQL`
joins the two. What a character owns hangs on two actors: keystones and rewards on its controller,
the backpack and the `DuneCharacter` entity on its pawn.
-/

namespace LastSietch.Grants

open DuneGrant

/-! ## Tables -/

/-- A row of `encrypted_player_state`. -/
structure SlotRow where
  id : Nat
  accountId : Nat
  playerControllerId : Option Nat
  playerPawnId : Option Nat
  onlineStatus : Option OnlineStatus
  reconnectGracePeriodEnd : Option Nat
  deriving DecidableEq

/-- A row of `player_state`. -/
structure PlayerState where
  id : Nat
  playerControllerId : Option Nat
  lastLoginTime : Option Nat
  deriving DecidableEq

/-- A row of `inventories`. -/
structure Inventory where
  id : Nat
  actorId : Option Nat
  inventoryType : Option Nat
  maxItemCount : Option Int
  deriving DecidableEq

/-- A row of `items`. -/
structure Item where
  id : Nat
  inventoryId : Option Nat
  stackSize : Int
  positionIndex : Int
  templateId : String
  stats : Fields
  qualityLevel : Int
  acquisitionTime : Int
  isNew : Bool
  deriving DecidableEq

/-- A row of `actor_fgl_entities`. -/
structure Link where
  actorId : Nat
  slotName : String
  entityId : Nat
  deriving DecidableEq

/-- The object at `FLevelComponent[1]`; a counter that is missing reads 0. -/
structure Level where
  totalXpEarned : Option Int
  totalSkillPoints : Option Int
  unspentSkillPoints : Option Int
  deriving DecidableEq

/-- A row of `fgl_entities`: `none` where the components have no `FLevelComponent`, `some none` where
that has no object at 1. -/
structure Entity where
  id : Nat
  level : Option (Option Level)
  deriving DecidableEq

/-- A row of `actors`: `m_TechKnowledgePoints`, if there is a `TechKnowledgePlayerComponent`. -/
structure Actor where
  id : Nat
  techKnowledge : Option (Option Int)
  deriving DecidableEq

/-- A row of `purchased_specialization_keystones`. -/
structure Purchase where
  playerId : Nat
  keystoneId : Nat
  deriving DecidableEq

/-- A row of `ls_keystone_catalog`. -/
structure Keystone where
  keystoneId : Nat
  track : String
  spBonus : Nat
  deriving DecidableEq

/-- A row of `landsraad_house_rewards`. -/
structure Reward where
  playerId : Nat
  houseName : String
  amount : Int
  templateId : String
  deriving DecidableEq

def Reward.key (r : Reward) : Nat × String × String := (r.playerId, r.houseName, r.templateId)

abbrev Items := Serial Item (·.id)
abbrev Entities := Table Entity (·.id)

structure Game where
  slots : List SlotRow
  playerStates : List PlayerState
  inventories : Table Inventory (·.id)
  items : Items
  links : List Link
  entities : Entities
  actors : Table Actor (·.id)
  keystones : List Purchase
  catalog : Table Keystone (·.keystoneId)
  rewards : Table Reward Reward.key
  /-- `ls_char_xp_curve`. -/
  curve : List (Nat × Int)
  houses : List String

namespace Game

variable (g : Game)

/-! ## The character of an account -/

/-- `encrypted_player_state` joined to `player_state`. -/
def joined : List Slot :=
  g.slots.flatMap fun e =>
    (g.playerStates.filter fun ps =>
      e.playerControllerId.isSome ∧ ps.playerControllerId = e.playerControllerId).map fun ps =>
        { accountId := e.accountId, playerPawnId := e.playerPawnId,
          playerControllerId := e.playerControllerId, onlineStatus := e.onlineStatus,
          reconnectGracePeriodEnd := e.reconnectGracePeriodEnd, lastLoginTime := ps.lastLoginTime,
          playerStateId := ps.id }

/-- `RESOLVE_TARGET_SQL`. -/
def target (account : Nat) : Option Slot := resolveTarget g.joined account

/-- `encrypted_player_state WHERE account_id = :account_id`. -/
def slotsOf (account : Nat) : List SlotRow := g.slots.filter (·.accountId = account)

def pawnsOf (account : Nat) : List Nat := (g.slotsOf account).filterMap (·.playerPawnId)

def controllersOf (account : Nat) : List Nat := (g.slotsOf account).filterMap (·.playerControllerId)

/-- The database that `do_grant` reads. -/
def db (ledger : Ledger) : Db Game := ⟨g.joined, ledger, g⟩

/-- The entity is the `DuneCharacter` of the pawn. -/
def IsCharacter (pawn : Nat) (e : Entity) : Prop := ⟨pawn, "DuneCharacter", e.id⟩ ∈ g.links

instance (pawn : Nat) (e : Entity) : Decidable (g.IsCharacter pawn e) :=
  inferInstanceAs (Decidable (_ ∈ _))

variable {g}

theorem mem_joined {t : Slot} (h : t ∈ g.joined) : ∃ e ∈ g.slots, e.accountId = t.accountId ∧
    e.playerPawnId = t.playerPawnId ∧ e.playerControllerId = t.playerControllerId := by
  obtain ⟨e, he, h⟩ := List.mem_flatMap.mp h
  obtain ⟨ps, -, rfl⟩ := List.mem_map.mp h
  exact ⟨e, he, rfl, rfl, rfl⟩

theorem mem_slotsOf_target {account : Nat} {t : Slot} (h : g.target account = some t) :
    ∃ e ∈ g.slotsOf account, e.playerPawnId = t.playerPawnId ∧
      e.playerControllerId = t.playerControllerId := by
  have hmem := List.mem_filter.mp (pick_mem h)
  obtain ⟨e, he, haccount, hpawn, hctrl⟩ := mem_joined hmem.1
  refine ⟨e, List.mem_filter.mpr ⟨he, ?_⟩, hpawn, hctrl⟩
  rw [haccount]
  exact hmem.2

theorem pawn_mem {account pawn : Nat} {t : Slot} (h : g.target account = some t)
    (hpawn : t.playerPawnId = some pawn) : pawn ∈ g.pawnsOf account := by
  obtain ⟨e, he, hpawn', -⟩ := mem_slotsOf_target h
  exact List.mem_filterMap.mpr ⟨e, he, hpawn'.trans hpawn⟩

theorem controller_mem {account ctrl : Nat} {t : Slot} (h : g.target account = some t)
    (hctrl : t.playerControllerId = some ctrl) : ctrl ∈ g.controllersOf account := by
  obtain ⟨e, he, -, hctrl'⟩ := mem_slotsOf_target h
  exact List.mem_filterMap.mpr ⟨e, he, hctrl'.trans hctrl⟩

end Game

/-! ## Requests that reach the transaction with a new key -/

/-- A plan whose SQL raises or leaves the tables as `run` says. -/
def planOf (detail : Detail) (run : Game → Option Game) : Plan Game where
  detail
  preflight g := (run g).isSome
  body g := (run g).getD g

section Goes

variable {γ : Type}

/-- The request comes to the transaction, with a key that has no row, and nothing raises. -/
structure Goes (builders : Builders γ) (now : Nat) (db : Db γ) (q : Request) (target : Slot)
    (plan : Plan γ) : Prop where
  resolved : resolveTarget db.slots q.accountId = some target
  pawn : target.playerPawnId ≠ none
  controller : target.playerControllerId ≠ none
  ready : ¬ (requiresOffline q.grantType q.detail = true ∧ target.busy now = true)
  wet : q.dry = false
  built : builders q target db.game = .ok plan
  fresh : ∀ row ∈ db.ledger, row.idempotencyKey ≠ q.idem
  preflight : plan.preflight db.game = true

variable {builders : Builders γ} {now : Nat} {db db' : Db γ} {q : Request} {target : Slot}
  {plan : Plan γ} {a : Answer}

theorem planGrant_eq_ok : planGrant builders now db q = .ok plan ↔
    ∃ target, resolveTarget db.slots q.accountId = some target ∧ target.playerPawnId ≠ none ∧
      target.playerControllerId ≠ none ∧
      ¬ (requiresOffline q.grantType q.detail = true ∧ target.busy now = true) ∧
      q.dry = false ∧ builders q target db.game = .ok plan := by
  unfold planGrant
  cases htarget : resolveTarget db.slots q.accountId with
  | none => simp
  | some target =>
    simp only [Option.some.injEq, exists_eq_left']
    by_cases hids : target.playerPawnId = none ∨ target.playerControllerId = none
    · rw [if_pos hids]
      refine iff_of_false (fun h => by cases h) ?_
      rintro ⟨hpawn, hctrl, -⟩
      rcases hids with h | h
      · exact hpawn h
      · exact hctrl h
    · rw [if_neg hids]
      obtain ⟨hpawn, hctrl⟩ := not_or.mp hids
      by_cases hbusy : requiresOffline q.grantType q.detail = true ∧ target.busy now = true
      · rw [if_pos hbusy]
        refine iff_of_false (fun h => ?_) (fun h => h.2.2.1 hbusy)
        split at h <;> cases h
      · rw [if_neg hbusy]
        cases hbuild : builders q target db.game with
        | error code => simp
        | ok built =>
          cases hdry : q.dry <;> simp [hpawn, hctrl, hbusy]

theorem Goes.doGrant (h : Goes builders now db q target plan) : ∃ id ledger,
    db.ledger.put? q plan.detail .applied = some ledger ∧
      doGrant builders now db q = (.applied id, { db with ledger, game := plan.body db.game }) := by
  have hplan := planGrant_eq_ok.mpr
    ⟨target, h.resolved, h.pawn, h.controller, h.ready, h.wet, h.built⟩
  cases hput : db.ledger.put? q plan.detail .applied with
  | none =>
    obtain ⟨row, hrow, hkey⟩ := put?_eq_none.mp hput
    exact absurd hkey (h.fresh row hrow)
  | some ledger =>
    refine ⟨db.ledger.next, ledger, rfl, ?_⟩
    unfold DuneGrant.doGrant transact
    rw [hplan]
    simp only [hput, h.preflight, if_true]

/-- A request that is answered `applied` goes, and any other leaves the game as it is. -/
theorem doGrant_cases (h : doGrant builders now db q = (a, db')) :
    (∃ target plan, Goes builders now db q target plan ∧ (∃ id, a = .applied id) ∧
      db'.slots = db.slots ∧ db'.game = plan.body db.game) ∨
    ((∀ id, a ≠ .applied id) ∧ (¬ ∃ target plan, Goes builders now db q target plan) ∧
      db'.slots = db.slots ∧ db'.game = db.game) := by
  by_cases hgoes : ∃ target plan, Goes builders now db q target plan
  · obtain ⟨target, plan, hgoes⟩ := hgoes
    obtain ⟨id, ledger, -, hdoes⟩ := hgoes.doGrant
    rw [hdoes] at h
    cases h
    exact Or.inl ⟨target, plan, hgoes, ⟨id, rfl⟩, rfl, rfl⟩
  · refine Or.inr ?_
    cases doGrant_does h with
    | nothing _ hmade =>
      refine ⟨fun id hid => ?_, hgoes, rfl, rfl⟩
      rw [hid] at hmade
      cases hmade
    | deferred => exact ⟨fun id hid => Answer.noConfusion hid, hgoes, rfl, rfl⟩
    | replayed => exact ⟨fun id hid => Answer.noConfusion hid, hgoes, rfl, rfl⟩
    | applied plan hplan ledger hput hpreflight =>
      obtain ⟨target, htarget, hpawn, hctrl, hready, hwet, hbuild⟩ := planGrant_eq_ok.mp hplan
      refine absurd ⟨target, plan, htarget, hpawn, hctrl, hready, hwet, hbuild, ?_, hpreflight⟩ hgoes
      intro row hrow hkey
      rw [put?_eq_none.mpr ⟨row, hrow, hkey⟩] at hput
      cases hput

end Goes

end LastSietch.Grants
