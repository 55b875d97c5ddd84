import LastSietch.Identity.Games
import LastSietch.Lib.Runs

/-!
# The operations on one identity database

`apply_item` of `portal_transfer_relink`, and the operations of all three modules as the actions
of one system. An action has the clock that it reads: `now` is its `time.time()`, `linkStamp` and
`stamp` are the `datetime('now')` of its statement on a legacy link and of the one on a binding.
An action that raises leaves what it had committed before.
-/

namespace LastSietch.Identity

/-! ## `apply_item` -/

/-- An item of `plan` that is applied: `move`, or else `retire`. -/
structure RelinkItem where
  linkId : Nat
  discordId : String
  old : Nat
  new : Nat
  characterName : String
  discordHandle : String
  linkedAt : Stamp
  move : Bool
  new_pos : 0 < new

namespace RelinkItem

def grant (item : RelinkItem) (links : Links) : Links :=
  match links.insert? (fun id => ⟨⟨id, item.discordId, item.new, item.linkedAt, none⟩,
    item.characterName, item.discordHandle⟩) with
  | some links => links
  | none => links.update (fun l => l.discordId = item.discordId ∧ l.accountId = item.new)
      (fun l => { l with characterName := item.characterName, discordHandle := item.discordHandle,
                         linkedAt := item.linkedAt, revokedAt := none })

def staleLink (item : RelinkItem) (l : Link) : Bool :=
  l.id = item.linkId ∧ l.accountId = item.old ∧ l.revokedAt = none

def links (item : RelinkItem) (stamp : Stamp) (links : Links) : Links :=
  (if item.move then item.grant links else links).revoke item.staleLink stamp

end RelinkItem

namespace Db

def repointSessions (profileId old new linkVersion : Nat) (db : Db) : Db :=
  let sessions := db.sessions.update
    (fun s => s.profileId = profileId ∧ s.accountId = old ∧ s.revokedAt = none)
    (fun s => { s with accountId := new, linkVersion })
  { db with sessions }

def relinkTarget (db : Db) (item : RelinkItem) : Option Binding :=
  (db.profileByDiscord? item.discordId).bind fun p =>
    (db.bindings.get? (p.id, item.new)).filter (fun b => db.installed && b.revokedAt = none)

def applyItem (stamp : Stamp) (item : RelinkItem) (db : Db) : Except Refusal Db := do
  let change ← db.beginLegacyLinks item.discordId item.move
  let granted := if item.move then item.grant db.links else db.links
  require (∃ l ∈ granted, item.staleLink l = true) .linkChangedSincePlan
  let acc ← Accounts.finishLegacyLinks change
    { db.toAccounts with links := item.links stamp db.links }
  let db := { db with toAccounts := acc }
  match db.relinkTarget item with
  | some b => pure (db.repointSessions b.profileId item.old item.new b.sessionVersion)
  | none => pure db

/-- The sign-in of `discord_callback`, for the Discord id that it was told. -/
def discordLogin (now : ℚ) (discordId : String) (profileId accountId : Option Nat) (db : Db) :
    Except Refusal (Nat × Db) := do
  let v ← orRaise (db.providers.get? discordId) .signInFailed
  require (v.revokedAt = none ∧ ∀ id ∈ profileId, id = v.profileId) .signInFailed
  db.createSession now v.profileId (.discord discordId) none accountId

end Db

/-! ## The system -/

/-- What needs the tables of `install`. -/
inductive AuthOp
  | newChallenge (purpose : Purpose) (binding : String) (profileId : Option Nat)
      (context : Context) (code : Option String)
  | verifyGameCode (identifier : Nat) (binding code : String) (purpose : Purpose)
      (profileId : Option Nat)
  | session (token : Nat)
  | discordLogin (discordId : String) (profileId accountId : Option Nat)
  | passwordLogin (name password : String) (profileId : Option Nat)
  | finishAuthentication (binding : String) (identifier : Nat) (profileId : Option Nat)
      (keyId : Nat) (verified : Option Nat)
  | bootstrapPassword (identifier : Nat) (binding name password : String)
  | bootstrapPasskey (identifier : Nat) (binding : String) (verified : Option Nat)
  | setPassword (profileId : Nat) (current : Current) (name password : String)
  | finishRegistration (current : Current) (binding : String) (identifier : Nat)
      (verified : Option Nat)
  | revokeMethod (profileId : Nat) (current : Current) (method : Option Removal)
  | switchSession (current : Current) (accountId : Nat)
  | revokeSession (profileId : Nat) (current : Current) (targetId : Nat)
  | linkVerifiedGame (current : Current) (identifier : Nat) (binding : String)
  | unlinkAccount (current : Current) (accountId : Nat)
  | linkDiscord (current : Current) (discordId : String)

inductive Op
  | legacyChange (discordId : String) (allowGrant : Bool) (edit : Links → Links)
  | applyItem (item : RelinkItem)
  | install
  | auth (op : AuthOp)

def Op.account? (db : Db) : Op → Option (Nat × Nat)
  | auth (.linkVerifiedGame current i _) => (db.challenges.get? i).bind fun c =>
    match c.context with
    | .game context => some (current.pid, context.accountId)
    | _ => none
  | auth (.unlinkAccount current account) => some (current.pid, account)
  | _ => none

structure Action where
  now : ℚ
  linkStamp : Stamp
  stamp : Stamp
  op : Op

def Db.after (db : Db) (r : Except Refusal Db) : Db :=
  match r with
  | .ok db' => db'
  | .error _ => db

def Db.afterWith {α : Type} (db : Db) (r : Except Refusal (α × Db)) : Db :=
  db.after (r.map Prod.snd)

def AuthOp.run (now : ℚ) (linkStamp stamp : Stamp) (db : Db) : AuthOp → Db
  | newChallenge purpose b p context code =>
    db.afterWith (db.newChallenge now purpose b p context code)
  | verifyGameCode i b code purpose p => db.afterWith (db.verifyGameCode now i b code purpose p)
  | session token => (db.session now token).2
  | discordLogin d p account => db.afterWith (db.discordLogin now d p account)
  | passwordLogin name password p => db.afterWith (db.passwordLogin now name password p)
  | finishAuthentication b i p key verified => (db.finishAuthentication now b i p key verified).2
  | bootstrapPassword i b name password =>
    db.afterWith (db.bootstrapPassword now stamp i b name password)
  | bootstrapPasskey i b verified => (db.bootstrapPasskey now stamp i b verified).2
  | setPassword p current name password => db.afterWith (db.setPassword now p current name password)
  | finishRegistration current b i verified => (db.finishRegistration now current b i verified).2
  | revokeMethod p current method => db.after (db.revokeMethod now p current method)
  | switchSession current account => db.afterWith (db.switchSession now current account)
  | revokeSession p current target => db.after (db.revokeSession now p current target)
  | linkVerifiedGame current i b =>
    db.after (db.linkVerifiedGame now linkStamp stamp current i b)
  | unlinkAccount current account =>
    db.after (db.unlinkAccount now linkStamp stamp current account)
  | linkDiscord current d => db.after (db.linkDiscord now current d)

def Action.run (a : Action) (db : Db) : Db :=
  match a.op with
  | .legacyChange d g edit =>
    db.after ((db.legacyChange d g edit).map (fun acc => { db with toAccounts := acc }))
  | .applyItem item => db.after (db.applyItem a.stamp item)
  | .install => db.install
  | .auth op => if db.installed then op.run a.now a.linkStamp a.stamp db else db

structure World where
  db : Db
  clock : ℚ

def step (w : World) (a : Action) : Option World := some ⟨a.run w.db, a.now⟩

def OneSecond (w : World) (a : Action) : Prop :=
  ∀ k ∈ a.op.account? w.db, ∀ b ∈ w.db.bindings.get? k,
    b.legacyLinkId ≠ none → a.linkStamp = a.stamp

instance (w : World) (a : Action) : Decidable (OneSecond w a) :=
  inferInstanceAs (Decidable (∀ k ∈ a.op.account? w.db, ∀ b ∈ w.db.bindings.get? k, _))

/-- The database that `backfill` leaves of the links. -/
def backfilled (links : Links) : Except Refusal Db :=
  (Accounts.legacy links).backfill.map fun acc =>
    { acc with users := Indexed.empty, passwords := Table.empty, passkeys := Table.empty,
               sessions := Indexed.empty, challenges := Table.empty }

end LastSietch.Identity
