import LastSietch.Chat.Tables
import LastSietch.Identity.Mirror
import LastSietch.Lib.Copies

/-!
# Restrictions of a transferred character

`apply_item` of `portal_transfer_relink` in full: the links and the identity tables, and the mutes,
blocks and the directory row that `_carry_forward` copies to the new account.
-/

namespace LastSietch.Relink

open Identity (Stamp Links Refusal RelinkItem)
open Chat (Mutes Mute)

/-- A row of `portal_message_block`: `blockedAccountId` cannot write to `accountId`. -/
structure Block where
  accountId : Nat
  blockedAccountId : Nat
  createdAt : Stamp
  deriving DecidableEq, Repr

abbrev Blocks := Table Block (fun b => (b.accountId, b.blockedAccountId))

/-- A row of `portal_player_profile`. -/
structure DirectoryRow where
  accountId : Nat
  charName : Option String
  listed : Bool
  blurb : Option String
  updatedAt : Stamp
  deriving DecidableEq, Repr

abbrev Directory := Table DirectoryRow DirectoryRow.accountId

/-- `is_listed` of `player_profile`: an account without a row is public. -/
def Directory.isListed (directory : Directory) (accountId : Nat) : Bool :=
  (directory.get? accountId).all (·.listed)

/-- The row that `apply_item` writes to `audit_log`. -/
structure AuditEntry where
  username : String
  discordId : String
  linkId : Nat
  old : Nat
  new : Nat
  move : Bool
  deriving DecidableEq, Repr

/-- The links alone, before the migration to profiles, or the tables of `portal_identity`. -/
inductive Base
  | legacy (links : Links)
  | migrated (db : Identity.Db)

structure World where
  base : Base
  mutes : Mutes
  blocks : Blocks
  directory : Directory
  audit : List AuditEntry

def Blocks.copyBy (old new : Nat) (blocks : Blocks) : Blocks :=
  blocks.ignoreAll ((blocks.rows.filter (fun b => b.accountId = old)).map
    (fun b => { b with accountId := new }))

def Blocks.copyOn (old new : Nat) (blocks : Blocks) : Blocks :=
  blocks.ignoreAll ((blocks.rows.filter (fun b => b.blockedAccountId = old)).map
    (fun b => { b with blockedAccountId := new }))

def Blocks.carryForward (old new : Nat) (blocks : Blocks) : Blocks :=
  (blocks.copyBy old new).copyOn old new

/-- The opt-out. `updated_at` is left to its default. -/
def Directory.carryForward (stamp : Stamp) (old new : Nat) (directory : Directory) : Directory :=
  directory.ignoreAll ((directory.rows.filter (fun r => r.accountId = old && !r.listed)).map
    (fun r => { r with accountId := new, listed := false, updatedAt := stamp }))

def World.carryForward (stamp : Stamp) (old new : Nat) (w : World) : World :=
  { w with mutes := w.mutes.carryForward old new, blocks := w.blocks.carryForward old new,
           directory := w.directory.carryForward stamp old new }

/-- Why an item fails: the identity layer refused it, the profile tables are required and missing,
or SQLite refused the transaction. -/
inductive Failure
  | refused (r : Refusal)
  | profileSchemaUnavailable
  | databaseError
  deriving DecidableEq, Repr

namespace Base

def links : Base → Links
  | legacy links => links
  | migrated db => db.links

/-- `credentials_installed`. -/
def installed : Base → Bool
  | legacy _ => false
  | migrated db => db.installed

/-- The statements of `apply_item` on the links and the identity tables. `required` is `enabled()`:
without it `begin_legacy_links` lets a database of links alone pass. -/
def applyItem (required : Bool) (stamp : Stamp) (item : RelinkItem) : Base → Except Failure Base
  | legacy links => do
    require (required = true → Identity.validDiscordId item.discordId = true)
      (.refused .invalidLinkIdentity)
    require (required = false) .profileSchemaUnavailable
    let granted := if item.move then item.grant links else links
    require (∃ l ∈ granted, item.staleLink l = true) (.refused .linkChangedSincePlan)
    pure (legacy (item.links stamp links))
  | migrated db =>
    match db.applyItem stamp item with
    | .ok db' => .ok (migrated db')
    | .error r => .error (.refused r)

end Base

/-- What `apply_item` has besides the item. `locked` says that SQLite refuses the transaction. -/
structure Setting where
  required : Bool
  operator : String
  stamp : Stamp
  locked : Bool

def World.applyItem (e : Setting) (item : RelinkItem) (w : World) : Except Failure World := do
  require (e.locked = false) .databaseError
  let base ← w.base.applyItem e.required e.stamp item
  let w := { w with base }.carryForward e.stamp item.old item.new
  pure { w with audit :=
    ⟨e.operator, item.discordId, item.linkId, item.old, item.new, item.move⟩ :: w.audit }

def World.after (w : World) (r : Except Failure World) : World :=
  match r with
  | .ok w' => w'
  | .error _ => w

/-! ## What an item leaves of the links -/

section Links

variable {stamp : Stamp} {item : RelinkItem}

theorem finishLegacyLinks_links {change : Identity.LegacyChange} {acc acc' : Identity.Accounts}
    (h : Identity.Accounts.finishLegacyLinks change acc = .ok acc') : acc'.links = acc.links := by
  obtain ⟨_, -, h⟩ := bind_eq_ok.mp h
  obtain ⟨_, -, h⟩ := bind_eq_ok.mp h
  dsimp only at h
  split at h
  · cases pure_eq_ok.mp h
    rfl
  · obtain ⟨_, -, h⟩ := bind_eq_ok.mp h
    obtain ⟨⟨id, mid⟩, hprofile, h⟩ := bind_eq_ok.mp h
    obtain ⟨-, hlinks, -⟩ := Identity.Accounts.changeProfile_spec hprofile
    refine foldlM_rule (I := fun _ a => a.links = acc.links) ?_ hlinks h
    intro l rest a a' ha hstep
    exact (Identity.Accounts.followLink_spec hstep).links.trans ha

theorem Base.applyItem_links {required : Bool} {b b' : Base}
    (h : b.applyItem required stamp item = .ok b') :
    b'.links = item.links stamp b.links ∧
      ∃ l ∈ (if item.move then item.grant b.links else b.links), item.staleLink l = true := by
  cases b with
  | legacy links =>
    obtain ⟨_, -, h⟩ := bind_eq_ok.mp h
    obtain ⟨_, -, h⟩ := bind_eq_ok.mp h
    obtain ⟨_, hstale, h⟩ := bind_eq_ok.mp h
    cases pure_eq_ok.mp h
    exact ⟨rfl, require_eq_ok.mp hstale⟩
  | migrated db =>
    obtain ⟨db', hdb, rfl⟩ : ∃ db', db.applyItem stamp item = .ok db' ∧ migrated db' = b' := by
      dsimp only [applyItem] at h
      split at h
      · rename_i db' hdb
        cases h
        exact ⟨db', hdb, rfl⟩
      · cases h
    obtain ⟨change, -, hdb⟩ := bind_eq_ok.mp hdb
    obtain ⟨_, hstale, hdb⟩ := bind_eq_ok.mp hdb
    obtain ⟨acc, hfinish, hdb⟩ := bind_eq_ok.mp hdb
    refine ⟨?_, require_eq_ok.mp hstale⟩
    have hacc : db'.links = acc.links := by
      dsimp only at hdb
      split at hdb <;> cases pure_eq_ok.mp hdb <;> rfl
    exact hacc.trans (finishLegacyLinks_links hfinish)

theorem World.applyItem_spec {e : Setting} {w w' : World} (h : w.applyItem e item = .ok w') :
    ∃ base, w.base.applyItem e.required e.stamp item = .ok base ∧
      w' = { { w with base }.carryForward e.stamp item.old item.new with
        audit := ⟨e.operator, item.discordId, item.linkId, item.old, item.new, item.move⟩ ::
          w.audit } := by
  obtain ⟨_, -, h⟩ := bind_eq_ok.mp h
  obtain ⟨base, hbase, h⟩ := bind_eq_ok.mp h
  exact ⟨base, hbase, (pure_eq_ok.mp h).symm⟩

end Links

/-! ## What is carried forward -/

theorem Mutes.exists_carried {mutes : Mutes} {m : Mute} (hm : m ∈ mutes) {new : Nat}
    (hunlifted : m.isUnlifted = true) : ∃ m' ∈ mutes.carryForward m.accountId new,
      m'.accountId = new ∧ m'.channel = m.channel ∧
        ∀ later, m'.inForce later = m.inForce later := by
  have hpicked : m ∈ mutes.rows.filter
      (fun n => n.accountId = m.accountId && n.isUnlifted) :=
    List.mem_filter.mpr ⟨hm, by simp [hunlifted]⟩
  obtain ⟨n, hn⟩ : ∃ n, { m with id := n, accountId := new, liftedUtc := none, liftedBy := none } ∈
      mutes.carryForward m.accountId new := Serial.exists_copy (fun _ _ => rfl) hpicked
  refine ⟨_, hn, rfl, rfl, fun later => ?_⟩
  have hlifted : m.liftedUtc = none := of_decide_eq_true hunlifted
  simp [Mute.inForce, Mute.isUnlifted, hlifted]

namespace Blocks

variable {blocks : Blocks} {b : Block}

theorem copyBy_copies (hb : b ∈ blocks) (new : Nat) : ∃ b' ∈ blocks.copyBy b.accountId new,
    b'.accountId = new ∧ b'.blockedAccountId = b.blockedAccountId := by
  have hpicked : b ∈ blocks.rows.filter (fun d => d.accountId = b.accountId) :=
    List.mem_filter.mpr ⟨hb, decide_eq_true rfl⟩
  obtain ⟨c, hc, hkey⟩ := Table.exists_ignored (t := blocks)
    (Or.inr (List.mem_map_of_mem (f := fun d => { d with accountId := new }) hpicked))
  exact ⟨c, hc, Prod.mk.inj hkey⟩

theorem copyOn_copies (hb : b ∈ blocks) (new : Nat) : ∃ b' ∈ blocks.copyOn b.blockedAccountId new,
    b'.accountId = b.accountId ∧ b'.blockedAccountId = new := by
  have hpicked : b ∈ blocks.rows.filter (fun d => d.blockedAccountId = b.blockedAccountId) :=
    List.mem_filter.mpr ⟨hb, decide_eq_true rfl⟩
  obtain ⟨c, hc, hkey⟩ := Table.exists_ignored (t := blocks)
    (Or.inr (List.mem_map_of_mem (f := fun d => { d with blockedAccountId := new }) hpicked))
  exact ⟨c, hc, Prod.mk.inj hkey⟩

theorem ignoreAll_keeps (hb : b ∈ blocks) (rs : List Block) : ∃ b' ∈ blocks.ignoreAll rs,
    b'.accountId = b.accountId ∧ b'.blockedAccountId = b.blockedAccountId := by
  obtain ⟨c, hc, hkey⟩ := Table.exists_ignored (Or.inl hb : b ∈ blocks ∨ b ∈ rs)
  exact ⟨c, hc, Prod.mk.inj hkey⟩

theorem carried_by (hb : b ∈ blocks) (new : Nat) : ∃ b' ∈ blocks.carryForward b.accountId new,
    b'.accountId = new ∧ b'.blockedAccountId = b.blockedAccountId := by
  obtain ⟨c, hc, haccount, hblocked⟩ := copyBy_copies hb new
  obtain ⟨b', hb', haccount', hblocked'⟩ := ignoreAll_keeps hc _
  exact ⟨b', hb', haccount'.trans haccount, hblocked'.trans hblocked⟩

theorem carried_on (hb : b ∈ blocks) (new : Nat) :
    ∃ b' ∈ blocks.carryForward b.blockedAccountId new,
      b'.accountId = b.accountId ∧ b'.blockedAccountId = new := by
  obtain ⟨c, hc, haccount, hblocked⟩ := ignoreAll_keeps hb
    ((blocks.rows.filter (fun d => d.accountId = b.blockedAccountId)).map
      (fun d => { d with accountId := new }))
  obtain ⟨b', hb', haccount', hblocked'⟩ := copyOn_copies hc new
  rw [hblocked] at hb'
  exact ⟨b', hb', haccount'.trans haccount, hblocked'⟩

end Blocks

theorem Directory.isListed_eq_false {directory : Directory} {accountId : Nat} :
    directory.isListed accountId = false ↔
      ∃ r, directory.get? accountId = some r ∧ r.listed = false := by
  unfold isListed
  cases directory.get? accountId <;> simp

/-- The new account is opted out when it was already, or when it has no row and the old one was. -/
theorem Directory.carryForward_unlists (stamp : Stamp) (old new : Nat) (directory : Directory) :
    (directory.carryForward stamp old new).isListed new = false ↔
      directory.isListed new = false ∨
        directory.get? new = none ∧ directory.isListed old = false := by
  simp only [isListed_eq_false]
  have hget := Table.get?_ignoreAll directory
    ((directory.rows.filter (fun r => r.accountId = old && !r.listed)).map
      (fun r => { r with accountId := new, listed := false, updatedAt := stamp })) new
  change (directory.carryForward stamp old new).get? new = _ at hget
  rw [hget]
  cases hnew : directory.get? new with
  | some r => simp
  | none =>
    simp only [Option.none_or, reduceCtorEq, false_and, exists_false, false_or, true_and]
    constructor
    · rintro ⟨s, hs, -⟩
      obtain ⟨r, hr, -⟩ := List.mem_map.mp (List.mem_of_find?_eq_some hs)
      obtain ⟨hr, hpicked⟩ := List.mem_filter.mp hr
      simp only [Bool.and_eq_true, decide_eq_true_eq, Bool.not_eq_true'] at hpicked
      exact ⟨r, Table.get?_eq_some.mpr ⟨hr, hpicked.1⟩, hpicked.2⟩
    · rintro ⟨r, hr, hlisted⟩
      obtain ⟨hr, hold⟩ := Table.get?_eq_some.mp hr
      have hpicked : r ∈ directory.rows.filter (fun r => r.accountId = old && !r.listed) :=
        List.mem_filter.mpr ⟨hr, by simp [hold, hlisted]⟩
      have hcopy := List.mem_map_of_mem (f := fun r : DirectoryRow =>
        { r with accountId := new, listed := false, updatedAt := stamp }) hpicked
      have hfound := (List.find?_isSome
        (p := fun r : DirectoryRow => decide (r.accountId = new))).mpr
          ⟨_, hcopy, decide_eq_true rfl⟩
      obtain ⟨s, hs⟩ := Option.isSome_iff_exists.mp hfound
      obtain ⟨q, -, rfl⟩ := List.mem_map.mp (List.mem_of_find?_eq_some hs)
      exact ⟨_, hs, rfl⟩

/-- The restrictions of `old` in `w` are in force for `new` in `w'`. -/
structure Carried (w w' : World) (old new : Nat) : Prop where
  mutes : ∀ m ∈ w.mutes, m.accountId = old → ∀ now, m.inForce now = true →
    ∃ m' ∈ w'.mutes, m'.accountId = new ∧ m'.channel = m.channel ∧
      ∀ later, m'.inForce later = m.inForce later
  blocksBy : ∀ b ∈ w.blocks, b.accountId = old →
    ∃ b' ∈ w'.blocks, b'.accountId = new ∧ b'.blockedAccountId = b.blockedAccountId
  blocksOn : ∀ b ∈ w.blocks, b.blockedAccountId = old →
    ∃ b' ∈ w'.blocks, b'.accountId = b.accountId ∧ b'.blockedAccountId = new
  unlisted : w.directory.isListed old = false → w'.directory.isListed new = false

def World.ListedAnew (w : World) (item : RelinkItem) : Prop :=
  w.directory.isListed item.old = false ∧
    ∃ r ∈ w.directory, r.accountId = item.new ∧ r.listed = true

theorem World.carryForward_iff (stamp : Stamp) (item : RelinkItem) (w : World) :
    Carried w (w.carryForward stamp item.old item.new) item.old item.new ↔
      ¬ w.ListedAnew item := by
  have hunlists := Directory.carryForward_unlists stamp item.old item.new w.directory
  constructor
  · rintro h ⟨hold, r, hr, hnew, hlisted⟩
    have hget : w.directory.get? item.new = some r := Table.get?_eq_some.mpr ⟨hr, hnew⟩
    rcases hunlists.mp (h.unlisted hold) with hno | ⟨hnone, -⟩
    · obtain ⟨s, hs, hno⟩ := Directory.isListed_eq_false.mp hno
      rw [hget] at hs
      cases hs
      rw [hlisted] at hno
      cases hno
    · rw [hget] at hnone
      cases hnone
  · intro h
    refine ⟨fun m hm hold now hforce => ?_, fun b hb hold => ?_, fun b hb hold => ?_,
      fun hold => hunlists.mpr ?_⟩
    · exact hold ▸ Mutes.exists_carried hm (Bool.and_eq_true_iff.mp hforce).1
    · exact hold ▸ Blocks.carried_by hb item.new
    · exact hold ▸ Blocks.carried_on hb item.new
    · cases hget : w.directory.get? item.new with
      | none => exact Or.inr ⟨rfl, hold⟩
      | some r =>
        obtain ⟨hr, hnew⟩ := Table.get?_eq_some.mp hget
        refine Or.inl (Directory.isListed_eq_false.mpr ⟨r, hget, ?_⟩)
        exact Bool.eq_false_iff.mpr (fun hlisted => h ⟨hold, r, hr, hnew, hlisted⟩)

/-- `apply_item` is rolled back, or what it leaves has the restrictions of the old account in force
for the new one, exactly unless the opt-out meets a row that lists the new account. -/
theorem restrictions_survive_iff (e : Setting) (item : RelinkItem) (w : World) :
    (∃ f, w.applyItem e item = .error f ∧ w.after (w.applyItem e item) = w) ∨
      ∃ w', w.applyItem e item = .ok w' ∧
        (Carried w w' item.old item.new ↔ ¬ w.ListedAnew item) := by
  cases h : w.applyItem e item with
  | error f => exact Or.inl ⟨f, rfl, rfl⟩
  | ok w' =>
    refine Or.inr ⟨w', rfl, ?_⟩
    obtain ⟨base, -, rfl⟩ := World.applyItem_spec h
    have hcarried := World.carryForward_iff e.stamp item w
    refine Iff.trans ⟨fun hc => ?_, fun hc => ?_⟩ hcarried
    · exact ⟨hc.mutes, hc.blocksBy, hc.blocksOn, hc.unlisted⟩
    · exact ⟨hc.mutes, hc.blocksBy, hc.blocksOn, hc.unlisted⟩

def oneLink : Links :=
  ⟨⟨[⟨⟨1, "4815162342", 1001, 50, none⟩, "Paul", "usul"⟩], by decide⟩, 2, by decide, by decide⟩

def hiddenOnce : World where
  base := .legacy oneLink
  mutes := Serial.empty
  blocks := Table.empty
  directory := ⟨[⟨3003, some "Paul", true, some "For Atreides", 180⟩,
    ⟨1001, some "Paul", false, none, 60⟩], by decide⟩
  audit := []

theorem newAccount_pos : 0 < 3003 := Nat.zero_lt_succ 3002

def move : RelinkItem := ⟨1, "4815162342", 1001, 3003, "Paul", "usul", 50, true, newAccount_pos⟩

def atNoon : Setting := ⟨false, "system", 200, false⟩

/-- The item goes through and the new account is in the directory. -/
theorem optOut_lost : ∃ w', hiddenOnce.applyItem atNoon move = .ok w' ∧
    hiddenOnce.directory.isListed 1001 = false ∧ w'.directory.isListed 3003 = true ∧
    ¬ Carried hiddenOnce w' 1001 3003 := by
  have hruns : (hiddenOnce.applyItem atNoon move).toOption.any (fun w' =>
      !hiddenOnce.directory.isListed 1001 && w'.directory.isListed 3003) = true := by
    decide
  cases h : hiddenOnce.applyItem atNoon move with
  | error f =>
    rw [h] at hruns
    cases hruns
  | ok w' =>
    rw [h] at hruns
    obtain ⟨hold, hnew⟩ : (!hiddenOnce.directory.isListed 1001) = true ∧
        w'.directory.isListed 3003 = true := Bool.and_eq_true_iff.mp hruns
    rw [Bool.not_eq_true'] at hold
    refine ⟨w', rfl, hold, hnew, fun hc => ?_⟩
    have hunlisted := hc.unlisted hold
    rw [hnew] at hunlisted
    cases hunlisted

end LastSietch.Relink
