import Mathlib.Data.List.Sort
import LastSietch.Identity.Tables

/-!
# Legacy links

`portal_identity`: the profiles and bindings that `backfill` makes of the Discord links, and the
transaction that `begin_legacy_links` opens and `finish_legacy_links` closes, in which the caller
writes links and the bindings follow.

* `sourceLinks_spec`: what `_source_links` has checked.
* `LegacyChange.checkChanged_spec`: what is known of a link that a change has written.
-/

namespace LastSietch.Identity

/-! ## `_source_links` -/

def maxLegacyLinks : Nat := 100000

def validDiscordId (s : String) : Bool :=
  match s.toList with
  | [] => false
  | c :: cs => '1' ≤ c && c ≤ '9' && cs.length ≤ 19 && cs.all (fun d => '0' ≤ d && d ≤ '9')

/-- The loop of `_source_links`; the table itself has every pair of a Discord id and an account
once. -/
def checkLinks : List SourceLink → List Nat → Except Refusal Unit
  | [], _ => .ok ()
  | l :: ls, active => do
    require (0 < l.id ∧ validDiscordId l.discordId = true ∧ 0 < l.accountId) .legacyLinkInvalid
    if l.revokedAt = none then
      require (l.accountId ∉ active) .legacyActiveOwnerConflict
      checkLinks ls (l.accountId :: active)
    else
      checkLinks ls active

def sourceRows (links : Links) : List SourceLink :=
  (links.rows.map (·.toSourceLink)).insertionSort (fun a b => a.id ≤ b.id)

def sourceLinks (links : Links) : Except Refusal (List SourceLink) := do
  let rows := sourceRows links
  require (rows.length ≤ maxLegacyLinks) .legacyLinkBoundExceeded
  checkLinks rows []
  pure rows

theorem mem_sourceRows {links : Links} {l : SourceLink} :
    l ∈ sourceRows links ↔ ∃ r ∈ links, r.toSourceLink = l := by
  simp [sourceRows, SerialTable.mem_def]

theorem checkLinks_spec {ls : List SourceLink} {active : List Nat} {u : Unit}
    (h : checkLinks ls active = .ok u) :
    (∀ l ∈ ls, 0 < l.accountId ∧ (l.revokedAt = none → l.accountId ∉ active)) ∧
      ls.Pairwise (fun l l' => l.revokedAt = none → l'.revokedAt = none →
        l.accountId ≠ l'.accountId) := by
  induction ls generalizing active with
  | nil => exact ⟨by simp, List.Pairwise.nil⟩
  | cons l ls ih =>
    obtain ⟨_, hvalid, h⟩ := bind_eq_ok.mp h
    have hvalid := require_eq_ok.mp hvalid
    rw [List.pairwise_cons]
    split at h
    · rename_i hactive
      obtain ⟨_, hfree, h⟩ := bind_eq_ok.mp h
      have hfree := require_eq_ok.mp hfree
      obtain ⟨hrest, hpair⟩ := ih h
      refine ⟨?_, fun l' hl' _ hrev heq => ?_, hpair⟩
      · intro l' hl'
        rcases List.mem_cons.mp hl' with rfl | hl'
        · exact ⟨hvalid.2.2, fun _ => hfree⟩
        · refine ⟨(hrest l' hl').1, fun hrev hmem => ?_⟩
          exact (hrest l' hl').2 hrev (List.mem_cons_of_mem _ hmem)
      · exact (hrest l' hl').2 hrev (heq ▸ List.mem_cons_self ..)
    · rename_i hrevoked
      obtain ⟨hrest, hpair⟩ := ih h
      refine ⟨?_, fun l' _ hactive => absurd hactive hrevoked, hpair⟩
      intro l' hl'
      rcases List.mem_cons.mp hl' with rfl | hl'
      · exact ⟨hvalid.2.2, fun hactive => absurd hactive hrevoked⟩
      · exact hrest l' hl'

def ActiveOnce (links : Links) : Prop :=
  ∀ l ∈ links, ∀ l' ∈ links, l.revokedAt = none → l'.revokedAt = none →
    l.accountId = l'.accountId → l = l'

theorem sourceLinks_spec {links : Links} {rows : List SourceLink}
    (h : sourceLinks links = .ok rows) :
    rows = sourceRows links ∧ (∀ l ∈ links, 0 < l.accountId) ∧ ActiveOnce links := by
  obtain ⟨_, -, h⟩ := bind_eq_ok.mp h
  obtain ⟨_, hcheck, h⟩ := bind_eq_ok.mp h
  obtain ⟨hpos, hpair⟩ := checkLinks_spec hcheck
  refine ⟨(pure_eq_ok.mp h).symm, fun l hl => (hpos _ (mem_sourceRows.mpr ⟨l, hl, rfl⟩)).1, ?_⟩
  intro l hl l' hl' hact hact' hacc
  have hsymm : Std.Symm (fun l l' : SourceLink => l.revokedAt = none → l'.revokedAt = none →
      l.accountId ≠ l'.accountId) := ⟨fun a b h hb ha heq => h ha hb heq.symm⟩
  by_contra hne
  have hids : l.toSourceLink ≠ l'.toSourceLink := fun heq =>
    hne (SerialTable.eq_of_id_eq hl hl' (congrArg SourceLink.id heq))
  exact hpair.forall (mem_sourceRows.mpr ⟨l, hl, rfl⟩) (mem_sourceRows.mpr ⟨l', hl', rfl⟩) hids
    hact hact' hacc

/-! ## `backfill` -/

namespace Accounts

def profileByDiscord? (acc : Accounts) (discordId : String) : Option Profile :=
  acc.profiles.rows.find? (fun p => p.legacyDiscordId = some discordId)

def bindingsOf (acc : Accounts) (profileId : Nat) (l : SourceLink) : List Binding :=
  acc.bindings.rows.filter (fun b =>
    b.legacyLinkId = some l.id ∨ b.profileId = profileId ∧ b.accountId = l.accountId)

def openProfile (acc : Accounts) (discordId : String) (e : Refusal) :
    Except Refusal (Nat × Accounts) := do
  let profileId := acc.drawn
  let profiles ← orRaise (acc.profiles.insert? ⟨profileId, some discordId, none⟩) e
  let providers ← orRaise (acc.providers.insert? ⟨discordId, profileId, none⟩) e
  pure (profileId, { acc with profiles, providers, drawn := acc.drawn + 1 })

/-- The first loop of `backfill`. -/
def backfillProfile (acc : Accounts) (discordId : String) : Except Refusal Accounts := do
  match acc.profileByDiscord? discordId, acc.providers.get? discordId with
  | none, none =>
    let (_, acc) ← acc.openProfile discordId .profileMigrationSqlRefused
    pure acc
  | none, some _ => .error .providerOwnershipConflict
  | some profile, provider =>
    require (profile.disabledAt = none) .profileDisabled
    let v ← orRaise provider .existingProfileProviderMissing
    require (v.profileId = profile.id ∧ v.revokedAt = none) .providerOwnershipConflict
    pure acc

/-- The second loop of `backfill`. -/
def backfillBinding (acc : Accounts) (l : SourceLink) : Except Refusal Accounts := do
  let profile ← orRaise (acc.profileByDiscord? l.discordId) .keyError
  match acc.bindingsOf profile.id l with
  | [] =>
    let bindings ← orRaise (acc.bindings.insert?
      ⟨profile.id, l.accountId, some l.id, l.linkedAt, l.revokedAt, 1, ""⟩)
      .profileMigrationSqlRefused
    pure { acc with bindings }
  | [b] =>
    require (b.profileId = profile.id ∧ b.accountId = l.accountId ∧ b.legacyLinkId = some l.id ∧
      b.linkedAt = l.linkedAt ∧ b.revokedAt = l.revokedAt) .accountBindingDiffers
    pure acc
  | _ => .error .accountBindingDiffers

/-- `backfill`. The ids are sorted there, which settles which of them gets which random id. -/
def backfill (acc : Accounts) : Except Refusal Accounts := do
  let links ← sourceLinks acc.links
  let acc ← (links.map (·.discordId)).dedup.foldlM backfillProfile acc
  let acc ← links.foldlM backfillBinding acc
  require (∀ b ∈ acc.bindings, ∀ i ∈ b.legacyLinkId, ∃ l ∈ links, l.id = i)
    .legacyBindingSourceMissing
  require (∀ b ∈ acc.bindings, ∃ p ∈ acc.profiles, p.id = b.profileId) .profileForeignKeyConflict
  require (∀ v ∈ acc.providers, ∃ p ∈ acc.profiles, p.id = v.profileId) .profileForeignKeyConflict
  pure acc

def legacy (links : Links) : Accounts :=
  ⟨links, Indexed.empty, Indexed.empty, Indexed.empty, false, Table.empty, 0⟩

end Accounts

/-! ## `begin_legacy_links` and `finish_legacy_links` -/

/-- What `begin_legacy_links` returns on a database with profiles. -/
structure LegacyChange where
  discordId : String
  allowGrant : Bool
  before : Links

namespace LegacyChange

def old (change : LegacyChange) (id : Nat) : Option SourceLink :=
  (change.before.byId? id).map (·.toSourceLink)

/-- The loop over `changed`. -/
def checkChanged (change : LegacyChange) (l : SourceLink) : Except Refusal Unit := do
  require (l.discordId = change.discordId ∧ ∀ old ∈ change.old l.id,
    old.discordId = l.discordId ∧ old.accountId = l.accountId) .linkChangeOutsideIdentity
  require (l.revokedAt = none → change.allowGrant = true) .linkGrantNotAuthorized

theorem checkChanged_spec {change : LegacyChange} {l : SourceLink} {u : Unit}
    (h : change.checkChanged l = .ok u) : l.discordId = change.discordId ∧
      ∀ old ∈ change.old l.id, old.discordId = l.discordId ∧ old.accountId = l.accountId := by
  obtain ⟨_, hsame, -⟩ := bind_eq_ok.mp h
  exact require_eq_ok.mp hsame

end LegacyChange

namespace Accounts

def beginLegacyLinks (discordId : String) (allowGrant : Bool) (acc : Accounts) :
    Except Refusal LegacyChange := do
  require (validDiscordId discordId = true) .invalidLinkIdentity
  let _before ← sourceLinks acc.links
  pure ⟨discordId, allowGrant, acc.links⟩

def changeProfile (change : LegacyChange) (granting : Bool) (acc : Accounts) :
    Except Refusal (Nat × Accounts) := do
  match acc.profileByDiscord? change.discordId with
  | none =>
    require (granting = true ∧ ∀ l ∈ change.before, l.discordId ≠ change.discordId)
      .existingProfileMissing
    require (acc.providers.get? change.discordId = none) .providerOwnershipConflict
    acc.openProfile change.discordId .profileLinkWriteRefused
  | some profile =>
    if granting then
      let v ← orRaise (acc.providers.get? change.discordId) .profileProviderUnavailable
      require (profile.disabledAt = none ∧ v.profileId = profile.id ∧ v.revokedAt = none)
        .profileProviderUnavailable
    pure (profile.id, acc)

def claimAccount (profileId : Nat) (accountId : Nat) (acc : Accounts) :
    Except Refusal Accounts := do
  match acc.owners.get? accountId with
  | some owner =>
    require (owner.profileId = some profileId) .accountOwnershipRecoveryRequired
    pure acc
  | none =>
    let owners ← orRaise (acc.owners.insert? ⟨accountId, some profileId⟩) .profileLinkWriteRefused
    pure { acc with owners }

def settleOwner (profileId : Nat) (l : SourceLink) (acc : Accounts) : Except Refusal Accounts :=
  if l.revokedAt = none ∧ acc.installed = true then acc.claimAccount profileId l.accountId
  else pure acc

def placeBinding (change : LegacyChange) (profileId : Nat) (l : SourceLink) (found : List Binding)
    (acc : Accounts) : Except Refusal Accounts := do
  match change.old l.id, found with
  | none, [] =>
    let bindings ← orRaise (acc.bindings.insert?
      ⟨profileId, l.accountId, some l.id, l.linkedAt, l.revokedAt, 2, ""⟩) .profileLinkWriteRefused
    pure { acc with bindings }
  | none, _ :: _ => .error .newLinkBindingConflict
  | some old, [b] =>
    require (b.profileId = profileId ∧ b.accountId = l.accountId ∧ b.legacyLinkId = some l.id)
      .existingLinkBindingMissing
    require (l.revokedAt = none → b.linkedAt = old.linkedAt ∧ b.revokedAt = old.revokedAt)
      .existingLinkBindingDiffers
    let bindings ← orRaise (acc.bindings.update? (fun b => b.legacyLinkId = some l.id)
      (fun b => { b with linkedAt := l.linkedAt, revokedAt := l.revokedAt,
                         sessionVersion := b.sessionVersion + 1 })) .profileLinkWriteRefused
    pure { acc with bindings }
  | some _, _ => .error .existingLinkBindingMissing

def followLink (change : LegacyChange) (profileId : Nat) (acc : Accounts) (l : SourceLink) :
    Except Refusal Accounts := do
  let settled ← acc.settleOwner profileId l
  settled.placeBinding change profileId l (acc.bindingsOf profileId l)

/-- `finish_legacy_links`. Revoked links come first. -/
def finishLegacyLinks (change : LegacyChange) (acc : Accounts) : Except Refusal Accounts := do
  let after ← sourceLinks acc.links
  require (∀ l ∈ change.before, (acc.links.byId? l.id).isSome = true) .legacyLinkDeletionRefused
  let changed := after.filter (fun l => change.old l.id ≠ some l)
  if changed = [] then
    pure acc
  else
    changed.forM change.checkChanged
    let granting := changed.any (fun l => l.revokedAt = none)
    let (profileId, acc) ← acc.changeProfile change granting
    (changed.filter (fun l => l.revokedAt ≠ none) ++
      changed.filter (fun l => l.revokedAt = none)).foldlM (followLink change profileId) acc

def legacyChange (discordId : String) (allowGrant : Bool) (edit : Links → Links) (acc : Accounts) :
    Except Refusal Accounts := do
  let change ← acc.beginLegacyLinks discordId allowGrant
  finishLegacyLinks change { acc with links := edit acc.links }

end Accounts

end LastSietch.Identity
