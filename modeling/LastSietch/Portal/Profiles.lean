import LastSietch.Lib.Table

/-!
# Profiles and the keys of a quota

The rows of `portal_profiles` and `portal_account_owners` that a quota looks at, and
`quota_keys`: a cap adds up the rows under the key of the caller and, once profiles carry
credentials, those under each account its profile owns.
-/

namespace LastSietch.Portal

/-- A row of `portal_profiles`. -/
structure Profile where
  id : String
  legacyDiscordId : Option String
  createdAt : Nat
  disabledAt : Option Nat
  deriving DecidableEq, Repr

/-- A row of `portal_account_owners`. -/
structure AccountOwner where
  accountId : Nat
  profileId : String
  deriving DecidableEq, Repr

abbrev Profiles := Table Profile (·.id)
abbrev AccountOwners := Table AccountOwner (·.accountId)

/-- What `quota_keys` reads. -/
structure Directory where
  credentialsInstalled : Bool
  profiles : Profiles
  owners : AccountOwners

def Directory.empty : Directory := ⟨false, Table.empty, Table.empty⟩

/-- `[a-f0-9]{32}`. -/
def isProfileId (s : List Char) : Bool :=
  s.length == 32 && s.all (fun c => c.isDigit || ('a' ≤ c && c ≤ 'f'))

def Directory.profileForKey (d : Directory) (key : String) : Option String :=
  let rest := key.toList.drop 8
  if "profile:".toList.isPrefixOf key.toList && isProfileId rest then
    ((d.profiles.get? (String.ofList rest)).filter (fun p => p.disabledAt.isNone)).map (·.id)
  else
    (d.profiles.rows.find? (fun p => p.legacyDiscordId = some key ∧ p.disabledAt = none)).map (·.id)

def Directory.quotaKeys (d : Directory) (key : String) : List String :=
  key ::
    if d.credentialsInstalled then
      match d.profileForKey key with
      | some profile =>
        (d.owners.rows.filter (fun o => o.profileId = profile)).map
          (fun o => "acct:" ++ toString o.accountId)
      | none => []
    else []

end LastSietch.Portal
