import LastSietch.Identity.Ownership

/-!
# What becomes of a session row

`Sound` is what is known of every session row while the clock does not go back, and `SessionStep`
is what an operation does to the rows: a row has a token that was drawn in this operation, or it is
`Carried` over from a row with the same token.
-/

namespace LastSietch.Identity

open Accounts (Tied Grows Same)

/-- The account of the session has its owner, and the version of the session is not ahead of its
binding; it is behind a revoked one. -/
def Accounts.LinkSound (acc : Accounts) (s : Session) : Prop :=
  (∃ o ∈ acc.owners.get? s.accountId, o.profileId = some s.profileId) ∧
    ∃ b ∈ acc.bindings.get? (s.profileId, s.accountId), s.linkVersion ≤ b.sessionVersion ∧
      (b.revokedAt ≠ none → s.linkVersion < b.sessionVersion)

namespace Db

variable {db db' mid : Db} {now clock : ℚ} {s s' : Session}

structure Sound (db : Db) (clock : ℚ) (s : Session) : Prop where
  token : s.tokenHash < db.drawn
  profile : db.profileActive s.profileId
  credential : s.revokedAt = none → db.credentialActive s.profileId s.credential
  link : s.accountId ≠ 0 → db.LinkSound s
  seen : s.lastSeen ≤ clock

/-- The row `s'` is the row `s` after an operation on `db`. While it is in time its account changes
only if it can be seen through it, and it is touched only while it lives. -/
structure Carried (db db' : Db) (now : ℚ) (s s' : Session) : Prop where
  token : s'.tokenHash = s.tokenHash
  profileId : s'.profileId = s.profileId
  credential : s'.credential = s.credential
  expires : s'.expiresAt = s.expiresAt
  revoked : s'.revokedAt = none → s.revokedAt = none
  seen : s'.lastSeen = s.lastSeen ∨ s'.lastSeen = now ∧ db.live now s
  account : (s'.accountId = s.accountId ∧ s'.linkVersion = s.linkVersion) ∨
    (s.inTime now → db.linkLive s) ∧ (s'.accountId ≠ 0 → db'.LinkSound s')
  active : s'.revokedAt = none → db.credentialActive s.profileId s.credential →
    db'.credentialActive s.profileId s.credential

def SessionStep (db : Db) (now : ℚ) (db' : Db) : Prop :=
  ∀ s' ∈ db'.sessions, (db.drawn ≤ s'.tokenHash ∧ db'.Sound now s') ∨
    ∃ s ∈ db.sessions, db.Carried db' now s s'

/-! ## Links of a session -/

theorem profileActive_grows (h : Grows db.toAccounts db'.toAccounts) {profileId : Nat}
    (hp : db.profileActive profileId) : db'.profileActive profileId := by
  obtain ⟨p, hget, hactive⟩ := hp
  exact ⟨p, h.profiles _ p hget, hactive⟩

theorem linkSound_grows (h : Grows db.toAccounts db'.toAccounts) (hs : db.LinkSound s) :
    db'.LinkSound s := by
  obtain ⟨⟨o, ho, hop⟩, b, hb, hle, hlt⟩ := hs
  obtain ⟨b', hb', -, hlater⟩ := h.bindings _ b hb
  refine ⟨⟨o, h.owners _ o ho, hop⟩, b', hb', ?_⟩
  rcases hlater with rfl | hlater
  · exact ⟨hle, hlt⟩
  · exact ⟨hle.trans hlater.le, fun _ => hle.trans_lt hlater⟩

theorem sessionCurrent_of_grows (h : Grows db.toAccounts db'.toAccounts) (hs : db.LinkSound s)
    (hcurrent : db'.sessionCurrent s) : db.sessionCurrent s := by
  obtain ⟨-, b, hb, hle, -⟩ := hs
  obtain ⟨b', hb', hactive, hversion⟩ := hcurrent
  obtain ⟨b'', hb'', -, hlater⟩ := h.bindings _ b hb
  cases Option.some.inj (hb'.symm.trans hb'')
  rcases hlater with rfl | hlater
  · exact ⟨b', hb, hactive, hversion⟩
  · exact absurd hle (by omega)

theorem identityLink?_of_active (ht : Tied False [] db.toAccounts) {b : Binding}
    (hb : b ∈ db.bindings) (hactive : b.revokedAt = none) (hp : db.profileActive b.profileId) :
    ∃ row ∈ db.identityLink? b, row.sessionVersion = b.sessionVersion := by
  obtain ⟨p, hget, henabled⟩ := hp
  have hlink : b.legacyLinkId = none ∨ ∃ l ∈ db.legacyLink? b, db.linkShown p b l := by
    cases hid : b.legacyLinkId with
    | none => exact Or.inl rfl
    | some i =>
      obtain ⟨l, hl, rfl, ⟨-, hacc, p', hp', hdiscord⟩, hag⟩ := ht.linked b hb i hid
      cases Option.some.inj (hget.symm.trans hp')
      have hag : Agree False l b := hag.resolve_left List.not_mem_nil
      have hlactive : l.revokedAt = none := hag.1.mpr hactive
      refine Or.inr ⟨l, ?_, hlactive, hacc, hdiscord.symm, ?_⟩
      · refine Option.bind_eq_some_iff.mpr ⟨l.id, hid, ?_⟩
        exact SerialTable.byId?_eq_some.mpr ⟨hl, rfl⟩
      · rw [Table.filter_eq_singleton (r := l) hl (by simp [hacc, hlactive])]
        · rfl
        · intro o ho hoa
          obtain ⟨hoacc, hoactive⟩ : o.accountId = b.accountId ∧ o.revokedAt = none := by
            simpa using hoa
          exact ht.activeOnce o ho l hl hoactive hlactive (hoacc.trans hacc.symm)
  have hshown : ∃ row, db.identityLink? b = some row :=
    ⟨_, Option.bind_eq_some_iff.mpr ⟨p, hget, if_pos ⟨henabled, hactive, hlink⟩⟩⟩
  obtain ⟨row, hrow⟩ := hshown
  exact ⟨row, hrow, (identityLink?_spec hrow).2.2.2.2⟩

theorem linkLive_iff (ht : Tied False [] db.toAccounts) (hp : db.profileActive s.profileId)
    (hs : s.accountId ≠ 0 → db.LinkSound s) :
    db.linkLive s ↔ s.accountId = 0 ∨ db.sessionCurrent s := by
  constructor
  · rintro (hzero | ⟨c, hc, hversion⟩)
    · exact Or.inl hzero
    · obtain ⟨-, b, hb, hactive, hlv, -⟩ := accountContext_spec hc
      exact Or.inr ⟨b, hb, hactive, hversion.symm.trans hlv⟩
  · rintro (hzero | ⟨b, hb, hactive, hversion⟩)
    · exact Or.inl hzero
    · by_cases hzero : s.accountId = 0
      · exact Or.inl hzero
      · obtain ⟨⟨o, ho, hop⟩, -⟩ := hs hzero
        obtain ⟨hmem, hkey⟩ := Indexed.get?_eq_some.mp hb
        have hprofile : b.profileId = s.profileId := congrArg Prod.fst hkey
        obtain ⟨row, hrow, hrv⟩ := identityLink?_of_active ht hmem hactive (hprofile ▸ hp)
        have hfound : (db.bindings.get? (s.profileId, s.accountId)).bind db.identityLink? =
            some row := Option.bind_eq_some_iff.mpr ⟨b, hb, hrow⟩
        have hseen : ∃ c, db.accountContext s.profileId s.accountId = some c :=
          ⟨_, Option.bind_eq_some_iff.mpr ⟨o, ho, (if_pos hop).trans (congrArg _ hfound)⟩⟩
        obtain ⟨c, hc⟩ := hseen
        obtain ⟨-, b', hb', -, hlv, -⟩ := accountContext_spec hc
        cases Option.some.inj (hb.symm.trans hb')
        exact Or.inr ⟨c, hc, hlv.trans hversion.symm⟩

/-! ## What an operation keeps -/

theorem SessionStep.sound (h : db.SessionStep now db') (hgrows : Grows db.toAccounts db'.toAccounts)
    (hclock : clock ≤ now) (hs : ∀ s ∈ db.sessions, db.Sound clock s) :
    ∀ s' ∈ db'.sessions, db'.Sound now s' := by
  intro s' hs'
  rcases h s' hs' with ⟨-, hnew⟩ | ⟨s, hmem, hc⟩
  · exact hnew
  · have hsound := hs s hmem
    refine ⟨?_, ?_, fun hactive => ?_, fun hne => ?_, ?_⟩
    · rw [hc.token]
      exact hsound.token.trans_le hgrows.drawn
    · rw [hc.profileId]
      exact profileActive_grows hgrows hsound.profile
    · rw [hc.profileId, hc.credential]
      exact hc.active hactive (hsound.credential (hc.revoked hactive))
    · rcases hc.account with ⟨haccount, hversion⟩ | ⟨-, hlink⟩
      · have hold := linkSound_grows hgrows (hsound.link (haccount ▸ hne))
        unfold Accounts.LinkSound at hold ⊢
        rwa [hc.profileId, haccount, hversion]
      · exact hlink hne
    · rcases hc.seen with hseen | ⟨hseen, -⟩
      · rw [hseen]
        exact hsound.seen.trans hclock
      · exact hseen.le

/-- The row that lives later lived at the time `clock`, unless its token is new. -/
theorem SessionStep.live (h : db.SessionStep now db') (hgrows : Grows db.toAccounts db'.toAccounts)
    (ht : Tied False [] db.toAccounts) (hs : ∀ s ∈ db.sessions, db.Sound clock s)
    (hclock : clock ≤ now) {later : ℚ} (hlater : now ≤ later) (hs' : s' ∈ db'.sessions)
    (hlive : db'.live later s') :
    db.drawn ≤ s'.tokenHash ∨
      ∃ s ∈ db.sessions, s.tokenHash = s'.tokenHash ∧ db.live clock s := by
  rcases h s' hs' with ⟨hnew, -⟩ | ⟨s, hmem, hc⟩
  · exact Or.inl hnew
  · obtain ⟨⟨hactive, ⟨-, hidle⟩, hexpires⟩, -, -, hlink⟩ := hlive
    have hsound := hs s hmem
    have hrevoked := hc.revoked hactive
    -- a row that is in time later was in time since `clock`
    have htime : ∀ t, clock ≤ t → t ≤ now → s.inTime t := by
      intro t hct htn
      refine ⟨hrevoked, ⟨sub_nonneg.mpr (hsound.seen.trans hct), ?_⟩, ?_⟩
      · rcases hc.seen with hseen | ⟨-, hnow⟩
        · rw [hseen] at hidle
          exact (sub_le_sub_right (htn.trans hlater) _).trans hidle
        · exact (sub_le_sub_right htn _).trans hnow.1.2.1.2
      · rw [hc.expires] at hexpires
        exact (htn.trans hlater).trans hexpires
    refine Or.inr ⟨s, hmem, hc.token.symm, htime clock le_rfl hclock, hsound.profile,
      hsound.credential hrevoked, ?_⟩
    rcases hc.account with ⟨haccount, hversion⟩ | ⟨hlinked, -⟩
    · rw [linkLive_iff ht hsound.profile hsound.link]
      rcases hlink with hzero | ⟨c, hcontext, hlv⟩
      · exact Or.inl (haccount ▸ hzero)
      · by_cases hzero : s.accountId = 0
        · exact Or.inl hzero
        · refine Or.inr (sessionCurrent_of_grows hgrows (hsound.link hzero) ?_)
          obtain ⟨-, b, hb, hbactive, hb', -⟩ := accountContext_spec hcontext
          rw [hc.profileId, haccount] at hb
          exact ⟨b, hb, hbactive, (hversion.symm.trans hlv.symm).trans hb'⟩
    · exact hlinked (htime now hclock le_rfl)

/-- Every row is new, or one of `db` that may have been revoked. -/
def Plain (db : Db) (now : ℚ) (db' : Db) : Prop :=
  ∀ s' ∈ db'.sessions, (db.drawn ≤ s'.tokenHash ∧ db'.Sound now s') ∨
    ∃ s ∈ db.sessions, ∃ r, s' = { s with revokedAt := r } ∧ (r = none → s.revokedAt = none ∧
      (db.credentialActive s.profileId s.credential →
        db'.credentialActive s.profileId s.credential))

def KeepsCredentials (db db' : Db) : Prop :=
  ∀ p c, db.credentialActive p c → db'.credentialActive p c

theorem KeepsCredentials.trans (h : db.KeepsCredentials mid) (h' : mid.KeepsCredentials db') :
    db.KeepsCredentials db' :=
  fun p c hc => h' p c (h p c hc)

theorem SessionsOnly.keeps (h : db.SessionsOnly db') : db.KeepsCredentials db' := by
  obtain ⟨_, _, _, -, rfl⟩ := h
  exact fun _ _ hc => hc

theorem Plain.step (h : db.Plain now db') : db.SessionStep now db' := by
  intro s' hs'
  rcases h s' hs' with hnew | ⟨s, hs, r, rfl, hkept⟩
  · exact Or.inl hnew
  · exact Or.inr ⟨s, hs, rfl, rfl, rfl, rfl, fun hr => (hkept hr).1, Or.inl rfl, Or.inl ⟨rfl, rfl⟩,
      fun hr => (hkept hr).2⟩

theorem KeepsCredentials.plain (hcred : db.KeepsCredentials db')
    (hrows : ∀ s' ∈ db'.sessions, s' ∈ db.sessions ∨ db.drawn ≤ s'.tokenHash ∧ db'.Sound now s') :
    db.Plain now db' := by
  intro s' hs'
  rcases hrows s' hs' with hs | hnew
  · exact Or.inr ⟨s', hs, s'.revokedAt, rfl, fun hr => ⟨hr, hcred _ _⟩⟩
  · exact Or.inl hnew

theorem KeepsCredentials.quiet (hcred : db.KeepsCredentials db')
    (hsessions : db'.sessions = db.sessions) : db.Plain now db' :=
  hcred.plain (fun _ hs' => Or.inl (hsessions ▸ hs'))

theorem Plain.after (h : mid.Plain now db') (hcred : db.KeepsCredentials mid)
    (hsessions : mid.sessions = db.sessions) (hdrawn : db.drawn ≤ mid.drawn) :
    db.Plain now db' := by
  intro s' hs'
  rcases h s' hs' with ⟨hnew, hsound⟩ | ⟨s, hs, r, hr, hkept⟩
  · exact Or.inl ⟨hdrawn.trans hnew, hsound⟩
  · exact Or.inr ⟨s, hsessions ▸ hs, r, hr, fun hn =>
      ⟨(hkept hn).1, fun hc => (hkept hn).2 (hcred _ _ hc)⟩⟩

end Db

end LastSietch.Identity
