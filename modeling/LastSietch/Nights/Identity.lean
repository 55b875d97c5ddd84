import LastSietch.Nights.Cap

/-!
# Whom one account's evidence pays

Evidence belongs to an account, credits to a profile, and a credit is unique only for its
profile. What keeps evidence from paying twice is the identity layer: once credentials are
installed, `portal_account_owners` names one profile for an account, linking adds the name
and nothing changes it. Before that an account can be unlinked and linked to another profile.

`Portal.step` is one act with the checks of the identity layer. A pass may run on a list of
accounts that was read earlier: `seen` are the links that some moment of the run had. `backed`
are the pairs of evidence row and profile that a pass credited.
-/

namespace LastSietch.Nights

open Runs

/-- A row of `portal_account_owners`; the owner of a disputed account is NULL. -/
structure Owner where
  accountId : Nat
  profileId : Option Nat
  deriving DecidableEq, Repr

abbrev Owners : Type := Table Owner Owner.accountId

/-- `owners` is `none` where no credentials are installed. -/
structure Portal where
  sys : Sys
  owners : Option Owners
  seen : List Link
  backed : List (Nat × Nat)

def claimOwner (owners : Owners) (profileId accountId : Nat) : Option Owners :=
  match owners.get? accountId with
  | some owner => if owner.profileId = some profileId then some owners else none
  | none => owners.insert? ⟨accountId, some profileId⟩

/-- `link_verified_game`. The unique index on active links refuses a linked account. -/
def Portal.link (m : Portal) (profileId accountId : Nat) : Option Portal :=
  if ∃ l ∈ m.sys.links, l.accountId = accountId then none
  else
    let linked := { m with
      sys := m.sys.link profileId accountId
      seen := ⟨profileId, accountId⟩ :: m.seen }
    match m.owners with
    | none => some linked
    | some owners =>
      (claimOwner owners profileId accountId).map
        (fun owners => { linked with owners := some owners })

def Sys.backing (s : Sys) (profileId : Nat) (accounts : Option (List Nat)) : List EarnRow :=
  (s.pending profileId (accounts.getD (s.profileAccounts profileId))).filter
    (fun e => ((s.creditProfile profileId accounts).1.credits.get? (profileId, e.key)).isSome)

def Portal.credit (m : Portal) (profileId : Nat) (accounts : Option (List Nat)) : Option Portal :=
  -- a given list was read from the links, now or earlier
  if ∀ a ∈ accounts.getD [], ⟨profileId, a⟩ ∈ m.seen then
    some { m with
      sys := (m.sys.creditProfile profileId accounts).1
      backed := (m.sys.backing profileId accounts).map (fun e => (e.id, profileId)) ++ m.backed }
  else none

def Portal.step (m : Portal) : Act → Option Portal
  | .link profileId accountId => m.link profileId accountId
  | .creditProfile profileId accounts => m.credit profileId accounts
  | a => some { m with sys := m.sys.apply a }

/-! ## What links and owners say of the past -/

/-- A start: nothing has been paid, and where owners are installed they name the profiles
of the active links. -/
structure Opening (m : Portal) : Prop where
  seen : m.seen = m.sys.links
  backed : m.backed = []
  owned : ∀ owners, m.owners = some owners → ∀ l ∈ m.sys.links,
    owners.get? l.accountId = some ⟨l.accountId, some l.profileId⟩

/-- The invariant: every link there ever was has its owner row, and a row has paid a profile
only through such a link. -/
structure Traced (m : Portal) : Prop where
  active : ∀ l ∈ m.sys.links, l ∈ m.seen
  owned : ∀ owners, m.owners = some owners → ∀ l ∈ m.seen,
    owners.get? l.accountId = some ⟨l.accountId, some l.profileId⟩
  paid : ∀ b ∈ m.backed, ∃ e ∈ m.sys.earn, e.id = b.1 ∧ ⟨b.2, e.accountId⟩ ∈ m.seen

theorem Opening.traced {m : Portal} (h : Opening m) : Traced m where
  active l hl := h.seen ▸ hl
  owned owners ho l hl := h.owned owners ho l (h.seen ▸ hl)
  paid b hb := by
    rw [h.backed] at hb
    cases hb

variable {p a : Nat}

theorem claimOwner_spec {owners owners' : Owners} (h : claimOwner owners p a = some owners') :
    owners'.get? a = some ⟨a, some p⟩ ∧
      ∀ b o, owners.get? b = some o → owners'.get? b = some o := by
  unfold claimOwner at h
  cases hget : owners.get? a with
  | some owner =>
    rw [hget] at h
    simp only [Option.ite_none_right_eq_some, Option.some.injEq] at h
    obtain ⟨howner, rfl⟩ := h
    have hkey : owner.accountId = a := Table.key_of_get? hget
    have heq : owner = ⟨a, some p⟩ := by rw [← hkey, ← howner]
    exact ⟨heq ▸ hget, fun b o hb => hb⟩
  | none =>
    rw [hget] at h
    refine ⟨?_, fun b o hb => ?_⟩
    · rw [Table.get?_insert? h, if_pos rfl]
    · rw [Table.get?_insert? h, if_neg ?_]
      · exact hb
      · rintro rfl
        rw [hget] at hb
        cases hb

theorem mem_links_link {s : Sys} {l : Link} (hl : l ∈ (s.link p a).links) :
    l = ⟨p, a⟩ ∨ l ∈ s.links := by
  unfold Sys.link at hl
  split at hl
  · exact Or.inr hl
  · rcases List.mem_append.mp hl with hl | hl
    · exact Or.inr hl
    · exact Or.inl (List.mem_singleton.mp hl)

theorem earn_link (s : Sys) (p a : Nat) : (s.link p a).earn = s.earn := by
  unfold Sys.link
  split <;> rfl

theorem link_cases {m m' : Portal} (h : m.link p a = some m') :
    m'.sys = m.sys.link p a ∧ m'.seen = ⟨p, a⟩ :: m.seen ∧ m'.backed = m.backed ∧
      ((m.owners = none ∧ m'.owners = none) ∨ ∃ owners owners', m.owners = some owners ∧
        m'.owners = some owners' ∧ claimOwner owners p a = some owners') := by
  simp only [Portal.link, Option.ite_none_left_eq_some] at h
  obtain ⟨-, h⟩ := h
  cases ho : m.owners with
  | none =>
    rw [ho] at h
    cases h
    exact ⟨rfl, rfl, rfl, Or.inl ⟨rfl, rfl⟩⟩
  | some owners =>
    rw [ho] at h
    obtain ⟨owners', hclaim, rfl⟩ := Option.map_eq_some_iff.mp h
    exact ⟨rfl, rfl, rfl, Or.inr ⟨owners, owners', rfl, rfl, hclaim⟩⟩

theorem mem_profileAccounts {s : Sys} (h : a ∈ s.profileAccounts p) :
    ⟨p, a⟩ ∈ s.links := by
  obtain ⟨l, hl, rfl⟩ := List.mem_map.mp h
  obtain ⟨hl, hp⟩ := List.mem_filter.mp hl
  have heq : l = ⟨p, l.accountId⟩ := by
    rw [← of_decide_eq_true hp]
  exact heq ▸ hl

namespace Traced

theorem link {m m' : Portal} (h : Traced m) {p a : Nat} (hstep : m.link p a = some m') :
    Traced m' := by
  obtain ⟨hsys, hseen, hbacked, howners⟩ := link_cases hstep
  refine ⟨fun l hl => ?_, fun owners' ho' l hl => ?_, fun b hb => ?_⟩
  · rw [hsys] at hl
    rw [hseen, List.mem_cons]
    exact (mem_links_link hl).imp_right (h.active l)
  · rcases howners with ⟨-, hnone⟩ | ⟨owners, owners'', ho, ho'', hclaim⟩
    · rw [hnone] at ho'
      cases ho'
    · rw [ho''] at ho'
      cases ho'
      obtain ⟨hnew, hold⟩ := claimOwner_spec hclaim
      rw [hseen] at hl
      rcases List.mem_cons.mp hl with rfl | hl
      · exact hnew
      · exact hold _ _ (h.owned owners ho l hl)
  · rw [hbacked] at hb
    obtain ⟨e, he, hid, hlink⟩ := h.paid b hb
    refine ⟨e, ?_, hid, ?_⟩
    · rw [hsys, earn_link]
      exact he
    · rw [hseen]
      exact List.mem_cons_of_mem _ hlink

theorem credit {m m' : Portal} (h : Traced m) {p : Nat} {accounts : Option (List Nat)}
    (hstep : m.credit p accounts = some m') : Traced m' := by
  simp only [Portal.credit, Option.ite_none_right_eq_some, Option.some.injEq] at hstep
  obtain ⟨hread, rfl⟩ := hstep
  have hrest : (m.sys.creditProfile p accounts).1.earn = m.sys.earn ∧
      (m.sys.creditProfile p accounts).1.links = m.sys.links := by
    obtain ⟨hearn, -, hlinks⟩ := pass_earn m.sys p accounts
    exact ⟨hearn, hlinks⟩
  refine ⟨fun l hl => ?_, h.owned, fun b hb => ?_⟩
  · rw [hrest.2] at hl
    exact h.active l hl
  · rw [hrest.1]
    rcases List.mem_append.mp hb with hb | hb
    · obtain ⟨e, he, rfl⟩ := List.mem_map.mp hb
      obtain ⟨hearn, hacc, -⟩ := mem_pending.mp (List.mem_filter.mp he).1
      refine ⟨e, hearn, rfl, ?_⟩
      cases accounts with
      | none => exact h.active _ (mem_profileAccounts hacc)
      | some accounts => exact hread _ hacc
    · exact h.paid b hb

theorem step {m m' : Portal} (h : Traced m) {a : Act} (hstep : m.step a = some m') :
    Traced m' := by
  have hkeep : ∀ s : Sys, (∀ l ∈ s.links, l ∈ m.sys.links) → (∀ e ∈ m.sys.earn, e ∈ s.earn) →
      Traced { m with sys := s } := by
    intro s hlinks hearn
    refine ⟨fun l hl => h.active l (hlinks l hl), h.owned, fun b hb => ?_⟩
    obtain ⟨e, he, hpaid⟩ := h.paid b hb
    exact ⟨e, hearn e he, hpaid⟩
  cases a with
  | link p a => exact h.link hstep
  | creditProfile p accounts => exact h.credit hstep
  | addEarn accountId night source ref amount =>
    cases hstep
    rcases addEarn_cases m.sys accountId night source ref amount with hs | ⟨earn, hs, hearn⟩
    · exact hkeep _ (by simp [Sys.apply, hs]) (by simp [Sys.apply, hs])
    · exact hkeep _ (by simp [Sys.apply, hs]) (by simpa [Sys.apply, hs] using hearn)
  | unlink p a =>
    cases hstep
    exact hkeep _ (fun l hl => (List.mem_filter.mp hl).1) (fun e he => he)
  | recordEarly accountId early =>
    cases hstep
    apply hkeep <;> simp only [Sys.apply, Sys.recordEarly] <;> split <;> simp
  | recordLevel accountId lvl =>
    cases hstep
    apply hkeep <;> simp only [Sys.apply, Sys.recordLevel] <;> split_ifs <;> (try split) <;> simp
  | post entry =>
    cases hstep
    exact hkeep _ (fun l hl => hl) (fun e he => he)

end Traced

theorem owners_step {m m' : Portal} {a : Act} (h : m.owners ≠ none)
    (hstep : m.step a = some m') : m'.owners ≠ none := by
  cases a with
  | link p a =>
    obtain ⟨-, -, -, ⟨hnone, -⟩ | ⟨_, owners', -, ho, -⟩⟩ := link_cases hstep
    · exact absurd hnone h
    · simp [ho]
  | creditProfile p accounts =>
    simp only [Portal.step, Portal.credit, Option.ite_none_right_eq_some,
      Option.some.injEq] at hstep
    obtain ⟨-, rfl⟩ := hstep
    exact h
  | _ =>
    cases hstep
    exact h

/-- Over every run of evidence, links, unlinks, relinks and passes: where owners are
installed an account's evidence row is credited to at most one profile, and elsewhere a
second profile is paid only for an account that was linked to both. -/
theorem backed_unique {m m' : Portal} {acts : List Act} (hm : Opening m)
    (hrun : exec Portal.step m acts = some m') {id p q : Nat} (hp : (id, p) ∈ m'.backed)
    (hq : (id, q) ∈ m'.backed) :
    p = q ∨ m.owners = none ∧ ∃ e ∈ m'.sys.earn, e.id = id ∧ ⟨p, e.accountId⟩ ∈ m'.seen ∧
      ⟨q, e.accountId⟩ ∈ m'.seen := by
  have htraced : Traced m' := exec_invariant' (fun _ _ _ h hs => h.step hs) hm.traced hrun
  obtain ⟨e, he, hid, hlp⟩ := htraced.paid _ hp
  obtain ⟨e', he', hid', hlq⟩ := htraced.paid _ hq
  have heq : e = e' := SerialTable.eq_of_id_eq he he' (hid.trans hid'.symm)
  subst heq
  cases ho : m'.owners with
  | some owners =>
    have hop := htraced.owned owners ho _ hlp
    have hoq := htraced.owned owners ho _ hlq
    rw [hop] at hoq
    cases hoq
    exact Or.inl rfl
  | none =>
    refine Or.inr ⟨?_, e, he, hid, hlp, hlq⟩
    by_contra howners
    exact exec_invariant' (fun _ _ _ h hs => owners_step h hs) howners hrun ho

def Portal.start (owners : Option Owners) : Portal := ⟨Sys.start, owners, [], []⟩

theorem visit_ne_streak : Source.visit ≠ .streak := by
  decide

/-- Account 10 logs in as a character of profile 1, which is paid for the visit and then
unlinks it. Profile 2 links the account and is credited. -/
def relinkRun : List Act :=
  [.recordLevel 10 20, .addEarn 10 "2026-10-26" ⟨.visit, visit_ne_streak⟩ "" visitAward, .link 1 10,
    .creditProfile 1 none, .unlink 1 10, .link 2 10, .creditProfile 2 none]

/-- Without owners one visit pays two profiles. -/
theorem relinked_pays_twice :
    ∃ m, exec Portal.step (Portal.start none) relinkRun = some m ∧
      (1, 1) ∈ m.backed ∧ (1, 2) ∈ m.backed ∧
      m.sys.balance 1 = visitAward ∧ m.sys.balance 2 = visitAward := by
  have hrun := (Option.some_get
    (show (exec Portal.step (Portal.start none) relinkRun).isSome by rfl)).symm
  exact ⟨_, hrun, by decide, by decide, by decide, by decide⟩

theorem opening_start : Opening (Portal.start (some Table.empty)) where
  seen := rfl
  backed := rfl
  owned _ _ l hl := by cases hl

/-- With owners the relink is refused; the first five acts pay profile 1 alone. -/
theorem backed_unique_visit :
    exec Portal.step (Portal.start (some Table.empty)) relinkRun = none ∧
      ∃ m, exec Portal.step (Portal.start (some Table.empty)) (relinkRun.take 5) = some m ∧
        (1, 1) ∈ m.backed ∧ ((1, 2) ∈ m.backed → (1 : Nat) = 2 ∨
          (Portal.start (some Table.empty)).owners = none ∧ ∃ e ∈ m.sys.earn, e.id = 1 ∧
            ⟨1, e.accountId⟩ ∈ m.seen ∧ ⟨2, e.accountId⟩ ∈ m.seen) := by
  have hrun := (Option.some_get (show (exec Portal.step (Portal.start (some Table.empty))
    (relinkRun.take 5)).isSome by rfl)).symm
  have hpaid : (1, 1) ∈ ((exec Portal.step (Portal.start (some Table.empty))
    (relinkRun.take 5)).get rfl).backed := by decide
  exact ⟨by rfl, _, hrun, hpaid, backed_unique opening_start hrun hpaid⟩

end LastSietch.Nights
