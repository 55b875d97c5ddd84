import LastSietch.Identity.System

/-!
# Bindings that follow their links

`Tied exact todo acc` is what ties links, profiles, bindings and owners together, while the links
`todo` are still to be followed by their bindings: a link and its binding are active together, and
under `exact` they have the same times. `Grows` is what every statement keeps: rows stay, and a
binding that changes goes up in its version.

* `finishLegacyLinks_tied`: the transaction of a legacy change ties what its caller has written.
* `backfill_tied`, `install_tied`: the start.
-/

namespace LastSietch.Identity

def Agree (exact : Prop) (l : Link) (b : Binding) : Prop :=
  (l.revokedAt = none ↔ b.revokedAt = none) ∧
    (exact → l.linkedAt = b.linkedAt ∧ l.revokedAt = b.revokedAt)

theorem Agree.of_eq {exact : Prop} {l : Link} {b : Binding} (hlinked : l.linkedAt = b.linkedAt)
    (hrevoked : l.revokedAt = b.revokedAt) : Agree exact l b :=
  ⟨by rw [hrevoked], fun _ => ⟨hlinked, hrevoked⟩⟩

def Later (b b' : Binding) : Prop :=
  b'.legacyLinkId = b.legacyLinkId ∧ (b' = b ∨ b.sessionVersion < b'.sessionVersion)

theorem Later.refl (b : Binding) : Later b b := ⟨rfl, Or.inl rfl⟩

theorem Later.trans {b b' b'' : Binding} (h : Later b b') (h' : Later b' b'') : Later b b'' := by
  refine ⟨h'.1.trans h.1, ?_⟩
  rcases h.2 with rfl | hlt
  · exact h'.2
  · rcases h'.2 with rfl | hlt'
    · exact Or.inr hlt
    · exact Or.inr (hlt.trans hlt')

namespace Accounts

variable {exact : Prop} {todo : List SourceLink} {acc acc' acc'' : Accounts} {l : SourceLink}
  {profileId accountId : Nat}

structure Grows (acc acc' : Accounts) : Prop where
  profiles : ∀ id p, acc.profiles.get? id = some p → acc'.profiles.get? id = some p
  owners : ∀ a o, acc.owners.get? a = some o → acc'.owners.get? a = some o
  bindings : ∀ k b, acc.bindings.get? k = some b → ∃ b', acc'.bindings.get? k = some b' ∧ Later b b'
  drawn : acc.drawn ≤ acc'.drawn
  installed : acc.installed = true → acc'.installed = true

theorem Grows.refl (acc : Accounts) : Grows acc acc where
  profiles _ _ h := h
  owners _ _ h := h
  bindings _ b h := ⟨b, h, Later.refl b⟩
  drawn := le_rfl
  installed h := h

theorem Grows.trans (h : Grows acc acc') (h' : Grows acc' acc'') : Grows acc acc'' where
  profiles id p hp := h'.profiles id p (h.profiles id p hp)
  owners a o ho := h'.owners a o (h.owners a o ho)
  bindings k b hb := by
    obtain ⟨b', hb', hlater⟩ := h.bindings k b hb
    obtain ⟨b'', hb'', hlater'⟩ := h'.bindings k b' hb'
    exact ⟨b'', hb'', hlater.trans hlater'⟩
  drawn := h.drawn.trans h'.drawn
  installed hi := h'.installed (h.installed hi)

/-- The link `l` is the one that `b` was made of. -/
def SourceOf (acc : Accounts) (l : Link) (b : Binding) : Prop :=
  b.legacyLinkId = some l.id ∧ l.accountId = b.accountId ∧
    ∃ p ∈ acc.profiles.get? b.profileId, p.legacyDiscordId = some l.discordId

def Owned (acc : Accounts) : Prop :=
  ∀ b ∈ acc.bindings, b.revokedAt = none →
    ∃ o ∈ acc.owners.get? b.accountId, o.profileId = some b.profileId

structure Tied (exact : Prop) (todo : List SourceLink) (acc : Accounts) : Prop where
  linked : ∀ b ∈ acc.bindings, ∀ i ∈ b.legacyLinkId, ∃ l ∈ acc.links, l.id = i ∧
    acc.SourceOf l b ∧ (l.toSourceLink ∈ todo ∨ Agree exact l b)
  covered : ∀ l ∈ acc.links, l.toSourceLink ∈ todo ∨ ∃ b ∈ acc.bindings, b.legacyLinkId = some l.id
  activeOnce : ActiveOnce acc.links
  owned : acc.installed = true → acc.Owned
  bare : acc.installed = false → ∀ a, acc.owners.get? a = none

/-! ## A link that is followed -/

/-- One turn of the loops of `backfill` and `finish_legacy_links`: the binding of `l` is there, with
the times of `l`, and no other binding has changed. -/
structure Follows (profileId : Nat) (l : SourceLink) (acc acc' : Accounts) : Prop where
  links : acc'.links = acc.links
  profiles : acc'.profiles = acc.profiles
  installed : acc'.installed = acc.installed
  drawn : acc'.drawn = acc.drawn
  owners : ∀ a o, acc.owners.get? a = some o → acc'.owners.get? a = some o
  bare : acc.installed = false → acc'.owners = acc.owners
  owner : l.revokedAt = none → acc.installed = true →
    ∃ o ∈ acc'.owners.get? l.accountId, o.profileId = some profileId
  kept : ∀ k b, acc.bindings.get? k = some b → ∃ b', acc'.bindings.get? k = some b' ∧ Later b b'
  rows : ∀ s ∈ acc'.bindings, (s.legacyLinkId = some l.id ∧ s.profileId = profileId ∧
      s.accountId = l.accountId ∧ s.linkedAt = l.linkedAt ∧ s.revokedAt = l.revokedAt) ∨
    s ∈ acc.bindings ∧ s.legacyLinkId ≠ some l.id
  present : ∃ s ∈ acc'.bindings, s.legacyLinkId = some l.id

theorem Follows.grows (h : Follows profileId l acc acc') : Grows acc acc' where
  profiles _ _ hp := h.profiles ▸ hp
  owners := h.owners
  bindings := h.kept
  drawn := h.drawn.ge
  installed hi := h.installed.trans hi

theorem Follows.tied (h : Follows profileId l acc acc') (ht : Tied exact (l :: todo) acc)
    (hl : ∃ r ∈ acc.links, r.toSourceLink = l)
    (hp : ∃ p ∈ acc.profiles.get? profileId, p.legacyDiscordId = some l.discordId) :
    Tied exact todo acc' where
  linked s hs i hi := by
    rcases h.rows s hs with ⟨hlink, hprofile, haccount, hlinked, hrevoked⟩ | ⟨hold, hne⟩
    · obtain ⟨r, hr, rfl⟩ := hl
      refine ⟨r, h.links ▸ hr, Option.some.inj (hlink.symm.trans hi),
        ⟨hlink, haccount.symm, ?_⟩, Or.inr (Agree.of_eq hlinked.symm hrevoked.symm)⟩
      rw [h.profiles, hprofile]
      exact hp
    · obtain ⟨r, hr, hid, ⟨hlink, haccount, hdiscord⟩, hagree⟩ := ht.linked s hold i hi
      refine ⟨r, h.links ▸ hr, hid, ⟨hlink, haccount, h.profiles ▸ hdiscord⟩, ?_⟩
      rcases hagree with hmem | hagree
      · rcases List.mem_cons.mp hmem with rfl | hmem
        · exact absurd hlink hne
        · exact Or.inl hmem
      · exact Or.inr hagree
  covered r hr := by
    rw [h.links] at hr
    rcases ht.covered r hr with hmem | ⟨b, hb, hlink⟩
    · rcases List.mem_cons.mp hmem with rfl | hmem
      · exact Or.inr h.present
      · exact Or.inl hmem
    · obtain ⟨b', hb', hlater, -⟩ := h.kept _ b (Indexed.get?_eq_some.mpr ⟨hb, rfl⟩)
      exact Or.inr ⟨b', Indexed.mem_of_get? hb', hlater.trans hlink⟩
  activeOnce := h.links ▸ ht.activeOnce
  owned hi s hs hactive := by
    have hi' : acc.installed = true := h.installed ▸ hi
    rcases h.rows s hs with ⟨-, hprofile, haccount, -, hrevoked⟩ | ⟨hold, -⟩
    · rw [haccount, hprofile]
      exact h.owner (hrevoked.symm.trans hactive) hi'
    · obtain ⟨o, ho, howner⟩ := ht.owned hi' s hold hactive
      exact ⟨o, h.owners _ o ho, howner⟩
  bare hi a := by
    have hi' : acc.installed = false := h.installed ▸ hi
    rw [h.bare hi']
    exact ht.bare hi' a

/-! ## `finish_legacy_links` -/

variable {discordId : String}

theorem profileByDiscord?_spec {p : Profile} (h : acc.profileByDiscord? discordId = some p) :
    acc.profiles.get? p.id = some p ∧ p.legacyDiscordId = some discordId :=
  ⟨Indexed.get?_eq_some.mpr ⟨List.mem_of_find?_eq_some h, rfl⟩, by simpa using List.find?_some h⟩

theorem openProfile_spec {e : Refusal} {id : Nat}
    (h : acc.openProfile discordId e = .ok (id, acc')) :
    Grows acc acc' ∧ acc'.links = acc.links ∧ acc'.bindings = acc.bindings ∧
      acc'.installed = acc.installed ∧ acc'.owners = acc.owners ∧
      ∃ p ∈ acc'.profiles.get? id, p.legacyDiscordId = some discordId := by
  obtain ⟨profiles, hprofiles, h⟩ := bind_eq_ok.mp h
  obtain ⟨providers, -, h⟩ := bind_eq_ok.mp h
  cases pure_eq_ok.mp h
  have hins := orRaise_eq_ok.mp hprofiles
  refine ⟨⟨fun id p hp => ?_, fun _ _ h => h, fun _ b h => ⟨b, h, Later.refl b⟩, Nat.le_succ _,
    fun h => h⟩, rfl, rfl, rfl, rfl, ⟨acc.drawn, some discordId, none⟩, ?_, rfl⟩
  · exact Indexed.insert?_keeps hins hp
  · exact (Indexed.get?_insert? hins acc.drawn).trans (if_pos rfl)

theorem Tied.openProfile {e : Refusal} {id : Nat}
    (ht : Tied exact todo acc) (h : acc.openProfile discordId e = .ok (id, acc')) :
    Tied exact todo acc' := by
  obtain ⟨hgrows, hlinks, hbindings, hinstalled, howners, -⟩ := openProfile_spec h
  constructor
  · intro b hb i hi
    rw [hbindings] at hb
    obtain ⟨l, hl, hid, ⟨hlink, haccount, p, hp, hdiscord⟩, hagree⟩ := ht.linked b hb i hi
    exact ⟨l, hlinks ▸ hl, hid, ⟨hlink, haccount, p, hgrows.profiles _ p hp, hdiscord⟩, hagree⟩
  · rw [hlinks, hbindings]
    exact ht.covered
  · rw [hlinks]
    exact ht.activeOnce
  · unfold Owned
    rw [hinstalled, hbindings, howners]
    exact ht.owned
  · rw [hinstalled, howners]
    exact ht.bare

variable {change : LegacyChange}

theorem changeProfile_spec {granting : Bool} {id : Nat}
    (h : acc.changeProfile change granting = .ok (id, acc')) :
    Grows acc acc' ∧ acc'.links = acc.links ∧ (∀ {exact todo}, Tied exact todo acc →
      Tied exact todo acc') ∧
      ∃ p ∈ acc'.profiles.get? id, p.legacyDiscordId = some change.discordId := by
  unfold changeProfile at h
  split at h
  · obtain ⟨_, -, h⟩ := bind_eq_ok.mp h
    obtain ⟨_, -, h⟩ := bind_eq_ok.mp h
    obtain ⟨hgrows, hlinks, -, -, -, hprofile⟩ := openProfile_spec h
    exact ⟨hgrows, hlinks, fun ht => ht.openProfile h, hprofile⟩
  · rename_i p hp
    have hsame : (p.id, acc) = (id, acc') := by
      split at h
      · obtain ⟨_, -, h⟩ := bind_eq_ok.mp h
        obtain ⟨_, -, h⟩ := bind_eq_ok.mp h
        exact pure_eq_ok.mp h
      · exact pure_eq_ok.mp h
    cases hsame
    obtain ⟨hget, hdiscord⟩ := profileByDiscord?_spec hp
    exact ⟨Grows.refl acc, rfl, fun ht => ht, p, hget, hdiscord⟩

theorem claimAccount_spec (h : acc.claimAccount profileId accountId = .ok acc') :
    ∃ owners, acc' = { acc with owners } ∧
      (∀ a o, acc.owners.get? a = some o → owners.get? a = some o) ∧
      ∃ o ∈ owners.get? accountId, o.profileId = some profileId := by
  unfold claimAccount at h
  split at h
  · rename_i o ho
    obtain ⟨_, howner, h⟩ := bind_eq_ok.mp h
    cases pure_eq_ok.mp h
    exact ⟨acc.owners, rfl, fun _ _ h => h, o, ho, require_eq_ok.mp howner⟩
  · obtain ⟨owners, hins, h⟩ := bind_eq_ok.mp h
    cases pure_eq_ok.mp h
    have hins := orRaise_eq_ok.mp hins
    refine ⟨owners, rfl, fun a o ho => Table.insert?_keeps hins ho, ⟨accountId, some profileId⟩, ?_,
      rfl⟩
    exact (Table.get?_insert? hins accountId).trans (if_pos rfl)

theorem mem_bindingsOf {b : Binding} : b ∈ acc.bindingsOf profileId l ↔ b ∈ acc.bindings ∧
    (b.legacyLinkId = some l.id ∨ b.profileId = profileId ∧ b.accountId = l.accountId) := by
  simp [bindingsOf, Indexed.mem_def, Table.mem_def]

theorem followLink_spec
    (h : acc.followLink change profileId l = .ok acc') : Follows profileId l acc acc' := by
  obtain ⟨mid, hclaim, h⟩ := bind_eq_ok.mp h
  unfold settleOwner at hclaim
  obtain ⟨owners, hmid, howners, hbare, howner⟩ : ∃ owners, mid = { acc with owners } ∧
      (∀ a o, acc.owners.get? a = some o → owners.get? a = some o) ∧
      (acc.installed = false → owners = acc.owners) ∧
      (l.revokedAt = none → acc.installed = true →
        ∃ o ∈ owners.get? l.accountId, o.profileId = some profileId) := by
    split at hclaim
    · rename_i hcond
      obtain ⟨owners, hmid, howners, howner⟩ := claimAccount_spec hclaim
      refine ⟨owners, hmid, howners, fun hfalse => ?_, fun _ _ => howner⟩
      rw [hcond.2] at hfalse
      cases hfalse
    · rename_i hcond
      cases pure_eq_ok.mp hclaim
      exact ⟨acc.owners, rfl, fun _ _ h => h, fun _ => rfl,
        fun hactive hinst => absurd ⟨hactive, hinst⟩ hcond⟩
  subst hmid
  unfold placeBinding at h
  split at h
  · rename_i hnone
    obtain ⟨bindings, hins, h⟩ := bind_eq_ok.mp h
    cases pure_eq_ok.mp h
    have hins := orRaise_eq_ok.mp hins
    refine ⟨rfl, rfl, rfl, rfl, howners, hbare, howner,
      fun k b hb => ⟨b, Indexed.insert?_keeps hins hb, Later.refl b⟩, fun s hs => ?_,
      _, ((Indexed.insert?_spec hins).1 _).mpr (Or.inl rfl), rfl⟩
    rcases ((Indexed.insert?_spec hins).1 s).mp hs with rfl | hs
    · exact Or.inl ⟨rfl, rfl, rfl, rfl, rfl⟩
    · refine Or.inr ⟨hs, fun hlink => ?_⟩
      have hmem : s ∈ acc.bindingsOf profileId l := mem_bindingsOf.mpr ⟨hs, Or.inl hlink⟩
      rw [hnone] at hmem
      cases hmem
  · cases h
  · rename_i old b _ hone
    obtain ⟨_, hkey, h⟩ := bind_eq_ok.mp h
    obtain ⟨_, -, h⟩ := bind_eq_ok.mp h
    obtain ⟨bindings, hupd, h⟩ := bind_eq_ok.mp h
    cases pure_eq_ok.mp h
    have hupd := orRaise_eq_ok.mp hupd
    obtain ⟨hprofile, haccount, hlink⟩ := require_eq_ok.mp hkey
    have hb : b ∈ acc.bindings := by
      have hmem : b ∈ acc.bindingsOf profileId l := hone ▸ List.mem_singleton_self b
      exact (mem_bindingsOf.mp hmem).1
    have honly : ∀ r ∈ acc.bindings, r.legacyLinkId = some l.id → r = b := by
      intro r hr hrl
      have hmem : r ∈ acc.bindingsOf profileId l := mem_bindingsOf.mpr ⟨hr, Or.inl hrl⟩
      rw [hone] at hmem
      exact List.mem_singleton.mp hmem
    refine ⟨rfl, rfl, rfl, rfl, howners, hbare, howner, fun k r hr => ?_, fun s hs => ?_,
      { b with linkedAt := l.linkedAt, revokedAt := l.revokedAt,
               sessionVersion := b.sessionVersion + 1 },
      (Indexed.update?_spec hupd _).mpr ⟨b, hb, by simp [hlink]⟩, hlink⟩
    · refine ⟨_, (Indexed.get?_update? hupd k).trans (congrArg _ hr), ?_⟩
      dsimp only
      split
      · exact ⟨rfl, Or.inr (Nat.lt_succ_self _)⟩
      · exact Later.refl r
    · obtain ⟨r, hr, rfl⟩ := (Indexed.update?_spec hupd s).mp hs
      by_cases hrl : r.legacyLinkId = some l.id
      · cases honly r hr hrl
        simp [hlink, hprofile, haccount]
      · simp [hrl, hr]
  · cases h

theorem Tied.mono {todo' : List SourceLink} (ht : Tied exact todo acc)
    (hsub : ∀ l ∈ todo, l ∈ todo') : Tied exact todo' acc where
  linked b hb i hi := by
    obtain ⟨l, hl, hid, hsource, hagree⟩ := ht.linked b hb i hi
    exact ⟨l, hl, hid, hsource, hagree.imp_left (hsub _)⟩
  covered l hl := (ht.covered l hl).imp_left (hsub _)
  activeOnce := ht.activeOnce
  owned := ht.owned
  bare := ht.bare

theorem old_eq_some {i : Nat} {s : SourceLink} :
    change.old i = some s ↔ ∃ r ∈ change.before, r.id = i ∧ r.toSourceLink = s := by
  unfold LegacyChange.old
  rw [Option.map_eq_some_iff]
  constructor
  · rintro ⟨r, hr, hs⟩
    obtain ⟨hmem, hid⟩ := SerialTable.byId?_eq_some.mp hr
    exact ⟨r, hmem, hid, hs⟩
  · rintro ⟨r, hmem, hid, hs⟩
    exact ⟨r, SerialTable.byId?_eq_some.mpr ⟨hmem, hid⟩, hs⟩

variable {links : Links}

theorem Tied.relinked (ht : Tied exact [] acc)
    (hbefore : change.before = acc.links) (hactive : ActiveOnce links)
    (hkept : ∀ l ∈ change.before, (links.byId? l.id).isSome = true)
    (hchanged : ∀ l ∈ links, change.old l.id ≠ some l.toSourceLink →
      change.checkChanged l.toSourceLink = .ok ()) :
    Tied exact ((sourceRows links).filter (fun l => change.old l.id ≠ some l))
      { acc with links } where
  linked b hb i hi := by
    obtain ⟨old, hold, hid, ⟨hlink, haccount, p, hp, hdiscord⟩, hagree⟩ := ht.linked b hb i hi
    have hagree : Agree exact old b := hagree.resolve_left List.not_mem_nil
    obtain ⟨l, hl⟩ := Option.isSome_iff_exists.mp (hkept old (hbefore ▸ hold))
    obtain ⟨hmem, hlid⟩ := SerialTable.byId?_eq_some.mp hl
    have hwas : change.old l.id = some old.toSourceLink :=
      old_eq_some.mpr ⟨old, hbefore ▸ hold, hlid.symm, rfl⟩
    refine ⟨l, hmem, hlid.trans hid, ?_⟩
    by_cases hsame : old.toSourceLink = l.toSourceLink
    · have hacc : old.accountId = l.accountId := congrArg SourceLink.accountId hsame
      have hdis : old.discordId = l.discordId := congrArg SourceLink.discordId hsame
      have hrev : old.revokedAt = l.revokedAt := congrArg SourceLink.revokedAt hsame
      have hlnk : old.linkedAt = l.linkedAt := congrArg SourceLink.linkedAt hsame
      refine ⟨⟨hlid ▸ hlink, hacc ▸ haccount, p, hp, hdis ▸ hdiscord⟩, Or.inr ?_⟩
      unfold Agree at hagree ⊢
      rwa [← hrev, ← hlnk]
    · have hne : change.old l.id ≠ some l.toSourceLink := by
        rw [hwas]
        exact fun heq => hsame (Option.some.inj heq)
      obtain ⟨-, hfields⟩ := LegacyChange.checkChanged_spec (hchanged l hmem hne)
      obtain ⟨hdis, hacc⟩ := hfields _ hwas
      refine ⟨⟨hlid ▸ hlink, hacc ▸ haccount, p, hp, hdis ▸ hdiscord⟩, Or.inl ?_⟩
      exact List.mem_filter.mpr ⟨mem_sourceRows.mpr ⟨l, hmem, rfl⟩, decide_eq_true hne⟩
  covered l hl := by
    by_cases hne : change.old l.id = some l.toSourceLink
    · obtain ⟨old, hold, hid, -⟩ := old_eq_some.mp hne
      obtain ⟨b, hb, hlink⟩ :=
        (ht.covered old (hbefore ▸ hold)).resolve_left List.not_mem_nil
      exact Or.inr ⟨b, hb, hid ▸ hlink⟩
    · exact Or.inl (List.mem_filter.mpr ⟨mem_sourceRows.mpr ⟨l, hl, rfl⟩, decide_eq_true hne⟩)
  activeOnce := hactive
  owned := ht.owned
  bare := ht.bare

theorem foldl_followLink (ht : Tied exact todo acc) (hgrows : Grows acc'' acc)
    (htodo : ∀ l ∈ todo, (∃ r ∈ acc.links, r.toSourceLink = l) ∧ l.discordId = change.discordId)
    (hp : ∃ p ∈ acc.profiles.get? profileId, p.legacyDiscordId = some change.discordId)
    (h : todo.foldlM (followLink change profileId) acc = .ok acc') :
    Tied exact [] acc' ∧ Grows acc'' acc' := by
  have hrule := foldlM_rule (I := fun rest a => Tied exact rest a ∧ Grows acc'' a ∧
    a.links = acc.links ∧ a.profiles = acc.profiles ∧ ∀ l ∈ rest, l ∈ todo) ?_
    ⟨ht, hgrows, rfl, rfl, fun _ hl => hl⟩ h
  · exact ⟨hrule.1, hrule.2.1⟩
  · rintro l rest a a' ⟨hta, hga, hlinks, hprofiles, hrest⟩ hstep
    have hf := followLink_spec hstep
    obtain ⟨hrow, hdiscord⟩ := htodo l (hrest l (List.mem_cons_self ..))
    refine ⟨hf.tied hta (hlinks ▸ hrow) ?_, hga.trans hf.grows, hf.links.trans hlinks,
      hf.profiles.trans hprofiles, fun l' hl' => hrest l' (List.mem_cons_of_mem _ hl')⟩
    rw [hprofiles, hdiscord]
    exact hp

theorem finishLegacyLinks_tied (ht : Tied exact [] acc) (hbefore : change.before = acc.links)
    (h : finishLegacyLinks change { acc with links } = .ok acc') :
    Tied exact [] acc' ∧ Grows acc acc' := by
  obtain ⟨after, hafter, h⟩ := bind_eq_ok.mp h
  obtain ⟨_, hkept, h⟩ := bind_eq_ok.mp h
  have hkept := require_eq_ok.mp hkept
  obtain ⟨rfl, -, hactive⟩ := sourceLinks_spec hafter
  have hmoved : Grows acc { acc with links } := ⟨fun _ _ h => h, fun _ _ h => h,
    fun _ b h => ⟨b, h, Later.refl b⟩, le_rfl, fun h => h⟩
  dsimp only at h
  split at h
  · rename_i hnone
    cases pure_eq_ok.mp h
    refine ⟨hnone ▸ ht.relinked hbefore hactive hkept (fun l hl hne => ?_), hmoved⟩
    have hmem : l.toSourceLink ∈ (sourceRows links).filter (fun l => change.old l.id ≠ some l) :=
      List.mem_filter.mpr ⟨mem_sourceRows.mpr ⟨l, hl, rfl⟩, decide_eq_true hne⟩
    rw [hnone] at hmem
    cases hmem
  · obtain ⟨_, hcheck, h⟩ := bind_eq_ok.mp h
    obtain ⟨⟨id, mid⟩, hprofile, h⟩ := bind_eq_ok.mp h
    have hcheck := forM_eq_ok hcheck
    have hrelinked := ht.relinked hbefore hactive hkept (fun l hl hne => hcheck _
      (List.mem_filter.mpr ⟨mem_sourceRows.mpr ⟨l, hl, rfl⟩, decide_eq_true hne⟩))
    obtain ⟨hgrows, hlinks, htied, hdiscord⟩ := changeProfile_spec hprofile
    refine foldl_followLink ((htied hrelinked).mono (fun l hl => ?_)) (hmoved.trans hgrows)
      (fun l hl => ?_) hdiscord h
    · rw [List.mem_append]
      by_cases hrevoked : l.revokedAt = none
      · exact Or.inr (List.mem_filter.mpr ⟨hl, decide_eq_true hrevoked⟩)
      · exact Or.inl (List.mem_filter.mpr ⟨hl, decide_eq_true hrevoked⟩)
    · have hl : l ∈ (sourceRows links).filter (fun l => change.old l.id ≠ some l) := by
        rcases List.mem_append.mp hl with hl | hl <;> exact (List.mem_filter.mp hl).1
      obtain ⟨r, hr, hrl⟩ := mem_sourceRows.mp (List.mem_filter.mp hl).1
      exact ⟨⟨r, hlinks ▸ hr, hrl⟩, (LegacyChange.checkChanged_spec (hcheck l hl)).1⟩

theorem legacyChange_tied {allowGrant : Bool} {edit : Links → Links}
    (ht : Tied exact [] acc) (h : acc.legacyChange discordId allowGrant edit = .ok acc') :
    Tied exact [] acc' ∧ Grows acc acc' := by
  obtain ⟨change, hbegin, h⟩ := bind_eq_ok.mp h
  obtain ⟨_, -, hbegin⟩ := bind_eq_ok.mp hbegin
  obtain ⟨_, -, hbegin⟩ := bind_eq_ok.mp hbegin
  cases pure_eq_ok.mp hbegin
  exact finishLegacyLinks_tied ht rfl h

/-! ## `backfill` and `install` -/

theorem Tied.legacy (hactive : ActiveOnce links) :
    Tied exact (sourceRows links) (legacy links) where
  linked b hb := absurd hb (Indexed.not_mem_empty b)
  covered l hl := Or.inl (mem_sourceRows.mpr ⟨l, hl, rfl⟩)
  activeOnce := hactive
  owned hi := by cases hi
  bare _ _ := Table.get?_eq_none.mpr (fun r hr => absurd hr (Table.not_mem_empty r))

theorem backfillProfile_spec
    (h : acc.backfillProfile discordId = .ok acc') : acc'.links = acc.links ∧
      acc'.installed = acc.installed ∧ (Tied exact todo acc → Tied exact todo acc') := by
  unfold backfillProfile at h
  split at h
  · obtain ⟨⟨id, mid⟩, hopen, h⟩ := bind_eq_ok.mp h
    cases pure_eq_ok.mp h
    obtain ⟨-, hlinks, -, hinstalled, -⟩ := openProfile_spec hopen
    exact ⟨hlinks, hinstalled, fun ht => ht.openProfile hopen⟩
  · cases h
  · obtain ⟨_, -, h⟩ := bind_eq_ok.mp h
    obtain ⟨_, -, h⟩ := bind_eq_ok.mp h
    obtain ⟨_, -, h⟩ := bind_eq_ok.mp h
    cases pure_eq_ok.mp h
    exact ⟨rfl, rfl, fun ht => ht⟩

theorem backfillBinding_spec (hinstalled : acc.installed = false)
    (h : acc.backfillBinding l = .ok acc') : ∃ p, acc.profiles.get? p.id = some p ∧
      p.legacyDiscordId = some l.discordId ∧ Follows p.id l acc acc' := by
  obtain ⟨p, hp, h⟩ := bind_eq_ok.mp h
  obtain ⟨hget, hdiscord⟩ := profileByDiscord?_spec (orRaise_eq_ok.mp hp)
  refine ⟨p, hget, hdiscord, ?_⟩
  have howner : l.revokedAt = none → acc.installed = true →
      ∃ o ∈ acc.owners.get? l.accountId, o.profileId = some p.id := by
    intro _ hi
    rw [hinstalled] at hi
    cases hi
  split at h
  · rename_i hnone
    obtain ⟨bindings, hins, h⟩ := bind_eq_ok.mp h
    cases pure_eq_ok.mp h
    have hins := orRaise_eq_ok.mp hins
    refine ⟨rfl, rfl, rfl, rfl, fun _ _ h => h, fun _ => rfl, howner,
      fun k b hb => ⟨b, Indexed.insert?_keeps hins hb, Later.refl b⟩, fun s hs => ?_,
      _, ((Indexed.insert?_spec hins).1 _).mpr (Or.inl rfl), rfl⟩
    rcases ((Indexed.insert?_spec hins).1 s).mp hs with rfl | hs
    · exact Or.inl ⟨rfl, rfl, rfl, rfl, rfl⟩
    · refine Or.inr ⟨hs, fun hlink => ?_⟩
      have hmem : s ∈ acc.bindingsOf p.id l := mem_bindingsOf.mpr ⟨hs, Or.inl hlink⟩
      rw [hnone] at hmem
      cases hmem
  · rename_i b hone
    obtain ⟨_, hsame, h⟩ := bind_eq_ok.mp h
    cases pure_eq_ok.mp h
    obtain ⟨hprofile, haccount, hlink, hlinked, hrevoked⟩ := require_eq_ok.mp hsame
    have hb : b ∈ acc.bindingsOf p.id l := hone ▸ List.mem_singleton_self b
    refine ⟨rfl, rfl, rfl, rfl, fun _ _ h => h, fun _ => rfl, howner,
      fun k r hr => ⟨r, hr, Later.refl r⟩, fun s hs => ?_, b, (mem_bindingsOf.mp hb).1, hlink⟩
    by_cases hsl : s.legacyLinkId = some l.id
    · have hmem : s ∈ acc.bindingsOf p.id l := mem_bindingsOf.mpr ⟨hs, Or.inl hsl⟩
      rw [hone] at hmem
      cases List.mem_singleton.mp hmem
      exact Or.inl ⟨hlink, hprofile, haccount, hlinked, hrevoked⟩
    · exact Or.inr ⟨hs, hsl⟩
  · cases h

theorem backfill_tied (h : (Accounts.legacy links).backfill = .ok acc) :
    Tied exact [] acc ∧ acc.installed = false := by
  obtain ⟨rows, hrows, h⟩ := bind_eq_ok.mp h
  obtain ⟨opened, hopened, h⟩ := bind_eq_ok.mp h
  obtain ⟨bound, hbound, h⟩ := bind_eq_ok.mp h
  obtain ⟨_, -, h⟩ := bind_eq_ok.mp h
  obtain ⟨_, -, h⟩ := bind_eq_ok.mp h
  obtain ⟨_, -, h⟩ := bind_eq_ok.mp h
  cases pure_eq_ok.mp h
  obtain ⟨rfl, -, hactive⟩ := sourceLinks_spec hrows
  have hprofiles := foldlM_rule (I := fun _ a => a.links = links ∧ a.installed = false ∧
      Tied exact (sourceRows links) a)
    (fun d rest a a' ⟨hlinks, hinstalled, ht⟩ hstep => by
      obtain ⟨hlinks', hinstalled', ht'⟩ := backfillProfile_spec hstep
      exact ⟨hlinks'.trans hlinks, hinstalled'.trans hinstalled, ht' ht⟩)
    ⟨rfl, rfl, Tied.legacy hactive⟩ hopened
  have hbindings := foldlM_rule (I := fun rest a => a.links = links ∧ a.installed = false ∧
      Tied exact rest a ∧ ∀ l ∈ rest, l ∈ sourceRows links)
    (fun l rest a a' ⟨hlinks, hinstalled, ht, hrest⟩ hstep => by
      obtain ⟨p, hget, hdiscord, hf⟩ := backfillBinding_spec hinstalled hstep
      obtain ⟨r, hr, hrl⟩ := mem_sourceRows.mp (hrest l (List.mem_cons_self ..))
      exact ⟨hf.links.trans hlinks, hf.installed.trans hinstalled,
        hf.tied ht ⟨r, hlinks ▸ hr, hrl⟩ ⟨p, hget, hdiscord⟩,
        fun l' hl' => hrest l' (List.mem_cons_of_mem _ hl')⟩)
    ⟨hprofiles.1, hprofiles.2.1, hprofiles.2.2, fun _ hl => hl⟩ hbound
  exact ⟨hbindings.2.2.1, hbindings.2.1⟩

theorem ownerOf_active {b : Binding} (hb : b ∈ acc.bindings) (hactive : b.revokedAt = none) :
    acc.ownerOf b.accountId = some b.profileId := by
  have honly : (acc.bindings.rows.filter (fun r => r.accountId = b.accountId)).filter
      (fun r => r.revokedAt = none) = [b] := by
    rw [List.filter_filter]
    refine Table.filter_eq_singleton hb (by simp [hactive]) (fun r hr hrb => ?_)
    obtain ⟨hrev, hacc⟩ : r.revokedAt = none ∧ r.accountId = b.accountId := by simpa using hrb
    refine Indexed.eq_of_entry (e := BindingEntry.account b.accountId) hr hb ?_ ?_
    · simp [Binding.entries, hrev, hacc]
    · simp [Binding.entries, hactive]
  unfold ownerOf
  simp only [honly, List.map_cons, List.map_nil]

theorem install_tied (ht : Tied exact [] acc) (hbare : acc.installed = false) :
    Tied exact [] acc.install ∧ Grows acc acc.install := by
  refine ⟨⟨ht.linked, ht.covered, ht.activeOnce, fun _ b hb hactive => ?_, fun h => by cases h⟩,
    fun _ _ h => h, fun a o ho => ?_, fun _ b h => ⟨b, h, Later.refl b⟩, le_rfl, fun _ => rfl⟩
  · refine ⟨⟨b.accountId, acc.ownerOf b.accountId⟩, Table.get?_eq_some.mpr ⟨?_, rfl⟩,
      ownerOf_active hb hactive⟩
    exact List.mem_map_of_mem (f := fun a => (⟨a, acc.ownerOf a⟩ : Owner))
      (List.mem_dedup.mpr (List.mem_map_of_mem hb))
  · rw [ht.bare hbare a] at ho
    cases ho

end Accounts

end LastSietch.Identity
