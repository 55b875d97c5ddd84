import LastSietch.Identity.Mirror

/-!
# Account ownership

Every operation carries `Tied` on. Those on sessions and credentials leave links, profiles,
bindings and owners as they are (`Same`); the ones that bind an account or unbind it change a link
and its binding in two statements, each with its own `datetime('now')`.
-/

namespace LastSietch.Identity

namespace Accounts

variable {exact : Prop} {acc acc' acc'' : Accounts} {b g : Binding}

def Carries (exact : Prop) (acc acc' : Accounts) : Prop :=
  Tied exact [] acc → Tied exact [] acc' ∧ Grows acc acc'

theorem Carries.refl (acc : Accounts) : Carries exact acc acc := fun ht => ⟨ht, Grows.refl acc⟩

theorem Carries.trans (h : Carries exact acc acc') (h' : Carries exact acc' acc'') :
    Carries exact acc acc'' := by
  intro ht
  obtain ⟨ht', hgrows⟩ := h ht
  obtain ⟨ht'', hgrows'⟩ := h' ht'
  exact ⟨ht'', hgrows.trans hgrows'⟩

/-- The tables that `Tied` is about are the same. -/
structure Same (acc acc' : Accounts) : Prop where
  links : acc'.links = acc.links
  profiles : acc'.profiles = acc.profiles
  bindings : acc'.bindings = acc.bindings
  installed : acc'.installed = acc.installed
  owners : acc'.owners = acc.owners
  drawn : acc.drawn ≤ acc'.drawn

theorem Same.refl (acc : Accounts) : Same acc acc := ⟨rfl, rfl, rfl, rfl, rfl, le_rfl⟩

theorem Same.grows (h : Same acc acc') : Grows acc acc' where
  profiles _ _ hp := h.profiles ▸ hp
  owners _ _ ho := h.owners ▸ ho
  bindings _ b hb := ⟨b, h.bindings ▸ hb, Later.refl b⟩
  drawn := h.drawn
  installed hi := h.installed.trans hi

theorem Same.carries (h : Same acc acc') : Carries exact acc acc' := by
  intro ht
  refine ⟨⟨fun b hb i hi => ?_, ?_, ?_, ?_, ?_⟩, h.grows⟩
  · rw [h.bindings] at hb
    obtain ⟨l, hl, hid, ⟨hlink, haccount, hp⟩, hagree⟩ := ht.linked b hb i hi
    exact ⟨l, h.links ▸ hl, hid, ⟨hlink, haccount, h.profiles ▸ hp⟩, hagree⟩
  · rw [h.links, h.bindings]
    exact ht.covered
  · rw [h.links]
    exact ht.activeOnce
  · unfold Owned
    rw [h.installed, h.bindings, h.owners]
    exact ht.owned
  · rw [h.installed, h.owners]
    exact ht.bare

/-! ## A binding that takes the place of another -/

/-- The binding `g` stands where `b` stood. -/
def Swapped (b g : Binding) (bindings bindings' : Bindings) : Prop :=
  ∀ s, s ∈ bindings' ↔ s = g ∨ s ∈ bindings ∧ s ≠ b

theorem swapped_of_update? {bindings bindings' : Bindings} {f : Binding → Binding}
    {hf : ∀ r, ((f r).profileId, (f r).accountId) = (r.profileId, r.accountId)}
    (hb : b ∈ bindings)
    (h : bindings.update? (fun r => r.profileId = b.profileId ∧ r.accountId = b.accountId) f hf =
      some bindings') : Swapped b (f b) bindings bindings' := by
  intro s
  rw [Indexed.update?_spec h s]
  constructor
  · rintro ⟨r, hr, rfl⟩
    by_cases hk : r.profileId = b.profileId ∧ r.accountId = b.accountId
    · have hrb : r = b := Indexed.eq_of_key_eq hr hb (Prod.ext hk.1 hk.2)
      exact Or.inl (by simp [hrb])
    · refine Or.inr ?_
      rw [if_neg (by simpa using hk)]
      exact ⟨hr, fun heq => hk (heq ▸ ⟨rfl, rfl⟩)⟩
  · rintro (rfl | ⟨hs, hne⟩)
    · exact ⟨b, hb, by simp⟩
    · refine ⟨s, hs, (if_neg ?_).symm⟩
      intro hk
      obtain ⟨hprofile, haccount⟩ : s.profileId = b.profileId ∧ s.accountId = b.accountId := by
        simpa using hk
      exact hne (Indexed.eq_of_key_eq hs hb (Prod.ext hprofile haccount))

theorem Swapped.kept {bindings bindings' : Bindings} (h : Swapped b g bindings bindings')
    (hprofile : g.profileId = b.profileId) (haccount : g.accountId = b.accountId)
    (hlater : Later b g) (k : Nat × Nat) (r : Binding) (hr : bindings.get? k = some r) :
    ∃ r', bindings'.get? k = some r' ∧ Later r r' := by
  obtain ⟨hmem, rfl⟩ := Indexed.get?_eq_some.mp hr
  by_cases hrb : r = b
  · subst hrb
    exact ⟨g, Indexed.get?_eq_some.mpr ⟨(h g).mpr (Or.inl rfl), Prod.ext hprofile haccount⟩, hlater⟩
  · exact ⟨r, Indexed.get?_eq_some.mpr ⟨(h r).mpr (Or.inr ⟨hmem, hrb⟩), rfl⟩, Later.refl r⟩

theorem Tied.retime {links : Links} {bindings : Bindings} {f : Link → Link}
    {owners : Table Owner Owner.accountId} (ht : Tied exact [] acc) (hinstalled : acc.installed = true)
    (hb : b ∈ acc.bindings) (hswap : Swapped b g acc.bindings bindings)
    (hprofile : g.profileId = b.profileId) (haccount : g.accountId = b.accountId)
    (hlink : g.legacyLinkId = b.legacyLinkId)
    (hlinks : ∀ s, s ∈ links ↔ ∃ l ∈ acc.links, s = if some l.id = b.legacyLinkId then f l else l)
    (hf : ∀ l, (f l).id = l.id ∧ (f l).discordId = l.discordId ∧ (f l).accountId = l.accountId)
    (hagree : ∀ l, b.legacyLinkId = some l.id → Agree exact l b → Agree exact (f l) g)
    (hactive : ActiveOnce links)
    (howners : ∀ a o, acc.owners.get? a = some o → owners.get? a = some o)
    (howner : g.revokedAt = none → ∃ o ∈ owners.get? g.accountId, o.profileId = some g.profileId) :
    Tied exact [] { acc with links, bindings, owners } where
  linked s hs i hi := by
    rcases (hswap s).mp hs with rfl | ⟨hs, hne⟩
    · obtain ⟨l, hl, hid, ⟨hsrc, hacc, hp⟩, hag⟩ := ht.linked b hb i (hlink ▸ hi)
      have hag : Agree exact l b := hag.resolve_left List.not_mem_nil
      obtain ⟨hfid, hfdiscord, hfaccount⟩ := hf l
      refine ⟨f l, (hlinks _).mpr ⟨l, hl, (if_pos hsrc.symm).symm⟩, hfid.trans hid, ⟨?_, ?_, ?_⟩,
        Or.inr (hagree l hsrc hag)⟩
      · rw [hlink, hsrc, hfid]
      · rw [hfaccount, haccount, hacc]
      · rw [hprofile, hfdiscord]
        exact hp
    · obtain ⟨l, hl, hid, hsource, hag⟩ := ht.linked s hs i hi
      have hother : some l.id ≠ b.legacyLinkId := by
        intro heq
        refine hne (Indexed.eq_of_entry (e := BindingEntry.link l.id) hs hb ?_ ?_)
        · simp [Binding.entries, hsource.1]
        · simp [Binding.entries, ← heq]
      exact ⟨l, (hlinks _).mpr ⟨l, hl, (if_neg hother).symm⟩, hid, hsource, hag⟩
  covered s hs := by
    obtain ⟨l, hl, rfl⟩ := (hlinks s).mp hs
    obtain ⟨r, hr, hsrc⟩ := (ht.covered l hl).resolve_left List.not_mem_nil
    have hid : (if some l.id = b.legacyLinkId then f l else l).id = l.id := by
      split
      · exact (hf l).1
      · rfl
    refine Or.inr ?_
    rw [hid]
    by_cases hrb : r = b
    · exact ⟨g, (hswap g).mpr (Or.inl rfl), hlink.trans (hrb ▸ hsrc)⟩
    · exact ⟨r, (hswap r).mpr (Or.inr ⟨hr, hrb⟩), hsrc⟩
  activeOnce := hactive
  owned _ s hs hs' := by
    rcases (hswap s).mp hs with rfl | ⟨hs, -⟩
    · exact howner hs'
    · obtain ⟨o, ho, hop⟩ := ht.owned hinstalled s hs hs'
      exact ⟨o, howners _ o ho, hop⟩
  bare hi := by
    rw [hinstalled] at hi
    cases hi

theorem Tied.addAccount {profiles : Profiles} {bindings : Bindings}
    {owners : Table Owner Owner.accountId} (ht : Tied exact [] acc)
    (hinstalled : acc.installed = true)
    (hprofiles : ∀ id p, acc.profiles.get? id = some p → profiles.get? id = some p)
    (howners : ∀ a o, acc.owners.get? a = some o → owners.get? a = some o)
    (howner : ∃ o ∈ owners.get? g.accountId, o.profileId = some g.profileId)
    (hbindings : ∀ s, s ∈ bindings ↔ s = g ∨ s ∈ acc.bindings) (hlink : g.legacyLinkId = none) :
    Tied exact [] { acc with profiles, bindings, owners } where
  linked s hs i hi := by
    rcases (hbindings s).mp hs with rfl | hs
    · rw [hlink] at hi
      cases hi
    · obtain ⟨l, hl, hid, ⟨hsrc, hacc, p, hp, hdiscord⟩, hag⟩ := ht.linked s hs i hi
      exact ⟨l, hl, hid, ⟨hsrc, hacc, p, hprofiles _ p hp, hdiscord⟩, hag⟩
  covered l hl := by
    obtain ⟨r, hr, hsrc⟩ := (ht.covered l hl).resolve_left List.not_mem_nil
    exact Or.inr ⟨r, (hbindings r).mpr (Or.inr hr), hsrc⟩
  activeOnce := ht.activeOnce
  owned _ s hs hs' := by
    rcases (hbindings s).mp hs with rfl | hs
    · exact howner
    · obtain ⟨o, ho, hop⟩ := ht.owned hinstalled s hs hs'
      exact ⟨o, howners _ o ho, hop⟩
  bare hi := by
    rw [hinstalled] at hi
    cases hi

theorem Tied.activeBinding (ht : Tied exact [] acc) {l : Link} (hl : l ∈ acc.links)
    (hactive : l.revokedAt = none) : ∃ r ∈ acc.bindings, r.legacyLinkId = some l.id ∧
      r.accountId = l.accountId ∧ r.revokedAt = none := by
  obtain ⟨r, hr, hsrc⟩ := (ht.covered l hl).resolve_left List.not_mem_nil
  obtain ⟨l', hl', hid, ⟨-, haccount, -⟩, hag⟩ := ht.linked r hr l.id hsrc
  cases SerialTable.eq_of_id_eq hl' hl hid
  have hag : Agree exact l r := hag.resolve_left List.not_mem_nil
  exact ⟨r, hr, hsrc, haccount.symm, hag.1.mp hactive⟩

/-- Another active link on the account of a revoked binding would have an active binding of its own,
and the owner has only this one. -/
theorem Tied.activeOnce_restored {f : Link → Link} {links : Links} (ht : Tied exact [] acc)
    (hinstalled : acc.installed = true) (hb : b ∈ acc.bindings)
    (howner : ∀ o ∈ acc.owners.get? b.accountId, o.profileId = some b.profileId)
    (hlinks : ∀ s, s ∈ links ↔ ∃ l ∈ acc.links, s = if some l.id = b.legacyLinkId then f l else l)
    (hf : ∀ l, (f l).id = l.id ∧ (f l).discordId = l.discordId ∧ (f l).accountId = l.accountId) :
    ActiveOnce links := by
  have hother : ∀ l ∈ acc.links, l.revokedAt = none → l.accountId = b.accountId →
      some l.id = b.legacyLinkId := by
    intro l hl hactive hacc
    obtain ⟨r, hr, hsrc, hraccount, hractive⟩ := ht.activeBinding hl hactive
    obtain ⟨o, ho, hop⟩ := ht.owned hinstalled r hr hractive
    have hrp : some r.profileId = some b.profileId :=
      hop.symm.trans (howner o (hraccount.trans hacc ▸ ho))
    have hrb : r = b :=
      Indexed.eq_of_key_eq hr hb (Prod.ext (Option.some.inj hrp) (hraccount.trans hacc))
    exact (hrb ▸ hsrc).symm
  have hsource : ∀ l ∈ acc.links, some l.id = b.legacyLinkId → l.accountId = b.accountId := by
    intro l hl hid
    obtain ⟨l', hl', hid', ⟨-, hacc, -⟩, -⟩ := ht.linked b hb l.id hid.symm
    cases SerialTable.eq_of_id_eq hl' hl hid'
    exact hacc
  intro s hs s' hs' hactive hactive' hacc
  obtain ⟨l, hl, rfl⟩ := (hlinks s).mp hs
  obtain ⟨l', hl', rfl⟩ := (hlinks s').mp hs'
  by_cases hid : some l.id = b.legacyLinkId <;> by_cases hid' : some l'.id = b.legacyLinkId
  · cases SerialTable.eq_of_id_eq hl hl' (Option.some.inj (hid.trans hid'.symm))
    rfl
  · rw [if_pos hid, if_neg hid'] at hacc
    rw [if_neg hid'] at hactive'
    have hb' : l'.accountId = b.accountId := by
      rw [← hacc, (hf l).2.2]
      exact hsource l hl hid
    exact absurd (hother l' hl' hactive' hb') hid'
  · rw [if_neg hid, if_pos hid'] at hacc
    rw [if_neg hid] at hactive
    have hb' : l.accountId = b.accountId := by
      rw [hacc, (hf l').2.2]
      exact hsource l' hl' hid'
    exact absurd (hother l hl hactive hb') hid
  · rw [if_neg hid] at hactive hacc ⊢
    rw [if_neg hid'] at hactive' hacc ⊢
    exact ht.activeOnce l hl l' hl' hactive hactive' hacc

theorem owners_insert {owners owners' : Table Owner Owner.accountId} {o : Owner}
    (h : owners.insert? o = some owners') :
    (∀ a r, owners.get? a = some r → owners'.get? a = some r) ∧
      owners'.get? o.accountId = some o := by
  exact ⟨fun a r hr => Table.insert?_keeps h hr, (Table.get?_insert? h _).trans (if_pos rfl)⟩

end Accounts

namespace Db

open Accounts (Carries Tied Grows Same Swapped owners_insert swapped_of_update?)

variable {exact : Prop} {db db' : Db} {now : ℚ} {linkStamp stamp : Stamp} {current : Current}

/-! ### Binding an account -/

theorem mem_linksOf {links : Links} {i : Option Nat} {f : Link → Link}
    (hid : ∀ l, (f l).id = l.id := by intro _; rfl)
    (hf : ∀ l, ((f l).discordId, (f l).accountId) = (l.discordId, l.accountId) := by
      intro _; rfl) (s : Link) :
    s ∈ links.update (fun l => some l.id = i) f hid hf ↔
      ∃ l ∈ links, s = if some l.id = i then f l else l := by
  rw [SerialTable.mem_update]
  simp only [decide_eq_true_eq]

variable {profileId accountId identifier token key : Nat}

theorem ownAccount_spec (h : db.ownAccount profileId accountId = .ok db')
    (howner : ∀ o ∈ db.owners.get? accountId, o.profileId = some profileId) :
    ∃ owners, db' = { db with owners } ∧
      (∀ a o, db.owners.get? a = some o → owners.get? a = some o) ∧
      ∃ o ∈ owners.get? accountId, o.profileId = some profileId := by
  unfold ownAccount at h
  split at h
  · rename_i o ho
    cases pure_eq_ok.mp h
    exact ⟨db.owners, rfl, fun _ _ h => h, o, ho, howner o ho⟩
  · obtain ⟨owners, hins, h⟩ := bind_eq_ok.mp h
    cases pure_eq_ok.mp h
    obtain ⟨hkept, hnew⟩ := owners_insert (orRaise_eq_ok.mp hins)
    exact ⟨owners, rfl, hkept, _, hnew, rfl⟩

variable {context : GameContext}

theorem bindAccount_owners (h : db.bindAccount linkStamp stamp profileId context = .ok db') :
    db'.owners = db.owners := by
  unfold bindAccount at h
  split at h
  · obtain ⟨_, -, h⟩ := bind_eq_ok.mp h
    obtain ⟨bindings, -, h⟩ := bind_eq_ok.mp h
    cases pure_eq_ok.mp h
    rfl
  · obtain ⟨_, -, h⟩ := bind_eq_ok.mp h
    obtain ⟨bindings, -, h⟩ := bind_eq_ok.mp h
    cases pure_eq_ok.mp h
    rfl

theorem bindAccount_carries
    {owners : Table Owner Owner.accountId} (hinstalled : db.installed = true)
    (howner : ∀ o ∈ db.owners.get? context.accountId, o.profileId = some profileId)
    (hclock : exact → ∀ b ∈ db.bindings.get? (profileId, context.accountId),
      b.legacyLinkId ≠ none → linkStamp = stamp)
    (howners : ∀ a o, db.owners.get? a = some o → owners.get? a = some o)
    (hown : ∃ o ∈ owners.get? context.accountId, o.profileId = some profileId)
    (h : db.bindAccount linkStamp stamp profileId context = .ok db') :
    Carries exact db.toAccounts { db'.toAccounts with owners } := by
  unfold bindAccount at h
  split at h
  · rename_i b hb
    obtain ⟨_, -, h⟩ := bind_eq_ok.mp h
    obtain ⟨bindings, hupd, h⟩ := bind_eq_ok.mp h
    cases pure_eq_ok.mp h
    obtain ⟨hmem, hkey⟩ := Indexed.get?_eq_some.mp hb
    have hprofile : b.profileId = profileId := congrArg Prod.fst hkey
    have haccount : b.accountId = context.accountId := congrArg Prod.snd hkey
    have hswap := swapped_of_update? hmem (orRaise_eq_ok.mp hupd)
    refine fun ht => ⟨?_, fun _ _ h => h, howners, ?_, le_rfl, fun h => h⟩
    · refine ht.retime (f := fun l => { l with revokedAt := none, linkedAt := linkStamp })
        hinstalled hmem hswap rfl rfl rfl mem_linksOf (fun l => ⟨rfl, rfl, rfl⟩)
        (fun l hl _ => ?_) ?_ howners (fun _ => ?_)
      · refine ⟨Iff.rfl, fun hexact => ⟨?_, rfl⟩⟩
        refine hclock hexact b hb ?_
        rw [hl]
        exact Option.some_ne_none _
      · exact ht.activeOnce_restored hinstalled hmem (haccount ▸ hprofile ▸ howner) mem_linksOf
          (fun l => ⟨rfl, rfl, rfl⟩)
      · rw [haccount, hprofile]
        exact hown
    · exact hswap.kept rfl rfl ⟨rfl, Or.inr (Nat.lt_succ_self _)⟩
  · obtain ⟨_, -, h⟩ := bind_eq_ok.mp h
    obtain ⟨bindings, hins, h⟩ := bind_eq_ok.mp h
    cases pure_eq_ok.mp h
    have hins := orRaise_eq_ok.mp hins
    refine fun ht => ⟨?_, fun _ _ h => h, howners, fun k r hr => ⟨r, ?_, Later.refl r⟩, le_rfl,
      fun h => h⟩
    · exact ht.addAccount hinstalled (fun _ _ h => h) howners hown (Indexed.insert?_spec hins).1 rfl
    · exact Indexed.insert?_keeps hins hr

variable {binding name password : String} {purpose : Purpose}

theorem challengeRow_spec {profileId : Option Nat} {c : Challenge}
    (h : db.challengeRow now identifier binding purpose profileId = .ok c) :
    db.challenges.get? identifier = some c := by
  obtain ⟨c', hc, h⟩ := bind_eq_ok.mp h
  obtain ⟨_, -, h⟩ := bind_eq_ok.mp h
  cases pure_eq_ok.mp h
  exact orRaise_eq_ok.mp hc

theorem verifiedGameTicket_spec {profileId : Option Nat} {ticket : Challenge}
    (h : db.verifiedGameTicket now identifier binding purpose profileId = .ok (ticket, context)) :
    db.challenges.get? identifier = some ticket ∧ ticket.context = .game context := by
  obtain ⟨c, hc, h⟩ := bind_eq_ok.mp h
  obtain ⟨_, -, h⟩ := bind_eq_ok.mp h
  obtain ⟨_, -, h⟩ := bind_eq_ok.mp h
  split at h
  · rename_i hcontext
    cases h
    exact ⟨challengeRow_spec hc, hcontext⟩
  · cases h

theorem seatSession_spec (h : db.seatSession current accountId = .ok db') :
    ∃ sessions, db' = { db with sessions } := by
  unfold seatSession at h
  split at h
  · obtain ⟨_, -, h⟩ := bind_eq_ok.mp h
    exact ⟨_, (pure_eq_ok.mp h).symm⟩
  · exact ⟨_, (pure_eq_ok.mp h).symm⟩

theorem linkVerifiedGame_carries (hinstalled : db.installed = true)
    (hclock : exact → ∀ c ∈ db.challenges.get? identifier, ∀ context, c.context = .game context →
      ∀ b ∈ db.bindings.get? (current.pid, context.accountId),
        b.legacyLinkId ≠ none → linkStamp = stamp)
    (h : db.linkVerifiedGame now linkStamp stamp current identifier binding = .ok db') :
    Carries exact db.toAccounts db'.toAccounts := by
  obtain ⟨_, -, h⟩ := bind_eq_ok.mp h
  obtain ⟨⟨ticket, context⟩, hticket, h⟩ := bind_eq_ok.mp h
  obtain ⟨_, howner, h⟩ := bind_eq_ok.mp h
  obtain ⟨bound, hbound, h⟩ := bind_eq_ok.mp h
  obtain ⟨owned, howned, h⟩ := bind_eq_ok.mp h
  obtain ⟨seated, hseated, h⟩ := bind_eq_ok.mp h
  cases pure_eq_ok.mp h
  obtain ⟨_, rfl⟩ := seatSession_spec hseated
  have howner := require_eq_ok.mp howner
  obtain ⟨hget, hcontext⟩ := verifiedGameTicket_spec hticket
  obtain ⟨owners, rfl, hkept, hown⟩ := ownAccount_spec howned (bindAccount_owners hbound ▸ howner)
  exact bindAccount_carries hinstalled howner
    (fun hexact => hclock hexact ticket hget context hcontext)
    (bindAccount_owners hbound ▸ hkept) hown hbound

/-! ### Unbinding an account -/

theorem reseatSession_spec (current : Current) (accountId : Nat) (db : Db) :
    ∃ sessions, db.reseatSession current accountId = { db with sessions } := by
  unfold reseatSession
  split
  · exact ⟨_, rfl⟩
  · exact ⟨_, rfl⟩

theorem unlinkAccount_spec
    (h : db.unlinkAccount now linkStamp stamp current accountId = .ok db') :
    ∃ b bindings, db.requireRecent now current.pid current = .ok () ∧
      db.bindings.get? (current.pid, accountId) = some b ∧
      db.bindings.update? (fun r => r.profileId = b.profileId ∧ r.accountId = b.accountId)
        (fun r => { r with revokedAt := some stamp, sessionVersion := r.sessionVersion + 1 }) =
          some bindings ∧
      db' = Db.reseatSession current accountId { db with
        links := db.links.revoke (fun l => some l.id = b.legacyLinkId) linkStamp
        bindings
        sessions := db.sessions.revoke
          (fun s => s.profileId = current.pid ∧ s.accountId = accountId ∧ s.id ≠ current.sid)
          now } := by
  obtain ⟨_, hrecent, h⟩ := bind_eq_ok.mp h
  obtain ⟨b, hb, h⟩ := bind_eq_ok.mp h
  obtain ⟨_, -, h⟩ := bind_eq_ok.mp h
  obtain ⟨revoked, hrevoked, h⟩ := bind_eq_ok.mp h
  obtain ⟨bindings, hupd, hrevoked⟩ := bind_eq_ok.mp hrevoked
  cases pure_eq_ok.mp hrevoked
  exact ⟨b, bindings, hrecent, orRaise_eq_ok.mp hb, orRaise_eq_ok.mp hupd, (pure_eq_ok.mp h).symm⟩

theorem unlinkAccount_carries (hinstalled : db.installed = true)
    (hclock : exact → ∀ b ∈ db.bindings.get? (current.pid, accountId),
      b.legacyLinkId ≠ none → linkStamp = stamp)
    (h : db.unlinkAccount now linkStamp stamp current accountId = .ok db') :
    Carries exact db.toAccounts db'.toAccounts := by
  obtain ⟨b, bindings, -, hb, hupd, rfl⟩ := unlinkAccount_spec h
  obtain ⟨_, hseat⟩ := reseatSession_spec current accountId _
  rw [hseat]
  have hmem := Indexed.mem_of_get? hb
  have hswap := swapped_of_update? hmem hupd
  refine fun ht => ⟨?_, fun _ _ h => h, fun _ _ h => h,
    hswap.kept rfl rfl ⟨rfl, Or.inr (Nat.lt_succ_self _)⟩, le_rfl, fun h => h⟩
  refine ht.retime (f := fun l => { l with revokedAt := some linkStamp }) hinstalled hmem hswap rfl
    rfl rfl mem_linksOf (fun l => ⟨rfl, rfl, rfl⟩) (fun l hl hag => ?_) ?_ (fun _ _ h => h)
    (fun h => by cases h)
  · refine ⟨by simp, fun hexact => ⟨(hag.2 hexact).1, congrArg some ?_⟩⟩
    refine hclock hexact b hb ?_
    rw [hl]
    exact Option.some_ne_none _
  · have hstill : ∀ s ∈ db.links.update (fun l => some l.id = b.legacyLinkId)
        (fun l => { l with revokedAt := some linkStamp }), s.revokedAt = none → s ∈ db.links := by
      intro s hs hactive
      obtain ⟨l, hl, rfl⟩ := (mem_linksOf (s := s)).mp hs
      split at hactive
      · cases hactive
      · rename_i hother
        rwa [if_neg hother]
    intro s hs s' hs' hactive hactive'
    exact ht.activeOnce s (hstill s hs hactive) s' (hstill s' hs' hactive') hactive hactive'

/-! ### Profiles that begin in the game -/

theorem bootstrapProfile_spec {ticket : Challenge}
    (h : db.bootstrapProfile now stamp ticket context name = .ok db') :
    ∃ profiles users owners bindings,
      db.profiles.insert? ⟨context.profileId, none, none⟩ = some profiles ∧
      db.owners.insert? ⟨context.accountId, some context.profileId⟩ = some owners ∧
      db.bindings.insert? ⟨context.profileId, context.accountId, none, stamp, none, 2,
        context.characterName⟩ = some bindings ∧
      db' = markConsumed now ticket.id { db with profiles, users, owners, bindings } := by
  obtain ⟨_, -, h⟩ := bind_eq_ok.mp h
  obtain ⟨profiles, hprofiles, h⟩ := bind_eq_ok.mp h
  obtain ⟨users, -, h⟩ := bind_eq_ok.mp h
  obtain ⟨owners, howners, h⟩ := bind_eq_ok.mp h
  obtain ⟨bindings, hbindings, h⟩ := bind_eq_ok.mp h
  obtain ⟨_, -, h⟩ := bind_eq_ok.mp h
  exact ⟨profiles, users, owners, bindings, orRaise_eq_ok.mp hprofiles, orRaise_eq_ok.mp howners,
    orRaise_eq_ok.mp hbindings, (pure_eq_ok.mp h).symm⟩

theorem bootstrapProfile_carries {ticket : Challenge} (hinstalled : db.installed = true)
    (h : db.bootstrapProfile now stamp ticket context name = .ok db') :
    Carries exact db.toAccounts db'.toAccounts := by
  obtain ⟨profiles, _, owners, bindings, hprofiles, howners, hbindings, rfl⟩ :=
    bootstrapProfile_spec h
  obtain ⟨hkept, hnew⟩ := owners_insert howners
  have hstay : ∀ id p, db.profiles.get? id = some p → profiles.get? id = some p :=
    fun id p hp => Indexed.insert?_keeps hprofiles hp
  refine fun ht => ⟨ht.addAccount hinstalled hstay hkept ⟨_, hnew, rfl⟩
    (Indexed.insert?_spec hbindings).1 rfl, hstay, hkept, fun k r hr => ⟨r, ?_, Later.refl r⟩,
    le_rfl, fun h => h⟩
  exact Indexed.insert?_keeps hbindings hr

/-! ### The versions of a profile -/

theorem mem_bumpVersions {s : Binding} :
    s ∈ (db.bumpVersions profileId).bindings ↔ ∃ r ∈ db.bindings,
      s = if r.profileId = profileId ∧ r.revokedAt = none
        then { r with sessionVersion := r.sessionVersion + 1 } else r := by
  unfold bumpVersions
  dsimp only
  rw [Indexed.mem_update]
  simp only [decide_eq_true_eq]

theorem get?_bumpVersions (profileId : Nat) (db : Db) (k : Nat × Nat) :
    (db.bumpVersions profileId).bindings.get? k = (db.bindings.get? k).map (fun b =>
      if b.profileId = profileId ∧ b.revokedAt = none
        then { b with sessionVersion := b.sessionVersion + 1 } else b) := by
  refine (Indexed.get?_update db.bindings (fun b => b.profileId = profileId ∧ b.revokedAt = none)
    (fun b => { b with sessionVersion := b.sessionVersion + 1 }) (fun _ => rfl)
    (fun b => b.entries_version _) k).trans ?_
  simp only [decide_eq_true_eq]

theorem bumpVersions_carries (profileId : Nat) (db : Db) :
    Carries exact db.toAccounts (db.bumpVersions profileId).toAccounts := by
  have hrows : ∀ s ∈ (db.bumpVersions profileId).bindings, ∃ r ∈ db.bindings,
      s.legacyLinkId = r.legacyLinkId ∧ s.profileId = r.profileId ∧ s.accountId = r.accountId ∧
        s.linkedAt = r.linkedAt ∧ s.revokedAt = r.revokedAt := by
    intro s hs
    obtain ⟨r, hr, rfl⟩ := mem_bumpVersions.mp hs
    refine ⟨r, hr, ?_⟩
    split <;> exact ⟨rfl, rfl, rfl, rfl, rfl⟩
  have hkept : ∀ k b, db.bindings.get? k = some b →
      ∃ b', (db.bumpVersions profileId).bindings.get? k = some b' ∧ Later b b' := by
    intro k b hb
    refine ⟨_, (get?_bumpVersions profileId db k).trans (congrArg _ hb), ?_⟩
    dsimp only
    split
    · exact ⟨rfl, Or.inr (Nat.lt_succ_self _)⟩
    · exact Later.refl b
  refine fun ht => ⟨⟨?_, ?_, ht.activeOnce, ?_, ht.bare⟩, fun _ _ h => h, fun _ _ h => h, hkept,
    le_rfl, fun h => h⟩
  · intro s hs i hi
    obtain ⟨r, hr, hlink, hprofile, haccount, hlinked, hrevoked⟩ := hrows s hs
    obtain ⟨l, hl, hid, ⟨hsrc, hacc, hp⟩, hag⟩ := ht.linked r hr i (hlink ▸ hi)
    refine ⟨l, hl, hid, ⟨hlink.trans hsrc, hacc.trans haccount.symm, hprofile ▸ hp⟩, ?_⟩
    unfold Agree at hag ⊢
    rwa [hlinked, hrevoked]
  · intro l hl
    obtain ⟨r, hr, hsrc⟩ := (ht.covered l hl).resolve_left List.not_mem_nil
    obtain ⟨r', hr', hlater, -⟩ := hkept _ r (Indexed.get?_eq_some.mpr ⟨hr, rfl⟩)
    exact Or.inr ⟨r', Indexed.mem_of_get? hr', hlater.trans hsrc⟩
  · intro hi s hs hactive
    obtain ⟨r, hr, -, hprofile, haccount, -, hrevoked⟩ := hrows s hs
    rw [haccount, hprofile]
    exact ht.owned hi r hr (hrevoked.symm.trans hactive)

theorem dropCredential_spec {method : Removal}
    (h : db.dropCredential now profileId method = .ok db') :
    (method = .password ∧ db' = { db with
      passwords := db.passwords.update (fun p => p.profileId = profileId ∧ p.revokedAt = none)
        (fun p => { p with revokedAt := some now }) }) ∨
    (∃ id, method = .passkey id ∧ db' = { db with
      passkeys := db.passkeys.update
        (fun k => k.profileId = profileId ∧ k.id = id ∧ k.revokedAt = none)
        (fun k => { k with revokedAt := some now }) }) ∨
    (method = .discord ∧ ∃ providers, db.providers.update?
      (fun v => v.profileId = profileId ∧ v.revokedAt = none)
      (fun v => { v with revokedAt := some now }) = some providers ∧
      db' = bumpVersions profileId { db with providers }) := by
  unfold dropCredential at h
  cases method with
  | password =>
    obtain ⟨_, -, h⟩ := bind_eq_ok.mp h
    exact Or.inl ⟨rfl, (pure_eq_ok.mp h).symm⟩
  | passkey id =>
    obtain ⟨_, -, h⟩ := bind_eq_ok.mp h
    exact Or.inr (Or.inl ⟨id, rfl, (pure_eq_ok.mp h).symm⟩)
  | discord =>
    obtain ⟨_, -, h⟩ := bind_eq_ok.mp h
    obtain ⟨providers, hupd, h⟩ := bind_eq_ok.mp h
    exact Or.inr (Or.inr ⟨rfl, providers, orRaise_eq_ok.mp hupd, (pure_eq_ok.mp h).symm⟩)

theorem dropCredential_carries {method : Removal}
    (h : db.dropCredential now profileId method = .ok db') :
    Carries exact db.toAccounts db'.toAccounts := by
  obtain ⟨-, rfl⟩ | ⟨id, -, rfl⟩ | ⟨-, providers, -, rfl⟩ := dropCredential_spec h
  · exact Carries.refl _
  · exact Carries.refl _
  · have hproviders : Same db.toAccounts { db.toAccounts with providers } :=
      ⟨rfl, rfl, rfl, rfl, rfl, le_rfl⟩
    exact hproviders.carries.trans (bumpVersions_carries profileId { db with providers })

theorem revokeMethod_spec {method : Option Removal}
    (h : db.revokeMethod now profileId current method = .ok db') :
    ∃ r dropped, method = some r ∧ 1 < db.usableMethods profileId ∧
      db.dropCredential now profileId r = .ok dropped ∧
      db' = dropped.revokeSessions now profileId (fun s => r.covers s.credential) := by
  obtain ⟨_, -, h⟩ := bind_eq_ok.mp h
  obtain ⟨_, hcount, h⟩ := bind_eq_ok.mp h
  obtain ⟨r, hr, h⟩ := bind_eq_ok.mp h
  obtain ⟨dropped, hdropped, h⟩ := bind_eq_ok.mp h
  exact ⟨r, dropped, orRaise_eq_ok.mp hr, require_eq_ok.mp hcount, hdropped,
    (pure_eq_ok.mp h).symm⟩

theorem revokeMethod_carries {method : Option Removal}
    (h : db.revokeMethod now profileId current method = .ok db') :
    Carries exact db.toAccounts db'.toAccounts := by
  obtain ⟨r, dropped, -, -, hdropped, rfl⟩ := revokeMethod_spec h
  have hcarries : Carries exact db.toAccounts dropped.toAccounts := dropCredential_carries hdropped
  exact hcarries

/-! ### Operations that leave the accounts alone -/

theorem ensureUser_same (h : db.ensureUser profileId = .ok db') :
    ∃ users, db' = { db with users } := by
  unfold ensureUser at h
  split at h
  · exact ⟨db.users, (pure_eq_ok.mp h).symm⟩
  · obtain ⟨users, -, h⟩ := bind_eq_ok.mp h
    exact ⟨users, (pure_eq_ok.mp h).symm⟩

def SessionsOnly (db db' : Db) : Prop :=
  ∃ sessions users drawn, db.drawn ≤ drawn ∧ db' = { db with sessions, users, drawn }

theorem SessionsOnly.refl (db : Db) : db.SessionsOnly db := ⟨_, _, _, le_rfl, rfl⟩

theorem SessionsOnly.same (h : db.SessionsOnly db') : Same db.toAccounts db'.toAccounts := by
  obtain ⟨_, _, _, hdrawn, rfl⟩ := h
  exact ⟨rfl, rfl, rfl, rfl, rfl, hdrawn⟩

theorem SessionsOnly.challenges (h : db.SessionsOnly db') : db'.challenges = db.challenges := by
  obtain ⟨_, _, _, -, rfl⟩ := h
  rfl

theorem insertSession_sessionsOnly {linkVersion : Nat} {credential : Credential} {authAt : ℚ}
    (h : db.insertSession now profileId credential authAt accountId linkVersion = .ok (token, db')) :
    db.SessionsOnly db' := by
  obtain ⟨sessions, -, h⟩ := bind_eq_ok.mp h
  cases pure_eq_ok.mp h
  exact ⟨_, _, _, Nat.le_add_right _ _, rfl⟩

theorem createSession_sessionsOnly {credential : Credential} {authAt : Option ℚ}
    {accountId : Option Nat}
    (h : db.createSession now profileId credential authAt accountId = .ok (token, db')) :
    db.SessionsOnly db' := by
  obtain ⟨_, -, h⟩ := bind_eq_ok.mp h
  obtain ⟨_, -, h⟩ := bind_eq_ok.mp h
  obtain ⟨mid, hmid, h⟩ := bind_eq_ok.mp h
  obtain ⟨users, rfl⟩ := ensureUser_same hmid
  dsimp only at h
  split at h
  · obtain ⟨_, _, _, hdrawn, rfl⟩ := insertSession_sessionsOnly h
    exact ⟨_, _, _, hdrawn, rfl⟩
  · obtain ⟨context, -, h⟩ := bind_eq_ok.mp h
    obtain ⟨_, _, _, hdrawn, rfl⟩ := insertSession_sessionsOnly h
    exact ⟨_, _, _, hdrawn, rfl⟩

theorem rotate_sessionsOnly {id : Nat} {f : Session → Session} {hf : ∀ s, (f s).id = s.id}
    (h : db.rotate id f hf = .ok (token, db')) : db.SessionsOnly db' := by
  obtain ⟨sessions, -, h⟩ := bind_eq_ok.mp h
  cases pure_eq_ok.mp h
  exact ⟨_, _, _, Nat.le_succ _, rfl⟩

theorem session_sessionsOnly (token : Nat) (db : Db) :
    db.SessionsOnly (db.session now token).2 := by
  unfold session
  split
  · exact .refl db
  · split
    · unfold touch
      split
      · exact ⟨_, _, _, le_rfl, rfl⟩
      · exact .refl db
    · exact .refl db

theorem setPassword_sessionsOnly
    (h : db.setPassword now profileId current name password = .ok (token, db')) :
    ∃ passwords, SessionsOnly { db with passwords } db' := by
  obtain ⟨_, -, h⟩ := bind_eq_ok.mp h
  obtain ⟨users, -, h⟩ := bind_eq_ok.mp h
  obtain ⟨_, _, _, hdrawn, rfl⟩ := rotate_sessionsOnly h
  exact ⟨_, _, _, _, hdrawn, rfl⟩

theorem switchSession_sessionsOnly
    (h : db.switchSession now current accountId = .ok (token, db')) : db.SessionsOnly db' := by
  obtain ⟨_, -, h⟩ := bind_eq_ok.mp h
  obtain ⟨_, -, h⟩ := bind_eq_ok.mp h
  obtain ⟨_, -, h⟩ := bind_eq_ok.mp h
  exact rotate_sessionsOnly h

theorem revokeSession_sessionsOnly {targetId : Nat}
    (h : db.revokeSession now profileId current targetId = .ok db') : db.SessionsOnly db' := by
  obtain ⟨_, -, h⟩ := bind_eq_ok.mp h
  obtain ⟨_, -, h⟩ := bind_eq_ok.mp h
  cases pure_eq_ok.mp h
  exact ⟨_, _, _, le_rfl, rfl⟩

theorem newChallenge_same {profileId : Option Nat}
    {context : Context} {code : Option String} {id : Nat}
    (h : db.newChallenge now purpose binding profileId context code = .ok (id, db')) :
    ∃ challenges, db' = { db with challenges, drawn := db.drawn + 1 } := by
  obtain ⟨challenges, -, h⟩ := bind_eq_ok.mp h
  cases pure_eq_ok.mp h
  exact ⟨challenges, rfl⟩

theorem consumeChallenge_same {profileId : Option Nat} {c : Challenge}
    (h : db.consumeChallenge now identifier binding purpose profileId = .ok (c, db')) :
    db' = db.markConsumed now identifier := by
  obtain ⟨_, -, h⟩ := bind_eq_ok.mp h
  cases pure_eq_ok.mp h
  rfl

theorem verifyGameCode_same {code : String} {profileId : Option Nat} {good : Bool}
    (h : db.verifyGameCode now identifier binding code purpose profileId = .ok (good, db')) :
    ∃ challenges, db' = { db with challenges } := by
  obtain ⟨_, -, h⟩ := bind_eq_ok.mp h
  obtain ⟨_, -, h⟩ := bind_eq_ok.mp h
  cases pure_eq_ok.mp h
  exact ⟨_, rfl⟩

theorem storePasskey_same {e : Refusal}
    (h : db.storePasskey profileId key e = .ok db') : ∃ passkeys,
      db.passkeys.insert? ⟨key, profileId, 0, none⟩ = some passkeys ∧ db' = { db with passkeys } := by
  obtain ⟨_, -, h⟩ := bind_eq_ok.mp h
  obtain ⟨passkeys, hins, h⟩ := bind_eq_ok.mp h
  exact ⟨passkeys, orRaise_eq_ok.mp hins, (pure_eq_ok.mp h).symm⟩

theorem registerPasskey_sessionsOnly (h : db.registerPasskey now current key = .ok (token, db')) :
    ∃ passkeys, db.passkeys.insert? ⟨key, current.pid, 0, none⟩ = some passkeys ∧
      SessionsOnly { db with passkeys } db' := by
  obtain ⟨_, -, h⟩ := bind_eq_ok.mp h
  obtain ⟨mid, hmid, h⟩ := bind_eq_ok.mp h
  obtain ⟨passkeys, hins, rfl⟩ := storePasskey_same hmid
  obtain ⟨_, _, _, hdrawn, rfl⟩ := rotate_sessionsOnly h
  exact ⟨passkeys, hins, _, _, _, hdrawn, rfl⟩

theorem linkDiscord_same {discordId : String} (h : db.linkDiscord now current discordId = .ok db') :
    ∃ providers, db' = { db with providers } := by
  obtain ⟨_, -, h⟩ := bind_eq_ok.mp h
  obtain ⟨_, -, h⟩ := bind_eq_ok.mp h
  obtain ⟨_, -, h⟩ := bind_eq_ok.mp h
  obtain ⟨_, -, h⟩ := bind_eq_ok.mp h
  obtain ⟨providers, -, h⟩ := bind_eq_ok.mp h
  exact ⟨providers, (pure_eq_ok.mp h).symm⟩

/-! ### One action -/

theorem after_carries {r : Except Refusal Db}
    (h : ∀ db', r = .ok db' → Carries exact db.toAccounts db'.toAccounts) :
    Carries exact db.toAccounts (db.after r).toAccounts := by
  cases r with
  | error e => exact Carries.refl _
  | ok db' => exact h db' rfl

theorem afterWith_carries {α : Type} {r : Except Refusal (α × Db)}
    (h : ∀ x db', r = .ok (x, db') → Carries exact db.toAccounts db'.toAccounts) :
    Carries exact db.toAccounts (db.afterWith r).toAccounts := by
  cases r with
  | error e => exact Carries.refl _
  | ok p => exact h p.1 p.2 rfl

theorem settle_carries {α : Type} {mid : Db} {r : Except Refusal (α × Db)}
    (hmid : Carries exact db.toAccounts mid.toAccounts)
    (h : ∀ x db', r = .ok (x, db') → Carries exact db.toAccounts db'.toAccounts) :
    Carries exact db.toAccounts (settle r mid).2.toAccounts := by
  cases r with
  | error e => exact hmid
  | ok p => exact h p.1 p.2 rfl

theorem discordLogin_sessionsOnly {discordId : String} {profileId accountId : Option Nat}
    (h : db.discordLogin now discordId profileId accountId = .ok (token, db')) :
    db.SessionsOnly db' := by
  obtain ⟨_, -, h⟩ := bind_eq_ok.mp h
  obtain ⟨_, -, h⟩ := bind_eq_ok.mp h
  exact createSession_sessionsOnly h

theorem passwordLogin_sessionsOnly {profileId : Option Nat}
    (h : db.passwordLogin now name password profileId = .ok (token, db')) :
    db.SessionsOnly db' := by
  obtain ⟨_, -, h⟩ := bind_eq_ok.mp h
  obtain ⟨_, -, h⟩ := bind_eq_ok.mp h
  obtain ⟨_, -, h⟩ := bind_eq_ok.mp h
  obtain ⟨_, -, h⟩ := bind_eq_ok.mp h
  exact createSession_sessionsOnly h

theorem finishAuthentication_carries (binding : String) (identifier : Nat) (profileId : Option Nat)
    (keyId : Nat) (verified : Option Nat) : Carries exact db.toAccounts
      (db.finishAuthentication now binding identifier profileId keyId verified).2.toAccounts := by
  unfold finishAuthentication
  split
  · exact Carries.refl _
  · rename_i c mid hconsumed
    cases consumeChallenge_same hconsumed
    refine settle_carries (Carries.refl _) (fun token db' h => ?_)
    obtain ⟨_, -, h⟩ := bind_eq_ok.mp h
    obtain ⟨k, -, h⟩ := bind_eq_ok.mp h
    obtain ⟨_, -, h⟩ := bind_eq_ok.mp h
    obtain ⟨_, -, h⟩ := bind_eq_ok.mp h
    have hsame := (createSession_sessionsOnly h).same
    exact hsame.carries

theorem finishRegistration_carries (current : Current) (binding : String) (identifier : Nat)
    (verified : Option Nat) : Carries exact db.toAccounts
      (db.finishRegistration now current binding identifier verified).2.toAccounts := by
  unfold finishRegistration
  dsimp only
  split
  · exact Carries.refl _
  · rename_i c mid hconsumed
    obtain ⟨_, -, hconsumed⟩ := bind_eq_ok.mp hconsumed
    cases consumeChallenge_same hconsumed
    refine settle_carries (Carries.refl _) (fun token db' h => ?_)
    obtain ⟨_, -, h⟩ := bind_eq_ok.mp h
    obtain ⟨_, -, h⟩ := bind_eq_ok.mp h
    obtain ⟨passkeys, -, hsessions⟩ := registerPasskey_sessionsOnly h
    have hsame := hsessions.same
    exact hsame.carries

theorem bootstrapPassword_carries (hinstalled : db.installed = true)
    (h : db.bootstrapPassword now stamp identifier binding name password = .ok (token, db')) :
    Carries exact db.toAccounts db'.toAccounts := by
  obtain ⟨⟨ticket, context⟩, -, h⟩ := bind_eq_ok.mp h
  obtain ⟨begun, hbegun, h⟩ := bind_eq_ok.mp h
  obtain ⟨passwords, -, h⟩ := bind_eq_ok.mp h
  have hsame := (createSession_sessionsOnly h).same
  exact (bootstrapProfile_carries hinstalled hbegun).trans hsame.carries

theorem bootstrapWithKey_carries {gameTicket : Nat} (hinstalled : db.installed = true)
    (h : db.bootstrapWithKey now stamp binding context name gameTicket key = .ok (token, db')) :
    Carries exact db.toAccounts db'.toAccounts := by
  obtain ⟨⟨ticket, original⟩, -, h⟩ := bind_eq_ok.mp h
  obtain ⟨_, -, h⟩ := bind_eq_ok.mp h
  obtain ⟨begun, hbegun, h⟩ := bind_eq_ok.mp h
  obtain ⟨stored, hstored, h⟩ := bind_eq_ok.mp h
  obtain ⟨passkeys, -, rfl⟩ := storePasskey_same hstored
  have hsame := (createSession_sessionsOnly h).same
  exact (bootstrapProfile_carries hinstalled hbegun).trans hsame.carries

theorem bootstrapPasskey_carries (identifier : Nat) (binding : String) (verified : Option Nat)
    (hinstalled : db.installed = true) : Carries exact db.toAccounts
      (db.bootstrapPasskey now stamp identifier binding verified).2.toAccounts := by
  unfold bootstrapPasskey
  dsimp only
  split
  · exact Carries.refl _
  · rename_i c mid hconsumed
    obtain ⟨_, -, hconsumed⟩ := bind_eq_ok.mp hconsumed
    cases consumeChallenge_same hconsumed
    split
    · refine settle_carries (Carries.refl _) (fun token db' h => ?_)
      obtain ⟨_, -, h⟩ := bind_eq_ok.mp h
      have hinstalled' : (markConsumed now identifier db).installed = true := hinstalled
      have hcarries : Carries exact (markConsumed now identifier db).toAccounts db'.toAccounts :=
        bootstrapWithKey_carries hinstalled' h
      exact hcarries
    · exact Carries.refl _

/-- The links of the item, the tables that follow them, and the sessions that are repointed. -/
theorem applyItem_spec {item : RelinkItem} (h : db.applyItem stamp item = .ok db') :
    ∃ change acc, db.beginLegacyLinks item.discordId item.move = .ok change ∧
      Accounts.finishLegacyLinks change
        { db.toAccounts with links := item.links stamp db.links } = .ok acc ∧
      (db' = { db with toAccounts := acc } ∨
        ∃ b, Db.relinkTarget { db with toAccounts := acc } item = some b ∧
          db' = Db.repointSessions b.profileId item.old item.new b.sessionVersion
            { db with toAccounts := acc }) := by
  obtain ⟨change, hbegin, h⟩ := bind_eq_ok.mp h
  obtain ⟨_, -, h⟩ := bind_eq_ok.mp h
  obtain ⟨acc, hfinish, h⟩ := bind_eq_ok.mp h
  refine ⟨change, acc, hbegin, hfinish, ?_⟩
  dsimp only at h
  split at h
  · rename_i b hb
    exact Or.inr ⟨b, hb, (pure_eq_ok.mp h).symm⟩
  · exact Or.inl (pure_eq_ok.mp h).symm

theorem applyItem_carries {item : RelinkItem} (h : db.applyItem stamp item = .ok db') :
    Carries exact db.toAccounts db'.toAccounts := by
  obtain ⟨change, acc, hbegin, hfinish, hdb⟩ := applyItem_spec h
  obtain ⟨_, -, hbegin⟩ := bind_eq_ok.mp hbegin
  obtain ⟨_, -, hbegin⟩ := bind_eq_ok.mp hbegin
  cases pure_eq_ok.mp hbegin
  have hacc : db'.toAccounts = acc := by
    rcases hdb with rfl | ⟨b, -, rfl⟩ <;> rfl
  rw [hacc]
  exact fun ht => Accounts.finishLegacyLinks_tied ht rfl hfinish

theorem install_carries (db : Db) : Carries exact db.toAccounts db.install.toAccounts := by
  unfold install
  split
  · exact Carries.refl _
  · rename_i hbare
    exact fun ht => Accounts.install_tied ht (Bool.eq_false_iff.mpr hbare)

end Db

open Accounts (Carries Tied Grows)

theorem AuthOp.run_carries {exact : Prop} {w : World} {a : Action} {op : AuthOp}
    (hop : a.op = .auth op) (hinstalled : w.db.installed = true) (hclock : exact → OneSecond w a) :
    Carries exact w.db.toAccounts (op.run a.now a.linkStamp a.stamp w.db).toAccounts := by
  unfold OneSecond at hclock
  rw [hop] at hclock
  cases op with
  | newChallenge purpose binding profileId context code =>
    refine Db.afterWith_carries (fun x db' h => ?_)
    obtain ⟨challenges, rfl⟩ := Db.newChallenge_same h
    exact Accounts.Same.carries ⟨rfl, rfl, rfl, rfl, rfl, Nat.le_succ _⟩
  | verifyGameCode identifier binding code purpose profileId =>
    refine Db.afterWith_carries (fun x db' h => ?_)
    obtain ⟨challenges, rfl⟩ := Db.verifyGameCode_same h
    exact Carries.refl _
  | session token => exact (Db.session_sessionsOnly token w.db).same.carries
  | discordLogin discordId profileId accountId =>
    exact Db.afterWith_carries (fun x db' h => (Db.discordLogin_sessionsOnly h).same.carries)
  | passwordLogin name password profileId =>
    exact Db.afterWith_carries (fun x db' h => (Db.passwordLogin_sessionsOnly h).same.carries)
  | finishAuthentication binding identifier profileId keyId verified =>
    exact Db.finishAuthentication_carries binding identifier profileId keyId verified
  | bootstrapPassword identifier binding name password =>
    exact Db.afterWith_carries (fun x db' h => Db.bootstrapPassword_carries hinstalled h)
  | bootstrapPasskey identifier binding verified =>
    exact Db.bootstrapPasskey_carries identifier binding verified hinstalled
  | setPassword profileId current name password =>
    refine Db.afterWith_carries (fun x db' h => ?_)
    obtain ⟨passwords, hsessions⟩ := Db.setPassword_sessionsOnly h
    have hsame := hsessions.same
    exact hsame.carries
  | finishRegistration current binding identifier verified =>
    exact Db.finishRegistration_carries current binding identifier verified
  | revokeMethod profileId current method =>
    exact Db.after_carries (fun db' h => Db.revokeMethod_carries h)
  | switchSession current accountId =>
    exact Db.afterWith_carries (fun x db' h => (Db.switchSession_sessionsOnly h).same.carries)
  | revokeSession profileId current targetId =>
    exact Db.after_carries (fun db' h => (Db.revokeSession_sessionsOnly h).same.carries)
  | linkVerifiedGame current identifier binding =>
    refine Db.after_carries (fun db' h => Db.linkVerifiedGame_carries hinstalled ?_ h)
    intro hexact c hc context hcontext b hb hlink
    refine hclock hexact (current.pid, context.accountId) ?_ b hb hlink
    exact Option.bind_eq_some_iff.mpr ⟨c, hc, by rw [hcontext]⟩
  | unlinkAccount current accountId =>
    refine Db.after_carries (fun db' h => Db.unlinkAccount_carries hinstalled ?_ h)
    exact fun hexact b hb hlink => hclock hexact (current.pid, accountId) rfl b hb hlink
  | linkDiscord current discordId =>
    refine Db.after_carries (fun db' h => ?_)
    obtain ⟨providers, rfl⟩ := Db.linkDiscord_same h
    exact Accounts.Same.carries ⟨rfl, rfl, rfl, rfl, rfl, le_rfl⟩

theorem Action.run_carries {exact : Prop} {w : World} {a : Action}
    (hclock : exact → OneSecond w a) :
    Carries exact w.db.toAccounts (a.run w.db).toAccounts := by
  unfold Action.run
  split
  · refine Db.after_carries (fun db' h => ?_)
    obtain ⟨acc, hchange, rfl⟩ := map_eq_ok.mp h
    exact fun ht => Accounts.legacyChange_tied ht hchange
  · exact Db.after_carries (fun db' h => Db.applyItem_carries h)
  · exact Db.install_carries w.db
  · rename_i op hop
    split
    · rename_i hinstalled
      exact AuthOp.run_carries hop hinstalled hclock
    · exact Carries.refl _

end LastSietch.Identity
