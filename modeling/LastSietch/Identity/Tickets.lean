import LastSietch.Identity.OwnerRuns
import LastSietch.Identity.Seats

/-!
# Game tickets

A challenge with a code is a ticket once the code is right. `bootstrap_passkey` is two transactions,
and between them the calls of other browsers go on: `deskStep` takes them one at a time.

* `Lawful`: what the deeds of a run have to be.
* `Allowed`, `Lawful.snoc`: what one more deed needs.
* `Tracked`: what the rows of the challenges say of the deeds so far.
* `Tracked.make`, `Tracked.compare`, `Tracked.use`: it holds after each kind of deed.
-/

namespace LastSietch.Identity

/-! ## Deeds -/

structure Seal where
  purpose : Purpose
  bindingHash : String
  profileId : Option Nat
  deriving DecidableEq, Repr

def Challenge.sealed (c : Challenge) : Seal := ⟨c.purpose, c.bindingHash, c.profileId⟩

def Seal.game (s : Seal) : Prop := s.purpose = .gameLink ∨ s.purpose = .gameOnboard

/-- `compared` is the comparison of a code, and `used` a bootstrap or a link that succeeds. -/
inductive Deed
  | made | compared (good : Bool) | used
  deriving DecidableEq, Repr

def Deed.makes (d : Deed) : Bool := d = .made
def Deed.compares (d : Deed) : Bool := d = .compared true ∨ d = .compared false
def Deed.verifies (d : Deed) : Bool := d = .compared true
def Deed.uses (d : Deed) : Bool := d = .used

/-- A deed on the challenge `id`; the purpose, the binding and the profile are those of the call. -/
structure Event where
  id : Nat
  claimed : Seal
  deed : Deed
  now : ℚ
  deriving DecidableEq

abbrev Log := List Event

def Log.times (log : Log) (i : Nat) (p : Deed → Bool) : Nat :=
  log.countP (fun e => decide (e.id = i) && p e.deed)

def Log.Made (log : Log) (i : Nat) (s : Seal) : Prop :=
  ∃ e ∈ log, e.id = i ∧ e.deed = .made ∧ e.claimed = s

/-- The challenge has been verified at `t`. -/
def Log.Verified (log : Log) (i : Nat) (s : Seal) (t : ℚ) : Prop :=
  ∃ e ∈ log, e.id = i ∧ e.deed = .compared true ∧ e.claimed = s ∧ e.now = t

structure Lawful (log : Log) : Prop where
  makes : ∀ i, log.times i Deed.makes ≤ 1
  compares : ∀ i, log.times i Deed.compares ≤ 5
  verifies : ∀ i, log.times i Deed.verifies ≤ 1
  uses : ∀ i, log.times i Deed.uses ≤ 1
  made : ∀ e ∈ log, log.Made e.id e.claimed
  inTime : ∀ e ∈ log, e.deed = .used → e.claimed.game →
    ∃ t, log.Verified e.id e.claimed t ∧ 0 ≤ e.now - t ∧ e.now - t ≤ 600

structure Allowed (log : Log) (e : Event) : Prop where
  makes : e.deed.makes = true → log.times e.id Deed.makes = 0
  compares : e.deed.compares = true → log.times e.id Deed.compares < 5
  verifies : e.deed.verifies = true → log.times e.id Deed.verifies = 0
  uses : e.deed.uses = true → log.times e.id Deed.uses = 0
  made : e.deed ≠ .made → log.Made e.id e.claimed
  inTime : e.deed = .used → e.claimed.game →
    ∃ t, log.Verified e.id e.claimed t ∧ 0 ≤ e.now - t ∧ e.now - t ≤ 600

section Logs

variable {log log' : Log} {e : Event} {i n : Nat} {s : Seal} {t : ℚ} {p : Deed → Bool}

theorem times_snoc : Log.times (log ++ [e]) i p =
    log.times i p + if e.id = i ∧ p e.deed = true then 1 else 0 := by
  unfold Log.times
  rw [List.countP_append, List.countP_singleton]
  simp only [Bool.and_eq_true, decide_eq_true_eq]

theorem times_snoc_other (h : e.id ≠ i) : Log.times (log ++ [e]) i p = log.times i p := by
  rw [times_snoc, if_neg (fun hboth => h hboth.1), Nat.add_zero]

theorem times_snoc_kind (h : p e.deed = false) : Log.times (log ++ [e]) i p = log.times i p := by
  rw [times_snoc, if_neg (fun hboth => by simp [h] at hboth), Nat.add_zero]

theorem times_snoc_le (hle : log.times i p ≤ n)
    (h : p e.deed = true → log.times e.id p < n) : Log.times (log ++ [e]) i p ≤ n := by
  rw [times_snoc]
  split
  · case isTrue hboth =>
    have hlt := h hboth.2
    rw [hboth.1] at hlt
    omega
  · exact hle

theorem Log.Made.mono (h : log.Made i s) (hsub : log ⊆ log') : log'.Made i s := by
  obtain ⟨e, he, hmade⟩ := h
  exact ⟨e, hsub he, hmade⟩

theorem Log.Verified.mono (h : log.Verified i s t) (hsub : log ⊆ log') : log'.Verified i s t := by
  obtain ⟨e, he, hverified⟩ := h
  exact ⟨e, hsub he, hverified⟩

theorem Allowed.make {now : ℚ} (h : log.times i Deed.makes = 0) :
    Allowed log ⟨i, s, .made, now⟩ where
  makes _ := h
  compares hp := (by cases hp)
  verifies hp := (by cases hp)
  uses hp := (by cases hp)
  made hne := absurd rfl hne
  inTime hused := (by cases hused)

theorem Allowed.use (hdeed : e.deed = .used) (hunused : log.times e.id Deed.uses = 0)
    (hmade : log.Made e.id e.claimed)
    (htime : e.claimed.game →
      ∃ t, log.Verified e.id e.claimed t ∧ 0 ≤ e.now - t ∧ e.now - t ≤ 600) :
    Allowed log e := by
  have hkind : ∀ {p : Deed → Bool} {q : Prop}, p .used = false → p e.deed = true → q := by
    intro p q hp hq
    rw [hdeed, hp] at hq
    cases hq
  exact ⟨hkind rfl, hkind rfl, hkind rfl, fun _ => hunused, fun _ => hmade, fun _ => htime⟩

theorem Lawful.nil : Lawful [] where
  makes _ := Nat.zero_le _
  compares _ := Nat.zero_le _
  verifies _ := Nat.zero_le _
  uses _ := Nat.zero_le _
  made _ h := absurd h List.not_mem_nil
  inTime _ h := absurd h List.not_mem_nil

theorem Lawful.snoc (h : Lawful log) (ha : Allowed log e) : Lawful (log ++ [e]) := by
  have hsub : log ⊆ log ++ [e] := List.subset_append_left _ _
  have hnew : e ∈ log ++ [e] := List.mem_append_right _ (List.mem_singleton_self e)
  have hlast : ∀ e' ∈ log ++ [e], e' ∈ log ∨ e' = e := fun e' he' =>
    (List.mem_append.mp he').imp_right List.mem_singleton.mp
  refine { makes := fun i => times_snoc_le (h.makes i) (fun hp => ?_),
           compares := fun i => times_snoc_le (h.compares i) ha.compares,
           verifies := fun i => times_snoc_le (h.verifies i) (fun hp => ?_),
           uses := fun i => times_snoc_le (h.uses i) (fun hp => ?_),
           made := fun e' he' => ?_, inTime := fun e' he' hused hgame => ?_ }
  · exact (ha.makes hp).symm ▸ Nat.one_pos
  · exact (ha.verifies hp).symm ▸ Nat.one_pos
  · exact (ha.uses hp).symm ▸ Nat.one_pos
  · rcases hlast e' he' with hold | rfl
    · exact (h.made e' hold).mono hsub
    · by_cases hmade : e'.deed = .made
      · exact ⟨e', hnew, rfl, hmade, rfl⟩
      · exact (ha.made hmade).mono hsub
  · have hverified : ∃ t, log.Verified e'.id e'.claimed t ∧ 0 ≤ e'.now - t ∧ e'.now - t ≤ 600 := by
      rcases hlast e' he' with hold | rfl
      · exact h.inTime e' hold hused hgame
      · exact ha.inTime hused hgame
    obtain ⟨t, ht, hbounds⟩ := hverified
    exact ⟨t, ht.mono hsub, hbounds⟩

end Logs

/-! ## The desk -/

def AuthOp.deeds (now : ℚ) (linkStamp stamp : Stamp) (db : Db) : AuthOp → Log
  | newChallenge purpose b p context code =>
    (db.newChallenge now purpose b p context code).toOption.toList.map fun r =>
      ⟨r.1, ⟨purpose, b, p⟩, .made, now⟩
  | verifyGameCode i b code purpose p =>
    (db.verifyGameCode now i b code purpose p).toOption.toList.map fun r =>
      ⟨i, ⟨purpose, b, p⟩, .compared r.1, now⟩
  | bootstrapPassword i b name password =>
    (db.bootstrapPassword now stamp i b name password).toOption.toList.map fun _ =>
      ⟨i, ⟨.gameOnboard, b, none⟩, .used, now⟩
  | linkVerifiedGame current i b =>
    (db.linkVerifiedGame now linkStamp stamp current i b).toOption.toList.map fun _ =>
      ⟨i, ⟨.gameLink, b, some current.pid⟩, .used, now⟩
  | _ => []

def Action.deeds (a : Action) (db : Db) : Log :=
  match a.op with
  | .auth op => if db.installed then op.deeds a.now a.linkStamp a.stamp db else []
  | _ => []

/-- `flights` are the calls of `bootstrap_passkey` that have consumed their challenge. -/
structure Desk where
  db : Db
  flights : List Challenge
  log : Log

/-- `consume` and `finish` are the two transactions of `bootstrap_passkey`. -/
inductive Move
  | act (a : Action)
  | consume (now : ℚ) (identifier : Nat) (binding : String)
  | finish (now : ℚ) (stamp : Stamp) (c : Challenge) (verified : Option Nat)

def Action.whole (a : Action) : Bool :=
  match a.op with
  | .auth (.bootstrapPasskey ..) => false
  | _ => true

def Desk.finish (d : Desk) (now : ℚ) (stamp : Stamp) (c : Challenge) (verified : Option Nat) :
    Desk :=
  let flights := d.flights.erase c
  match c.context with
  | .bootstrap context name gameTicket =>
    match (orRaise verified .passkeyFailed).bind fun key =>
      d.db.bootstrapWithKey now stamp c.bindingHash context name gameTicket key with
    | .ok (_, db) =>
      ⟨db, flights, d.log ++ [⟨gameTicket, ⟨.gameOnboard, c.bindingHash, none⟩, .used, now⟩] ++
        [⟨c.id, c.sealed, .used, now⟩]⟩
    | .error _ => { d with flights }
  | _ => { d with flights }

def deskStep (d : Desk) : Move → Option Desk
  | .act a => if a.whole then some ⟨a.run d.db, d.flights, d.log ++ a.deeds d.db⟩ else none
  | .consume now i b =>
    if d.db.installed then
      match (orRaise (d.db.challenges.get? i) .challengeExpired).bind fun row =>
        d.db.consumeChallenge now i b .passkeyBootstrap row.profileId with
      | .ok (c, db) => some ⟨db, c :: d.flights, d.log⟩
      | .error _ => some d
    else none
  | .finish now stamp c verified =>
    if d.db.installed ∧ c ∈ d.flights then some (d.finish now stamp c verified) else none

/-! ## What the rows say -/

structure Tells (log : Log) (c : Challenge) : Prop where
  made : log.Made c.id c.sealed
  attempts : log.times c.id Deed.compares = c.attempts ∧ c.attempts ≤ 5
  unverified : c.verifiedAt = none → log.times c.id Deed.verifies = 0
  verified : ∀ t, c.verifiedAt = some t → log.Verified c.id c.sealed t
  unused : c.consumedAt = none → log.times c.id Deed.uses = 0

/-- The call of `bootstrap_passkey` has consumed its challenge and has not used it. -/
structure Flies (db : Db) (log : Log) (c : Challenge) : Prop where
  made : log.Made c.id c.sealed
  purpose : c.purpose = .passkeyBootstrap
  unused : log.times c.id Deed.uses = 0
  consumed : ∀ r ∈ db.challenges, r.id = c.id → r.consumedAt ≠ none

structure Tracked (d : Desk) : Prop where
  lawful : Lawful d.log
  below : ∀ e ∈ d.log, e.id < d.db.drawn
  rows : ∀ c ∈ d.db.challenges, Tells d.log c
  flies : ∀ c ∈ d.flights, Flies d.db d.log c
  apart : (d.flights.map (·.id)).Nodup

section Tracked

variable {db db' : Db} {flights : List Challenge} {log : Log} {e : Event} {c : Challenge} {now : ℚ}
  {i : Nat}

def Spends (db : Db) (now : ℚ) (db' : Db) : Prop :=
  ∀ c' ∈ db'.challenges, ∃ c ∈ db.challenges,
    c' = c ∨ c.consumedAt = none ∧ c' = { c with consumedAt := some now }

theorem Spends.of_challenges (now : ℚ) (h : db'.challenges = db.challenges) : Spends db now db' :=
  fun c hc => ⟨c, h ▸ hc, Or.inl rfl⟩

theorem mem_markConsumed {c' : Challenge} : c' ∈ (db.markConsumed now i).challenges ↔
    ∃ c ∈ db.challenges,
      c' = if c.id = i ∧ c.consumedAt = none then { c with consumedAt := some now } else c := by
  unfold Db.markConsumed
  dsimp only
  rw [Table.mem_update]
  simp only [decide_eq_true_eq]

theorem markConsumed_spends : Spends db now (db.markConsumed now i) := by
  intro c' hc'
  obtain ⟨c, hc, rfl⟩ := mem_markConsumed.mp hc'
  refine ⟨c, hc, ?_⟩
  split
  · case isTrue h => exact Or.inr ⟨h.2, rfl⟩
  · exact Or.inl rfl

theorem markConsumed_consumed :
    ∀ r ∈ (db.markConsumed now i).challenges, r.id = i → r.consumedAt ≠ none := by
  intro r hr hid
  obtain ⟨c, hc, rfl⟩ := mem_markConsumed.mp hr
  split at hid
  · case isTrue h =>
    rw [if_pos h]
    exact Option.some_ne_none now
  · case isFalse h =>
    rw [if_neg h]
    exact fun hnone => h ⟨hid, hnone⟩

theorem Tells.spent (h : Tells log c) : Tells log { c with consumedAt := some now } :=
  ⟨h.made, h.attempts, h.unverified, h.verified, fun hnone => by cases hnone⟩

theorem Tells.other (h : Tells log c) (hne : e.id ≠ c.id) : Tells (log ++ [e]) c := by
  have hsub : log ⊆ log ++ [e] := List.subset_append_left _ _
  refine ⟨h.made.mono hsub, ?_, fun hnone => ?_, fun t ht => (h.verified t ht).mono hsub,
    fun hnone => ?_⟩
  · rw [times_snoc_other hne]
    exact h.attempts
  · rw [times_snoc_other hne]
    exact h.unverified hnone
  · rw [times_snoc_other hne]
    exact h.unused hnone

theorem Tells.used (h : Tells log c) (hdeed : e.deed = .used) (hconsumed : c.consumedAt ≠ none) :
    Tells (log ++ [e]) c := by
  have hsub : log ⊆ log ++ [e] := List.subset_append_left _ _
  have hkind : ∀ p : Deed → Bool, p .used = false → p e.deed = false := fun p hp => hdeed ▸ hp
  refine ⟨h.made.mono hsub, ?_, fun hnone => ?_, fun t ht => (h.verified t ht).mono hsub,
    fun hnone => absurd hnone hconsumed⟩
  · rw [times_snoc_kind (hkind _ rfl)]
    exact h.attempts
  · rw [times_snoc_kind (hkind _ rfl)]
    exact h.unverified hnone

theorem Spends.tells (h : Spends db now db') (hrows : ∀ c ∈ db.challenges, Tells log c) :
    ∀ c ∈ db'.challenges, Tells log c := by
  intro c' hc'
  obtain ⟨c, hc, rfl | ⟨-, rfl⟩⟩ := h c' hc'
  · exact hrows c' hc
  · exact (hrows c hc).spent

theorem Flies.spent (h : Flies db log c) (hspends : Spends db now db') : Flies db' log c := by
  refine ⟨h.made, h.purpose, h.unused, fun r' hr' hid => ?_⟩
  obtain ⟨r, hr, rfl | ⟨-, rfl⟩⟩ := hspends r' hr'
  · exact h.consumed r' hr hid
  · exact Option.some_ne_none now

theorem Flies.other (h : Flies db log c) (hne : e.id ≠ c.id) : Flies db (log ++ [e]) c := by
  refine ⟨h.made.mono (List.subset_append_left _ _), h.purpose, ?_, h.consumed⟩
  rw [times_snoc_other hne]
  exact h.unused

theorem Tracked.quiet (h : Tracked ⟨db, flights, log⟩) (hspends : Spends db now db')
    (hdrawn : db.drawn ≤ db'.drawn) : Tracked ⟨db', flights, log⟩ where
  lawful := h.lawful
  below e he := (h.below e he).trans_le hdrawn
  rows := hspends.tells h.rows
  flies c hc := (h.flies c hc).spent hspends
  apart := h.apart

theorem Tracked.grounded (h : Tracked ⟨db, flights, log⟩) (hc : c ∈ db.challenges)
    (hlive : c.consumedAt = none) : ∀ f ∈ flights, c.id ≠ f.id :=
  fun f hf heq => (h.flies f hf).consumed c hc heq hlive

theorem Tracked.use (h : Tracked ⟨db, flights, log⟩) (hc : c ∈ db.challenges)
    (hlive : c.consumedAt = none) (hid : e.id = c.id) (hclaimed : e.claimed = c.sealed)
    (hdeed : e.deed = .used)
    (htime : ∃ t, c.verifiedAt = some t ∧ 0 ≤ e.now - t ∧ e.now - t ≤ 600)
    (hspends : Spends db now db')
    (hconsumed : ∀ r ∈ db'.challenges, r.id = c.id → r.consumedAt ≠ none)
    (hdrawn : db.drawn ≤ db'.drawn) : Tracked ⟨db', flights, log ++ [e]⟩ := by
  have htells := h.rows c hc
  have hallowed : Allowed log e := by
    refine .use hdeed (hid ▸ htells.unused hlive) (hid ▸ hclaimed ▸ htells.made) (fun _ => ?_)
    obtain ⟨t, ht, hbounds⟩ := htime
    exact ⟨t, hid ▸ hclaimed ▸ htells.verified t ht, hbounds⟩
  refine { lawful := h.lawful.snoc hallowed, below := fun e' he' => ?_, rows := fun c' hc' => ?_,
           flies := fun f hf => ?_, apart := h.apart }
  · rcases List.mem_append.mp he' with hold | hnew
    · exact (h.below e' hold).trans_le hdrawn
    · obtain ⟨m, hm, hmid, -⟩ := htells.made
      rw [List.mem_singleton.mp hnew, hid, ← hmid]
      exact (h.below m hm).trans_le hdrawn
  · have htells' := hspends.tells h.rows c' hc'
    by_cases hsame : c'.id = c.id
    · exact htells'.used hdeed (hconsumed c' hc' hsame)
    · exact htells'.other (fun heq => hsame (heq.symm.trans hid))
  · exact ((h.flies f hf).spent hspends).other
      (fun heq => h.grounded hc hlive f hf (hid.symm.trans heq))

theorem Tracked.land (h : Tracked ⟨db, flights, log⟩) (hc : c ∈ flights) (hid : e.id = c.id)
    (hclaimed : e.claimed = c.sealed) (hdeed : e.deed = .used) :
    Tracked ⟨db, flights.erase c, log ++ [e]⟩ := by
  have hflies := h.flies c hc
  have hallowed : Allowed log e := by
    refine .use hdeed (hid ▸ hflies.unused) (hid ▸ hclaimed ▸ hflies.made) (fun hgame => ?_)
    have hpurpose : e.claimed.purpose = .passkeyBootstrap := hclaimed ▸ hflies.purpose
    unfold Seal.game at hgame
    rw [hpurpose] at hgame
    rcases hgame with hgame | hgame
    · cases hgame
    · cases hgame
  refine { lawful := h.lawful.snoc hallowed, below := fun e' he' => ?_, rows := fun c' hc' => ?_,
           flies := fun f hf => ?_, apart := h.apart.sublist ((List.erase_sublist ..).map _) }
  · rcases List.mem_append.mp he' with hold | hnew
    · exact h.below e' hold
    · obtain ⟨m, hm, hmid, -⟩ := hflies.made
      rw [List.mem_singleton.mp hnew, hid, ← hmid]
      exact h.below m hm
  · by_cases hsame : c'.id = c.id
    · exact (h.rows c' hc').used hdeed (hflies.consumed c' hc' hsame)
    · exact (h.rows c' hc').other (fun heq => hsame (heq.symm.trans hid))
  · refine (h.flies f (List.mem_of_mem_erase hf)).other (fun heq => ?_)
    have hsame : f = c :=
      List.inj_on_of_nodup_map h.apart (List.mem_of_mem_erase hf) hc (heq.symm.trans hid)
    have hgone : c ∉ flights.erase c := (List.Nodup.of_map _ h.apart).not_mem_erase
    exact hgone (hsame ▸ hf)

theorem Tracked.drop (h : Tracked ⟨db, flights, log⟩) : Tracked ⟨db, flights.erase c, log⟩ where
  lawful := h.lawful
  below := h.below
  rows := h.rows
  flies f hf := h.flies f (List.mem_of_mem_erase hf)
  apart := h.apart.sublist ((List.erase_sublist ..).map _)

theorem times_eq_zero {p : Deed → Bool} (h : ∀ e ∈ log, e.id ≠ i) : log.times i p = 0 := by
  unfold Log.times
  refine List.countP_eq_zero.mpr (fun e he => ?_)
  rw [decide_eq_false (h e he)]
  exact Bool.false_ne_true

variable {binding : String} {purpose : Purpose} {profileId : Option Nat}

theorem challengeRow_ok (h : db.challengeRow now i binding purpose profileId = .ok c) :
    c ∈ db.challenges ∧ c.id = i ∧ c.sealed = ⟨purpose, binding, profileId⟩ ∧
      c.consumedAt = none := by
  obtain ⟨hc, hid⟩ := Table.get?_eq_some.mp (Db.challengeRow_spec h)
  obtain ⟨c', hget, h⟩ := bind_eq_ok.mp h
  obtain ⟨_, hrow, h⟩ := bind_eq_ok.mp h
  cases pure_eq_ok.mp h
  obtain ⟨hpurpose, hbinding, hprofile, hlive, -⟩ := require_eq_ok.mp hrow
  refine ⟨hc, hid, ?_, hlive⟩
  unfold Challenge.sealed
  rw [hpurpose, hbinding, hprofile]

theorem verifiedGameTicket_ok {context : GameContext}
    (h : db.verifiedGameTicket now i binding purpose profileId = .ok (c, context)) :
    c ∈ db.challenges ∧ c.id = i ∧ c.sealed = ⟨purpose, binding, profileId⟩ ∧
      c.consumedAt = none ∧ ∃ t, c.verifiedAt = some t ∧ 0 ≤ now - t ∧ now - t ≤ 600 := by
  obtain ⟨c', hrow, h⟩ := bind_eq_ok.mp h
  obtain ⟨t, ht, h⟩ := bind_eq_ok.mp h
  obtain ⟨_, hbounds, h⟩ := bind_eq_ok.mp h
  split at h
  · cases h
    obtain ⟨hc, hid, hsealed, hlive⟩ := challengeRow_ok hrow
    exact ⟨hc, hid, hsealed, hlive, t, orRaise_eq_ok.mp ht, require_eq_ok.mp hbounds⟩
  · cases h

theorem Tracked.takeOff (h : Tracked ⟨db, flights, log⟩)
    (hconsume : db.consumeChallenge now i binding .passkeyBootstrap profileId = .ok (c, db')) :
    Tracked ⟨db', c :: flights, log⟩ := by
  obtain ⟨c', hrow, hconsume⟩ := bind_eq_ok.mp hconsume
  cases pure_eq_ok.mp hconsume
  obtain ⟨hc, rfl, hsealed, hlive⟩ := challengeRow_ok hrow
  have hquiet : Tracked ⟨db.markConsumed now c.id, flights, log⟩ :=
    h.quiet markConsumed_spends le_rfl
  have htells := h.rows c hc
  refine { hquiet with flies := fun f hf => ?_, apart := ?_ }
  · rcases List.mem_cons.mp hf with rfl | hf
    · exact ⟨htells.made, congrArg Seal.purpose hsealed, htells.unused hlive,
        markConsumed_consumed⟩
    · exact hquiet.flies f hf
  · refine List.nodup_cons.mpr ⟨fun hmem => ?_, h.apart⟩
    obtain ⟨f, hf, heq⟩ := List.mem_map.mp hmem
    exact h.grounded hc hlive f hf heq.symm

theorem Tracked.make {context : Context} {code : Option String} (h : Tracked ⟨db, flights, log⟩)
    (hnew : db.newChallenge now purpose binding profileId context code = .ok (i, db')) :
    Tracked ⟨db', flights, log ++ [⟨i, ⟨purpose, binding, profileId⟩, .made, now⟩]⟩ := by
  obtain ⟨challenges, hins, hnew⟩ := bind_eq_ok.mp hnew
  cases pure_eq_ok.mp hnew
  have hrows : ∀ r, r ∈ challenges ↔ _ ∨ r ∈ db.challenges.filter _ :=
    fun r => Table.mem_insert? (orRaise_eq_ok.mp hins)
  have hfresh : ∀ e ∈ log, e.id ≠ db.drawn := fun e he => (h.below e he).ne
  have hmade : Log.Made (log ++ [⟨db.drawn, ⟨purpose, binding, profileId⟩, .made, now⟩]) db.drawn
      ⟨purpose, binding, profileId⟩ :=
    ⟨_, List.mem_append_right _ (List.mem_singleton_self _), rfl, rfl, rfl⟩
  refine { lawful := h.lawful.snoc ?_, below := fun e he => ?_, rows := fun c hc => ?_,
           flies := fun f hf => ?_, apart := h.apart }
  · exact .make (times_eq_zero hfresh)
  · rcases List.mem_append.mp he with hold | hlast
    · exact Nat.lt_succ_of_lt (h.below e hold)
    · rw [List.mem_singleton.mp hlast]
      exact Nat.lt_succ_self _
  · rcases (hrows c).mp hc with rfl | hold
    · have hzero : ∀ p : Deed → Bool, p .made = false → Log.times (log ++
          [⟨db.drawn, ⟨purpose, binding, profileId⟩, .made, now⟩]) db.drawn p = 0 := by
        intro p hp
        rw [times_snoc_kind hp]
        exact times_eq_zero hfresh
      exact ⟨hmade, ⟨hzero _ rfl, Nat.zero_le _⟩, fun _ => hzero _ rfl, fun t ht => (by cases ht),
        fun _ => hzero _ rfl⟩
    · have htells := h.rows c (Table.mem_filter.mp hold).1
      obtain ⟨m, hm, hmid, -⟩ := htells.made
      exact htells.other (fun heq => hfresh m hm (hmid.trans heq.symm))
  · obtain ⟨m, hm, hmid, -⟩ := (h.flies f hf).made
    have hne : db.drawn ≠ f.id := fun heq => hfresh m hm (hmid.trans heq.symm)
    have hflies := (h.flies f hf).other
      (e := ⟨db.drawn, ⟨purpose, binding, profileId⟩, .made, now⟩) hne
    refine ⟨hflies.made, hflies.purpose, hflies.unused, fun r hr hid => ?_⟩
    rcases (hrows r).mp hr with rfl | hold
    · exact absurd hid hne
    · exact hflies.consumed r (Table.mem_filter.mp hold).1 hid

def Challenge.compared (now : ℚ) (good : Bool) (c : Challenge) : Challenge :=
  { c with
    attempts := c.attempts + 1
    verifiedAt := if good then some now else none
    expiresAt := if good then now + 600 else c.expiresAt
    consumedAt := if !good && 4 ≤ c.attempts then some now else none }

theorem verifyGameCode_ok {code : String} {good : Bool}
    (h : db.verifyGameCode now i binding code purpose profileId = .ok (good, db')) :
    ∃ c ∈ db.challenges, c.id = i ∧ c.sealed = ⟨purpose, binding, profileId⟩ ∧
      c.consumedAt = none ∧ c.verifiedAt = none ∧ c.attempts < 5 ∧ db'.drawn = db.drawn ∧
      ∀ r ∈ db'.challenges, r = c.compared now good ∨ r ∈ db.challenges ∧ r.id ≠ i := by
  obtain ⟨c, hrow, h⟩ := bind_eq_ok.mp h
  obtain ⟨_, hopen, h⟩ := bind_eq_ok.mp h
  cases pure_eq_ok.mp h
  obtain ⟨hc, hid, hsealed, hlive⟩ := challengeRow_ok hrow
  obtain ⟨hunverified, hattempts⟩ := require_eq_ok.mp hopen
  refine ⟨c, hc, hid, hsealed, hlive, hunverified, hattempts, rfl, fun r hr => ?_⟩
  dsimp only at hr
  rw [Table.mem_update] at hr
  obtain ⟨r₀, hr₀, rfl⟩ := hr
  by_cases hsame : r₀.id = i
  · obtain rfl : r₀ = c := Table.eq_of_key_eq hr₀ hc (hsame.trans hid.symm)
    rw [if_pos (decide_eq_true hsame)]
    exact Or.inl rfl
  · rw [if_neg (by simpa using hsame)]
    exact Or.inr ⟨hr₀, hsame⟩

theorem Tracked.compare {code : String} {good : Bool} (h : Tracked ⟨db, flights, log⟩)
    (hverify : db.verifyGameCode now i binding code purpose profileId = .ok (good, db')) :
    Tracked ⟨db', flights, log ++ [⟨i, ⟨purpose, binding, profileId⟩, .compared good, now⟩]⟩ := by
  obtain ⟨c, hc, rfl, hsealed, hlive, hunverified, hattempts, hdrawn, hrows⟩ :=
    verifyGameCode_ok hverify
  rw [← hsealed]
  have htells := h.rows c hc
  have hcompares : (Deed.compared good).compares = true := by cases good <;> rfl
  have hsub : log ⊆ log ++ [⟨c.id, c.sealed, .compared good, now⟩] := List.subset_append_left _ _
  refine { lawful := h.lawful.snoc ?_, below := fun e he => ?_, rows := fun r hr => ?_,
           flies := fun f hf => ?_, apart := h.apart }
  · exact { makes := fun hp => (by cases hp), compares := fun _ => htells.attempts.1 ▸ hattempts,
            verifies := fun _ => htells.unverified hunverified, uses := fun hp => (by cases hp),
            made := fun _ => htells.made, inTime := fun hused => (by cases hused) }
  · rw [hdrawn]
    rcases List.mem_append.mp he with hold | hlast
    · exact h.below e hold
    · obtain ⟨m, hm, hmid, -⟩ := htells.made
      rw [List.mem_singleton.mp hlast]
      exact hmid ▸ h.below m hm
  · rcases hrows r hr with rfl | ⟨hold, hne⟩
    · refine ⟨htells.made.mono hsub, ⟨?_, hattempts⟩, fun hnone => ?_, fun t ht => ?_,
        fun hnone => ?_⟩
      · rw [show (c.compared now good).id = c.id from rfl, times_snoc, if_pos ⟨rfl, hcompares⟩,
          htells.attempts.1]
        rfl
      · cases good with
        | true => cases hnone
        | false => exact (times_snoc_kind rfl).trans (htells.unverified hunverified)
      · cases good with
        | true =>
          cases ht
          exact ⟨_, List.mem_append_right _ (List.mem_singleton_self _), rfl, rfl, rfl, rfl⟩
        | false => cases ht
      · exact (times_snoc_kind rfl).trans (htells.unused hlive)
    · exact (h.rows r hold).other (fun heq => hne heq.symm)
  · have hflies := (h.flies f hf).other (e := ⟨c.id, c.sealed, .compared good, now⟩)
      (h.grounded hc hlive f hf)
    refine ⟨hflies.made, hflies.purpose, hflies.unused, fun r hr hid => ?_⟩
    rcases hrows r hr with rfl | ⟨hold, -⟩
    · exact absurd hid (h.grounded hc hlive f hf)
    · exact hflies.consumed r hold hid

end Tracked

end LastSietch.Identity
