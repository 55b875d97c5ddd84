import LastSietch.Lib.Runs
import LastSietch.Ops.ClaimTakeover

/-!
# Runs of the land-claim tool

Any number of commands side by side: each reads in its own steps and writes later, and the others go
on in between. `made` keeps, for each take or register that took effect, what its account held then.
-/

namespace LastSietch.ClaimTakeover

open Runs

inductive Stage
  | looked (claim : Claim) (who : Who)
  | counted (claim : Claim) (who : Who) (counted : Counted)
  | ready (plan : Plan)
  | closed (answer : Answer)
  deriving DecidableEq

structure Job where
  command : Command
  stage : Stage
  deriving DecidableEq

/-- A take or register whose outcome is `ok`, and what its account holds after it. -/
structure Made where
  totem : Nat
  player : Nat
  held : Nat
  deriving DecidableEq

structure Sys where
  db : Db
  jobs : List Job
  /-- No query reads it. -/
  made : List Made

inductive Act
  | look (c : Command) (claimFault whoFault : Fault)
  | count (i : Nat) (heldFault nameFault : Fault)
  | resolve (i : Nat) (firstFault secondFault : Fault)
  | write (i : Nat)
  deriving DecidableEq

def Mode.grants : Mode → Bool
  | .take | .register => true
  | .check | .revert => false

def stageOf {α : Type} (next : α → Stage) : Except Answer α → Stage
  | .ok a => next a
  | .error answer => .closed answer

def Sys.move (s : Sys) (i : Nat) (j : Job) (stage : Stage) : Sys :=
  { s with jobs := s.jobs.set i { j with stage } }

def Sys.write (procs : Procs) (s : Sys) (i : Nat) (j : Job) (p : Plan) : Sys :=
  match p.run procs s.db with
  | none => s.move i j (.closed (.refused "proc call failed" 1))
  | some (outcome, db) =>
    let made := if outcome = .ok ∧ p.command.mode.grants = true
      then [⟨p.command.totem, p.who.pcid, db.held p.who.pcid⟩] else []
    { s.move i j (.closed (.written outcome)) with db, made := s.made ++ made }

def step (procs : Procs) (s : Sys) : Act → Option Sys
  | .look c claimFault whoFault =>
    let stage := stageOf (fun r => .looked r.1 r.2) (look s.db c claimFault whoFault)
    some { s with jobs := s.jobs ++ [⟨c, stage⟩] }
  | .count i heldFault nameFault =>
    match s.jobs[i]? with
    | some ⟨c, .looked claim who⟩ =>
      some (s.move i ⟨c, .looked claim who⟩
        (stageOf (.counted claim who) (count s.db c claim who heldFault nameFault)))
    | _ => none
  | .resolve i firstFault secondFault =>
    match s.jobs[i]? with
    | some ⟨c, .counted claim who counted⟩ =>
      some (s.move i ⟨c, .counted claim who counted⟩
        (stageOf .ready (resolve s.db c claim who counted firstFault secondFault)))
    | _ => none
  | .write i =>
    match s.jobs[i]? with
    | some ⟨c, .ready p⟩ => some (s.write procs i ⟨c, .ready p⟩ p)
    | _ => none

structure Plan.Sound (p : Plan) (db : Db) : Prop where
  room : p.command.mode.grants = true → p.counted.held = none → db.held p.who.pcid < CLAIM_CAP
  fresh : p.command.mode.grants = true → ∀ n ∈ p.counted.held, db.held p.who.pcid ≤ n
  free : p.command.mode = .register → db.perms.Unregistered p.command.totem

def Sys.Sound (s : Sys) : Act → Prop
  | .write i => ∀ c p, s.jobs[i]? = some ⟨c, .ready p⟩ → p.Sound s.db
  | _ => True

instance (p : Plan) (db : Db) : Decidable (p.Sound db) :=
  decidable_of_iff
    ((p.command.mode.grants = true → p.counted.held = none → db.held p.who.pcid < CLAIM_CAP) ∧
      (p.command.mode.grants = true → ∀ n ∈ p.counted.held, db.held p.who.pcid ≤ n) ∧
      (p.command.mode = .register → db.perms.Unregistered p.command.totem))
    ⟨fun h => ⟨h.1, h.2.1, h.2.2⟩, fun h => ⟨h.room, h.fresh, h.free⟩⟩

instance (s : Sys) : (a : Act) → Decidable (s.Sound a)
  | .look _ _ _ | .count _ _ _ | .resolve _ _ _ => .isTrue trivial
  | .write i =>
    match h : s.jobs[i]? with
    | some ⟨c, .ready p⟩ =>
      decidable_of_iff (p.Sound s.db)
        ⟨fun hp c' p' h' => by rw [h] at h'; cases h'; exact hp, fun hp => hp c p h⟩
    | some ⟨_, .looked _ _⟩ | some ⟨_, .counted _ _ _⟩ | some ⟨_, .closed _⟩ | none =>
      .isTrue fun _ _ h' => by rw [h] at h'; cases h'

structure Sys.Start (s : Sys) : Prop where
  jobs : s.jobs = []
  made : s.made = []
  sole : Sole (·.permissionActorId) s.db.perms.owners

/-! ## What a command keeps in hand -/

def Counted.Capped (c : Counted) : Prop := ∀ n, c.held = some n → n < CLAIM_CAP

def Stage.Kept (command : Command) : Stage → Prop
  | .looked claim _ => claim.totemId = command.totem
  | .counted claim _ known => claim.totemId = command.totem ∧ known.Capped
  | .ready p => p.counted.Capped ∧ ∀ e, p.entry = some e → e.actorId = p.command.totem
  | .closed _ => True

variable {claim : Claim}

theorem Db.totemId_of_check {db : Db} {totem : Nat}
    (h : db.check totem = some claim) : claim.totemId = totem := by
  obtain ⟨t, ht, hclaim⟩ := Option.map_eq_some_iff.mp h
  rw [← hclaim]
  have hid : t.id = totem := Table.key_of_get? ht
  exact hid

theorem queryJson_ok {α : Type} {fault : Fault} {rows : Option α} {a : α}
    (h : queryJson fault rows = .ok a) : rows = some a := by
  unfold queryJson at h
  split at h
  · cases h
  · cases h
  · cases h
    rfl

variable {c : Command}

theorem look_ok {db : Db} {claimFault whoFault : Fault} {who : Who}
    (h : look db c claimFault whoFault = .ok (claim, who)) : claim.totemId = c.totem := by
  unfold look at h
  split at h
  · cases h
  · rename_i read hread
    have hid := Db.totemId_of_check (queryJson_ok hread)
    split at h
    · cases h
    · split at h
      · cases h
      · split at h
        · cases h
        · split at h
          · cases h
          · cases h
            exact hid

theorem capCheck_ok {held : Option Nat} {error : String} {u : Unit}
    (h : capCheck held error = .ok u) : ∀ n, held = some n → n < CLAIM_CAP := by
  rintro n rfl
  unfold capCheck at h
  split at h
  · cases h
  · rename_i hlt
    exact Nat.lt_of_not_le hlt

theorem count_capped {db : Db} {who : Who} {heldFault nameFault : Fault} {counted : Counted}
    (h : count db c claim who heldFault nameFault = .ok counted) : counted.Capped := by
  have hnone : ∀ name, Counted.Capped ⟨none, name⟩ := fun name n => nofun
  unfold count at h
  split at h
  · split at h
    · cases h
    · obtain ⟨u, hcap, hok⟩ := bind_eq_ok.mp h
      cases hok
      exact capCheck_ok hcap
  · split at h
    · cases h
      exact hnone _
    · split at h
      · cases h
      · split at h
        · cases h
        · split at h
          · cases h
          · split at h
            · cases h
            · obtain ⟨u, hcap, hok⟩ := bind_eq_ok.mp h
              cases hok
              exact capCheck_ok hcap
  · cases h
    exact hnone _
  · cases h
    exact hnone _

theorem Claim.entry_id {e : ActorPermissionEntry} (h : claim.entry = some e) :
    e.actorId = claim.totemId := by
  unfold Claim.entry at h
  simp only [Option.bind_eq_bind, Option.bind_eq_some_iff] at h
  obtain ⟨actorType, _, accessLevel, _, he⟩ := h
  cases he
  rfl

theorem resolve_kept {db : Db} {who : Who} {counted : Counted}
    {firstFault secondFault : Fault} {p : Plan} (hid : claim.totemId = c.totem)
    (hcapped : counted.Capped)
    (h : resolve db c claim who counted firstFault secondFault = .ok p) :
    p.counted.Capped ∧ ∀ e, p.entry = some e → e.actorId = p.command.totem := by
  unfold resolve at h
  split at h
  · cases h
    exact ⟨hcapped, fun e he => (Claim.entry_id he).trans hid⟩
  · split at h
    · cases h
    · split at h
      · cases h
      · cases h
        refine ⟨hcapped, fun e he => ?_⟩
        cases he
        rfl
  all_goals
    cases h
    exact ⟨hcapped, fun e he => (Claim.entry_id he).trans hid⟩

/-! ## The invariant -/

structure Inv (s : Sys) : Prop where
  kept : ∀ j ∈ s.jobs, j.stage.Kept j.command
  capped : ∀ m ∈ s.made, m.held ≤ CLAIM_CAP
  sole : Sole (·.permissionActorId) s.db.perms.owners

variable {procs : Procs} {s s' : Sys}

theorem Inv.moved (h : Inv s) {i : Nat} {j : Job} {stage : Stage} (hstage : stage.Kept j.command) :
    Inv (s.move i j stage) := by
  refine ⟨fun k hk => ?_, h.capped, h.sole⟩
  rcases List.mem_or_eq_of_mem_set hk with hk | rfl
  · exact h.kept k hk
  · exact hstage

theorem stageOf_kept {α : Type} {next : α → Stage} {r : Except Answer α}
    (h : ∀ a, r = .ok a → (next a).Kept c) : (stageOf next r).Kept c := by
  cases r with
  | error answer => trivial
  | ok a => exact h a rfl

theorem Inv.write (h : Inv s) (hdoc : procs.Documented) {i : Nat} {j : Job} {p : Plan}
    (hcapped : p.counted.Capped) (hentry : ∀ e, p.entry = some e → e.actorId = p.command.totem)
    (hsound : p.Sound s.db) : Inv (s.write procs i j p) := by
  unfold Sys.write
  split
  · exact h.moved trivial
  · rename_i outcome db hrun
    have hmoved : Inv (s.move i j (.closed (.written outcome))) := h.moved trivial
    refine ⟨hmoved.kept, fun m hm => ?_, p.sole_run hdoc hentry hsound.free hrun h.sole⟩
    rcases List.mem_append.mp hm with hm | hm
    · exact h.capped m hm
    · split at hm
      · rename_i hmade
        rw [List.mem_singleton.mp hm]
        have hheld := p.held_run hdoc hentry hsound.free hrun p.who.pcid
        have hroom : s.db.held p.who.pcid < CLAIM_CAP := by
          cases hread : p.counted.held with
          | none => exact hsound.room hmade.2 hread
          | some n => exact (hsound.fresh hmade.2 n hread).trans_lt (hcapped n hread)
        exact hheld.trans hroom
      · cases hm

theorem Inv.step {a : Act} (h : Inv s) (hdoc : procs.Documented) (hsound : s.Sound a)
    (hstep : step procs s a = some s') : Inv s' := by
  cases a with
  | look c claimFault whoFault =>
    cases hstep
    refine ⟨fun j hj => ?_, h.capped, h.sole⟩
    rcases List.mem_append.mp hj with hj | hj
    · exact h.kept j hj
    · rw [List.mem_singleton.mp hj]
      exact stageOf_kept fun _ hlook => look_ok hlook
  | count i heldFault nameFault =>
    simp only [ClaimTakeover.step] at hstep
    split at hstep
    · rename_i c claim who hj
      cases hstep
      have hid := h.kept _ (List.mem_of_getElem? hj)
      exact h.moved (stageOf_kept fun counted hcount => ⟨hid, count_capped hcount⟩)
    · cases hstep
  | resolve i firstFault secondFault =>
    simp only [ClaimTakeover.step] at hstep
    split at hstep
    · rename_i c claim who counted hj
      cases hstep
      obtain ⟨hid, hcapped⟩ := h.kept _ (List.mem_of_getElem? hj)
      exact h.moved (stageOf_kept fun p hp => resolve_kept hid hcapped hp)
    · cases hstep
  | write i =>
    simp only [ClaimTakeover.step] at hstep
    split at hstep
    · rename_i c p hj
      cases hstep
      obtain ⟨hcapped, hentry⟩ := h.kept _ (List.mem_of_getElem? hj)
      exact h.write hdoc hcapped hentry (hsound c p hj)
    · cases hstep

theorem Sys.Start.inv (h : s.Start) : Inv s := by
  refine ⟨fun j hj => ?_, fun m hm => ?_, h.sole⟩
  · rw [h.jobs] at hj
    cases hj
  · rw [h.made] at hm
    cases hm

/-- In a run whose writes find room for what they did not count, no more than they counted for the
rest, and the totems to be registered still unregistered, no take or register leaves its account over
the cap and no totem has two rank-1 holders. -/
theorem claims_capped (hdoc : procs.Documented) (hstart : s.Start) {acts : List Act}
    (hsound : Along (step procs) Sys.Sound s acts) (hrun : exec (step procs) s acts = some s') :
    (∀ m ∈ s'.made, m.held ≤ CLAIM_CAP) ∧ Sole (·.permissionActorId) s'.db.perms.owners := by
  have hinv : Inv s' := exec_invariant
    (fun _ _ _ h hsound hstep => h.step hdoc hsound hstep) hstart.inv hsound hrun
  exact ⟨hinv.capped, hinv.sole⟩

/-! ## The procs of the tests -/

def gameProcs : Procs :=
  let register (e : ActorPermissionEntry) (player : Nat) (p : Permissions) : Option Permissions :=
    (p.actors.insert? ⟨e.actorId, e.actorName, e.actorType, e.accessLevel, e.isChild⟩).map
      fun actors => ⟨actors, p.ranks.put ⟨e.actorId, player, 1⟩⟩
  { register
    takeover := fun e player p =>
      if p.owner? e.actorId ≠ none then some p
      else if p.actors.get? e.actorId = none then register e player p
      else some { p with
        ranks := (p.ranks.filter (·.permissionActorId ≠ e.actorId)).put ⟨e.actorId, player, 1⟩ }
    removePlayerRank := fun totem player p =>
      some { p with ranks := p.ranks.filter (·.key ≠ (totem, player)) }
    setPlayerRank := fun totem player rank _ p =>
      some { p with ranks := p.ranks.put ⟨totem, player, rank⟩ } }

theorem gameProcs_documented : gameProcs.Documented where
  takeover_owned := by
    rintro e player p p' h ⟨r, hr, hplace⟩
    have howner : p.owner? e.actorId ≠ none := fun hnone =>
      Permissions.owner?_eq_none.mp hnone r hr hplace
    simp only [gameProcs, if_pos howner, Option.some.injEq] at h
    exact h.symm
  takeover_unowned := by
    rintro e player p p' h howner ⟨a, ha, hid⟩ r
    have hentry : p.actors.get? e.actorId ≠ none := fun hnone => Table.get?_eq_none.mp hnone a ha hid
    simp only [gameProcs, Permissions.owner?_eq_none.mpr howner, ne_eq, not_true, if_false,
      if_neg hentry, Option.some.injEq] at h
    rw [← h]
    simp only [Table.mem_put, Table.mem_filter, decide_eq_true_eq]
    constructor
    · rintro (rfl | ⟨⟨hr, hplace⟩, _⟩)
      · exact Or.inl rfl
      · exact Or.inr ⟨hr, hplace⟩
    · rintro (rfl | ⟨hr, hplace⟩)
      · exact Or.inl rfl
      · exact Or.inr ⟨⟨hr, hplace⟩, fun hkey => hplace (congrArg Prod.fst hkey)⟩
  takeover_unregistered := by
    intro e player p hentry howner
    simp only [gameProcs, Permissions.owner?_eq_none.mpr howner, ne_eq, not_true, if_false,
      Table.get?_eq_none.mpr hentry, if_true]
  register_new := by
    intro e player p p' h _ r
    obtain ⟨actors, _, rfl⟩ := Option.map_eq_some_iff.mp h
    exact Table.mem_put
  remove := by
    intro totem player p p' h r
    cases h
    simp only [Table.mem_filter, decide_eq_true_eq, ne_eq]
  set := by
    intro totem player rank map p p' h r
    cases h
    exact Table.mem_put

def claimsDb : Db where
  totems := ⟨[1, 2, 3, 4, 5, 6].map fun id => ⟨id, "BP_Totem_C", "HaggaBasin", .other⟩, by decide⟩
  perms := {
    actors := ⟨[1, 2, 3, 4, 5].map fun id => ⟨id, "##Totem_Placeable", 3, 3, false⟩, by decide⟩
    ranks := ⟨[⟨5, 70, 1⟩], by decide⟩ }
  players := ⟨[⟨1, "Cielago", some 10⟩, ⟨2, "Drew", some 70⟩], by decide⟩
  mapNames := [("HaggaBasin", 11)]
  log := .empty

def claims : Sys := ⟨claimsDb, [], []⟩

theorem claims_start : claims.Start := by
  refine ⟨rfl, rfl, fun x hx y hy _ => ?_⟩
  rw [List.mem_singleton.mp hx, List.mem_singleton.mp hy]

def command (mode : Mode) (totem : Nat) : Command :=
  { mode, totem, account := 1, operator := "admin", forceOwned := true, keepAsCoholder := true,
    armed := true, allowOwned := true }

def alone (i : Nat) (c : Command) : List Act :=
  [.look c none none, .count i none none, .resolve i none none, .write i]

def fourOrphans : List Act :=
  alone 0 (command .take 1) ++ alone 1 (command .take 2) ++ alone 2 (command .take 3) ++
    alone 3 (command .take 4)

theorem fourOrphans_run : (exec (step gameProcs) claims fourOrphans).isSome := by decide

/-- The fourth orphan of one account is not refused. -/
theorem fourth_orphan :
    gameProcs.Documented ∧ claims.Start ∧
      ∃ s', exec (step gameProcs) claims fourOrphans = some s' ∧ ∃ m ∈ s'.made, ¬m.held ≤ CLAIM_CAP := by
  have hrun := (Option.some_get fourOrphans_run).symm
  refine ⟨gameProcs_documented, claims_start, _, hrun, ?_⟩
  decide

def threeTotems : List Act :=
  [.look (command .take 1) none none, .look (command .take 5) none none,
   .look (command .register 6) none none, .count 0 none none, .resolve 0 none none, .write 0,
   .count 1 none none, .resolve 1 none none, .write 1, .count 2 none none, .resolve 2 none none,
   .write 2] ++ alone 3 (command .revert 5)

theorem threeTotems_run : (exec (step gameProcs) claims threeTotems).isSome := by decide

theorem claims_capped_threeTotems : ∃ s', exec (step gameProcs) claims threeTotems = some s' ∧
    s'.made.map (·.held) = [1, 2, 3] ∧ (∀ m ∈ s'.made, m.held ≤ CLAIM_CAP) ∧
      Sole (·.permissionActorId) s'.db.perms.owners := by
  have hsound : Along (step gameProcs) Sys.Sound claims threeTotems := by decide
  have hrun := (Option.some_get threeTotems_run).symm
  exact ⟨_, hrun, by decide, claims_capped gameProcs_documented claims_start hsound hrun⟩

end LastSietch.ClaimTakeover
