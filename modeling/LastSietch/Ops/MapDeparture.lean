import LastSietch.Ops.MapClose

/-!
# What a move leaves

`Documented` is what the procedures of the game do. `Carried` is what the statements of a move and
their calls make of an actor, in terms of the record: its map and transform change if it is a pawn
that moves, its place if it is that, in the move set, or the controller or the state of such a
character, and its state if it is a vehicle for recovery.

* `departed`: the tables after a move that commits.
-/

namespace LastSietch.MapClose

open Table

variable {cfg : Config} {procs : Procs} {inp : Input} {db db' : Db} {r : Record}

structure Actor.Elsewhere (a b : Actor) : Prop where
  id : b.id = a.id
  className : b.className = a.className
  state : b.state = a.state
  serial : b.serial = a.serial

def Db.HasUser (db : Db) (account : Int) (fls : String) : Prop :=
  ∃ acc, db.accounts.get? account = some acc ∧ acc.user = fls

structure Procs.Documented (procs : Procs) : Prop where
  store : ∀ {v : Int} {db db' : Db}, procs.storeRecoveredVehicle v db = some db' →
    ∃ actors row recovered, db' = { db with actors, recovered } ∧
      Becomes (fun a b => b = if a.id = v then { a with state := .vehicleRecovery } else a)
        db.actors actors ∧
      row.vehicleId = v ∧ db.recovered.insert? row = some recovered
  move : ∀ {fls : String} {part : Int} {place : Option Vector} {db db' : Db},
    procs.adminMoveOfflinePlayerToPartition fls part place db = some db' →
    ∀ e ∈ db.players, e.characterState = some .active → db.HasUser e.accountId fls →
      ∃ actors, db' = { db with actors } ∧
        Becomes (fun a b => b = a ∨ e.playerPawnId = some a.id ∧ a.Elsewhere b) db.actors actors

/-! ## What the record has -/

def Record.Has (r : Record) (id : Int) : Prop := ∃ z ∈ r.actors, z.id = id

def Record.HasPawn (cfg : Config) (r : Record) (id : Int) : Prop :=
  ∃ c ∈ r.characters, c.pawnPartition = some cfg.srcPart ∧ c.playerPawnId = some id

def Record.HasFollower (cfg : Config) (r : Record) (id : Int) : Prop :=
  ∃ c ∈ r.characters, c.pawnPartition = some cfg.srcPart ∧
    (c.playerControllerId = some id ∨ c.playerStateId = some id)

def Record.HasPerm (r : Record) (id : Int) : Prop := ∃ p ∈ r.vehiclePerms, p.actor.actorId = id

theorem mem_moveSet {z : MovedActor} (h : z ∈ db.moveSet cfg inp) : z.toActor ∈ db.actors := by
  obtain ⟨a, ha, hz⟩ := List.mem_filterMap.mp h
  split at hz
  · obtain ⟨kind, -, rfl⟩ := Option.map_eq_some_iff.mp hz
    exact ha
  · cases hz

theorem moveSet_eq {z : MovedActor} (h : z ∈ db.moveSet cfg inp) {x : Actor} (hx : x ∈ db.actors)
    (hid : z.id = x.id) : z.toActor = x :=
  eq_of_key_eq (mem_moveSet h) hx hid

theorem mem_movedCharacters {c : Character} (h : c ∈ db.movedCharacters cfg) :
    ∃ e ∈ db.players, ∃ acc, db.accounts.get? e.accountId = some acc ∧
      e.characterState = some .active ∧ c = db.character e acc := by
  obtain ⟨e, he, hc⟩ := List.mem_filterMap.mp h
  obtain ⟨acc, hacc, hsome⟩ := Option.bind_eq_some_iff.mp hc
  dsimp only at hsome
  split at hsome
  · rename_i hactive
    cases hsome
    exact ⟨e, he, acc, hacc, hactive.1, rfl⟩
  · cases hsome

theorem mem_movedRespawns {moved : List MovedActor} {z : MovedRespawn}
    (h : z ∈ db.movedRespawns cfg moved) :
    ∃ s ∈ db.respawns, z = ⟨s.id, s.characterId, s.dimension⟩ := by
  obtain ⟨s, hs, rfl⟩ := List.mem_map.mp h
  exact ⟨s, (List.mem_filter.mp hs).1, rfl⟩

theorem mem_vehiclePerms {q : PermissionActor} :
    (∃ p ∈ db.vehiclePerms inp, p.actor = q) ↔
      q ∈ db.permissions ∧ q.actorId ∈ inp.recoveryVehicles := by
  unfold Db.vehiclePerms
  constructor
  · rintro ⟨p, hp, rfl⟩
    obtain ⟨q, hq, hmem⟩ := List.mem_flatMap.mp hp
    obtain ⟨s, -, rfl⟩ := List.mem_map.mp hmem
    obtain ⟨hq, hv⟩ := List.mem_filter.mp hq
    exact ⟨hq, of_decide_eq_true hv⟩
  · rintro ⟨hq, hv⟩
    obtain ⟨s, hs⟩ := List.exists_mem_of_ne_nil _
      (leftJoined_ne_nil (db.ranks.rows.filter fun s => s.permissionActorId = q.actorId))
    exact ⟨⟨q, s.map fun s => (s.playerId, s.rank)⟩, List.mem_flatMap.mpr
      ⟨q, List.mem_filter.mpr ⟨hq, decide_eq_true hv⟩, List.mem_map.mpr ⟨s, hs, rfl⟩⟩, rfl⟩

theorem hasPerm_toRecord {id : Int} : (db.toRecord cfg inp).HasPerm id ↔
    (db.permissions.get? id).isSome = true ∧ id ∈ inp.recoveryVehicles := by
  unfold Record.HasPerm Db.toRecord
  constructor
  · rintro ⟨p, hp, rfl⟩
    obtain ⟨hmem, hv⟩ := mem_vehiclePerms.mp ⟨p, hp, rfl⟩
    rw [get?_eq_some.mpr ⟨hmem, rfl⟩]
    exact ⟨rfl, hv⟩
  · rintro ⟨hsome, hv⟩
    obtain ⟨q, hq⟩ := Option.isSome_iff_exists.mp hsome
    obtain ⟨hmem, rfl⟩ := get?_eq_some.mp hq
    obtain ⟨p, hp, rfl⟩ := mem_vehiclePerms.mpr ⟨hmem, hv⟩
    exact ⟨p, hp, rfl⟩

/-! ## What a move does to an actor -/

/-- `a` is what the move has made of `x`. -/
structure Carried (cfg : Config) (inp : Input) (r : Record) (x a : Actor) : Prop where
  id : a.id = x.id
  className : a.className = x.className
  serial : a.serial = x.serial
  map : a.map = x.map ∨ r.HasPawn cfg x.id
  transform : a.transform = x.transform ∨ r.HasPawn cfg x.id
  place : a.partitionId = x.partitionId ∧ a.dimensionIndex = x.dimensionIndex ∨
    r.Has x.id ∨ r.HasPawn cfg x.id ∨ r.HasFollower cfg x.id ∧ x.partitionId = some cfg.srcPart
  state : a.state = x.state ∨ x.id ∈ inp.recoveryVehicles ∧ 0 < x.id

namespace Carried

theorem refl (x : Actor) : Carried cfg inp r x x where
  id := rfl
  className := rfl
  serial := rfl
  map := Or.inl rfl
  transform := Or.inl rfl
  place := Or.inl ⟨rfl, rfl⟩
  state := Or.inl rfl

theorem trans {x a b : Actor} (h : Carried cfg inp r x a) (h' : Carried cfg inp r a b) :
    Carried cfg inp r x b where
  id := h'.id.trans h.id
  className := h'.className.trans h.className
  serial := h'.serial.trans h.serial
  map := by
    have hmap := h'.map
    rw [h.id] at hmap
    rcases hmap with heq | hpawn
    · rw [heq]
      exact h.map
    · exact Or.inr hpawn
  transform := by
    have htransform := h'.transform
    rw [h.id] at htransform
    rcases htransform with heq | hpawn
    · rw [heq]
      exact h.transform
    · exact Or.inr hpawn
  place := by
    have hplace := h'.place
    rw [h.id] at hplace
    rcases hplace with heq | hset | hpawn | hfollows
    · rw [heq.1, heq.2]
      exact h.place
    · exact Or.inr (Or.inl hset)
    · exact Or.inr (Or.inr (Or.inl hpawn))
    · -- It was on the closing partition before, or is moved otherwise.
      rcases h.place with heq | hother
      · rw [heq.1] at hfollows
        exact Or.inr (Or.inr (Or.inr hfollows))
      · exact Or.inr hother
  state := by
    have hstate := h'.state
    rw [h.id] at hstate
    rcases hstate with heq | hstored
    · rw [heq]
      exact h.state
    · exact Or.inr hstored

theorem rekey {x : Actor} (h : r.Has x.id ∨
    r.HasFollower cfg x.id ∧ x.partitionId = some cfg.srcPart) :
    Carried cfg inp r x (x.rekey cfg) where
  id := rfl
  className := rfl
  serial := rfl
  map := Or.inl rfl
  transform := Or.inl rfl
  place := by
    rcases h with hset | hfollows
    · exact Or.inr (Or.inl hset)
    · exact Or.inr (Or.inr (Or.inr hfollows))
  state := Or.inl rfl

theorem elsewhere {x a : Actor} (h : x.Elsewhere a) (hpawn : r.HasPawn cfg x.id) :
    Carried cfg inp r x a where
  id := h.id
  className := h.className
  serial := h.serial
  map := Or.inr hpawn
  transform := Or.inr hpawn
  place := Or.inr (Or.inr (Or.inl hpawn))
  state := Or.inl h.state

theorem store {x : Actor} (hv : x.id ∈ inp.recoveryVehicles) (hpos : 0 < x.id) :
    Carried cfg inp r x { x with state := .vehicleRecovery } where
  id := rfl
  className := rfl
  serial := rfl
  map := Or.inl rfl
  transform := Or.inl rfl
  place := Or.inl ⟨rfl, rfl⟩
  state := Or.inr ⟨hv, hpos⟩

end Carried

theorem Becomes.carried_trans {t t' t'' : Table Actor (·.id)}
    (h : Becomes (Carried cfg inp r) t t') (h' : Becomes (Carried cfg inp r) t' t'') :
    Becomes (Carried cfg inp r) t t'' :=
  Becomes.trans h h' fun _ _ _ _ hxa hab => hxa.trans hab

theorem carried_rekeyed :
    Becomes (Carried cfg inp r) db.actors (db.rekeyed cfg r).actors := by
  unfold Db.rekeyed
  refine becomes_updateFrom_of (by intro _ _; rfl) (fun x _ => Carried.refl x) ?_
  intro x _ z hz hid
  exact Carried.rekey (Or.inl ⟨z, hz, (of_decide_eq_true hid).symm⟩)

theorem carried_followed :
    Becomes (Carried cfg inp r) db.actors (db.followed cfg r).actors := by
  unfold Db.followed
  refine becomes_updateFrom_of (by intro _ _; rfl) (fun x _ => Carried.refl x) ?_
  intro x _ c hc hfollows
  obtain ⟨hpawn, hpart, hid⟩ := of_decide_eq_true hfollows
  exact Carried.rekey (Or.inr ⟨⟨c, hc, hpawn, hid⟩, hpart⟩)

/-! ## The procedures, over the loops -/

/-- The tables that the loop over the recovery vehicles leaves, from those of `db`: a vehicle that
is still to come may have a row, and the others had none. -/
structure Storing (cfg : Config) (inp : Input) (r : Record) (db : Db) (rest : List Int) (s : Db) :
    Prop where
  eq : ∃ actors recovered, s = { db with actors, recovered }
  actors : Becomes (Carried cfg inp r) db.actors s.actors
  recovered : ∀ v, s.recovered.get? v = db.recovered.get? v ∨
    v ∈ inp.recoveryVehicles ∧ 0 < v ∧ db.recovered.get? v = none
  still : ∀ v ∈ rest, v ∈ inp.recoveryVehicles ∧ 0 < v
  done : ∀ v ∈ inp.recoveryVehicles, 0 < v → v ∈ rest ∨ db.recovered.get? v = none

variable {s m : Db}

theorem Storing.step (hprocs : procs.Documented) {s' : Db} {v : Int} {rest : List Int}
    (h : Storing cfg inp r db (v :: rest) s)
    (hstore : procs.storeRecoveredVehicle v s = some s') : Storing cfg inp r db rest s' := by
  obtain ⟨actors, row, recovered, rfl, hactors, rfl, hins⟩ := hprocs.store hstore
  obtain ⟨hv, hpos⟩ := h.still row.vehicleId List.mem_cons_self
  have hfree : db.recovered.get? row.vehicleId = none := by
    rcases h.recovered row.vehicleId with heq | ⟨-, -, hnone⟩
    · rw [← heq, get?_eq_none]
      exact fun q hq => fresh_of_insert? hins hq
    · exact hnone
  constructor
  case eq =>
    obtain ⟨_, _, rfl⟩ := h.eq
    exact ⟨actors, recovered, rfl⟩
  case actors =>
    refine h.actors.trans hactors fun x a b _ hxa hb => hxa.trans ?_
    rw [hb]
    split
    · rename_i hid
      exact Carried.store (hid ▸ hv) (hid ▸ hpos)
    · exact Carried.refl a
  case recovered =>
    intro k
    by_cases hk : row.vehicleId = k
    · exact Or.inr (hk ▸ ⟨hv, hpos, hfree⟩)
    · dsimp only
      rw [get?_insert? hins, if_neg hk]
      exact h.recovered k
  case still => exact fun k hk => h.still k (List.mem_cons_of_mem _ hk)
  case done =>
    intro k hk hkpos
    rcases h.done k hk hkpos with hmem | hnone
    · rcases List.mem_cons.mp hmem with rfl | hmem
      · exact Or.inr hfree
      · exact Or.inl hmem
    · exact Or.inr hnone

theorem storing_stored (cfg : Config) (r : Record) (hprocs : procs.Documented)
    (h : db.stored procs inp = .ok s) : Storing cfg inp r db [] s := by
  refine foldlM_rule (I := Storing cfg inp r db) (fun v rest a a' ha hstep => ?_) ?_ h
  · exact ha.step hprocs (orRaise_eq_ok.mp hstep)
  · constructor
    case eq => exact ⟨db.actors, db.recovered, rfl⟩
    case actors => exact Becomes.refl Carried.refl _
    case recovered => exact fun _ => Or.inl rfl
    case still =>
      intro v hv
      obtain ⟨hmem, hpos⟩ := List.mem_filter.mp hv
      exact ⟨hmem, of_decide_eq_true hpos⟩
    case done => exact fun v hv hpos => Or.inl (List.mem_filter.mpr ⟨hv, decide_eq_true hpos⟩)

theorem carried_moved (hprocs : procs.Documented) (h : db.moved cfg procs inp r = .ok s)
    (hchars : ∀ c ∈ r.characters, ∃ e ∈ db.players, e.characterState = some .active ∧
      db.HasUser e.accountId c.fls ∧ c.playerPawnId = e.playerPawnId) :
    (∃ actors, s = { db with actors }) ∧ Becomes (Carried cfg inp r) db.actors s.actors := by
  refine (foldlM_rule (I := fun rest s => (∀ c ∈ rest, c ∈ r.characters ∧
    c.pawnPartition = some cfg.srcPart) ∧ (∃ actors, s = { db with actors }) ∧
      Becomes (Carried cfg inp r) db.actors s.actors) (fun c rest a a' ha hstep => ?_) ?_ h).2
  · obtain ⟨hrest, ⟨actors, rfl⟩, hcarried⟩ := ha
    obtain ⟨hc, hpart⟩ := hrest c List.mem_cons_self
    obtain ⟨e, he, hactive, huser, hpawn⟩ := hchars c hc
    obtain ⟨actors', rfl, hactors⟩ :=
      hprocs.move (orRaise_eq_ok.mp hstep) e he hactive huser
    refine ⟨fun c hc => hrest c (List.mem_cons_of_mem _ hc), ⟨actors', rfl⟩, ?_⟩
    refine hcarried.trans hactors fun x a b _ hxa hab => hxa.trans ?_
    rcases hab with rfl | ⟨hid, helse⟩
    · exact Carried.refl b
    · exact Carried.elsewhere helse ⟨c, hc, hpart, hpawn.trans hid⟩
  · refine ⟨fun c hc => ?_, ⟨db.actors, rfl⟩, Becomes.refl Carried.refl _⟩
    exact ⟨(List.mem_filter.mp hc).1, of_decide_eq_true (List.mem_filter.mp hc).2⟩

/-! ## What a committed move leaves -/

def Rehomed (r : Record) (e f : PlayerState) : Prop :=
  f = e ∨ (∃ c ∈ r.characters, c.epsId = e.id) ∧ ∃ home return_,
    f = { e with homeDimensionIndex := home, returnDimensionIndex := return_ }

def Rerouted (r : Record) (t u : TravelState) : Prop :=
  u = t ∨ (∃ c ∈ r.characters, c.fls = t.flsId ∧ c.loginTargetDimensionIndex.isSome = true) ∧
    ∃ login, u = { t with loginTargetDimensionIndex := login }

def Relocated (r : Record) (s t : Respawn) : Prop :=
  t = s ∨ (∃ z ∈ r.respawns, s.id = z.id ∧ s.characterId = z.characterId) ∧
    ∃ dimension, t = { s with dimension }

theorem rehomed_followed (cfg : Config) (db : Db) (r : Record) :
    Becomes (Rehomed r) db.players (db.followed cfg r).players := by
  unfold Db.followed
  have hhome : ∀ {e : PlayerState} {c : Character} {dim : Int}, c ∈ r.characters →
      decide (e.id = c.epsId ∧ c.homeDimensionIndex = some cfg.srcDim) = true →
      Rehomed r e { e with homeDimensionIndex := some dim } := fun {e c _} hc hp =>
    Or.inr ⟨⟨c, hc, (of_decide_eq_true hp).1.symm⟩, _, e.returnDimensionIndex, rfl⟩
  have hreturn : ∀ {e : PlayerState} {c : Character} {dim : Int}, c ∈ r.characters →
      decide (e.id = c.epsId ∧ c.returnDimensionIndex = some cfg.srcDim) = true →
      Rehomed r e { e with returnDimensionIndex := some dim } := fun {e c _} hc hp =>
    Or.inr ⟨⟨c, hc, (of_decide_eq_true hp).1.symm⟩, e.homeDimensionIndex, _, rfl⟩
  have hfirst : Becomes (Rehomed r) db.players (db.players.updateFrom r.characters
      (fun e c => e.id = c.epsId ∧ c.homeDimensionIndex = some cfg.srcDim)
      fun e _ => { e with homeDimensionIndex := some cfg.dstDim }) :=
    becomes_updateFrom_of (by intro _ _; rfl) (fun e _ => Or.inl rfl) fun e _ c hc hp =>
      hhome hc hp
  refine hfirst.trans (becomes_updateFrom_of (R := Rehomed r) (by intro _ _; rfl)
    (fun e _ => Or.inl rfl) fun e _ c hc hp => hreturn hc hp) fun e f g _ hef hfg => ?_
  rcases hef with rfl | ⟨hmem, home, return_, rfl⟩
  · exact hfg
  · rcases hfg with rfl | ⟨-, home', return', rfl⟩
    · exact Or.inr ⟨hmem, home, return_, rfl⟩
    · exact Or.inr ⟨hmem, home', return', rfl⟩

theorem rerouted_followed (cfg : Config) (db : Db) (r : Record) :
    Becomes (Rerouted r) db.travel (db.followed cfg r).travel := by
  unfold Db.followed
  refine becomes_updateFrom_of (by intro _ _; rfl) (fun _ _ => Or.inl rfl) fun t _ c hc hp => ?_
  obtain ⟨hfls, hlogin⟩ := of_decide_eq_true hp
  exact Or.inr ⟨⟨c, hc, hfls.symm, by rw [hlogin]; rfl⟩, _, rfl⟩

theorem relocated_rekeyed (r : Record) :
    Becomes (Relocated r) db.respawns (db.rekeyed cfg r).respawns := by
  unfold Db.rekeyed
  refine becomes_updateFrom_of (by intro _ _; rfl) (fun _ _ => Or.inl rfl) fun s _ z hz hp => ?_
  exact Or.inr ⟨⟨z, hz, of_decide_eq_true hp⟩, _, rfl⟩

structure Departed (cfg : Config) (inp : Input) (db m : Db) : Prop where
  record : m.record = some (db.toRecord cfg inp)
  actors : Becomes (Carried cfg inp (db.toRecord cfg inp)) db.actors m.actors
  players : Becomes (Rehomed (db.toRecord cfg inp)) db.players m.players
  travel : Becomes (Rerouted (db.toRecord cfg inp)) db.travel m.travel
  respawns : Becomes (Relocated (db.toRecord cfg inp)) db.respawns m.respawns
  permissions : m.permissions = (db.unlisted (db.toRecord cfg inp)).permissions
  ranks : m.ranks = (db.unlisted (db.toRecord cfg inp)).ranks
  recovered : ∀ v, m.recovered.get? v = db.recovered.get? v ∨
    v ∈ inp.recoveryVehicles ∧ 0 < v ∧ db.recovered.get? v = none
  fresh : ∀ v ∈ inp.recoveryVehicles, 0 < v → db.recovered.get? v = none
  landed : ∀ z ∈ (db.toRecord cfg inp).actors, ∃ a, m.actors.get? z.id = some a ∧ a.Landed cfg
  sent : ∀ v ∈ inp.recoveryVehicles, 0 < v →
    (m.recovered.get? v).isSome = true ∧ (m.actors.get? v).isSome = true
  idle : m.partitionLive cfg = false
  offline : m.playerOnline = false
  partition : m.worldPartitions.rows.any (isSrc cfg) = true

theorem src_of_length
    (h : (db.worldPartitions.rows.filter fun w => isSrc cfg w || isDst cfg w).length = 2) :
    db.worldPartitions.rows.any (isSrc cfg) = true := by
  by_contra hnone
  have hdst : ∀ w ∈ db.worldPartitions.rows,
      (isSrc cfg w || isDst cfg w) = true → w.partitionId = cfg.dstPart := by
    intro w hw hor
    have hsrc : isSrc cfg w = false := by
      by_contra hsrc
      exact hnone (List.any_eq_true.mpr ⟨w, hw, by simpa using hsrc⟩)
    rw [hsrc, Bool.false_or] at hor
    simp only [isDst, Bool.and_eq_true, decide_eq_true_eq] at hor
    exact hor.1.1
  have hle := length_filter_le_one db.worldPartitions (k := cfg.dstPart)
    (p := fun w => isSrc cfg w || isDst cfg w) fun w hw hp => hdst w hw hp
  omega

theorem online_of_rehomed (h : Becomes (Rehomed r) db.players m.players)
    (hoff : db.playerOnline = false) : m.playerOnline = false := by
  unfold Db.playerOnline at *
  rw [List.any_eq_false] at *
  intro f hf
  obtain ⟨e, he, hef⟩ := h.get_back (get?_eq_some.mpr ⟨hf, rfl⟩)
  have hstatus : f.onlineStatus = e.onlineStatus := by
    rcases hef with rfl | ⟨-, home, return_, rfl⟩
    · rfl
    · rfl
  rw [hstatus]
  exact hoff e (mem_of_get? he)

theorem landed_of_length (h : (r.actors.filter fun z =>
    (m.actors.get? z.id).any (·.Landed cfg)).length = r.actors.length) :
    ∀ z ∈ r.actors, ∃ a, m.actors.get? z.id = some a ∧ a.Landed cfg := by
  intro z hz
  have hany := List.length_filter_eq_length_iff.mp h z hz
  obtain ⟨a, ha, hlanded⟩ := (Option.any_eq_true _ _).mp hany
  exact ⟨a, ha, of_decide_eq_true hlanded⟩

theorem sent_of_recovered (h : ¬m.unrecovered inp = true) {v : Int}
    (hv : v ∈ inp.recoveryVehicles) (hpos : 0 < v) :
    (m.recovered.get? v).isSome = true ∧ (m.actors.get? v).isSome = true := by
  unfold Db.unrecovered at h
  rw [List.any_eq_true] at h
  push Not at h
  have hrow := h v hv
  simp only [ne_eq, Bool.or_eq_true, Bool.and_eq_true, decide_eq_true_eq, Bool.not_eq_true',
    not_or, not_and, Bool.not_eq_false] at hrow
  obtain ⟨hrecovered, hactor⟩ := hrow.1 hpos
  obtain ⟨row, hrow, -⟩ := (Option.any_eq_true _ _).mp hrecovered
  obtain ⟨a, ha, -⟩ := (Option.any_eq_true _ _).mp hactor
  exact ⟨by rw [hrow]; rfl, by rw [ha]; rfl⟩

theorem departed (hprocs : procs.Documented) (h : move cfg procs inp db = .ok m) :
    Departed cfg inp db m := by
  obtain ⟨_, hidle, h⟩ := bind_eq_ok.mp h
  obtain ⟨_, hoff, h⟩ := bind_eq_ok.mp h
  obtain ⟨_, hparts, h⟩ := bind_eq_ok.mp h
  obtain ⟨_, hrecord, h⟩ := bind_eq_ok.mp h
  obtain ⟨_, hcount, h⟩ := bind_eq_ok.mp h
  obtain ⟨_, hover, h⟩ := bind_eq_ok.mp h
  obtain ⟨_, hcargo, h⟩ := bind_eq_ok.mp h
  obtain ⟨recovered, hstored, h⟩ := bind_eq_ok.mp h
  obtain ⟨landed, hmoved, h⟩ := bind_eq_ok.mp h
  obtain ⟨_, hback, h⟩ := bind_eq_ok.mp h
  cases pure_eq_ok.mp h
  have hstoring := storing_stored cfg (db.toRecord cfg inp) hprocs hstored
  obtain ⟨actors, recovered, rfl⟩ := hstoring.eq
  have hchars : ∀ c ∈ (db.toRecord cfg inp).characters, ∃ e ∈ db.players,
      e.characterState = some .active ∧ db.HasUser e.accountId c.fls ∧
        c.playerPawnId = e.playerPawnId := by
    intro c hc
    obtain ⟨e, he, acc, hacc, hactive, rfl⟩ := mem_movedCharacters hc
    exact ⟨e, he, hactive, ⟨acc, hacc, rfl⟩, rfl⟩
  obtain ⟨⟨placed, rfl⟩, hplaced⟩ := carried_moved hprocs hmoved hchars
  obtain ⟨_, hlanded, hback⟩ := bind_eq_ok.mp hback
  obtain ⟨_, -, hback⟩ := bind_eq_ok.mp hback
  obtain ⟨_, -, hback⟩ := bind_eq_ok.mp hback
  obtain ⟨_, -, hback⟩ := bind_eq_ok.mp hback
  obtain ⟨_, -, hback⟩ := bind_eq_ok.mp hback
  obtain ⟨_, -, hback⟩ := bind_eq_ok.mp hback
  have hcarried := Becomes.carried_trans (Becomes.carried_trans (Becomes.carried_trans
    carried_rekeyed hstoring.actors) hplaced) carried_followed
  have hdown : db.partitionLive cfg = false := by simpa using require_eq_ok.mp hidle
  have hoffline : db.playerOnline = false := by simpa using require_eq_ok.mp hoff
  have hplayers := rehomed_followed cfg db (db.toRecord cfg inp)
  exact {
    record := rfl
    actors := hcarried
    players := hplayers
    travel := rerouted_followed cfg db (db.toRecord cfg inp)
    respawns := relocated_rekeyed (db.toRecord cfg inp)
    permissions := rfl
    ranks := rfl
    recovered := hstoring.recovered
    fresh := fun v hv hpos => (hstoring.done v hv hpos).resolve_left List.not_mem_nil
    landed := landed_of_length (require_eq_ok.mp hlanded)
    sent := fun v hv hpos => sent_of_recovered (require_eq_ok.mp hback) hv hpos
    idle := hdown
    offline := online_of_rehomed hplayers hoffline
    partition := src_of_length (require_eq_ok.mp hparts) }

end LastSietch.MapClose
