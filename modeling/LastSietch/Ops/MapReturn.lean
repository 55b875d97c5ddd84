import LastSietch.Ops.MapDeparture

/-!
# The way back

The revert of a move that has just been made. Of a vehicle that was sent to recovery it knows the
permission rows: one without any stays in recovery, and the others come back as vehicles that were
in the world.
-/

namespace LastSietch.MapClose

open Table

variable {cfg : Config} {procs : Procs} {inp : Input} {db db' m : Db} {r : Record}

/-! ## Actors -/

/-- `b` is `a`, with some of what `x` had. -/
structure Nearer (x a b : Actor) : Prop where
  id : b.id = a.id
  className : b.className = a.className
  serial : b.serial = a.serial
  map : b.map = a.map ∨ b.map = x.map
  transform : b.transform = a.transform ∨ b.transform = x.transform
  place : b.partitionId = a.partitionId ∧ b.dimensionIndex = a.dimensionIndex ∨
    b.partitionId = x.partitionId ∧ b.dimensionIndex = x.dimensionIndex

namespace Nearer

variable {x a b c : Actor}

theorem refl (x a : Actor) : Nearer x a a where
  id := rfl
  className := rfl
  serial := rfl
  map := Or.inl rfl
  transform := Or.inl rfl
  place := Or.inl ⟨rfl, rfl⟩

theorem trans (h : Nearer x a b) (h' : Nearer x b c) : Nearer x a c where
  id := h'.id.trans h.id
  className := h'.className.trans h.className
  serial := h'.serial.trans h.serial
  map := by
    rcases h'.map with heq | hback
    · rw [heq]
      exact h.map
    · exact Or.inr hback
  transform := by
    rcases h'.transform with heq | hback
    · rw [heq]
      exact h.transform
    · exact Or.inr hback
  place := by
    rcases h'.place with heq | hback
    · rw [heq.1, heq.2]
      exact h.place
    · exact Or.inr hback

theorem map_back (h : Nearer x a b) (ha : a.map = x.map) : b.map = x.map := by
  rcases h.map with heq | hback
  · exact heq.trans ha
  · exact hback

theorem transform_back (h : Nearer x a b) (ha : a.transform = x.transform) :
    b.transform = x.transform := by
  rcases h.transform with heq | hback
  · exact heq.trans ha
  · exact hback

theorem place_back (h : Nearer x a b)
    (ha : a.partitionId = x.partitionId ∧ a.dimensionIndex = x.dimensionIndex) :
    b.partitionId = x.partitionId ∧ b.dimensionIndex = x.dimensionIndex := by
  rcases h.place with heq | hback
  · exact ⟨heq.1.trans ha.1, heq.2.trans ha.2⟩
  · exact hback

theorem joined {β : Type} {src : List β} {p : Actor → β → Bool} {f : Actor → β → Actor}
    (h : ∀ z ∈ src, p a z = true → Nearer x a (f a z)) : Nearer x a (joined src p f a) := by
  rcases joined_cases src p f a with ⟨heq, -⟩ | ⟨z, hz, hp, heq⟩
  · rw [heq]
    exact refl x a
  · rw [heq]
    exact h z hz hp

end Nearer

/-! ### The five statements of the revert -/

def placeBack (r : Record) : Actor → Actor :=
  joined r.actors (fun a z => a.id = z.id) (fun a z => { a with
    partitionId := z.partitionId, dimensionIndex := z.dimensionIndex, map := z.map })

def inWorld (r : Record) : Actor → Actor :=
  joined r.vehiclePerms (fun a p => a.id = p.actor.actorId)
    (fun a _ => { a with state := .default })

def pawnBack (cfg : Config) (r : Record) : Actor → Actor :=
  joined r.characters
    (fun a c => c.playerPawnId = some a.id ∧ c.pawnPartition = some cfg.srcPart)
    (fun a c => { a with
      partitionId := c.pawnPartition, dimensionIndex := c.pawnDimension, map := c.pawnMap
      transform := c.pawnTransform })

def ctrlBack (cfg : Config) (r : Record) : Actor → Actor :=
  joined r.characters
    (fun a c => c.playerControllerId = some a.id ∧ c.pawnPartition = some cfg.srcPart ∧
      c.ctrlPartition = some cfg.srcPart)
    (fun a c => { a with partitionId := c.ctrlPartition, dimensionIndex := c.ctrlDimension })

def stateBack (cfg : Config) (r : Record) : Actor → Actor :=
  joined r.characters
    (fun a c => c.playerStateId = some a.id ∧ c.pawnPartition = some cfg.srcPart ∧
      c.statePartition = some cfg.srcPart)
    (fun a c => { a with partitionId := c.statePartition, dimensionIndex := c.stateDimension })

def Actor.back (cfg : Config) (r : Record) (a : Actor) : Actor :=
  stateBack cfg r (ctrlBack cfg r (pawnBack cfg r (inWorld r (placeBack r a))))

section Stages

variable {x a : Actor} (hx : x ∈ db.actors) (hid : a.id = x.id)

include hx in
theorem actor?_eq : db.actor? (some x.id) = some x := get?_eq_some.mpr ⟨hx, rfl⟩

include hx hid

theorem placeBack_tells {z : MovedActor} (hz : z ∈ (db.toRecord cfg inp).actors)
    (hp : decide (a.id = z.id) = true) : z.partitionId = x.partitionId ∧
      z.dimensionIndex = x.dimensionIndex ∧ z.map = x.map := by
  have heq := moveSet_eq hz hx ((of_decide_eq_true hp).symm.trans hid)
  exact ⟨congrArg Actor.partitionId heq, congrArg Actor.dimensionIndex heq,
    congrArg Actor.map heq⟩

theorem pawnBack_tells {c : Character} (hc : c ∈ (db.toRecord cfg inp).characters)
    (hp : c.playerPawnId = some a.id) : c.pawnPartition = x.partitionId ∧
      c.pawnDimension = x.dimensionIndex ∧ c.pawnMap = x.map ∧ c.pawnTransform = x.transform := by
  obtain ⟨e, -, acc, -, -, rfl⟩ := mem_movedCharacters hc
  have hactor : db.actor? e.playerPawnId = some x := by
    have hpawn : e.playerPawnId = some x.id := by rw [← hid]; exact hp
    rw [hpawn, actor?_eq hx]
  simp only [Db.character, hactor, Option.bind_some, and_self]

theorem ctrlBack_tells {c : Character} (hc : c ∈ (db.toRecord cfg inp).characters)
    (hp : c.playerControllerId = some a.id) : c.ctrlPartition = x.partitionId ∧
      c.ctrlDimension = x.dimensionIndex := by
  obtain ⟨e, -, acc, -, -, rfl⟩ := mem_movedCharacters hc
  have hactor : db.actor? e.playerControllerId = some x := by
    have hctrl : e.playerControllerId = some x.id := by rw [← hid]; exact hp
    rw [hctrl, actor?_eq hx]
  simp only [Db.character, hactor, Option.bind_some, and_self]

theorem stateBack_tells {c : Character} (hc : c ∈ (db.toRecord cfg inp).characters)
    (hp : c.playerStateId = some a.id) : c.statePartition = x.partitionId ∧
      c.stateDimension = x.dimensionIndex := by
  obtain ⟨e, -, acc, -, -, rfl⟩ := mem_movedCharacters hc
  have hactor : db.actor? e.playerStateId = some x := by
    have hstate : e.playerStateId = some x.id := by rw [← hid]; exact hp
    rw [hstate, actor?_eq hx]
  simp only [Db.character, hactor, Option.bind_some, and_self]

theorem placeBack_nearer : Nearer x a (placeBack (db.toRecord cfg inp) a) := by
  refine Nearer.joined fun z hz hp => ?_
  obtain ⟨hpart, hdim, hmap⟩ := placeBack_tells hx hid hz hp
  exact { Nearer.refl x a with map := Or.inr hmap, place := Or.inr ⟨hpart, hdim⟩ }

theorem pawnBack_nearer : Nearer x a (pawnBack cfg (db.toRecord cfg inp) a) := by
  refine Nearer.joined fun c hc hp => ?_
  obtain ⟨hpart, hdim, hmap, htransform⟩ := pawnBack_tells hx hid hc (of_decide_eq_true hp).1
  exact { Nearer.refl x a with
    map := Or.inr hmap, transform := Or.inr htransform, place := Or.inr ⟨hpart, hdim⟩ }

theorem ctrlBack_nearer : Nearer x a (ctrlBack cfg (db.toRecord cfg inp) a) := by
  refine Nearer.joined fun c hc hp => ?_
  obtain ⟨hpart, hdim⟩ := ctrlBack_tells hx hid hc (of_decide_eq_true hp).1
  exact { Nearer.refl x a with place := Or.inr ⟨hpart, hdim⟩ }

theorem stateBack_nearer : Nearer x a (stateBack cfg (db.toRecord cfg inp) a) := by
  refine Nearer.joined fun c hc hp => ?_
  obtain ⟨hpart, hdim⟩ := stateBack_tells hx hid hc (of_decide_eq_true hp).1
  exact { Nearer.refl x a with place := Or.inr ⟨hpart, hdim⟩ }

theorem placeBack_has (h : (db.toRecord cfg inp).Has x.id) :
    (placeBack (db.toRecord cfg inp) a).partitionId = x.partitionId ∧
      (placeBack (db.toRecord cfg inp) a).dimensionIndex = x.dimensionIndex := by
  obtain ⟨z, hz, hzid⟩ := h
  have hjoin : ∃ z ∈ (db.toRecord cfg inp).actors, decide (a.id = z.id) = true :=
    ⟨z, hz, decide_eq_true (hid.trans hzid.symm)⟩
  exact ⟨joined_tells Actor.partitionId hjoin fun z hz hp => (placeBack_tells hx hid hz hp).1,
    joined_tells Actor.dimensionIndex hjoin fun z hz hp => (placeBack_tells hx hid hz hp).2.1⟩

theorem pawnBack_has (h : (db.toRecord cfg inp).HasPawn cfg x.id) :
    ((pawnBack cfg (db.toRecord cfg inp) a).partitionId = x.partitionId ∧
      (pawnBack cfg (db.toRecord cfg inp) a).dimensionIndex = x.dimensionIndex) ∧
      (pawnBack cfg (db.toRecord cfg inp) a).map = x.map ∧
      (pawnBack cfg (db.toRecord cfg inp) a).transform = x.transform := by
  obtain ⟨c, hc, hpart, hpawn⟩ := h
  have hjoin : ∃ c ∈ (db.toRecord cfg inp).characters,
      decide (c.playerPawnId = some a.id ∧ c.pawnPartition = some cfg.srcPart) = true :=
    ⟨c, hc, decide_eq_true ⟨by rw [hid]; exact hpawn, hpart⟩⟩
  have htells : ∀ c ∈ (db.toRecord cfg inp).characters,
      decide (c.playerPawnId = some a.id ∧ c.pawnPartition = some cfg.srcPart) = true → _ :=
    fun c hc hp => pawnBack_tells hx hid hc (of_decide_eq_true hp).1
  exact ⟨⟨joined_tells Actor.partitionId hjoin fun c hc hp => (htells c hc hp).1,
    joined_tells Actor.dimensionIndex hjoin fun c hc hp => (htells c hc hp).2.1⟩,
    joined_tells Actor.map hjoin fun c hc hp => (htells c hc hp).2.2.1,
    joined_tells Actor.transform hjoin fun c hc hp => (htells c hc hp).2.2.2⟩

theorem ctrlBack_has {c : Character} (hc : c ∈ (db.toRecord cfg inp).characters)
    (hpart : c.pawnPartition = some cfg.srcPart) (hctrl : c.playerControllerId = some x.id)
    (hsrc : x.partitionId = some cfg.srcPart) :
    (ctrlBack cfg (db.toRecord cfg inp) a).partitionId = x.partitionId ∧
      (ctrlBack cfg (db.toRecord cfg inp) a).dimensionIndex = x.dimensionIndex := by
  have hself : c.playerControllerId = some a.id := by rw [hid]; exact hctrl
  have hjoin : ∃ c ∈ (db.toRecord cfg inp).characters, decide (c.playerControllerId = some a.id ∧
      c.pawnPartition = some cfg.srcPart ∧ c.ctrlPartition = some cfg.srcPart) = true :=
    ⟨c, hc, decide_eq_true ⟨hself, hpart, (ctrlBack_tells hx hid hc hself).1.trans hsrc⟩⟩
  exact ⟨joined_tells Actor.partitionId hjoin fun c hc hp =>
      (ctrlBack_tells hx hid hc (of_decide_eq_true hp).1).1,
    joined_tells Actor.dimensionIndex hjoin fun c hc hp =>
      (ctrlBack_tells hx hid hc (of_decide_eq_true hp).1).2⟩

theorem stateBack_has {c : Character} (hc : c ∈ (db.toRecord cfg inp).characters)
    (hpart : c.pawnPartition = some cfg.srcPart) (hstate : c.playerStateId = some x.id)
    (hsrc : x.partitionId = some cfg.srcPart) :
    (stateBack cfg (db.toRecord cfg inp) a).partitionId = x.partitionId ∧
      (stateBack cfg (db.toRecord cfg inp) a).dimensionIndex = x.dimensionIndex := by
  have hself : c.playerStateId = some a.id := by rw [hid]; exact hstate
  have hjoin : ∃ c ∈ (db.toRecord cfg inp).characters, decide (c.playerStateId = some a.id ∧
      c.pawnPartition = some cfg.srcPart ∧ c.statePartition = some cfg.srcPart) = true :=
    ⟨c, hc, decide_eq_true ⟨hself, hpart, (stateBack_tells hx hid hc hself).1.trans hsrc⟩⟩
  exact ⟨joined_tells Actor.partitionId hjoin fun c hc hp =>
      (stateBack_tells hx hid hc (of_decide_eq_true hp).1).1,
    joined_tells Actor.dimensionIndex hjoin fun c hc hp =>
      (stateBack_tells hx hid hc (of_decide_eq_true hp).1).2⟩

omit hx hid in
theorem inWorld_nearer : Nearer x a (inWorld r a) :=
  Nearer.joined fun _ _ _ => { Nearer.refl x a with }

end Stages

theorem inWorld_state (r : Record) (a : Actor) :
    (r.HasPerm a.id → (inWorld r a).state = .default) ∧
      (¬r.HasPerm a.id → (inWorld r a).state = a.state) := by
  constructor
  · rintro ⟨p, hp, hid⟩
    exact joined_tells Actor.state ⟨p, hp, decide_eq_true hid.symm⟩ fun _ _ _ => rfl
  · intro hnone
    have hmiss : ∀ p ∈ r.vehiclePerms, decide (a.id = p.actor.actorId) = false :=
      fun p hp => decide_eq_false fun hid => hnone ⟨p, hp, hid.symm⟩
    exact congrArg Actor.state (joined_of_none hmiss)

theorem back_state (cfg : Config) (r : Record) (a : Actor) :
    (a.back cfg r).state = (inWorld r (placeBack r a)).state := by
  calc (a.back cfg r).state
      = (ctrlBack cfg r (pawnBack cfg r (inWorld r (placeBack r a)))).state :=
        joined_keeps _ _ Actor.state (by intro _ _; rfl) _
    _ = (pawnBack cfg r (inWorld r (placeBack r a))).state :=
        joined_keeps _ _ Actor.state (by intro _ _; rfl) _
    _ = (inWorld r (placeBack r a)).state :=
        joined_keeps _ _ Actor.state (by intro _ _; rfl) _

/-- An actor after the move and the revert: what it was, but for the state of one with permission
rows. -/
structure Returned (inp : Input) (r : Record) (x b : Actor) : Prop where
  eq : b = { x with state := b.state }
  listed : r.HasPerm x.id → b.state = .default
  unlisted : ¬r.HasPerm x.id → b.state = x.state ∨ x.id ∈ inp.recoveryVehicles ∧ 0 < x.id

theorem returned_back {x a : Actor} (hx : x ∈ db.actors)
    (h : Carried cfg inp (db.toRecord cfg inp) x a) :
    Returned inp (db.toRecord cfg inp) x (a.back cfg (db.toRecord cfg inp)) := by
  set r := db.toRecord cfg inp with hr
  have h₁ : Nearer x a (placeBack r a) := placeBack_nearer hx h.id
  have h₂ : Nearer x (placeBack r a) (inWorld r (placeBack r a)) := inWorld_nearer
  have hid₂ := h₂.id.trans (h₁.id.trans h.id)
  have h₃ : Nearer x _ (pawnBack cfg r _) := pawnBack_nearer hx hid₂
  have hid₃ := h₃.id.trans hid₂
  have h₄ : Nearer x _ (ctrlBack cfg r _) := ctrlBack_nearer hx hid₃
  have hid₄ := h₄.id.trans hid₃
  have h₅ : Nearer x _ (stateBack cfg r _) := stateBack_nearer hx hid₄
  have h₃₅ := (h₃.trans h₄).trans h₅
  have hall := (h₁.trans h₂).trans h₃₅
  have hmap : (a.back cfg r).map = x.map := by
    rcases h.map with heq | hpawn
    · exact hall.map_back heq
    · exact (h₄.trans h₅).map_back (pawnBack_has hx hid₂ hpawn).2.1
  have htransform : (a.back cfg r).transform = x.transform := by
    rcases h.transform with heq | hpawn
    · exact hall.transform_back heq
    · exact (h₄.trans h₅).transform_back (pawnBack_has hx hid₂ hpawn).2.2
  have hplace : (a.back cfg r).partitionId = x.partitionId ∧
      (a.back cfg r).dimensionIndex = x.dimensionIndex := by
    rcases h.place with heq | hset | hpawn | ⟨⟨c, hc, hpart, hctrl | hstate⟩, hsrc⟩
    · exact hall.place_back heq
    · exact (h₂.trans h₃₅).place_back (placeBack_has hx h.id hset)
    · exact (h₄.trans h₅).place_back (pawnBack_has hx hid₂ hpawn).1
    · exact h₅.place_back (ctrlBack_has hx hid₃ hc hpart hctrl hsrc)
    · exact stateBack_has hx hid₄ hc hpart hstate hsrc
  have hplaced : (placeBack r a).id = x.id := h₁.id.trans h.id
  have hkept : (placeBack r a).state = a.state := joined_keeps _ _ Actor.state (by intro _ _; rfl) a
  refine ⟨?_, ?_, ?_⟩
  · exact Actor.ext (hall.id.trans h.id) (hall.className.trans h.className) hmap hplace.1 hplace.2
      rfl (hall.serial.trans h.serial) htransform
  · intro hperm
    rw [back_state]
    exact (inWorld_state r _).1 (by rw [hplaced]; exact hperm)
  · intro hperm
    rw [back_state, (inWorld_state r _).2 (by rw [hplaced]; exact hperm), hkept]
    exact h.state

/-! ## The other tables -/

theorem placedBack_respawns (h : Departed cfg inp db m) :
    Alike db.respawns (m.placedBack (db.toRecord cfg inp)).respawns := by
  unfold Db.placedBack
  refine alike_updateFrom h.respawns (by intro _ _; rfl) ?_ ?_
  · intro s hs t hst z hz hp
    obtain ⟨q, hq, rfl⟩ := mem_movedRespawns hz
    have hkey := of_decide_eq_true hp
    have hsame : (s.id, s.characterId) = (q.id, q.characterId) := by
      rcases hst with rfl | ⟨-, dimension, rfl⟩
      · exact Prod.ext hkey.1 hkey.2
      · exact Prod.ext hkey.1 hkey.2
    cases eq_of_key_eq hs hq hsame
    rcases hst with rfl | ⟨-, dimension, rfl⟩
    · rfl
    · rfl
  · intro s _ t hst hnone
    rcases hst with heq | ⟨⟨z, hz, hp⟩, dimension, rfl⟩
    · exact heq
    · exact absurd (decide_eq_true hp) (by rw [hnone z hz]; exact Bool.false_ne_true)

theorem broughtBack_players (h : Departed cfg inp db m) {s : Db} (hs : s.players = m.players) :
    Alike db.players (s.broughtBack cfg (db.toRecord cfg inp)).players := by
  unfold Db.broughtBack
  rw [hs]
  refine alike_updateFrom h.players (by intro _ _; rfl) ?_ ?_
  · intro e he f hef c hc hp
    obtain ⟨q, hq, acc, -, -, rfl⟩ := mem_movedCharacters hc
    have hsame : e.id = q.id := by
      rcases hef with rfl | ⟨-, home, return_, rfl⟩
      · exact of_decide_eq_true hp
      · exact of_decide_eq_true hp
    cases eq_of_key_eq he hq hsame
    rcases hef with rfl | ⟨-, home, return_, rfl⟩
    · rfl
    · rfl
  · intro e _ f hef hnone
    rcases hef with heq | ⟨⟨c, hc, hid⟩, home, return_, rfl⟩
    · exact heq
    · exact absurd (decide_eq_true hid.symm) (by rw [hnone c hc]; exact Bool.false_ne_true)

theorem broughtBack_travel (h : Departed cfg inp db m) {s : Db} (hs : s.travel = m.travel) :
    Alike db.travel (s.broughtBack cfg (db.toRecord cfg inp)).travel := by
  unfold Db.broughtBack
  rw [hs]
  refine alike_updateFrom h.travel (by intro _ _; rfl) ?_ ?_
  · intro t ht u htu c hc hp
    obtain ⟨q, -, acc, -, -, rfl⟩ := mem_movedCharacters hc
    have hfls : t.flsId = acc.user := by
      rcases htu with rfl | ⟨-, login, rfl⟩
      · exact (of_decide_eq_true hp).1
      · exact (of_decide_eq_true hp).1
    have hlogin : (db.character q acc).loginTargetDimensionIndex = t.loginTargetDimensionIndex := by
      have hget : db.travel.get? acc.user = some t := get?_eq_some.mpr ⟨ht, hfls⟩
      simp only [Db.character, hget, Option.bind_some]
    rw [hlogin]
    rcases htu with rfl | ⟨-, login, rfl⟩
    · rfl
    · rfl
  · intro t _ u htu hnone
    rcases htu with heq | ⟨⟨c, hc, hfls, hlogin⟩, login, rfl⟩
    · exact heq
    · have hjoin : decide (t.flsId = c.fls ∧ c.loginTargetDimensionIndex.isSome = true) = true :=
        decide_eq_true ⟨hfls.symm, hlogin⟩
      exact absurd hjoin (by rw [hnone c hc]; exact Bool.false_ne_true)

/-! ### Permissions -/

theorem any_hasPerm {id : Int} :
    r.vehiclePerms.any (fun p => decide (p.actor.actorId = id)) = true ↔ r.HasPerm id := by
  rw [List.any_eq_true]
  exact exists_congr fun p => and_congr_right fun _ => decide_eq_true_iff

theorem mem_unlisted_permissions {q : PermissionActor} :
    q ∈ (db.unlisted r).permissions ↔ q ∈ db.permissions ∧ ¬r.HasPerm q.actorId := by
  unfold Db.unlisted
  rw [mem_filter, Bool.not_eq_true', ← any_hasPerm, Bool.not_eq_true]

theorem mem_unlisted_ranks {q : PermissionRank} :
    q ∈ (db.unlisted (db.toRecord cfg inp)).ranks ↔
      q ∈ db.ranks ∧ ¬(db.toRecord cfg inp).HasPerm q.permissionActorId := by
  unfold Db.unlisted
  rw [mem_filter, Option.isNone_iff_eq_none, get?_eq_none]
  refine and_congr_right fun _ => ⟨fun h hperm => ?_, fun h p hp hid => ?_⟩
  · obtain ⟨hsome, -⟩ := hasPerm_toRecord.mp hperm
    obtain ⟨p, hp⟩ := Option.isSome_iff_exists.mp hsome
    obtain ⟨hmem, hid⟩ := get?_eq_some.mp hp
    exact h p (mem_filter.mpr ⟨hmem, any_hasPerm.mpr (hid ▸ hperm)⟩) hid
  · exact h (hid ▸ any_hasPerm.mp (mem_filter.mp hp).2)

def VehiclePerm.toRank (p : VehiclePerm) : Option PermissionRank :=
  p.rank.map fun s => ⟨p.actor.actorId, s.1, s.2⟩

theorem vehiclePerms_ranks : (db.vehiclePerms inp).filterMap VehiclePerm.toRank =
    (db.permissions.rows.filter fun p => p.actorId ∈ inp.recoveryVehicles).flatMap fun p =>
      db.ranks.rows.filter fun q => q.permissionActorId = p.actorId := by
  unfold Db.vehiclePerms
  rw [List.filterMap_flatMap]
  congr 1
  funext p
  have hrank : ∀ o : Option PermissionRank,
      VehiclePerm.toRank ⟨p, o.map fun q => (q.playerId, q.rank)⟩ =
        (id o).map fun q => ⟨p.actorId, q.playerId, q.rank⟩ := by
    intro o
    cases o with
    | none => rfl
    | some q => rfl
  rw [List.filterMap_map]
  simp only [Function.comp_def, hrank]
  rw [← List.map_filterMap, reduceOption_leftJoined]
  refine (List.map_congr_left fun q hq => ?_).trans (List.map_id _)
  rw [← of_decide_eq_true (List.mem_filter.mp hq).2]
  rfl

theorem mem_vehiclePerms_ranks {q : PermissionRank} :
    q ∈ (db.vehiclePerms inp).filterMap VehiclePerm.toRank ↔
      q ∈ db.ranks ∧ (db.toRecord cfg inp).HasPerm q.permissionActorId := by
  rw [vehiclePerms_ranks, hasPerm_toRecord, List.mem_flatMap]
  constructor
  · rintro ⟨p, hp, hq⟩
    obtain ⟨hp, hv⟩ := List.mem_filter.mp hp
    obtain ⟨hq, hid⟩ := List.mem_filter.mp hq
    have hid := of_decide_eq_true hid
    rw [hid, get?_eq_some.mpr ⟨hp, rfl⟩]
    exact ⟨hq, rfl, of_decide_eq_true hv⟩
  · rintro ⟨hq, hsome, hv⟩
    obtain ⟨p, hp⟩ := Option.isSome_iff_exists.mp hsome
    obtain ⟨hmem, hid⟩ := get?_eq_some.mp hp
    exact ⟨p, List.mem_filter.mpr ⟨hmem, decide_eq_true (hid ▸ hv)⟩,
      List.mem_filter.mpr ⟨hq, decide_eq_true hid.symm⟩⟩

theorem nodup_vehiclePerms_ranks :
    ((db.vehiclePerms inp).filterMap VehiclePerm.toRank).Nodup := by
  rw [vehiclePerms_ranks, List.nodup_flatMap]
  constructor
  · exact fun p _ => (List.Nodup.of_map _ db.ranks.unique).filter _
  · have hkeys := List.pairwise_map.mp db.permissions.unique
    refine List.Pairwise.filter _ (hkeys.imp ?_)
    intro p p' hne q hq hq'
    have hid := of_decide_eq_true (List.mem_filter.mp hq).2
    have hid' := of_decide_eq_true (List.mem_filter.mp hq').2
    exact hne (hid.symm.trans hid')

theorem insert_permissions (h : Departed cfg inp db m) : ∃ t,
    m.permissions.insertAll? ((db.toRecord cfg inp).vehiclePerms.map (·.actor)).dedup = some t ∧
      Alike db.permissions t := by
  have hmem : ∀ q, q ∈ ((db.toRecord cfg inp).vehiclePerms.map (·.actor)).dedup ↔
      q ∈ db.permissions ∧ q.actorId ∈ inp.recoveryVehicles := by
    intro q
    rw [List.mem_dedup, List.mem_map]
    exact mem_vehiclePerms
  have hgone : ∀ q ∈ db.permissions,
      (db.toRecord cfg inp).HasPerm q.actorId ↔ q.actorId ∈ inp.recoveryVehicles := by
    intro q hq
    rw [hasPerm_toRecord, get?_eq_some.mpr ⟨hq, rfl⟩]
    exact and_iff_right rfl
  have hsome := insertAll?_isSome (t := m.permissions)
    (nodup_keys (List.nodup_dedup _) fun q hq => ((hmem q).mp hq).1) fun q hq => by
      rw [get?_eq_none, h.permissions]
      intro p hp hid
      obtain ⟨hp, hnot⟩ := mem_unlisted_permissions.mp hp
      exact hnot ((hgone p hp).mpr (hid ▸ ((hmem q).mp hq).2))
  obtain ⟨t, ht⟩ := Option.isSome_iff_exists.mp hsome
  refine ⟨t, ht, alike_iff_mem.mpr fun q => ?_⟩
  rw [mem_insertAll? ht, hmem, h.permissions, mem_unlisted_permissions]
  constructor
  · intro hq
    by_cases hv : q.actorId ∈ inp.recoveryVehicles
    · exact Or.inl ⟨hq, hv⟩
    · exact Or.inr ⟨hq, fun hperm => hv ((hgone q hq).mp hperm)⟩
  · rintro (⟨hq, -⟩ | ⟨hq, -⟩)
    · exact hq
    · exact hq

theorem insert_ranks (h : Departed cfg inp db m) : ∃ t,
    m.ranks.insertAll? ((db.toRecord cfg inp).vehiclePerms.filterMap VehiclePerm.toRank) = some t ∧
      Alike db.ranks t := by
  have hmem : ∀ q, q ∈ (db.toRecord cfg inp).vehiclePerms.filterMap VehiclePerm.toRank ↔
      q ∈ db.ranks ∧ (db.toRecord cfg inp).HasPerm q.permissionActorId :=
    fun q => mem_vehiclePerms_ranks
  have hsome := insertAll?_isSome (t := m.ranks)
    (nodup_keys (l := (db.toRecord cfg inp).vehiclePerms.filterMap VehiclePerm.toRank)
      nodup_vehiclePerms_ranks fun q hq => ((hmem q).mp hq).1) fun q hq => by
      rw [get?_eq_none, h.ranks]
      intro s hs hkey
      obtain ⟨-, hnot⟩ := mem_unlisted_ranks.mp hs
      have hid : s.permissionActorId = q.permissionActorId := congrArg Prod.fst hkey
      exact hnot (hid ▸ ((hmem q).mp hq).2)
  obtain ⟨t, ht⟩ := Option.isSome_iff_exists.mp hsome
  refine ⟨t, ht, alike_iff_mem.mpr fun q => ?_⟩
  rw [mem_insertAll? ht, hmem, h.ranks, mem_unlisted_ranks]
  constructor
  · intro hq
    by_cases hperm : (db.toRecord cfg inp).HasPerm q.permissionActorId
    · exact Or.inl ⟨hq, hperm⟩
    · exact Or.inr ⟨hq, hperm⟩
  · rintro (⟨hq, -⟩ | ⟨hq, -⟩)
    · exact hq
    · exact hq

/-! ## The revert -/

structure Reverted (inp : Input) (db : Db) (r : Record) (m b : Db) : Prop where
  actors : Becomes (Returned inp r) db.actors b.actors
  players : Alike db.players b.players
  travel : Alike db.travel b.travel
  respawns : Alike db.respawns b.respawns
  permissions : Alike db.permissions b.permissions
  ranks : Alike db.ranks b.ranks
  recovered : ∀ v, (r.HasPerm v → b.recovered.get? v = none) ∧
    (¬r.HasPerm v → b.recovered.get? v = m.recovered.get? v)
  record : ∃ r', b.record = some r' ∧ r'.revertedAt ≠ none

theorem changedSince_false (h : Departed cfg inp db m) :
    ¬m.changedSince cfg (db.toRecord cfg inp) = true := by
  unfold Db.changedSince
  rw [Bool.not_eq_true, List.any_eq_false]
  intro z hz
  obtain ⟨a, ha, hpart, hdim, hstate, -⟩ := h.landed z hz
  simp [ha, hpart, hdim, hstate]

theorem get?_placedBack (s : Db) (r : Record) (id : Int) :
    (s.placedBack r).actors.get? id = (s.actors.get? id).map (placeBack r) := by
  unfold Db.placedBack
  dsimp only
  rw [get?_updateFrom]
  rfl

theorem get?_broughtBack (s : Db) (r : Record) (id : Int) :
    (s.broughtBack cfg r).actors.get? id =
      (s.actors.get? id).map fun a => stateBack cfg r (ctrlBack cfg r (pawnBack cfg r a)) := by
  unfold Db.broughtBack
  dsimp only
  rw [get?_updateFrom, get?_updateFrom, get?_updateFrom, Option.map_map, Option.map_map]
  rfl

theorem returned_actors (h : Departed cfg inp db m) {b : Db}
    (hget : ∀ id, b.actors.get? id = (m.actors.get? id).map (·.back cfg (db.toRecord cfg inp))) :
    Becomes (Returned inp (db.toRecord cfg inp)) db.actors b.actors :=
  h.actors.map hget fun _ hx _ hcarried => returned_back hx hcarried

theorem reverts (h : Departed cfg inp db m) (now : Nat) :
    ∃ b, revert cfg now m = .ok b ∧ Reverted inp db (db.toRecord cfg inp) m b := by
  obtain ⟨permissions, hpermissions, hpermAlike⟩ := insert_permissions h
  obtain ⟨ranks, hranks, hrankAlike⟩ := insert_ranks h
  set r := db.toRecord cfg inp with hr
  have hunstored : (m.placedBack r).unstored r = .ok { m.placedBack r with
      recovered := m.recovered.filter fun v => !r.vehiclePerms.any (·.actor.actorId = v.vehicleId)
      actors := (m.placedBack r).actors.updateFrom r.vehiclePerms
        (fun a p => a.id = p.actor.actorId) (fun a _ => { a with state := .default })
      permissions
      ranks } := by
    refine bind_eq_ok.mpr ⟨permissions, orRaise_eq_ok.mpr hpermissions, ?_⟩
    exact bind_eq_ok.mpr ⟨ranks, orRaise_eq_ok.mpr hranks, rfl⟩
  set unstored : Db := { m.placedBack r with
      recovered := m.recovered.filter fun v => !r.vehiclePerms.any (·.actor.actorId = v.vehicleId)
      actors := (m.placedBack r).actors.updateFrom r.vehiclePerms
        (fun a p => a.id = p.actor.actorId) (fun a _ => { a with state := .default })
      permissions
      ranks } with hdef
  set back : Db := { unstored.broughtBack cfg r with
    record := some { r with revertedAt := some now } } with hback
  have hget : ∀ id, back.actors.get? id = (m.actors.get? id).map (·.back cfg r) := by
    intro id
    have hworld : unstored.actors.get? id = (m.actors.get? id).map fun a =>
        inWorld r (placeBack r a) := by
      rw [hdef]
      dsimp only
      rw [get?_updateFrom, get?_placedBack, Option.map_map]
      rfl
    rw [hback]
    dsimp only
    rw [get?_broughtBack, hworld, Option.map_map]
    rfl
  have hactors := returned_actors h hget
  have hown : ∀ {id : Int} {x b : Actor}, db.actors.get? id = some x →
      back.actors.get? id = some b → b.partitionId = x.partitionId ∧
        b.dimensionIndex = x.dimensionIndex ∧ b.map = x.map := by
    intro id x b hx hb
    obtain ⟨b', hb', hreturned⟩ := hactors.get hx
    rw [hb] at hb'
    cases hb'
    rw [hreturned.eq]
    exact ⟨rfl, rfl, rfl⟩
  have hrecovered : ∀ v, (r.HasPerm v → back.recovered.get? v = none) ∧
      (¬r.HasPerm v → back.recovered.get? v = m.recovered.get? v) := by
    intro v
    have hfilter : back.recovered.get? v = (m.recovered.get? v).filter fun q =>
        !r.vehiclePerms.any (·.actor.actorId = q.vehicleId) := get?_filter _ _ _
    rw [hfilter]
    cases hrow : m.recovered.get? v with
    | none => exact ⟨fun _ => rfl, fun _ => rfl⟩
    | some q =>
      have hid : q.vehicleId = v := key_of_get? hrow
      rw [Option.filter_some, hid]
      by_cases hperm : r.HasPerm v
      · rw [any_hasPerm.mpr hperm]
        exact ⟨fun _ => rfl, fun hnot => absurd hperm hnot⟩
      · have hnone : r.vehiclePerms.any (fun p => decide (p.actor.actorId = v)) = false :=
          Bool.eq_false_iff.mpr fun hany => hperm (any_hasPerm.mp hany)
        rw [hnone]
        exact ⟨fun hyes => absurd hyes hperm, fun _ => rfl⟩
  refine ⟨back, ?_, ?_⟩
  · refine bind_eq_ok.mpr ⟨(), require_eq_ok.mpr (by rw [h.idle]; exact Bool.false_ne_true), ?_⟩
    refine bind_eq_ok.mpr ⟨(), require_eq_ok.mpr (by rw [h.offline]; exact Bool.false_ne_true), ?_⟩
    refine bind_eq_ok.mpr ⟨(), require_eq_ok.mpr h.partition, ?_⟩
    refine bind_eq_ok.mpr ⟨r, orRaise_eq_ok.mpr h.record, ?_⟩
    refine bind_eq_ok.mpr ⟨(), require_eq_ok.mpr rfl, ?_⟩
    refine bind_eq_ok.mpr ⟨(), require_eq_ok.mpr (changedSince_false h), ?_⟩
    refine bind_eq_ok.mpr ⟨unstored, hunstored, ?_⟩
    refine bind_eq_ok.mpr ⟨(), require_eq_ok.mpr ?_, ?_⟩
    · intro z hz b hb
      have hx : db.actors.get? z.id = some z.toActor := get?_eq_some.mpr ⟨mem_moveSet hz, rfl⟩
      exact hown hx hb
    · refine bind_eq_ok.mpr ⟨(), require_eq_ok.mpr ?_, rfl⟩
      intro c hc hpart b hb
      obtain ⟨id, hid, hb⟩ := Option.bind_eq_some_iff.mp hb
      obtain ⟨x, hx, -⟩ := hactors.get_back hb
      obtain ⟨hmem, hxid⟩ := get?_eq_some.mp hx
      have htells := pawnBack_tells hmem (a := x) rfl hc (by rw [hid, hxid])
      rw [(hown hx hb).1, ← htells.1, hpart]
      simp
  · exact {
      actors := hactors
      players := broughtBack_players h rfl
      travel := broughtBack_travel h rfl
      respawns := placedBack_respawns h
      permissions := hpermAlike
      ranks := hrankAlike
      recovered := hrecovered
      record := ⟨_, rfl, Option.some_ne_none now⟩ }

/-! ## When everything is as it was -/

/-- Every actor, character, respawn point, permission, rank and recovered vehicle is what it was. -/
structure Db.Restored (db b : Db) : Prop where
  actors : Alike db.actors b.actors
  players : Alike db.players b.players
  travel : Alike db.travel b.travel
  respawns : Alike db.respawns b.respawns
  permissions : Alike db.permissions b.permissions
  ranks : Alike db.ranks b.ranks
  recovered : Alike db.recovered b.recovered

/-- Before the move: every vehicle for recovery has a permission row, and those with one are in the
world and not in recovery. -/
def Db.Returnable (inp : Input) (db : Db) : Prop :=
  ∀ v ∈ inp.recoveryVehicles, (0 < v → (db.permissions.get? v).isSome = true) ∧
    ((db.permissions.get? v).isSome = true →
      (∀ a ∈ db.actors.get? v, a.state = .default) ∧ db.recovered.get? v = none)

def Db.reverted (cfg : Config) (now : Nat) (db : Db) : Db :=
  (revert cfg now db).toOption.getD db

theorem reverted_again {now : Nat} (h : ∃ r, db.record = some r ∧ r.revertedAt ≠ none) :
    db.reverted cfg now = db := by
  obtain ⟨r, hr, hused⟩ := h
  unfold Db.reverted
  cases hrun : revert cfg now db with
  | error e => rfl
  | ok b =>
    obtain ⟨_, -, hrun⟩ := bind_eq_ok.mp hrun
    obtain ⟨_, -, hrun⟩ := bind_eq_ok.mp hrun
    obtain ⟨_, -, hrun⟩ := bind_eq_ok.mp hrun
    obtain ⟨r', hr', hrun⟩ := bind_eq_ok.mp hrun
    obtain ⟨_, hfresh, -⟩ := bind_eq_ok.mp hrun
    rw [hr, orRaise_eq_ok] at hr'
    cases hr'
    exact absurd (require_eq_ok.mp hfresh) hused

theorem restored_of_returnable {b : Db} (h : Departed cfg inp db m)
    (hb : Reverted inp db (db.toRecord cfg inp) m b) (hret : db.Returnable inp) :
    db.Restored b := by
  refine ⟨?_, hb.players, hb.travel, hb.respawns, hb.permissions, hb.ranks, ?_⟩
  · refine (hb.actors.mono fun x a hx hxa => ?_).alike
    have hstate : a.state = x.state := by
      by_cases hperm : (db.toRecord cfg inp).HasPerm x.id
      · obtain ⟨hsome, hv⟩ := hasPerm_toRecord.mp hperm
        have hworld := ((hret x.id hv).2 hsome).1 x (get?_eq_some.mpr ⟨hx, rfl⟩)
        exact (hxa.listed hperm).trans hworld.symm
      · rcases hxa.unlisted hperm with heq | ⟨hv, hpos⟩
        · exact heq
        · exact absurd (hasPerm_toRecord.mpr ⟨(hret x.id hv).1 hpos, hv⟩) hperm
    rw [hxa.eq, hstate]
  · intro v
    by_cases hperm : (db.toRecord cfg inp).HasPerm v
    · obtain ⟨hsome, hv⟩ := hasPerm_toRecord.mp hperm
      rw [(hb.recovered v).1 hperm, ((hret v hv).2 hsome).2]
    · rw [(hb.recovered v).2 hperm]
      rcases h.recovered v with heq | ⟨hv, hpos, -⟩
      · exact heq.symm
      · exact absurd (hasPerm_toRecord.mpr ⟨(hret v hv).1 hpos, hv⟩) hperm

theorem returnable_of_restored {b : Db} (h : Departed cfg inp db m)
    (hb : Reverted inp db (db.toRecord cfg inp) m b) (hres : db.Restored b) :
    db.Returnable inp := by
  intro v hv
  constructor
  · -- Without permission rows it stays in recovery.
    intro hpos
    by_contra hnone
    have hperm : ¬(db.toRecord cfg inp).HasPerm v :=
      fun hperm => hnone (hasPerm_toRecord.mp hperm).1
    have hrow := (h.sent v hv hpos).1
    rw [← (hb.recovered v).2 hperm, ← hres.recovered v, h.fresh v hv hpos] at hrow
    cases hrow
  · intro hsome
    have hperm : (db.toRecord cfg inp).HasPerm v := hasPerm_toRecord.mpr ⟨hsome, hv⟩
    constructor
    · intro x hx
      obtain ⟨a, ha, hxa⟩ := hb.actors.get hx
      have hid : x.id = v := key_of_get? hx
      rw [← hres.actors v, hx] at ha
      cases ha
      exact hxa.listed (hid ▸ hperm)
    · rw [hres.recovered v]
      exact (hb.recovered v).1 hperm

/-- The revert of a move that has just been made gives back what there was, and a second one changes
nothing, just when every vehicle for recovery was listed and in the world. -/
theorem revert_restores_iff (hprocs : procs.Documented) (h : move cfg procs inp db = .ok m)
    (now : Nat) : (∃ b, revert cfg now m = .ok b ∧ db.Restored b ∧
      ∀ later, b.reverted cfg later = b) ↔ db.Returnable inp := by
  have hdeparted := departed hprocs h
  obtain ⟨b, hb, hreverted⟩ := reverts hdeparted now
  constructor
  · rintro ⟨b', hb', hres, -⟩
    rw [hb] at hb'
    cases hb'
    exact returnable_of_restored hdeparted hreverted hres
  · intro hret
    exact ⟨b, hb, restored_of_returnable hdeparted hreverted hret,
      fun _ => reverted_again hreverted.record⟩

/-! ## Two worlds -/

def kulon : Config := ⟨1, 10, 2, 20, "Survival_1", "HaggaBasin", by decide, by decide⟩

def gameProcs : Procs where
  storeRecoveredVehicle v db := (db.recovered.insert? ⟨v, "Migrated"⟩).map fun recovered =>
    { db with
      actors := db.actors.update (·.id = v) fun a => { a with state := .vehicleRecovery }
      recovered }
  adminMoveOfflinePlayerToPartition fls part place db :=
    match db.players.rows.filter fun e => e.characterState = some .active ∧
        (db.accounts.get? e.accountId).any (·.user = fls) with
    | [e] => some { db with
        actors := db.actors.update (fun a => e.playerPawnId = some a.id) fun a => { a with
          partitionId := some part
          dimensionIndex := (db.worldPartitions.get? part).map (·.dimensionIndex)
          transform := a.transform.map fun t => { t with location := place.getD t.location } } }
    | _ => none

theorem gameProcs_documented : gameProcs.Documented where
  store := by
    intro v db db' h
    obtain ⟨recovered, hins, rfl⟩ := Option.map_eq_some_iff.mp h
    refine ⟨_, ⟨v, "Migrated"⟩, recovered, rfl, fun id => ?_, rfl, hins⟩
    rw [get?_update]
    cases db.actors.get? id with
    | none => exact .none
    | some a =>
      refine .some ?_
      by_cases hid : a.id = v
      · simp [hid]
      · simp [hid]
  move := by
    intro fls part place db db' h e he hactive huser
    obtain ⟨acc, hacc, hname⟩ := huser
    have hmem : e ∈ db.players.rows.filter fun e => e.characterState = some .active ∧
        (db.accounts.get? e.accountId).any (·.user = fls) :=
      List.mem_filter.mpr ⟨he, decide_eq_true ⟨hactive, by rw [hacc]; exact decide_eq_true hname⟩⟩
    simp only [gameProcs] at h
    split at h
    · rename_i e' honly
      rw [honly, List.mem_singleton] at hmem
      cases hmem
      cases h
      refine ⟨_, rfl, fun id => ?_⟩
      rw [get?_update]
      cases db.actors.get? id with
      | none => exact .none
      | some a =>
        refine .some ?_
        dsimp only
        by_cases hpawn : e.playerPawnId = some a.id
        · rw [if_pos (decide_eq_true hpawn)]
          exact Or.inr ⟨hpawn, ⟨rfl, rfl, rfl, rfl⟩⟩
        · rw [if_neg fun hp => hpawn (of_decide_eq_true hp)]
          exact Or.inl rfl
    · cases h

def standing (id : Int) : Actor where
  id
  className := "BP_Buggy_C"
  map := some "HaggaBasin"
  partitionId := some 1
  dimensionIndex := some 10
  state := .default
  serial := 0
  transform := some ⟨⟨some 1, some 2, some 3⟩, []⟩

/-- A vehicle 7 inside a base of the destination, a bed 8, and a character with the actors 3, 4
and 5 who respawns there. -/
def world (permissions : Table PermissionActor (·.actorId))
    (ranks : Table PermissionRank (fun r => (r.permissionActorId, r.playerId))) : Db where
  actors := ⟨[standing 3, standing 4, standing 5, standing 7, standing 8], by decide⟩
  vehicles := [7]
  buildings := []
  totems := []
  placeables := ⟨[⟨8, none⟩], by decide⟩
  buildingInstances := []
  actorEntities := []
  travelParents := []
  worldPartitions := ⟨[⟨1, "Survival_1", 10, some "a"⟩, ⟨2, "Survival_1", 20, some "b"⟩], by decide⟩
  activeServerIds := []
  accounts := ⟨[⟨1, "f"⟩], by decide⟩
  players := ⟨[⟨6, 1, some .active, some .offline, some 3, some 4, some 5, some 10, some 0⟩],
    by decide⟩
  travel := ⟨[⟨"f", some 10⟩], by decide⟩
  respawns := ⟨[⟨1, 6, "HaggaBasin", some 10, some 8⟩], by decide⟩
  permissions
  ranks
  recovered := Table.empty
  record := none

def unowned : Db := world Table.empty Table.empty

def owned : Db :=
  world ⟨[⟨7, "Buggy", 1, 0, false, none⟩], by decide⟩ ⟨[⟨7, 3, 1⟩, ⟨7, 9, 2⟩], by decide⟩

def input : Input := ⟨1, [0], [7], [("3", [some 5, some 6, some 7])]⟩

theorem stays_in_recovery : gameProcs.Documented ∧ ∃ m b,
    move kulon gameProcs input unowned = .ok m ∧ revert kulon 0 m = .ok b ∧
      ¬unowned.Restored b := by
  refine ⟨gameProcs_documented, ?_⟩
  have hrun : ((move kulon gameProcs input unowned).toOption.bind fun m =>
      (revert kulon 0 m).toOption.map fun b => (b.recovered.get? 7).isSome) = some true := by
    decide
  obtain ⟨m, hm, hrest⟩ := Option.bind_eq_some_iff.mp hrun
  obtain ⟨b, hb, hrow⟩ := Option.map_eq_some_iff.mp hrest
  refine ⟨m, b, toOption_eq_some.mp hm, toOption_eq_some.mp hb, fun hres => ?_⟩
  rw [← hres.recovered 7] at hrow
  cases hrow

theorem revert_restores_iff_owned : ∃ m b, move kulon gameProcs input owned = .ok m ∧
    revert kulon 0 m = .ok b ∧ owned.Restored b ∧ ∀ later, b.reverted kulon later = b := by
  have hmove : (move kulon gameProcs input owned).toOption.isSome = true := by decide
  have hret : owned.Returnable input := by
    unfold Db.Returnable
    decide
  obtain ⟨b, hb⟩ := (revert_restores_iff gameProcs_documented (eq_ok_get hmove) 0).mpr hret
  exact ⟨_, b, eq_ok_get hmove, hb⟩

end LastSietch.MapClose
