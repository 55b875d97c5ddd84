import LastSietch.Relink.Restrictions

/-!
# The plan of a character transfer

`transfer_pairs`, `plan` and `run` of `portal_transfer_relink`. `plan` reads the links once and
claims the target of every item that it passes, and `run` then applies the items one by one, each
in its own transaction.

* `claims_oneHolder`: what is planned leaves every account with one holder.
-/

namespace LastSietch.Relink

open Identity (Link Links Stamp RelinkItem)

/-- A pair that `transfer_pairs` passes. -/
@[ext] structure Pair where
  old : Nat
  new : Nat
  old_pos : 0 < old
  new_pos : 0 < new
  moved : old ≠ new

instance : DecidableEq Pair := fun _ _ => decidable_of_iff _ Pair.ext_iff.symm

theorem toNat_ne {old new : Int} (h : 0 < old ∧ 0 < new ∧ old ≠ new) : old.toNat ≠ new.toNat := by
  omega

/-- One row of the payload, with the two columns as `int` reads them. -/
def transferPair (row : Option Int × Option Int) : Option Pair :=
  match row with
  | (some old, some new) =>
    if h : 0 < old ∧ 0 < new ∧ old ≠ new then
      some ⟨old.toNat, new.toNat, by omega, by omega, toNat_ne h⟩
    else none
  | _ => none

/-- `transfer_pairs`: `none` is a payload that cannot be used. -/
def transferPairs (payload : Option (List (Option Int × Option Int))) : Option (List Pair) :=
  payload.map (fun rows => rows.filterMap transferPair)

def targets (pairs : List Pair) (old : Nat) : List Pair :=
  (pairs.filter (fun p => p.old = old)).dedup

/-! ## `plan` -/

inductive Why
  | ambiguousTarget | targetLinkedElsewhere | targetOwnedElsewhere
  deriving DecidableEq, Repr

/-- An item is refused, or it is one for `apply_item`. -/
inductive PlanItem
  | refuse (link : Link) (new : Option Nat) (why : Why)
  | apply (item : RelinkItem)

def PlanItem.linkId : PlanItem → Nat
  | refuse link _ _ => link.id
  | apply item => item.linkId

def PlanItem.old : PlanItem → Nat
  | refuse link _ _ => link.accountId
  | apply item => item.old

/-- What `active` has gained after the item: `holders.add(discord_id)`. -/
def PlanItem.claim : PlanItem → List (Nat × String)
  | refuse _ _ _ => []
  | apply item => [(item.new, item.discordId)]

/-- The active links, `ORDER BY id`. -/
def activeLinks (links : Links) : List Link :=
  (links.rows.filter (fun l => l.revokedAt = none)).insertionSort (fun l l' => l.id ≤ l'.id)

def Base.ownedElsewhere (accountId : Nat) (discordId : String) : Base → Bool
  | legacy _ => false
  | migrated db => db.installed && (db.owners.get? accountId).any (fun owner =>
      owner.profileId ≠ (db.profileByDiscord? discordId).map (·.id))

/-- The item for one link. `active` are the accounts with the Discord ids that hold them. -/
def planLink (base : Base) (pairs : List Pair) (active : List (Nat × String)) (l : Link) :
    Option PlanItem :=
  match targets pairs l.accountId with
  | [] => none
  | [p] =>
    if ∃ h ∈ active, h.1 = p.new ∧ h.2 ≠ l.discordId then
      some (.refuse l (some p.new) .targetLinkedElsewhere)
    else if base.ownedElsewhere p.new l.discordId = true then
      some (.refuse l (some p.new) .targetOwnedElsewhere)
    else
      some (.apply
        { linkId := l.id, discordId := l.discordId, old := l.accountId, new := p.new,
          characterName := l.characterName, discordHandle := l.discordHandle,
          linkedAt := l.linkedAt, move := decide ((p.new, l.discordId) ∉ active),
          new_pos := p.new_pos })
  | _ :: _ :: _ => some (.refuse l none .ambiguousTarget)

/-- The loop of `plan`. -/
def planLoop (base : Base) (pairs : List Pair) : List Link → List (Nat × String) → List PlanItem
  | [], _ => []
  | l :: ls, active =>
    match planLink base pairs active l with
    | none => planLoop base pairs ls active
    | some item => item :: planLoop base pairs ls (item.claim ++ active)

/-- The dictionary `active` before the loop. -/
def holders (links : Links) : List (Nat × String) :=
  (activeLinks links).map (fun l => (l.accountId, l.discordId))

def Base.plan (pairs : List Pair) (base : Base) : List PlanItem :=
  planLoop base pairs (activeLinks base.links) (holders base.links)

/-! ## `run` -/

/-- The items that are for `apply_item`. -/
def todo (items : List PlanItem) : List RelinkItem :=
  items.filterMap fun
    | .apply item => some item
    | .refuse _ _ _ => none

def Base.profileNativeOrphans (pairs : List Pair) : Base → Nat
  | legacy _ => 0
  | migrated db => db.bindings.rows.countP (fun b =>
      b.legacyLinkId = none && b.revokedAt = none && pairs.any (fun p => p.old = b.accountId))

inductive Result
  | refused (why : Why)
  | planned
  | applied
  | failed (f : Failure)
  deriving DecidableEq, Repr

structure Outcome where
  linkId : Nat
  old : Nat
  new : Option Nat
  result : Result
  deriving DecidableEq, Repr

structure Summary where
  planned : Nat
  refused : Nat
  applied : Nat
  failed : Nat
  profileNative : Nat
  capped : Bool
  items : List Outcome

namespace World

/-- One turn of the loop of `run`. -/
def runItem (apply : Bool) (e : RelinkItem → Setting) (item : PlanItem) (w : World) :
    Outcome × World :=
  match item with
  | .refuse link new why => (⟨link.id, link.accountId, new, .refused why⟩, w)
  | .apply item =>
    if apply then
      match w.applyItem (e item) item with
      | .ok w' => (⟨item.linkId, item.old, some item.new, .applied⟩, w')
      | .error f => (⟨item.linkId, item.old, some item.new, .failed f⟩, w)
    else (⟨item.linkId, item.old, some item.new, .planned⟩, w)

/-- The loop of `run`. -/
def runItems (apply : Bool) (e : RelinkItem → Setting) :
    List PlanItem → World → List Outcome × World
  | [], w => ([], w)
  | item :: items, w =>
    let (outcome, w) := w.runItem apply e item
    let (outcomes, w) := w.runItems apply e items
    (outcome :: outcomes, w)

/-- `run`. `e` is what each item finds when its turn comes. -/
def run (pairs : List Pair) (apply : Bool) (maxChanges : Int) (e : RelinkItem → Setting)
    (w : World) : Summary × World :=
  let items := w.base.plan pairs
  let todo := todo items
  let capped := apply && decide (maxChanges < todo.length)
  let (outcomes, w') := w.runItems (apply && !capped) e items
  ({ planned := todo.length, refused := items.length - todo.length,
     applied := outcomes.countP (fun o => o.result = .applied),
     failed := outcomes.countP (fun o => match o.result with | .failed _ => true | _ => false),
     profileNative := w.base.profileNativeOrphans pairs, capped, items := outcomes }, w')

end World

/-! ## What is planned -/

section Planned

variable {base : Base} {pairs : List Pair}

/-- Every target of `old` is `new`, and there is one. -/
def UniqueTarget (pairs : List Pair) (old new : Nat) : Prop :=
  (∃ p ∈ pairs, p.old = old ∧ p.new = new) ∧ ∀ p ∈ pairs, p.old = old → p.new = new

theorem mem_targets {old : Nat} {p : Pair} : p ∈ targets pairs old ↔ p ∈ pairs ∧ p.old = old := by
  simp [targets]

theorem targets_eq_nil {old : Nat} : targets pairs old = [] ↔ ∀ p ∈ pairs, p.old ≠ old := by
  rw [List.eq_nil_iff_forall_not_mem]
  exact forall_congr' (fun p => by rw [mem_targets, not_and])

theorem uniqueTarget_of_targets {old : Nat} {p : Pair} (h : targets pairs old = [p]) :
    UniqueTarget pairs old p.new := by
  have hmem : ∀ q, q ∈ pairs ∧ q.old = old ↔ q = p := fun q => by
    rw [← mem_targets, h, List.mem_singleton]
  obtain ⟨hp, hold⟩ := (hmem p).mpr rfl
  exact ⟨⟨p, hp, hold, rfl⟩, fun q hq hq' => congrArg Pair.new ((hmem q).mp ⟨hq, hq'⟩)⟩

def Held (links : Links) (discordId : String) (accountId : Nat) : Prop :=
  ∃ l ∈ links, l.discordId = discordId ∧ l.accountId = accountId ∧ l.revokedAt = none

def OneHolder (links : Links) : Prop :=
  ∀ a d d', Held links d a → Held links d' a → d = d'

variable {l : Link}

theorem mem_activeLinks {links : Links} :
    l ∈ activeLinks links ↔ l ∈ links ∧ l.revokedAt = none := by
  simp [activeLinks, SerialTable.mem_def]

theorem mem_holders {links : Links} {a : Nat} {d : String} :
    (a, d) ∈ holders links ↔ Held links d a := by
  unfold holders Held
  rw [List.mem_map]
  constructor
  · rintro ⟨l, hl, hkey⟩
    obtain ⟨hl, hactive⟩ := mem_activeLinks.mp hl
    obtain ⟨haccount, hdiscord⟩ := Prod.mk.inj hkey
    exact ⟨l, hl, hdiscord, haccount, hactive⟩
  · rintro ⟨l, hl, rfl, rfl, hactive⟩
    exact ⟨l, mem_activeLinks.mpr ⟨hl, hactive⟩, rfl⟩

/-- What the item for `l` says, when `active` was known. -/
inductive PlanItem.For (pairs : List Pair) (active : List (Nat × String)) (l : Link) :
    PlanItem → Prop
  | refuse (new : Option Nat) (why : Why) : For pairs active l (.refuse l new why)
  | apply (item : RelinkItem) (linkId : item.linkId = l.id)
      (discordId : item.discordId = l.discordId) (old : item.old = l.accountId)
      (target : UniqueTarget pairs l.accountId item.new)
      (free : ∀ d, (item.new, d) ∈ active → d = item.discordId)
      (move : item.move = true ↔ (item.new, item.discordId) ∉ active) :
      For pairs active l (.apply item)

variable {active : List (Nat × String)} {item : PlanItem}

theorem planLink_spec (h : planLink base pairs active l = some item) : item.For pairs active l := by
  unfold planLink at h
  split at h
  · cases h
  · rename_i p htargets
    split at h
    · cases h
      exact .refuse _ _
    · rename_i hfree
      split at h
      · cases h
        exact .refuse _ _
      · cases h
        refine .apply _ rfl rfl rfl (uniqueTarget_of_targets htargets) (fun d hd => ?_)
          decide_eq_true_iff
        by_contra hne
        exact hfree ⟨_, hd, rfl, hne⟩
  · cases h
    exact .refuse _ _

theorem planLink_eq_none :
    planLink base pairs active l = none ↔ ∀ p ∈ pairs, p.old ≠ l.accountId := by
  rw [← targets_eq_nil]
  unfold planLink
  split
  · simp_all
  · split
    · simp_all
    · split <;> simp_all
  · simp_all

theorem PlanItem.For.linkId_eq (h : item.For pairs active l) : item.linkId = l.id := by
  cases h with
  | refuse => rfl
  | apply item linkId => exact linkId

theorem PlanItem.For.old_eq (h : item.For pairs active l) : item.old = l.accountId := by
  cases h with
  | refuse => rfl
  | apply item linkId discordId old => exact old

theorem mem_planLoop {ls : List Link} (h : item ∈ planLoop base pairs ls active) :
    ∃ l ∈ ls, ∃ active', active ⊆ active' ∧ planLink base pairs active' l = some item := by
  induction ls generalizing active with
  | nil => cases h
  | cons l ls ih =>
    unfold planLoop at h
    split at h
    · obtain ⟨l', hl', hfor⟩ := ih h
      exact ⟨l', List.mem_cons_of_mem _ hl', hfor⟩
    · rename_i first hfirst
      rcases List.mem_cons.mp h with rfl | h
      · exact ⟨l, List.mem_cons_self .., active, List.Subset.refl _, hfirst⟩
      · obtain ⟨l', hl', active', hsub, hfor⟩ := ih h
        exact ⟨l', List.mem_cons_of_mem _ hl', active',
          fun _ hx => hsub (List.mem_append_right _ hx), hfor⟩

theorem exists_planned (base : Base) {ls : List Link} (active : List (Nat × String))
    (hl : l ∈ ls) {p : Pair} (hp : p ∈ pairs) (hold : p.old = l.accountId) :
    ∃ item ∈ planLoop base pairs ls active, item.linkId = l.id := by
  induction ls generalizing active with
  | nil => cases hl
  | cons l' ls ih =>
    unfold planLoop
    rcases List.mem_cons.mp hl with rfl | hl
    · split
      · rename_i hnone
        exact absurd hold (planLink_eq_none.mp hnone p hp)
      · rename_i item hitem
        exact ⟨item, List.mem_cons_self .., (planLink_spec hitem).linkId_eq⟩
    · split
      · exact ih active hl
      · obtain ⟨item, hitem, hid⟩ := ih _ hl
        exact ⟨item, List.mem_cons_of_mem _ hitem, hid⟩

theorem planLoop_sublist (ls : List Link) (active : List (Nat × String)) :
    ((planLoop base pairs ls active).map PlanItem.linkId).Sublist (ls.map (fun l => l.id)) := by
  induction ls generalizing active with
  | nil => exact List.Sublist.slnil
  | cons l ls ih =>
    unfold planLoop
    split
    · exact (ih active).cons _
    · rename_i item hitem
      rw [List.map_cons, List.map_cons, (planLink_spec hitem).linkId_eq]
      exact (ih _).cons_cons _

/-- No account stands in `active` with two Discord ids. -/
def OneEach (active : List (Nat × String)) : Prop :=
  ∀ a d d', (a, d) ∈ active → (a, d') ∈ active → d = d'

theorem PlanItem.For.oneEach
    (h : item.For pairs active l) (hone : OneEach active) : OneEach (item.claim ++ active) := by
  cases h with
  | refuse new why => exact hone
  | apply item linkId discordId old target free move =>
    intro a d d' hd hd'
    rcases List.mem_cons.mp hd with hd | hd <;> rcases List.mem_cons.mp hd' with hd' | hd'
    · exact (Prod.mk.inj hd).2.trans (Prod.mk.inj hd').2.symm
    · obtain ⟨rfl, rfl⟩ := Prod.mk.inj hd
      exact (free d' hd').symm
    · obtain ⟨rfl, rfl⟩ := Prod.mk.inj hd'
      exact free d hd
    · exact hone a d d' hd hd'

theorem claims_oneEach (base : Base) (pairs : List Pair) (ls : List Link) (hone : OneEach active) :
    OneEach ((planLoop base pairs ls active).flatMap PlanItem.claim ++ active) := by
  induction ls generalizing active with
  | nil => exact hone
  | cons l ls ih =>
    unfold planLoop
    split
    · exact ih hone
    · rename_i item hitem
      have hrest := ih ((planLink_spec hitem).oneEach hone)
      intro a d d' hd hd'
      refine hrest a d d' ?_ ?_
      · simp only [List.flatMap_cons, List.mem_append] at hd ⊢
        tauto
      · simp only [List.flatMap_cons, List.mem_append] at hd' ⊢
        tauto

end Planned

/-! ## The plan of a database -/

section Plan

variable {base : Base} {pairs : List Pair}

/-- The item is for a link that is active in `links`, and a move is to an account that its Discord
id does not hold. -/
structure PlannedIn (links : Links) (pairs : List Pair) (item : RelinkItem) : Prop where
  link : ∃ l ∈ links, l.revokedAt = none ∧ l.id = item.linkId ∧ l.discordId = item.discordId ∧
    l.accountId = item.old
  target : UniqueTarget pairs item.old item.new
  anew : item.move = true → ¬ Held links item.discordId item.new

theorem planned_of_plan {item : RelinkItem} (h : .apply item ∈ base.plan pairs) :
    PlannedIn base.links pairs item := by
  obtain ⟨l, hl, active, hsub, hfor⟩ := mem_planLoop h
  obtain ⟨hl, hactive⟩ := mem_activeLinks.mp hl
  cases planLink_spec hfor with
  | apply _ linkId discordId old target free move =>
    refine ⟨⟨l, hl, hactive, linkId.symm, discordId.symm, old.symm⟩, old ▸ target,
      fun hmove hheld => ?_⟩
    exact move.mp hmove (hsub (mem_holders.mpr hheld))

theorem refused_of_plan {l : Link} {new : Option Nat} {why : Why}
    (h : .refuse l new why ∈ base.plan pairs) : l ∈ base.links ∧ l.revokedAt = none ∧
      ∀ item, .apply item ∈ base.plan pairs → l.id ≠ item.linkId := by
  obtain ⟨l', hl', active, -, hfor⟩ := mem_planLoop h
  cases planLink_spec hfor
  obtain ⟨hl, hactive⟩ := mem_activeLinks.mp hl'
  refine ⟨hl, hactive, fun item hitem hid => ?_⟩
  have hnodup : ((base.plan pairs).map PlanItem.linkId).Nodup := by
    refine List.Nodup.sublist (planLoop_sublist _ _) ?_
    exact ((List.perm_insertionSort _ _).map _).nodup_iff.mpr
      (base.links.serial.sublist (List.filter_sublist.map _))
  have hsame := List.inj_on_of_nodup_map hnodup h hitem hid
  cases hsame

theorem holders_oneEach {links : Links} (h : OneHolder links) : OneEach (holders links) :=
  fun a d d' hd hd' => h a d d' (mem_holders.mp hd) (mem_holders.mp hd')

theorem mem_todo {items : List PlanItem} {item : RelinkItem} :
    item ∈ todo items ↔ .apply item ∈ items := by
  unfold todo
  rw [List.mem_filterMap]
  constructor
  · rintro ⟨i, hi, heq⟩
    cases i with
    | refuse => cases heq
    | apply j => exact Option.some.inj heq ▸ hi
  · exact fun h => ⟨_, h, rfl⟩

theorem mem_plan {item : PlanItem} (h : item ∈ base.plan pairs) : ∃ l ∈ base.links,
    l.revokedAt = none ∧ item.linkId = l.id ∧ item.old = l.accountId ∧
      ∃ p ∈ pairs, p.old = l.accountId := by
  obtain ⟨l, hl, active, -, hplanned⟩ := mem_planLoop h
  obtain ⟨hl, hactive⟩ := mem_activeLinks.mp hl
  have hfor := planLink_spec hplanned
  refine ⟨l, hl, hactive, hfor.linkId_eq, hfor.old_eq, ?_⟩
  by_contra hnone
  rw [planLink_eq_none.mpr (fun p hp hold => hnone ⟨p, hp, hold⟩)] at hplanned
  cases hplanned

theorem plan_eq_nil : base.plan pairs = [] ↔
    ∀ l ∈ base.links, l.revokedAt = none → ∀ p ∈ pairs, p.old ≠ l.accountId := by
  constructor
  · intro hnil l hl hactive p hp hold
    obtain ⟨item, hitem, -⟩ := exists_planned base
      (holders base.links) (mem_activeLinks.mpr ⟨hl, hactive⟩) hp hold
    have hitem : item ∈ base.plan pairs := hitem
    rw [hnil] at hitem
    cases hitem
  · intro h
    refine List.eq_nil_iff_forall_not_mem.mpr (fun item hitem => ?_)
    obtain ⟨l, hl, hactive, -, -, p, hp, hold⟩ := mem_plan hitem
    exact h l hl hactive p hp hold

end Plan

end LastSietch.Relink
