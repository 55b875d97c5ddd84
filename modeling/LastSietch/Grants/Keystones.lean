import LastSietch.Grants.Characters
import LastSietch.Ops.GrantRuns
import Mathlib.Algebra.Order.BigOperators.Group.List
import Mathlib.Tactic.Linarith

/-!
# Keystones and skill points

`build_keystone_grant` and the two builders that share `_emit_spec_unlock_body`. A keystone is bought
for a controller, and its skill points are credited to the level component of a pawn. The one builder
buys for every slot of the account and credits every pawn of it as soon as one of the rows is new; the
others do both for the character that `RESOLVE_TARGET_SQL` picks.

* `award_newBonus`, `award_points`: what a statement buys and what it credits.
-/

namespace LastSietch.Grants

open Runs (exec Along)
open DuneGrant

/-! ## The statements -/

/-- `INSERT ... ON CONFLICT DO NOTHING RETURNING`: the rows after it, and the new ones. -/
def purchase (owned : List Purchase) : List Purchase → List Purchase × List Purchase
  | [] => (owned, [])
  | p :: ps =>
    if p ∈ owned then purchase owned ps
    else ((purchase (p :: owned) ps).1, p :: (purchase (p :: owned) ps).2)

/-- The two `jsonb_set` of a credit. -/
def Level.credit (n : Nat) (l : Level) : Level :=
  { l with
    totalSkillPoints := some (l.totalSkillPoints.getD 0 + n)
    unspentSkillPoints := some (l.unspentSkillPoints.getD 0 + n) }

/-- Where the path ends early, `jsonb_set` changes nothing. -/
def Entity.credit (n : Nat) (e : Entity) : Entity :=
  { e with level := e.level.map (·.map (Level.credit n)) }

/-- The object at `FLevelComponent[1]` is there. -/
def Entity.levelled (e : Entity) : Bool := e.level.join.isSome

structure Deal where
  controllers : List Nat
  pawns : List Nat
  keys : List Nat

def Deal.pairs (d : Deal) : List Purchase := d.controllers.flatMap fun c => d.keys.map (⟨c, ·⟩)

namespace Game

variable (g : Game)

/-- `sp_bonus`; what is not in the catalog has none. -/
def bonus (k : Nat) : Nat := ((g.catalog.get? k).map (·.spBonus)).getD 0

/-- The `target_entity` of the pawns. -/
def IsHit (pawns : List Nat) (e : Entity) : Prop := ∃ pawn ∈ pawns, g.IsCharacter pawn e

instance (pawns : List Nat) (e : Entity) : Decidable (g.IsHit pawns e) :=
  inferInstanceAs (Decidable (∃ pawn ∈ pawns, _))

/-- The purchase, and the credit of the points that `points` makes of the new rows. -/
def award (d : Deal) (points : List Purchase → Nat) : Game :=
  let (keystones, inserted) := purchase g.keystones d.pairs
  let n := points inserted
  { g with
    keystones
    entities := g.entities.update (fun e => 0 < n ∧ g.IsHit d.pawns e) (Entity.credit n) }

def keystoneDeal (account k : Nat) : Deal := ⟨g.controllersOf account, g.pawnsOf account, [k]⟩

/-- `bonus`, if `EXISTS (SELECT 1 FROM inserted)`. -/
def keystonePoints (k : Nat) (inserted : List Purchase) : Nat :=
  if inserted = [] then 0 else g.bonus k

/-- The body of `build_keystone_grant`; a slot without a controller breaks the key of the table. -/
def keystoneBody (account k : Nat) : Option Game :=
  if ∀ e ∈ g.slotsOf account, e.playerControllerId ≠ none then
    some (g.award (g.keystoneDeal account k) (g.keystonePoints k))
  else none

def keystonesOf (track : Option String) : List Nat :=
  (g.catalog.rows.filter fun k => track.all (k.track = ·)).map (·.keystoneId)

def unlockDeal (account : Nat) (track : Option String) : Deal :=
  let target := g.target account
  ⟨(target.bind (·.playerControllerId)).toList, (target.bind (·.playerPawnId)).toList,
    g.keystonesOf track⟩

/-- `total_sp`. -/
def unlockPoints (inserted : List Purchase) : Nat := (inserted.map fun p => g.bonus p.keystoneId).sum

/-- `_emit_spec_unlock_body`. -/
def specUnlockBody (account : Nat) (track : Option String) : Game :=
  g.award (g.unlockDeal account track) g.unlockPoints

end Game

def keystoneId (q : Request) : Option Nat :=
  (digits (q.detail.nested "keystone_id")).filter fun k => 1 ≤ k ∧ k ≤ 205

def trackType (q : Request) : Option String :=
  (some (q.detail.nested "track_type")).filter fun t =>
    t ∈ ["Combat", "Crafting", "Exploration", "Gathering", "Sabotage"]

def buildKeystoneGrant : Builders Game := fun q _ _ =>
  match keystoneId q with
  | some k =>
    .ok (planOf [("keystone_id", q.detail.nested "keystone_id")] (·.keystoneBody q.accountId k))
  | none => .error 2

def buildSpecUnlockTrackGrant : Builders Game := fun q _ _ =>
  match trackType q with
  | some t =>
    .ok (planOf [("track_type", t), ("keystone_count", "41")]
      (fun g => some (g.specUnlockBody q.accountId (some t))))
  | none => .error 2

def buildSpecUnlockAllGrant : Builders Game := fun q _ _ =>
  .ok (planOf [("keystone_count", "205")] (fun g => some (g.specUnlockBody q.accountId none)))

/-- The builders; `others` are those of the other grant types. -/
def keystoneBuilders (others : Builders Game) : Builders Game := fun q =>
  match q.grantType with
  | .keystone => buildKeystoneGrant q
  | .specUnlockTrack => buildSpecUnlockTrackGrant q
  | .specUnlockAll => buildSpecUnlockAllGrant q
  | _ => others q

/-! ## What is bought -/

section Purchase

variable {owned ps : List Purchase} {p : Purchase}

theorem mem_purchase : p ∈ (purchase owned ps).1 ↔ p ∈ owned ∨ p ∈ ps := by
  induction ps generalizing owned with
  | nil => simp [purchase]
  | cons q ps ih =>
    unfold purchase
    by_cases hq : q ∈ owned
    · rw [if_pos hq, ih, List.mem_cons]
      constructor
      · rintro (h | h)
        · exact Or.inl h
        · exact Or.inr (Or.inr h)
      · rintro (h | rfl | h)
        · exact Or.inl h
        · exact Or.inl hq
        · exact Or.inr h
    · rw [if_neg hq, ih, List.mem_cons, List.mem_cons, or_assoc, or_left_comm]

theorem purchase_eq_nil : (purchase owned ps).2 = [] ↔ ∀ p ∈ ps, p ∈ owned := by
  induction ps generalizing owned with
  | nil => simp [purchase]
  | cons q ps ih =>
    unfold purchase
    by_cases hq : q ∈ owned
    · rw [if_pos hq, ih, List.forall_mem_cons]
      exact (and_iff_right hq).symm
    · rw [if_neg hq]
      exact iff_of_false (List.cons_ne_nil _ _) (fun h => hq (h q (List.mem_cons_self ..)))

theorem purchase_new (h : ps.Nodup) : (purchase owned ps).2 = ps.filter (· ∉ owned) := by
  induction ps generalizing owned with
  | nil => rfl
  | cons q ps ih =>
    rw [List.nodup_cons] at h
    unfold purchase
    by_cases hq : q ∈ owned
    · rw [if_pos hq, ih h.2, List.filter_cons_of_neg (by simpa using hq)]
    · have hrest : ps.filter (· ∉ q :: owned) = ps.filter (· ∉ owned) := by
        refine List.filter_congr (fun r hr => ?_)
        have hne : r ≠ q := fun hrq => h.1 (hrq ▸ hr)
        simp [hne]
      rw [if_neg hq, ih h.2, hrest, List.filter_cons_of_pos (by simpa using hq)]

end Purchase

theorem Deal.mem_pairs {d : Deal} {c k : Nat} :
    (⟨c, k⟩ : Purchase) ∈ d.pairs ↔ c ∈ d.controllers ∧ k ∈ d.keys := by
  simp [Deal.pairs]

namespace Game

variable {g g' g₀ : Game} {d : Deal} {points : List Purchase → Nat} {c pawn account : Nat}

/-- The `sp_bonus` of the catalog's keystones that `g'` has for the controller and `g` has not. -/
def newBonus (g g' : Game) (c : Nat) : Nat :=
  ((g.catalog.rows.filter fun k =>
    ⟨c, k.keystoneId⟩ ∈ g'.keystones ∧ ⟨c, k.keystoneId⟩ ∉ g.keystones).map (·.spBonus)).sum

def owes (g : Game) (d : Deal) (c : Nat) : Nat :=
  ((g.catalog.rows.filter fun k =>
    (c ∈ d.controllers ∧ k.keystoneId ∈ d.keys) ∧ ⟨c, k.keystoneId⟩ ∉ g.keystones).map
      (·.spBonus)).sum

def Earns (g : Game) (d : Deal) (c : Nat) : Prop :=
  c ∈ d.controllers ∧ ∃ k ∈ d.keys, 0 < g.bonus k ∧ ⟨c, k⟩ ∉ g.keystones

instance : Decidable (g.Earns d c) := inferInstanceAs (Decidable (_ ∧ ∃ k ∈ d.keys, _))

theorem award_newBonus : newBonus g (g.award d points) c = g.owes d c := by
  unfold newBonus owes
  congr 2
  refine List.filter_congr (fun k _ => ?_)
  have hmem : ⟨c, k.keystoneId⟩ ∈ (g.award d points).keystones ↔
      ⟨c, k.keystoneId⟩ ∈ g.keystones ∨ c ∈ d.controllers ∧ k.keystoneId ∈ d.keys :=
    mem_purchase.trans (or_congr_right Deal.mem_pairs)
  by_cases hold : (⟨c, k.keystoneId⟩ : Purchase) ∈ g.keystones
  · simp [hold]
  · simp [hmem, hold]

theorem newBonus_add (hcatalog : g.catalog = g₀.catalog) (hold : g₀.keystones ⊆ g.keystones)
    (hnew : g.keystones ⊆ g'.keystones) :
    newBonus g₀ g' c = newBonus g₀ g c + newBonus g g' c := by
  unfold newBonus
  rw [hcatalog]
  simp only [Table.sum_filter]
  rw [← List.sum_map_add]
  congr 1
  refine List.map_congr_left (fun k _ => ?_)
  by_cases h₀ : (⟨c, k.keystoneId⟩ : Purchase) ∈ g₀.keystones
  · simp [h₀, hold h₀]
  · by_cases h : (⟨c, k.keystoneId⟩ : Purchase) ∈ g.keystones
    · simp [h₀, h, hnew h]
    · simp [h₀, h]

theorem bonus_of_mem {k : Keystone} (hk : k ∈ g.catalog) : g.bonus k.keystoneId = k.spBonus := by
  unfold bonus
  rw [Table.get?_eq_some.mpr ⟨hk, rfl⟩]
  rfl

theorem exists_of_bonus {k : Nat} (h : 0 < g.bonus k) :
    ∃ row ∈ g.catalog, row.keystoneId = k ∧ row.spBonus = g.bonus k := by
  unfold bonus at h ⊢
  cases hget : g.catalog.get? k with
  | none =>
    rw [hget] at h
    exact absurd h (Nat.lt_irrefl 0)
  | some row =>
    obtain ⟨hrow, hid⟩ := Table.get?_eq_some.mp hget
    exact ⟨row, hrow, hid, rfl⟩

theorem owes_pos : 0 < g.owes d c ↔ g.Earns d c := by
  constructor
  · intro h
    obtain ⟨n, hn, hpos⟩ := List.sum_pos_iff_exists_pos_nat.mp h
    obtain ⟨row, hrow, rfl⟩ := List.mem_map.mp hn
    obtain ⟨hrow, hlacks⟩ := List.mem_filter.mp hrow
    obtain ⟨⟨hc, hk⟩, hlacks⟩ := of_decide_eq_true hlacks
    rw [← bonus_of_mem hrow] at hpos
    exact ⟨hc, row.keystoneId, hk, hpos, hlacks⟩
  · rintro ⟨hc, k, hk, hbonus, hlacks⟩
    obtain ⟨row, hrow, rfl, hsp⟩ := exists_of_bonus hbonus
    refine lt_of_lt_of_le (hsp ▸ hbonus) (List.le_sum_of_mem (List.mem_map_of_mem ?_))
    exact List.mem_filter.mpr ⟨hrow, decide_eq_true ⟨⟨hc, hk⟩, hlacks⟩⟩

/-! ## What is credited -/

theorem sum_filter_update {α : Type} {p q : α → Bool} {u : α → α} {f : α → Int} {n : Int}
    (hp : ∀ a, p (u a) = p a) (hf : ∀ a, f (u a) = f a + if q a then n else 0) (l : List α) :
    (((l.map u).filter p).map f).sum =
      ((l.filter p).map f).sum + n * l.countP (fun a => p a && q a) := by
  induction l with
  | nil => simp
  | cons a l ih =>
    rw [List.map_cons, List.filter_cons, List.filter_cons, hp, List.countP_cons]
    by_cases ha : p a = true
    · rw [if_pos ha, if_pos ha, List.map_cons, List.sum_cons, List.map_cons, List.sum_cons, ih, hf, ha,
        Bool.true_and]
      by_cases hq : q a = true
      · rw [if_pos hq, if_pos hq]
        push_cast
        linarith
      · rw [if_neg hq, if_neg hq]
        push_cast
        linarith
    · rw [if_neg ha, if_neg ha, ih, Bool.eq_false_iff.mpr ha, Bool.false_and, if_neg Bool.false_ne_true]
      rfl

def counter (f : Level → Option Int) (e : Entity) : Int := (e.level.join.bind f).getD 0

def skill (g : Game) (f : Level → Option Int) (pawn : Nat) : Int :=
  ((g.entities.rows.filter (g.IsCharacter pawn ·)).map (counter f)).sum

def hits (g : Game) (d : Deal) (pawn : Nat) : Nat :=
  g.entities.rows.countP fun e =>
    decide (g.IsCharacter pawn e) && (decide (g.IsHit d.pawns e) && e.levelled)

def Credited (f : Level → Option Int) : Prop :=
  ∀ n l, (f (Level.credit n l)).getD 0 = (f l).getD 0 + n

theorem credited_total : Credited (·.totalSkillPoints) := fun _ _ => rfl

theorem credited_unspent : Credited (·.unspentSkillPoints) := fun _ _ => rfl

theorem counter_credit {f : Level → Option Int} (hf : Credited f) (n : Nat) (e : Entity) :
    counter f (e.credit n) = counter f e + if e.levelled then (n : Int) else 0 := by
  obtain ⟨i, level⟩ := e
  cases level with
  | none => simp [counter, Entity.credit, Entity.levelled]
  | some level =>
    cases level with
    | none => simp [counter, Entity.credit, Entity.levelled]
    | some l => simpa [counter, Entity.credit, Entity.levelled] using hf n l

/-- A credit raises a counter of a character by its points, once for each entity that it reaches. -/
theorem award_points {f : Level → Option Int} (hf : Credited f) :
    (g.award d points).skill f pawn = g.skill f pawn +
      points (purchase g.keystones d.pairs).2 * (g.hits d pawn : Int) := by
  unfold skill hits
  refine sum_filter_update (fun e => ?_) (fun e => ?_) _
  · split <;> rfl
  · generalize points (purchase g.keystones d.pairs).2 = n
    by_cases hpos : 0 < n
    · by_cases hhit : g.IsHit d.pawns e
      · simp [hpos, hhit, counter_credit hf]
      · simp [hhit]
    · have hzero : n = 0 := by omega
      simp [hzero]

/-! ## Deals that fit -/

def Real (g : Game) (account ctrl pawn : Nat) : Prop :=
  ∃ t, g.target account = some t ∧ t.playerControllerId = some ctrl ∧ t.playerPawnId = some pawn

structure Sound (g : Game) (d : Deal) (n : Nat) : Prop where
  owed : ∀ c, g.Earns d c → g.owes d c = n
  earned : 0 < n → ∃ c, g.Earns d c

/-- If the deal credits anything, it reaches one entity of each character that earns and none of the
others. -/
def Fits (g : Game) (d : Deal) : Prop :=
  (∃ c, g.Earns d c) → ∀ account ctrl pawn, g.Real account ctrl pawn →
    g.hits d pawn = if g.Earns d ctrl then 1 else 0

theorem fits_iff {n : Nat} (h : g.Sound d n) : g.Fits d ↔
    ∀ account ctrl pawn, g.Real account ctrl pawn → n * g.hits d pawn = g.owes d ctrl := by
  have howes : ∀ c, ¬ g.Earns d c → g.owes d c = 0 := by
    intro c hc
    exact Nat.eq_zero_of_not_pos (mt owes_pos.mp hc)
  by_cases hsome : ∃ c, g.Earns d c
  · obtain ⟨c, hc⟩ := hsome
    have hn : 0 < n := (h.owed c hc) ▸ owes_pos.mpr hc
    rw [Fits, forall_prop_of_true ⟨c, hc⟩]
    refine forall_congr' (fun account => forall_congr' (fun ctrl => forall_congr' (fun pawn =>
      forall_congr' (fun _ => ?_))))
    by_cases hearns : g.Earns d ctrl
    · rw [if_pos hearns, h.owed ctrl hearns]
      exact (Nat.mul_eq_left (Nat.pos_iff_ne_zero.mp hn)).symm
    · rw [if_neg hearns, howes ctrl hearns, Nat.mul_eq_zero, or_iff_right (by omega)]
  · have hn : n = 0 := Nat.eq_zero_of_not_pos (mt h.earned hsome)
    refine iff_of_true (fun h => absurd h hsome) (fun account ctrl pawn _ => ?_)
    rw [hn, Nat.zero_mul, howes ctrl (fun hearns => hsome ⟨ctrl, hearns⟩)]

theorem sound_keystone (account k : Nat) : g.Sound (g.keystoneDeal account k)
    (g.keystonePoints k (purchase g.keystones (g.keystoneDeal account k).pairs).2) where
  owed c hc := by
    obtain ⟨hmem, k', hk', -, hlacks⟩ := hc
    obtain rfl := List.mem_singleton.mp hk'
    rw [keystonePoints, if_neg]
    · unfold owes
      have hrows : g.catalog.rows.filter (fun row =>
          (c ∈ (g.keystoneDeal account k').controllers ∧
            row.keystoneId ∈ (g.keystoneDeal account k').keys) ∧
              ⟨c, row.keystoneId⟩ ∉ g.keystones) =
          g.catalog.rows.filter (fun row => row.keystoneId = k') := by
        refine List.filter_congr (fun row _ => ?_)
        by_cases hrow : row.keystoneId = k'
        · have hmem' : c ∈ g.controllersOf account := hmem
          simp [hrow, hlacks, hmem', keystoneDeal]
        · simp [hrow, keystoneDeal]
      rw [hrows]
      exact Table.sum_filter_key g.catalog k' (·.spBonus)
    · rw [purchase_eq_nil]
      exact fun hall => hlacks (hall _ (Deal.mem_pairs.mpr ⟨hmem, hk'⟩))
  earned hpos := by
    unfold keystonePoints at hpos
    split at hpos
    · exact absurd hpos (Nat.lt_irrefl 0)
    · case isFalse hnew =>
      rw [purchase_eq_nil] at hnew
      push Not at hnew
      obtain ⟨⟨c, k'⟩, hpair, hlacks⟩ := hnew
      obtain ⟨hc, hk'⟩ := Deal.mem_pairs.mp hpair
      obtain rfl := List.mem_singleton.mp hk'
      exact ⟨c, hc, k', hk', hpos, hlacks⟩

variable {track : Option String}

theorem mem_keystonesOf {k : Keystone} (hk : k ∈ g.catalog) :
    k.keystoneId ∈ g.keystonesOf track ↔ track.all (k.track = ·) = true := by
  unfold keystonesOf
  constructor
  · intro h
    obtain ⟨row, hrow, hid⟩ := List.mem_map.mp h
    obtain ⟨hrow, htrack⟩ := List.mem_filter.mp hrow
    rwa [Table.eq_of_key_eq hk hrow hid.symm]
  · exact fun h => List.mem_map_of_mem (List.mem_filter.mpr ⟨hk, h⟩)

theorem nodup_keystonesOf (track : Option String) : (g.keystonesOf track).Nodup :=
  g.catalog.unique.sublist (List.filter_sublist.map _)

theorem sum_inserted (hctrl : d.controllers = [c]) (hkeys : d.keys = g.keystonesOf track) :
    g.unlockPoints (purchase g.keystones d.pairs).2 = g.owes d c := by
  have hpairs : d.pairs = (g.keystonesOf track).map (⟨c, ·⟩) := by
    simp [Deal.pairs, hctrl, hkeys]
  have hnodup : ((g.keystonesOf track).map (fun k => (⟨c, k⟩ : Purchase))).Nodup :=
    (nodup_keystonesOf track).map (fun _ _ h => congrArg Purchase.keystoneId h)
  rw [unlockPoints, hpairs, purchase_new hnodup, owes, keystonesOf, List.map_map, List.filter_map, List.map_map,
    List.filter_filter]
  have hrows : g.catalog.rows.filter (fun k =>
      ((fun p => decide (p ∉ g.keystones)) ∘ (fun k => (⟨c, k⟩ : Purchase)) ∘
        (·.keystoneId)) k && track.all (k.track = ·)) =
      g.catalog.rows.filter (fun k => (c ∈ d.controllers ∧ k.keystoneId ∈ d.keys) ∧
        ⟨c, k.keystoneId⟩ ∉ g.keystones) := by
    refine List.filter_congr (fun k hk => ?_)
    have hkey : k.keystoneId ∈ g.keystonesOf track ↔ track.all (k.track = ·) = true :=
      mem_keystonesOf hk
    by_cases htrack : track.all (k.track = ·) = true
    · simp [hctrl, hkeys, hkey, htrack]
    · simp [hctrl, hkeys, hkey, htrack]
  rw [hrows]
  congr 1
  refine List.map_congr_left (fun k hk => ?_)
  exact bonus_of_mem (List.mem_filter.mp hk).1

theorem controllers_unlock (hc : c ∈ (g.unlockDeal account track).controllers) :
    (g.unlockDeal account track).controllers = [c] := by
  have hmem : (g.target account).bind (·.playerControllerId) = some c := Option.mem_toList.mp hc
  show ((g.target account).bind (·.playerControllerId)).toList = [c]
  rw [hmem]
  rfl

theorem sound_unlock (account : Nat) (track : Option String) : g.Sound (g.unlockDeal account track)
    (g.unlockPoints (purchase g.keystones (g.unlockDeal account track).pairs).2) where
  owed c hc := (sum_inserted (controllers_unlock hc.1) rfl).symm
  earned hpos := by
    cases hctrl : (g.unlockDeal account track).controllers with
    | nil =>
      have hpairs : (g.unlockDeal account track).pairs = [] := by simp [Deal.pairs, hctrl]
      rw [hpairs] at hpos
      exact absurd hpos (Nat.lt_irrefl 0)
    | cons c rest =>
      have hone := controllers_unlock (c := c) (hctrl ▸ List.mem_cons_self ..)
      rw [sum_inserted hone rfl] at hpos
      exact ⟨c, owes_pos.mp hpos⟩

end Game

/-! ## Runs -/

structure Ask where
  now : Nat
  request : Request
  kind : request.grantType ∈ [.keystone, .specUnlockTrack, .specUnlockAll]

structure World where
  ledger : Ledger
  game : Game

def worldStep (others : Builders Game) (w : World) (x : Ask) : Option World :=
  let db := (doGrant (keystoneBuilders others) x.now (w.game.db w.ledger) x.request).2
  some ⟨db.ledger, db.game⟩

def Game.dealOf (g : Game) (q : Request) : Deal :=
  match q.grantType with
  | .keystone => g.keystoneDeal q.accountId ((keystoneId q).getD 0)
  | .specUnlockTrack => g.unlockDeal q.accountId (trackType q)
  | _ => g.unlockDeal q.accountId none

def World.Clear (others : Builders Game) (w : World) (x : Ask) : Prop :=
  ∀ target plan, Goes (keystoneBuilders others) x.now (w.game.db w.ledger) x.request target plan →
    w.game.Fits (w.game.dealOf x.request)

/-- Since `g₀` the character of each account has been credited the skill points of the catalog's
keystones that are new to its controller. -/
def CreditedOnce (g₀ g : Game) : Prop :=
  ∀ account ctrl pawn, g₀.Real account ctrl pawn →
    g.skill (·.totalSkillPoints) pawn - g₀.skill (·.totalSkillPoints) pawn = g₀.newBonus g ctrl ∧
    g.skill (·.unspentSkillPoints) pawn - g₀.skill (·.unspentSkillPoints) pawn = g₀.newBonus g ctrl

structure Game.Since (g₀ g : Game) : Prop where
  slots : g.slots = g₀.slots
  playerStates : g.playerStates = g₀.playerStates
  catalog : g.catalog = g₀.catalog
  owned : g₀.keystones ⊆ g.keystones
  credited : CreditedOnce g₀ g

section

variable {others : Builders Game} {g₀ g : Game} {w w' : World} {x : Ask}

theorem goes_award {target : Slot} {plan : Plan Game}
    (h : Goes (keystoneBuilders others) x.now (w.game.db w.ledger) x.request target plan) :
    ∃ points, plan.body w.game = w.game.award (w.game.dealOf x.request) points ∧
      w.game.Sound (w.game.dealOf x.request)
        (points (purchase w.game.keystones (w.game.dealOf x.request).pairs).2) := by
  obtain ⟨now, q, kind⟩ := x
  have hbuilt := h.built
  have hpreflight := h.preflight
  simp only [List.mem_cons, List.not_mem_nil, or_false] at kind
  unfold keystoneBuilders at hbuilt
  unfold Game.dealOf
  rcases kind with htype | htype | htype
  · simp only [htype, buildKeystoneGrant] at hbuilt ⊢
    cases hk : keystoneId q with
    | none =>
      rw [hk] at hbuilt
      cases hbuilt
    | some k =>
      rw [hk] at hbuilt
      cases hbuilt
      refine ⟨w.game.keystonePoints k, ?_, w.game.sound_keystone q.accountId k⟩
      simp only [planOf, Game.db, Option.getD_some] at hpreflight ⊢
      unfold Game.keystoneBody at hpreflight ⊢
      split at hpreflight
      · case isTrue hall =>
        rw [if_pos hall]
        rfl
      · cases hpreflight
  · simp only [htype, buildSpecUnlockTrackGrant] at hbuilt ⊢
    cases ht : trackType q with
    | none =>
      rw [ht] at hbuilt
      cases hbuilt
    | some t =>
      rw [ht] at hbuilt
      cases hbuilt
      exact ⟨w.game.unlockPoints, rfl, w.game.sound_unlock q.accountId (some t)⟩
  · simp only [htype, buildSpecUnlockAllGrant] at hbuilt ⊢
    cases hbuilt
    exact ⟨w.game.unlockPoints, rfl, w.game.sound_unlock q.accountId none⟩

theorem worldStep_cases (h : worldStep others w x = some w') :
    (∃ target plan points, Goes (keystoneBuilders others) x.now (w.game.db w.ledger) x.request
        target plan ∧ w'.game = w.game.award (w.game.dealOf x.request) points ∧
      w.game.Sound (w.game.dealOf x.request)
        (points (purchase w.game.keystones (w.game.dealOf x.request).pairs).2)) ∨
    ((¬ ∃ target plan, Goes (keystoneBuilders others) x.now (w.game.db w.ledger) x.request
        target plan) ∧ w'.game = w.game) := by
  cases h
  have hdoes : doGrant (keystoneBuilders others) x.now (w.game.db w.ledger) x.request = (_, _) := rfl
  rcases doGrant_cases hdoes with ⟨target, plan, hgoes, -, -, hgame⟩ | ⟨-, hno, -, hgame⟩
  · obtain ⟨points, hbody, hsound⟩ := goes_award hgoes
    exact Or.inl ⟨target, plan, points, hgoes, hgame.trans hbody, hsound⟩
  · exact Or.inr ⟨hno, hgame⟩

/-- A deal that is made since `g₀` keeps the account exactly when it fits. -/
theorem Game.Since.award_iff (h : g₀.Since g) {d : Deal} {points : List Purchase → Nat}
    (hsound : g.Sound d (points (purchase g.keystones d.pairs).2)) :
    CreditedOnce g₀ (g.award d points) ↔ g.Fits d := by
  have hreal : ∀ account ctrl pawn, g₀.Real account ctrl pawn ↔ g.Real account ctrl pawn := by
    intro account ctrl pawn
    unfold Game.Real Game.target Game.joined
    rw [h.slots, h.playerStates]
  have hnew : ∀ c, g₀.newBonus (g.award d points) c = g₀.newBonus g c + g.owes d c := by
    intro c
    rw [Game.newBonus_add h.catalog h.owned (fun p hp => mem_purchase.mpr (Or.inl hp)),
      Game.award_newBonus]
  rw [Game.fits_iff hsound]
  refine forall_congr' (fun account => forall_congr' (fun ctrl => forall_congr' (fun pawn => ?_)))
  rw [hreal]
  refine forall_congr' (fun hr => ?_)
  obtain ⟨htotal, hunspent⟩ := h.credited account ctrl pawn ((hreal _ _ _).mpr hr)
  rw [hnew, Game.award_points Game.credited_total, Game.award_points Game.credited_unspent]
  push_cast
  constructor
  · rintro ⟨hboth, -⟩
    have : ((points (purchase g.keystones d.pairs).2 * g.hits d pawn : Nat) : Int) =
        (g.owes d ctrl : Nat) := by
      push_cast
      linarith
    exact_mod_cast this
  · intro heq
    have : ((points (purchase g.keystones d.pairs).2 * g.hits d pawn : Nat) : Int) =
        (g.owes d ctrl : Nat) := congrArg Nat.cast heq
    push_cast at this
    constructor <;> linarith

theorem Game.Since.clear_iff (h : g₀.Since w.game) : w.Clear others x ↔
    ∀ w', worldStep others w x = some w' → CreditedOnce g₀ w'.game := by
  constructor
  · intro hclear w' hstep
    rcases worldStep_cases hstep with ⟨target, plan, points, hgoes, hgame, hsound⟩ | ⟨-, hgame⟩
    · rw [hgame]
      exact (h.award_iff hsound).mpr (hclear target plan hgoes)
    · rw [hgame]
      exact h.credited
  · intro hcredited target plan hgoes
    rcases worldStep_cases rfl with ⟨-, -, points, -, hgame, hsound⟩ | ⟨hno, -⟩
    · have hnow := hcredited _ rfl
      rw [hgame] at hnow
      exact (h.award_iff hsound).mp hnow
    · exact absurd ⟨target, plan, hgoes⟩ hno

theorem Game.Since.step (h : g₀.Since w.game) (hclear : w.Clear others x)
    (hstep : worldStep others w x = some w') : g₀.Since w'.game := by
  have hcredited := h.clear_iff.mp hclear w' hstep
  rcases worldStep_cases hstep with ⟨-, -, points, -, hgame, -⟩ | ⟨-, hgame⟩
  · refine ⟨?_, ?_, ?_, ?_, hcredited⟩ <;> rw [hgame]
    · exact h.slots
    · exact h.playerStates
    · exact h.catalog
    · exact fun p hp => mem_purchase.mpr (Or.inl (h.owned hp))
  · rw [hgame]
    exact h

theorem Game.since_self (g : Game) : g.Since g := by
  refine ⟨rfl, rfl, rfl, List.Subset.refl _, fun account ctrl pawn _ => ?_⟩
  have hnone : g.newBonus g ctrl = 0 := by
    unfold Game.newBonus
    rw [List.filter_eq_nil_iff.mpr (fun k _ => by simp)]
    rfl
  rw [hnone]
  simp

end

/-- Skill points are credited once for each keystone bought, in every state of a run, exactly when
the deals of the run fit. -/
theorem credited_iff (others : Builders Game) (w : World) (asks : List Ask) :
    (∀ bs w', bs <+: asks → exec (worldStep others) w bs = some w' → CreditedOnce w.game w'.game) ↔
      Along (worldStep others) (World.Clear others) w asks :=
  Runs.along_iff (I := fun w' => w.game.Since w'.game) (P := fun w' => CreditedOnce w.game w'.game)
    (fun _ h => h.credited) (fun _ _ h => h.clear_iff) (fun _ _ _ h hclear hstep => h.step hclear hstep)
    w.game.since_self

def twoSlots : Game where
  slots := [⟨1, 7, some 21, some 11, some .other, none⟩, ⟨2, 7, some 22, some 12, some .other, none⟩]
  playerStates := [⟨1, some 21, some 5⟩]
  inventories := Table.empty
  items := Serial.empty
  links := [⟨11, "DuneCharacter", 31⟩]
  entities := ⟨[⟨31, some (some ⟨some 40, some 4, some 2⟩)⟩], by decide⟩
  actors := Table.empty
  keystones := []
  catalog := ⟨[⟨1, "Combat", 3⟩], by decide⟩
  rewards := Table.empty
  curve := []
  houses := []

def twoSlotWorld : World := ⟨SerialTable.empty, twoSlots⟩

def trackThenKeystone : List Ask :=
  [⟨100, ⟨7, .specUnlockTrack, 1, "ops", false, false, [("track_type", "Combat")], none⟩, by decide⟩,
   ⟨200, ⟨7, .keystone, 2, "ops", false, false, [("keystone_id", "1")], none⟩, by decide⟩]

def noOthers : Builders Game := fun _ _ _ => .error 2

/-- The keystone is new to the empty slot only, and the character is credited again. -/
theorem empty_slot_credited : ¬ ∀ bs w', bs <+: trackThenKeystone →
    exec (worldStep noOthers) twoSlotWorld bs = some w' → CreditedOnce twoSlots w'.game := by
  intro h
  have hruns : (exec (worldStep noOthers) twoSlotWorld trackThenKeystone).any (fun w =>
      w.game.skill (·.totalSkillPoints) 11 = 10 ∧ twoSlots.newBonus w.game 21 = 3) = true := by
    decide
  obtain ⟨w, hw, hlast⟩ := (Option.any_eq_true _ _).mp hruns
  obtain ⟨htotal, hnew⟩ := of_decide_eq_true hlast
  have hreal : twoSlots.Real 7 21 11 :=
    ⟨⟨7, some 11, some 21, some .other, none, some 5, 1⟩, by decide, rfl, rfl⟩
  have hcredit := (h trackThenKeystone w List.prefix_rfl hw 7 21 11 hreal).1
  have hbefore : twoSlots.skill (·.totalSkillPoints) 11 = 4 := by decide
  rw [htotal, hnew, hbefore] at hcredit
  exact absurd hcredit (by decide)

end LastSietch.Grants
