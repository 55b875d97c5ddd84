import LastSietch.Grants.Bodies

/-!
# Where XP and keystones land

The level component hangs on a `DuneCharacter` entity of a pawn, and the builders reach the entities
of every pawn of the account.

* `experience_iff`: XP, the skill points of the levels that it gains, and the intel of an actor.
* `keystones_iff`: a keystone and its skill points.
-/

namespace LastSietch.Grants

open DuneGrant

/-- The entities of the account, changed by `f`, are those with one changed exactly when `f` leaves
the others as they are. -/
theorem hit_iff {g : Game} {account pawn : Nat} {e : Entity} {f : Entity → Entity}
    {hf : ∀ r, (f r).id = r.id} (hpawn : pawn ∈ g.pawnsOf account) (he : e ∈ g.entities)
    (hchar : g.IsCharacter pawn e) :
    g.entities.update (g.IsHit (g.pawnsOf account) ·) f hf =
        g.entities.update (fun r => r.id = e.id) f hf ↔
      ∀ e' ∈ g.entities, g.IsHit (g.pawnsOf account) e' → e' = e ∨ f e' = e' := by
  refine Table.update_eq_iff.trans ?_
  refine forall_congr' (fun e' => imp_congr_right (fun he' => ?_))
  by_cases hid : e'.id = e.id
  · obtain rfl : e' = e := Table.eq_of_key_eq he' he hid
    have hhit : g.IsHit (g.pawnsOf account) e' := ⟨pawn, hpawn, hchar⟩
    simp [hhit]
  · have hne : e' ≠ e := fun h => hid (congrArg Entity.id h)
    by_cases hhit : g.IsHit (g.pawnsOf account) e'
    · simp [hhit, hid, hne]
    · simp [hhit, hid]

/-! ## Experience -/

section Experience

variable {g g' : Game} {account pawn amount : Nat} {e e' : Entity} {l : Level}

/-- The XP and what comes with it are added to one `DuneCharacter` entity of the pawn, and the intel
of no other actor changes. -/
def Game.XpLands (g g' : Game) (pawn amount : Nat) : Prop :=
  ∃ e ∈ g.entities, g.IsCharacter pawn e ∧ ∃ l, e.level = some (some l) ∧
    (l.raise g.curve amount).totalXpEarned = some (l.totalXpEarned.getD 0 + amount) ∧
    ∃ actors, g' = { g with
        entities := raiseEntities g.curve amount (fun r => r.id = e.id) g.entities, actors } ∧
      ∀ id, id ≠ pawn → actors.get? id = g.actors.get? id

def Entity.Spent (e : Entity) : Prop :=
  ∃ l, e.level = some (some l) ∧ l.totalXpEarned = some maxXp ∧ l.totalSkillPoints ≠ none ∧
    l.unspentSkillPoints ≠ none

def Game.GainsIntel (g : Game) (account amount : Nat) (a : Actor) : Prop :=
  a.id ∈ g.pawnsOf account ∧ a.techKnowledge ≠ none ∧ ∃ e ∈ g.entities, g.IsCharacter a.id e ∧
    0 < intelDelta g.curve amount (e.raise g.curve amount)

/-- A `DuneCharacter` entity of the pawn takes all of the XP, the others of the account have nothing
left to raise, and no other actor gains intel. -/
def Game.OneForXp (g : Game) (account pawn amount : Nat) : Prop :=
  (∃ e ∈ g.entities, g.IsCharacter pawn e ∧ (∃ l, e.level = some (some l) ∧
      l.totalXpEarned.getD 0 + amount ≤ maxXp) ∧
    ∀ e' ∈ g.entities, g.IsHit (g.pawnsOf account) e' → e'.levelled → e' = e ∨ e'.Spent) ∧
  ∀ a ∈ g.actors, a.id ≠ pawn → ¬ g.GainsIntel account amount a

theorem raise_of_not_levelled (curve : List (Nat × Int)) (amount : Nat) (h : e.levelled = false) :
    e.raise curve amount = e := by
  obtain ⟨id, level⟩ := e
  cases level with
  | none => rfl
  | some level =>
    cases level with
    | none => rfl
    | some l => cases h

theorem raise_eq_self_iff (hamount : 0 < amount) (curve : List (Nat × Int)) (h : e.levelled = true) :
    e.raise curve amount = e ↔ e.Spent := by
  obtain ⟨id, level⟩ := e
  match level with
  | none => cases h
  | some none => cases h
  | some (some ⟨xp, total, unspent⟩) =>
    constructor
    · intro heq
      have hlevel : Level.raise curve amount ⟨xp, total, unspent⟩ = ⟨xp, total, unspent⟩ :=
        Option.some.inj (Option.some.inj (congrArg Entity.level heq))
      have hxp : some (min (xp.getD 0 + amount) maxXp) = xp := congrArg Level.totalXpEarned hlevel
      refine ⟨_, rfl, ?_, ?_, ?_⟩
      · cases xp with
        | none => cases hxp
        | some xp =>
          have hmin : min (xp + amount) maxXp = xp := Option.some.inj hxp
          have : xp = maxXp := by omega
          rw [this]
      · rw [← congrArg Level.totalSkillPoints hlevel]
        exact Option.some_ne_none _
      · rw [← congrArg Level.unspentSkillPoints hlevel]
        exact Option.some_ne_none _
    · rintro ⟨l, hl, hxp, htotal, hunspent⟩
      cases hl
      obtain ⟨total, rfl⟩ := Option.ne_none_iff_exists'.mp htotal
      obtain ⟨unspent, rfl⟩ := Option.ne_none_iff_exists'.mp hunspent
      cases hxp
      simp [Entity.raise, Level.raise]

/-- The entities after the XP write are those with one raised exactly when the others are spent. -/
theorem entities_iff (hamount : 0 < amount) (hpawn : pawn ∈ g.pawnsOf account) (he : e ∈ g.entities)
    (hchar : g.IsCharacter pawn e) :
    (g.withXp account amount).entities =
        raiseEntities g.curve amount (fun r => r.id = e.id) g.entities ↔
      ∀ e' ∈ g.entities, g.IsHit (g.pawnsOf account) e' → e'.levelled → e' = e ∨ e'.Spent := by
  refine (hit_iff hpawn he hchar).trans ?_
  refine forall_congr' (fun e' => imp_congr_right (fun _ => imp_congr_right (fun _ => ?_)))
  by_cases hlevel : e'.levelled = true
  · rw [raise_eq_self_iff hamount g.curve hlevel]
    exact ⟨fun h _ => h, fun h => h hlevel⟩
  · have hstays := raise_of_not_levelled g.curve amount (Bool.eq_false_iff.mpr hlevel)
    exact iff_of_true (Or.inr hstays) (fun h => absurd h hlevel)

theorem addIntel_get? (g : Game) (account amount id : Nat) :
    (g.addIntel account amount).actors.get? id = (g.actors.get? id).map fun a =>
      if decide (a.id ∈ g.pawnsOf account) then g.giveIntel amount a else a :=
  Table.get?_update g.actors _ (g.giveIntel amount) (g.giveIntel_id amount) id

theorem intelOf_eq_none {a : Actor} : g.intelOf amount a = none ↔
    ∀ e ∈ g.entities, g.IsCharacter a.id e → intelDelta g.curve amount e ≤ 0 := by
  unfold Game.intelOf
  rw [List.find?_eq_none]
  constructor
  · intro h e he hchar
    have hnot := h _ (List.mem_map_of_mem (List.mem_filter.mpr ⟨he, decide_eq_true hchar⟩))
    simpa using hnot
  · intro h n hn
    obtain ⟨e, he, rfl⟩ := List.mem_map.mp hn
    obtain ⟨he, hchar⟩ := List.mem_filter.mp he
    simpa using h e he (of_decide_eq_true hchar)

theorem giveIntel_eq_self {a : Actor} : g.giveIntel amount a = a ↔
    a.techKnowledge = none ∨ g.intelOf amount a = none := by
  unfold Game.giveIntel
  cases hintel : g.intelOf amount a with
  | none => simp
  | some n =>
    have hpos : 0 < n := by simpa using List.find?_some hintel
    obtain ⟨id, tech⟩ := a
    cases tech with
    | none => simp [Actor.addIntel]
    | some points =>
      cases points with
      | none => simp [Actor.addIntel]
      | some points =>
        simp [Actor.addIntel]
        omega

theorem mem_withXp : e ∈ (g.withXp account amount).entities ↔ ∃ e₀ ∈ g.entities,
    e = if decide (g.IsHit (g.pawnsOf account) e₀) then e₀.raise g.curve amount else e₀ := by
  exact @Table.mem_update _ _ _ g.entities _ (Entity.raise g.curve amount) (fun _ => rfl) e

theorem gainsIntel_iff {a : Actor} (ha : a.id ∈ g.pawnsOf account) :
    (g.withXp account amount).giveIntel amount a ≠ a ↔ g.GainsIntel account amount a := by
  rw [Ne, giveIntel_eq_self, not_or, intelOf_eq_none]
  push Not
  constructor
  · rintro ⟨htech, e, he, hchar, hpos⟩
    obtain ⟨e₀, he₀, rfl⟩ := mem_withXp.mp he
    have hchar₀ : g.IsCharacter a.id e₀ := by
      split at hchar
      · exact hchar
      · exact hchar
    rw [if_pos (decide_eq_true ⟨a.id, ha, hchar₀⟩)] at hpos
    exact ⟨ha, htech, e₀, he₀, hchar₀, hpos⟩
  · rintro ⟨-, htech, e, he, hchar, hpos⟩
    refine ⟨htech, e.raise g.curve amount, ?_, hchar, hpos⟩
    refine mem_withXp.mpr ⟨e, he, ?_⟩
    rw [if_pos (decide_eq_true ⟨a.id, ha, hchar⟩)]

theorem actors_iff : (∀ id, id ≠ pawn →
      ((g.withXp account amount).addIntel account amount).actors.get? id = g.actors.get? id) ↔
    ∀ a ∈ g.actors, a.id ≠ pawn → ¬ g.GainsIntel account amount a := by
  have hget : ∀ id, ((g.withXp account amount).addIntel account amount).actors.get? id =
      (g.actors.get? id).map fun a =>
        if decide (a.id ∈ g.pawnsOf account) then (g.withXp account amount).giveIntel amount a
        else a :=
    addIntel_get? (g.withXp account amount) account amount
  constructor
  · intro h a ha hid hgains
    have hsame := h a.id hid
    rw [hget, Table.get?_eq_some.mpr ⟨ha, rfl⟩, Option.map_some,
      if_pos (decide_eq_true hgains.1)] at hsame
    exact (gainsIntel_iff hgains.1).mpr hgains (Option.some.inj hsame)
  · intro h id hid
    rw [hget]
    cases hfind : g.actors.get? id with
    | none => rfl
    | some a =>
      obtain ⟨ha, rfl⟩ := Table.get?_eq_some.mp hfind
      rw [Option.map_some]
      by_cases hin : a.id ∈ g.pawnsOf account
      · rw [if_pos (decide_eq_true hin)]
        by_contra hne
        refine h a ha hid ((gainsIntel_iff hin).mp (fun heq => hne ?_))
        rw [heq]
      · rw [if_neg (by simpa using hin)]

theorem experience_iff (hamount : 0 < amount) (hpawn : pawn ∈ g.pawnsOf account)
    (h : g.charXpSql account amount = some g') :
    g.XpLands g' pawn amount ↔ g.OneForXp account pawn amount := by
  unfold Game.charXpSql at h
  split at h
  · cases h
  · split at h
    · cases h
    · cases h
      have hfull : ∀ l : Level, (l.raise g.curve amount).totalXpEarned =
          some (l.totalXpEarned.getD 0 + amount) ↔ l.totalXpEarned.getD 0 + amount ≤ maxXp := by
        intro l
        unfold Level.raise
        rw [Option.some.injEq]
        omega
      constructor
      · rintro ⟨e, he, hchar, l, hl, hxp, actors, heq, hactors⟩
        have hentities := congrArg Game.entities heq
        have hactors' : ((g.withXp account amount).addIntel account amount).actors = actors :=
          congrArg Game.actors heq
        rw [← hactors'] at hactors
        refine ⟨⟨e, he, hchar, ⟨l, hl, (hfull l).mp hxp⟩, ?_⟩, actors_iff.mp hactors⟩
        exact (entities_iff hamount hpawn he hchar).mp hentities
      · rintro ⟨⟨e, he, hchar, ⟨l, hl, hxp⟩, hothers⟩, hactors⟩
        refine ⟨e, he, hchar, l, hl, (hfull l).mpr hxp, _, ?_, actors_iff.mpr hactors⟩
        rw [← (entities_iff hamount hpawn he hchar).mpr hothers]
        rfl

end Experience

/-! ## Keystones -/

section Keystones

variable {g g' : Game} {account pawn ctrl k n : Nat} {owned ps : List Purchase} {p : Purchase}
  {e : Entity}

theorem purchase_none (h : ∀ q ∈ ps, q ∈ owned) : purchase owned ps = (owned, []) := by
  induction ps with
  | nil => rfl
  | cons q ps ih =>
    obtain ⟨hq, hps⟩ := List.forall_mem_cons.mp h
    unfold purchase
    rw [if_pos hq]
    exact ih hps

theorem purchase_one (hp : p ∈ ps) (hnew : p ∉ owned) (honly : ∀ q ∈ ps, q ∉ owned → q = p) :
    purchase owned ps = (p :: owned, [p]) := by
  induction ps with
  | nil => exact absurd hp List.not_mem_nil
  | cons q ps ih =>
    obtain ⟨hq, hps⟩ := List.forall_mem_cons.mp honly
    unfold purchase
    by_cases howned : q ∈ owned
    · have hne : p ≠ q := fun h => hnew (h ▸ howned)
      rw [if_pos howned]
      exact ih ((List.mem_cons.mp hp).resolve_left hne) hps
    · have hrest : ∀ r ∈ ps, r ∈ p :: owned := by
        intro r hr
        rw [List.mem_cons, or_iff_not_imp_right]
        exact hps r hr
      rw [if_neg howned, hq howned, purchase_none hrest]

/-- The controller has the keystone, and where it is new its points are added to one `DuneCharacter`
entity of the pawn. -/
def Game.KeystoneLands (g g' : Game) (pawn ctrl k : Nat) : Prop :=
  (⟨ctrl, k⟩ ∈ g.keystones ∧ g' = g) ∨
  (⟨ctrl, k⟩ ∉ g.keystones ∧
    ((g.bonus k = 0 ∧ g' = { g with keystones := ⟨ctrl, k⟩ :: g.keystones }) ∨
      ∃ e ∈ g.entities, g.IsCharacter pawn e ∧ e.levelled ∧ g' = { g with
        keystones := ⟨ctrl, k⟩ :: g.keystones
        entities := g.entities.update (fun r => r.id = e.id) (Entity.credit (g.bonus k)) }))

/-- The other controllers of the account have the keystone, and where it is new and has points, one
entity of the pawn is the only one of the account that can take them. -/
def Game.OneForKeystone (g : Game) (account pawn ctrl k : Nat) : Prop :=
  (∀ c ∈ g.controllersOf account, ⟨c, k⟩ ∉ g.keystones → c = ctrl) ∧
  (⟨ctrl, k⟩ ∉ g.keystones → 0 < g.bonus k →
    ∃ e ∈ g.entities, g.IsCharacter pawn e ∧ e.levelled ∧
      ∀ e' ∈ g.entities, g.IsHit (g.pawnsOf account) e' → e'.levelled → e' = e)

theorem credit_of_not_levelled (n : Nat) (h : e.levelled = false) : e.credit n = e := by
  obtain ⟨id, level⟩ := e
  cases level with
  | none => rfl
  | some level =>
    cases level with
    | none => rfl
    | some l => cases h

theorem credit_ne (hn : 0 < n) (h : e.levelled = true) : e.credit n ≠ e := by
  intro heq
  have hcounter := Game.counter_credit Game.credited_total n e
  rw [heq, if_pos h] at hcounter
  omega

theorem credits_iff (hn : 0 < n) (hpawn : pawn ∈ g.pawnsOf account) (he : e ∈ g.entities)
    (hchar : g.IsCharacter pawn e) :
    g.entities.update (g.IsHit (g.pawnsOf account) ·) (Entity.credit n) =
        g.entities.update (fun r => r.id = e.id) (Entity.credit n) ↔
      ∀ e' ∈ g.entities, g.IsHit (g.pawnsOf account) e' → e'.levelled → e' = e := by
  refine (hit_iff hpawn he hchar).trans ?_
  refine forall_congr' (fun e' => imp_congr_right (fun _ => imp_congr_right (fun _ => ?_)))
  by_cases hlevel : e'.levelled = true
  · rw [or_iff_left (credit_ne hn hlevel)]
    exact ⟨fun h _ => h, fun h => h hlevel⟩
  · have hstays := credit_of_not_levelled n (Bool.eq_false_iff.mpr hlevel)
    exact iff_of_true (Or.inr hstays) (fun h => absurd h hlevel)

theorem Game.mem_keystonePairs : p ∈ (g.keystoneDeal account k).pairs ↔
    p.playerId ∈ g.controllersOf account ∧ p.keystoneId = k := by
  obtain ⟨c, k'⟩ := p
  rw [Deal.mem_pairs]
  exact and_congr_right (fun _ => List.mem_singleton)

theorem Game.award_eq {d : Deal} {points : List Purchase → Nat} {bought new : List Purchase}
    (h : purchase g.keystones d.pairs = (bought, new)) : g.award d points = { g with
      keystones := bought
      entities := g.entities.update (fun e => 0 < points new ∧ g.IsHit d.pawns e)
        (Entity.credit (points new)) } := by
  unfold Game.award
  rw [h]

theorem Game.award_nothing {d : Deal} {points : List Purchase → Nat} (hpoints : points [] = 0)
    (h : ∀ p ∈ d.pairs, p ∈ g.keystones) : g.award d points = g := by
  rw [Game.award_eq (purchase_none h), hpoints]
  have hsame : g.entities.update (fun e => 0 < 0 ∧ g.IsHit d.pawns e) (Entity.credit 0) =
      g.entities := by
    refine Table.eq_of_rows ((List.map_congr_left (fun e _ => ?_)).trans (List.map_id _))
    simp
  rw [hsame]

theorem Game.keystone_new (hctrl : ctrl ∈ g.controllersOf account) (hnew : ⟨ctrl, k⟩ ∉ g.keystones)
    (honly : ∀ c ∈ g.controllersOf account, ⟨c, k⟩ ∉ g.keystones → c = ctrl) :
    g.award (g.keystoneDeal account k) (g.keystonePoints k) = { g with
      keystones := ⟨ctrl, k⟩ :: g.keystones
      entities := g.entities.update (fun e => 0 < g.bonus k ∧ g.IsHit (g.pawnsOf account) e)
        (Entity.credit (g.bonus k)) } := by
  have hbought : purchase g.keystones (g.keystoneDeal account k).pairs =
      (⟨ctrl, k⟩ :: g.keystones, [⟨ctrl, k⟩]) := by
    refine purchase_one (Game.mem_keystonePairs.mpr ⟨hctrl, rfl⟩) hnew ?_
    rintro ⟨c, k'⟩ hq hqnew
    obtain ⟨hc, rfl⟩ := Game.mem_keystonePairs.mp hq
    rw [honly c hc hqnew]
  exact Game.award_eq hbought

theorem keystones_iff (hpawn : pawn ∈ g.pawnsOf account) (hctrl : ctrl ∈ g.controllersOf account)
    (h : g.keystoneBody account k = some g') :
    g.KeystoneLands g' pawn ctrl k ↔ g.OneForKeystone account pawn ctrl k := by
  unfold Game.keystoneBody at h
  split at h
  · cases h
    by_cases howned : (⟨ctrl, k⟩ : Purchase) ∈ g.keystones
    · constructor
      · rintro (⟨-, heq⟩ | ⟨hnew, -⟩)
        · refine ⟨fun c hc hnew => absurd ?_ hnew, fun hnew => absurd howned hnew⟩
          rw [← congrArg Game.keystones heq]
          exact mem_purchase.mpr (Or.inr (Game.mem_keystonePairs.mpr ⟨hc, rfl⟩))
        · exact absurd howned hnew
      · rintro ⟨honly, -⟩
        refine Or.inl ⟨howned, Game.award_nothing rfl (fun p hp => ?_)⟩
        obtain ⟨c, k'⟩ := p
        obtain ⟨hc, rfl⟩ := Game.mem_keystonePairs.mp hp
        by_contra hnew
        rw [honly c hc hnew] at hnew
        exact hnew howned
    · constructor
      · rintro (⟨hold, -⟩ | ⟨-, hlands⟩)
        · exact absurd hold howned
        · have hkeystones : (g.award (g.keystoneDeal account k) (g.keystonePoints k)).keystones =
              ⟨ctrl, k⟩ :: g.keystones := by
            rcases hlands with ⟨-, heq⟩ | ⟨_, -, -, -, heq⟩
            · exact congrArg Game.keystones heq
            · exact congrArg Game.keystones heq
          have honly : ∀ c ∈ g.controllersOf account, ⟨c, k⟩ ∉ g.keystones → c = ctrl := by
            intro c hc hnew
            have hmem : (⟨c, k⟩ : Purchase) ∈ (⟨ctrl, k⟩ : Purchase) :: g.keystones :=
              hkeystones ▸ mem_purchase.mpr (Or.inr (Game.mem_keystonePairs.mpr ⟨hc, rfl⟩))
            exact congrArg Purchase.playerId ((List.mem_cons.mp hmem).resolve_right hnew)
          refine ⟨honly, fun _ hbonus => ?_⟩
          rcases hlands with ⟨hzero, -⟩ | ⟨e, he, hchar, hlevel, heq⟩
          · omega
          · refine ⟨e, he, hchar, hlevel, (credits_iff hbonus hpawn he hchar).mp ?_⟩
            have hentities := congrArg Game.entities heq
            rw [Game.keystone_new hctrl howned honly] at hentities
            simpa only [hbonus, true_and] using hentities
      · rintro ⟨honly, hone⟩
        refine Or.inr ⟨howned, ?_⟩
        rw [Game.keystone_new hctrl howned honly]
        rcases Nat.eq_zero_or_pos (g.bonus k) with hzero | hbonus
        · refine Or.inl ⟨hzero, ?_⟩
          have hsame : g.entities.update (fun e => 0 < g.bonus k ∧ g.IsHit (g.pawnsOf account) e)
              (Entity.credit (g.bonus k)) = g.entities := by
            refine Table.eq_of_rows ((List.map_congr_left (fun e _ => ?_)).trans (List.map_id _))
            simp [hzero]
          rw [hsame]
        · obtain ⟨e, he, hchar, hlevel, hothers⟩ := hone howned hbonus
          refine Or.inr ⟨e, he, hchar, hlevel, ?_⟩
          rw [← (credits_iff hbonus hpawn he hchar).mpr hothers]
          simp only [hbonus, true_and]
  · cases h

end Keystones

end LastSietch.Grants
