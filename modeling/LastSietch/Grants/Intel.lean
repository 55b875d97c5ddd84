import LastSietch.Grants.Levels

/-!
# XP, skill points and intel of one grant and of two

The XP write of `build_char_xp_grant` reads the XP before it; the intel write takes the XP after it
and subtracts the amount, of which the cap may have taken a part.

* `xp_credits_iff`: the intel is that of the levels gained exactly where the grant is `Even`.
* `xp_in_step_iff`: a grant of `a`, one of `b` after it, and one of both.
-/

namespace LastSietch.Grants

variable {g g' : Game} {account pawn n : Nat} {e : Entity}

/-- `COALESCE((components#>>'{FLevelComponent,1,TotalXPEarned}')::bigint, 0)`. -/
def Entity.xp (e : Entity) : Int := (e.level.join.bind (·.totalXpEarned)).getD 0

def Entity.totalPoints (e : Entity) : Int := (e.level.join.bind (·.totalSkillPoints)).getD 0

def Entity.unspentPoints (e : Entity) : Int := (e.level.join.bind (·.unspentSkillPoints)).getD 0

/-- The intel of an actor that has a `TechKnowledgePlayerComponent`. -/
def Game.intel (g : Game) (id : Nat) : Option Int :=
  ((g.actors.get? id).bind (·.techKnowledge)).map (·.getD 0)

def intelAt (curve : List (Nat × Int)) (xp : Int) : Int := intelAtLevel (xpToLevel curve xp)

/-- A grant of `n` gives the account's one character the XP up to the cap, and the skill points and
the intel of the levels between. -/
def Game.Credits (g g' : Game) (account n : Nat) : Prop :=
  ∀ e, g.characters account = [e] →
    let xp := min (e.xp + n) maxXp
    let gained : Int := xpToLevel g.curve xp - xpToLevel g.curve e.xp
    g'.entities.get? e.id = some ⟨e.id, some (some ⟨some xp, some (e.totalPoints + gained),
      some (e.unspentPoints + gained)⟩)⟩ ∧
    ∀ pawn ∈ g.pawnsOf account, g.IsCharacter pawn e → ∀ i, g.intel pawn = some i →
      g'.intel pawn = some (i + (intelAt g.curve xp - intelAt g.curve e.xp))

def Game.Alike (g' g'' : Game) (account : Nat) : Prop :=
  g'.characters account = g''.characters account ∧ ∀ e ∈ g'.characters account,
    ∀ pawn ∈ g'.pawnsOf account, g'.IsCharacter pawn e → g'.intel pawn = g''.intel pawn

def Even (curve : List (Nat × Int)) (xp : Int) (n : Nat) : Prop :=
  xp + n ≤ maxXp ∨ intelAt curve (maxXp - n) = intelAt curve xp

/-- A character of the account has a `TechKnowledgePlayerComponent`. -/
def Game.HasIntel (g : Game) (account : Nat) (e : Entity) : Prop :=
  ∃ pawn ∈ g.pawnsOf account, g.IsCharacter pawn e ∧ g.intel pawn ≠ none

/-! ## Levels and intel -/

theorem intelAtLevel_mono {m n : Nat} (h : m ≤ n) : intelAtLevel m ≤ intelAtLevel n := by
  have hlow : ∀ k < 126, intelAtLevel k ≤ intelAtLevel (k + 1) := by decide
  have htop : ∀ k, 126 ≤ k → intelAtLevel k = 2779 := by
    intro k hk
    unfold intelAtLevel
    repeat rw [if_neg (by omega)]
  refine monotone_nat_of_le_succ (fun k => ?_) h
  by_cases hk : k < 126
  · exact hlow k hk
  · rw [htop k (by omega), htop (k + 1) (by omega)]

theorem xpToLevel_mono (curve : List (Nat × Int)) {x y : Int} (h : x ≤ y) :
    xpToLevel curve x ≤ xpToLevel curve y := by
  unfold xpToLevel
  cases hx : ((curve.filter fun row => row.2 ≤ max x 0).map (·.1)).max? with
  | none => exact Nat.zero_le _
  | some m =>
    have hm := List.max?_mem hx
    obtain ⟨row, hrow, rfl⟩ := List.mem_map.mp hm
    obtain ⟨hmem, hle⟩ := List.mem_filter.mp hrow
    have hmem' : row.1 ∈ (curve.filter fun row => row.2 ≤ max y 0).map (·.1) := by
      refine List.mem_map_of_mem (List.mem_filter.mpr ⟨hmem, ?_⟩)
      simp only [decide_eq_true_eq] at hle ⊢
      omega
    exact List.le_max?_getD_of_mem hmem'

theorem intelAt_mono (curve : List (Nat × Int)) {x y : Int} (h : x ≤ y) :
    intelAt curve x ≤ intelAt curve y :=
  intelAtLevel_mono (xpToLevel_mono curve h)

theorem intelAt_max (curve : List (Nat × Int)) (x : Int) :
    intelAt curve (max x 0) = intelAt curve x := by
  unfold intelAt xpToLevel
  rw [max_assoc, max_self]

/-- `intel_delta` is the intel of the levels gained exactly where the grant is even. -/
theorem intelDelta_raise_iff (curve : List (Nat × Int)) (he : e.levelled = true)
    (hxp : e.xp ≤ maxXp) : intelDelta curve n (e.raise curve n) =
      intelAt curve (min (e.xp + n) maxXp) - intelAt curve e.xp ↔ Even curve e.xp n := by
  obtain ⟨l, hl⟩ : ∃ l, e.level = some (some l) := by
    obtain ⟨id, level⟩ := e
    match level with
    | none => cases he
    | some none => cases he
    | some (some l) => exact ⟨l, rfl⟩
  have hpost : (e.raise curve n).xp = min (e.xp + n) maxXp := by
    simp only [Entity.raise, Entity.xp, hl]
    rfl
  have hdelta : intelDelta curve n (e.raise curve n) =
      intelAt curve (min (e.xp + n) maxXp) - intelAt curve (min (e.xp + n) maxXp - n) := by
    show max 0 (intelAt curve (e.raise curve n).xp -
      intelAt curve (max ((e.raise curve n).xp - n) 0)) = _
    have hmono := intelAt_mono curve (x := min (e.xp + n) maxXp - n) (y := min (e.xp + n) maxXp)
      (by omega)
    rw [hpost, intelAt_max, max_eq_right (by omega)]
  rw [hdelta]
  unfold Even
  rcases le_or_gt (e.xp + n) maxXp with hle | hlt
  · rw [min_eq_left hle, add_sub_cancel_right]
    exact iff_of_true rfl (Or.inl hle)
  · rw [min_eq_right (le_of_lt hlt), or_iff_right (not_le.mpr hlt)]
    omega

/-! ## One grant -/

theorem Game.mem_characters : e ∈ g.characters account ↔
    e ∈ g.entities ∧ g.IsHit (g.pawnsOf account) e := by
  unfold Game.characters
  simp only [List.mem_flatMap, List.mem_filter, decide_eq_true_eq]
  exact ⟨fun ⟨pawn, hpawn, he, hchar⟩ => ⟨he, pawn, hpawn, hchar⟩,
    fun ⟨he, pawn, hpawn, hchar⟩ => ⟨pawn, hpawn, he, hchar⟩⟩

theorem Game.charXpSql_eq (h : g.charXpSql account n = some g') :
    g' = (g.withXp account n).addIntel account n := by
  unfold Game.charXpSql at h
  split at h
  · cases h
  · split at h
    · cases h
    · exact (Option.some.inj h).symm

theorem Game.intelOf_withXp (hone : g.characters account = [e]) {a : Actor}
    (hpawn : a.id ∈ g.pawnsOf account) (hchar : g.IsCharacter a.id e) :
    ((g.withXp account n).intelOf n a).getD 0 = intelDelta g.curve n (e.raise g.curve n) := by
  have hraised : e.raise g.curve n ∈ (g.withXp account n).entities := by
    have hmem := Game.mem_characters.mp (hone ▸ List.mem_singleton_self e)
    exact mem_withXp.mpr ⟨e, hmem.1, (if_pos (decide_eq_true hmem.2)).symm⟩
  cases hfound : (g.withXp account n).intelOf n a with
  | none =>
    exact le_antisymm (le_max_left ..) (intelOf_eq_none.mp hfound _ hraised hchar)
  | some m =>
    obtain ⟨e', he', rfl⟩ := List.mem_map.mp (List.mem_of_find?_eq_some hfound)
    obtain ⟨hmem, hchar'⟩ := List.mem_filter.mp he'
    obtain ⟨e₀, he₀, rfl⟩ := mem_withXp.mp hmem
    have hhit : g.IsHit (g.pawnsOf account) e₀ := by
      refine ⟨a.id, hpawn, ?_⟩
      split at hchar'
      · exact of_decide_eq_true hchar'
      · exact of_decide_eq_true hchar'
    have hsame : e₀ ∈ [e] := hone ▸ Game.mem_characters.mpr ⟨he₀, hhit⟩
    rw [if_pos (decide_eq_true hhit), List.mem_singleton.mp hsame]
    rfl

theorem Game.intel_charXp (hone : g.characters account = [e]) (hpawn : pawn ∈ g.pawnsOf account)
    (hchar : g.IsCharacter pawn e) : ((g.withXp account n).addIntel account n).intel pawn =
      (g.intel pawn).map (· + intelDelta g.curve n (e.raise g.curve n)) := by
  have hget : ((g.withXp account n).addIntel account n).actors.get? pawn =
      (g.actors.get? pawn).map ((g.withXp account n).giveIntel n) := by
    rw [addIntel_get?]
    refine Option.map_congr (fun a ha => ?_)
    rw [Table.key_of_get? ha]
    exact if_pos (decide_eq_true hpawn)
  unfold Game.intel
  rw [hget]
  cases hactor : g.actors.get? pawn with
  | none => rfl
  | some a =>
    obtain rfl := Table.key_of_get? hactor
    have hof := Game.intelOf_withXp (n := n) hone hpawn hchar
    simp only [Option.map_some, Option.bind_some, Game.giveIntel]
    cases hfound : (g.withXp account n).intelOf n a with
    | none =>
      rw [hfound] at hof
      rw [← hof]
      simp [Function.comp_def]
    | some m =>
      rw [hfound] at hof
      rw [← hof]
      simp [Actor.addIntel, Function.comp_def]

theorem Game.characters_charXp (hone : g.characters account = [e]) :
    ((g.withXp account n).addIntel account n).characters account = [e.raise g.curve n] := by
  have hhit := (Game.mem_characters.mp (hone ▸ List.mem_singleton_self e)).2
  have hmap : ((g.withXp account n).addIntel account n).characters account =
      (g.characters account).map (fun r =>
        if decide (g.IsHit (g.pawnsOf account) r) then r.raise g.curve n else r) := by
    unfold Game.characters
    rw [List.map_flatMap]
    refine List.flatMap_congr (fun pawn _ => ?_)
    show ((g.entities.rows.map _).filter _) = _
    rw [List.filter_map]
    congr 1
    refine List.filter_congr (fun r _ => decide_eq_decide.mpr ?_)
    show Link.mk pawn "DuneCharacter" (if _ then _ else _ : Entity).id ∈ g.links ↔ _
    split
    · exact Iff.rfl
    · exact Iff.rfl
  rw [hmap, hone, List.map_singleton, if_pos (decide_eq_true hhit)]

theorem Game.get?_charXp (hone : g.characters account = [e]) :
    ((g.withXp account n).addIntel account n).entities.get? e.id = some (e.raise g.curve n) := by
  obtain ⟨he, hhit⟩ := Game.mem_characters.mp (hone ▸ List.mem_singleton_self e)
  have hget : g.entities.get? e.id = some e := Table.get?_eq_some.mpr ⟨he, rfl⟩
  refine (Table.get?_update g.entities _ (Entity.raise g.curve n) (fun _ => rfl) e.id).trans ?_
  rw [hget, Option.map_some, if_pos (decide_eq_true hhit)]

/-- The grant credits the account's one character exactly where it has a level to write, and is even
if it has intel. -/
theorem xp_credits_iff (hone : g.characters account = [e]) (hxp : e.xp ≤ maxXp)
    (h : g.charXpSql account n = some g') : g.Credits g' account n ↔
      e.levelled ∧ (g.HasIntel account e → Even g.curve e.xp n) := by
  obtain rfl := Game.charXpSql_eq h
  constructor
  · intro hcredits
    obtain ⟨hget, hintel⟩ := hcredits e hone
    rw [Game.get?_charXp hone] at hget
    have hlevel : e.levelled = true := by
      obtain ⟨id, level⟩ := e
      match level with
      | none => cases hget
      | some none => cases hget
      | some (some l) => rfl
    refine ⟨hlevel, fun ⟨pawn, hpawn, hchar, hsome⟩ => ?_⟩
    obtain ⟨i, hi⟩ := Option.ne_none_iff_exists'.mp hsome
    have hnow := hintel pawn hpawn hchar i hi
    rw [Game.intel_charXp hone hpawn hchar, hi, Option.map_some, Option.some.injEq] at hnow
    exact (intelDelta_raise_iff g.curve hlevel hxp).mp (add_left_cancel hnow)
  · rintro ⟨hlevel, heven⟩ e' he'
    obtain rfl : e' = e := List.head_eq_of_cons_eq (he'.symm.trans hone)
    refine ⟨?_, fun pawn hpawn hchar i hi => ?_⟩
    · rw [Game.get?_charXp hone]
      obtain ⟨id, level⟩ := e'
      match level with
      | none => cases hlevel
      | some none => cases hlevel
      | some (some l) => rfl
    · have hsome : g.intel pawn ≠ none := by
        rw [hi]
        exact Option.some_ne_none i
      rw [Game.intel_charXp hone hpawn hchar, hi, Option.map_some,
        (intelDelta_raise_iff g.curve hlevel hxp).mpr (heven ⟨pawn, hpawn, hchar, hsome⟩)]

/-! ## Two grants -/

theorem Game.hasIntel_charXp (hone : g.characters account = [e]) :
    ((g.withXp account n).addIntel account n).HasIntel account (e.raise g.curve n) ↔
      g.HasIntel account e := by
  refine exists_congr (fun pawn => and_congr_right (fun hpawn => and_congr_right (fun hchar => ?_)))
  rw [Game.intel_charXp hone hpawn hchar, Ne, Option.map_eq_none_iff]

theorem xp_raise (curve : List (Nat × Int)) (h : e.levelled = true) :
    (e.raise curve n).xp = min (e.xp + n) maxXp := by
  obtain ⟨id, level⟩ := e
  match level with
  | none => cases h
  | some none => cases h
  | some (some l) => rfl

theorem levelled_raise (curve : List (Nat × Int)) : (e.raise curve n).levelled = e.levelled := by
  obtain ⟨id, level⟩ := e
  match level with
  | none => rfl
  | some none => rfl
  | some (some l) => rfl

theorem min_cap (x : Int) (a b : Nat) :
    min (min (x + a) maxXp + b) maxXp = min (x + (a + b : Nat)) maxXp := by
  omega

theorem raise_raise (curve : List (Nat × Int)) (a b : Nat) (e : Entity) :
    (e.raise curve a).raise curve b = e.raise curve (a + b) := by
  obtain ⟨id, level⟩ := e
  match level with
  | none => rfl
  | some none => rfl
  | some (some ⟨xp, total, unspent⟩) =>
    simp only [Entity.raise, Option.map_some, Level.raise, Option.getD_some, min_cap, add_assoc,
      sub_add_sub_cancel']

/-- A grant of `a` and one of `b` after it are in step, and with a grant of both, exactly where the
character has a level to write, and each of the three is even if it has intel. -/
theorem xp_in_step_iff {a b : Nat} {g₁ g₂ g₃ : Game} (hone : g.characters account = [e])
    (hxp : e.xp ≤ maxXp) (ha : g.charXpSql account a = some g₁)
    (hb : g₁.charXpSql account b = some g₂) (hab : g.charXpSql account (a + b) = some g₃) :
    (g.Credits g₁ account a ∧ g₁.Credits g₂ account b ∧ g.Credits g₃ account (a + b) ∧
        g₂.Alike g₃ account) ↔
      e.levelled ∧ (g.HasIntel account e → Even g.curve e.xp a ∧
        Even g.curve (min (e.xp + a) maxXp) b ∧ Even g.curve e.xp (a + b)) := by
  rw [xp_credits_iff hone hxp ha, xp_credits_iff hone hxp hab]
  obtain rfl := Game.charXpSql_eq ha
  obtain rfl := Game.charXpSql_eq hab
  have hone₁ := Game.characters_charXp (n := a) hone
  constructor
  · rintro ⟨⟨hlevel, heven⟩, hcredits, ⟨-, heven'⟩, -⟩
    have hpost := xp_raise (n := a) g.curve hlevel
    have hxp₁ : (e.raise g.curve a).xp ≤ maxXp := hpost ▸ min_le_right ..
    obtain ⟨-, hafter⟩ := (xp_credits_iff hone₁ hxp₁ hb).mp hcredits
    rw [hpost, Game.hasIntel_charXp hone] at hafter
    exact ⟨hlevel, fun hi => ⟨heven hi, hafter hi, heven' hi⟩⟩
  · rintro ⟨hlevel, heven⟩
    have hpost := xp_raise (n := a) g.curve hlevel
    have hxp₁ : (e.raise g.curve a).xp ≤ maxXp := hpost ▸ min_le_right ..
    refine ⟨⟨hlevel, fun hi => (heven hi).1⟩, (xp_credits_iff hone₁ hxp₁ hb).mpr ⟨?_, ?_⟩,
      ⟨hlevel, fun hi => (heven hi).2.2⟩, ?_⟩
    · rw [levelled_raise]
      exact hlevel
    · rw [hpost, Game.hasIntel_charXp hone]
      exact fun hi => (heven hi).2.1
    · obtain rfl := Game.charXpSql_eq hb
      have hone₂ := Game.characters_charXp (n := b) hone₁
      refine ⟨?_, fun e' he' pawn hpawn hchar => ?_⟩
      · rw [hone₂, Game.characters_charXp hone]
        exact congrArg (fun x => [x]) (raise_raise g.curve a b e)
      · rw [hone₂] at he'
        obtain rfl := List.mem_singleton.mp he'
        rw [Game.intel_charXp hone₁ hpawn hchar, Game.intel_charXp hone hpawn hchar,
          Game.intel_charXp hone hpawn hchar, Option.map_map]
        refine Option.map_congr (fun i hi => ?_)
        have hsome : g.intel pawn ≠ none := hi ▸ Option.some_ne_none i
        obtain ⟨ha, hb, hboth⟩ := heven ⟨pawn, hpawn, hchar, hsome⟩
        have hlevel₁ : (e.raise g.curve a).levelled = true := (levelled_raise g.curve).trans hlevel
        have hsum := (intelDelta_raise_iff g.curve hlevel hxp).mpr hboth
        have hfirst := (intelDelta_raise_iff g.curve hlevel hxp).mpr ha
        have hthen := (intelDelta_raise_iff g.curve hlevel₁ hxp₁).mpr (hpost ▸ hb)
        rw [hpost, min_cap] at hthen
        show i + _ + _ = i + _
        rw [hsum, hfirst, add_assoc]
        refine congrArg (i + ·) ((congrArg (_ + ·) hthen).trans ?_)
        exact sub_add_sub_cancel' ..

def withCharacter (xp : Int) : Game :=
  { twoSlots with
    entities := ⟨[⟨31, some (some ⟨some xp, some 4, some 2⟩)⟩], List.nodup_singleton _⟩
    actors := ⟨[⟨11, some (some 100)⟩], List.nodup_singleton _⟩
    curve := [(0, 0), (1, 40), (2, 215), (200, 344440)] }

theorem xp_in_step_of_two : ∃ g₁ g₂ g₃ : Game,
    (withCharacter 20).charXpSql 7 30 = some g₁ ∧ g₁.charXpSql 7 200 = some g₂ ∧
      (withCharacter 20).charXpSql 7 230 = some g₃ ∧
      (withCharacter 20).Credits g₁ 7 30 ∧ g₁.Credits g₂ 7 200 ∧
      (withCharacter 20).Credits g₃ 7 230 ∧ g₂.Alike g₃ 7 := by
  refine ⟨_, _, _, rfl, rfl, rfl, ?_⟩
  refine (xp_in_step_iff (e := ⟨31, some (some ⟨some 20, some 4, some 2⟩)⟩) rfl (by decide) rfl rfl
    rfl).mpr ⟨rfl, fun _ => ⟨Or.inl (by decide), Or.inl (by decide), Or.inl (by decide)⟩⟩

/-- At the cap a grant gives no XP and no level, and the intel of every level. -/
theorem intel_at_the_cap : ¬ ∀ (g g' : Game) (account n : Nat) (e : Entity),
    g.characters account = [e] → e.xp ≤ maxXp → g.charXpSql account n = some g' →
      g.Credits g' account n := by
  intro h
  have hcredits := h (withCharacter 344440) _ 7 344440
    ⟨31, some (some ⟨some 344440, some 4, some 2⟩)⟩ rfl (by decide) rfl
  have heven := ((xp_credits_iff rfl (by decide) rfl).mp hcredits).2
    ⟨11, by decide, by decide, by decide⟩
  exact absurd heven (by unfold Even; decide)

end LastSietch.Grants
