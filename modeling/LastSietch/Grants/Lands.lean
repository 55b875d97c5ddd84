import LastSietch.Grants.Bodies

/-!
# Where items, Solari and rewards land

A grant is for the character that `RESOLVE_TARGET_SQL` picks, and its SQL joins by the account. For
each builder it is said what the grant would leave if it were made once and for that character, and
what the slots of the account have to be for it to leave that: `items_iff`, `solari_iff` and
`rewards_iff`.
-/

namespace LastSietch.Grants

open DuneGrant

/-! ## Items -/

structure Game.IsBackpack (g : Game) (pawn : Nat) (inv : Inventory) : Prop where
  mem : inv ∈ g.inventories
  actor : inv.actorId = some pawn
  main : inv.inventoryType = some 0

section Items

variable {g g' : Game} {items : Items} {account pawn amount quantity quality : Nat}
  {templateId : String} {stats : Fields} {invs : List Inventory} {inv inv' : Inventory} {b : Backend}

theorem Game.mem_backpacks :
    inv ∈ g.backpacks account ↔ ∃ pawn ∈ g.pawnsOf account, g.IsBackpack pawn inv := by
  simp only [Game.backpacks, List.mem_flatMap, List.mem_filter, decide_eq_true_eq]
  constructor
  · rintro ⟨pawn, hpawn, hmem, hactor, hmain⟩
    exact ⟨pawn, hpawn, hmem, hactor, hmain⟩
  · rintro ⟨pawn, hpawn, hmem, hactor, hmain⟩
    exact ⟨pawn, hpawn, hmem, hactor, hmain⟩

theorem Game.eq_of_backpack_id (hinv : inv ∈ g.backpacks account) (hinv' : g.IsBackpack pawn inv')
    (hid : inv.id = inv'.id) : inv = inv' := by
  obtain ⟨_, -, h⟩ := Game.mem_backpacks.mp hinv
  exact Table.eq_of_key_eq h.mem hinv'.mem hid

theorem Items.next_insertInto : (items.insertInto templateId quantity stats quality invs).next =
    items.next + invs.length := by
  have hfold : ∀ rows : Items, (invs.foldl (fun rows inv =>
      rows.insert (newItem items templateId quantity stats quality inv)) rows).next =
        rows.next + invs.length := by
    induction invs with
    | nil => exact fun _ => rfl
    | cons inv invs ih =>
      intro rows
      rw [List.foldl_cons, ih, List.length_cons]
      show rows.next + 1 + invs.length = rows.next + (invs.length + 1)
      omega
  exact hfold items

def Game.ItemLands (g g' : Game) (pawn : Nat) (templateId : String) (quantity quality : Nat) : Prop :=
  ∃ inv, g.IsBackpack pawn inv ∧ ∃ stats, g' = { g with
    items := g.items.insert (newItem g.items templateId quantity stats quality inv) }

theorem items_iff (h : g.itemSql b account templateId quantity quality = some g') :
    g.ItemLands g' pawn templateId quantity quality ↔
      ∃ inv, g.backpacks account = [inv] ∧ inv.actorId = some pawn := by
  unfold Game.itemSql at h
  split at h
  · cases h
  · case h_2 inv rest hbackpacks =>
    split at h
    · cases h
    · split at h
      · cases h
      · obtain ⟨stats, -, rfl⟩ := Option.map_eq_some_iff.mp h
        rw [hbackpacks]
        have hinv : inv ∈ g.backpacks account := hbackpacks ▸ List.mem_cons_self ..
        constructor
        · rintro ⟨inv', hinv', stats', heq⟩
          have hitems := congrArg Game.items heq
          have hnext := congrArg Serial.next hitems
          have hrest : rest = [] := by
            have hcount : g.items.next + (inv :: rest).length = g.items.next + 1 :=
              Items.next_insertInto.symm.trans hnext
            rw [List.length_cons] at hcount
            exact List.eq_nil_of_length_eq_zero (by omega)
          subst hrest
          have hrows := congrArg Serial.rows hitems
          have hnew := (List.cons.inj hrows).1
          have hid : inv.id = inv'.id := Option.some.inj (congrArg Item.inventoryId hnew)
          exact ⟨inv, rfl, (Game.eq_of_backpack_id hinv hinv' hid) ▸ hinv'.actor⟩
        · rintro ⟨inv', hone, hactor⟩
          obtain ⟨rfl, rfl⟩ := List.cons.inj hone
          obtain ⟨_, -, hmem, -, hmain⟩ := Game.mem_backpacks.mp hinv
          exact ⟨inv, ⟨hmem, hactor, hmain⟩, stats, rfl⟩

/-! ## Solari -/

variable {it : Item}

theorem Items.firstCoin_mem (h : items.firstCoin inv = some it) :
    it ∈ items ∧ it.inventoryId = some inv.id := by
  obtain ⟨hmem, hin⟩ := List.mem_filter.mp (pick_mem h)
  exact ⟨hmem, (of_decide_eq_true hin).1⟩

theorem Items.firstCoin_eq_none : items.firstCoin inv = none ↔ items.coins inv = [] := pick_eq_none

theorem Items.mem_addStacks {p : Item → Bool} : it ∈ items.addStacks amount p ↔
    ∃ it₀ ∈ items, it = if p it₀ then it₀.addStack amount else it₀ :=
  @Serial.mem_update _ _ items p (Item.addStack amount) (fun _ => rfl) it

theorem Items.addStacks_eq_self {p : Item → Bool} (h : ∀ it ∈ items, p it = false) :
    items.addStacks amount p = items := by
  unfold Items.addStacks
  exact Serial.update_eq_self h

theorem Items.coins_addToCoins :
    (items.addToCoins amount invs).coins inv = [] ↔ items.coins inv = [] := by
  simp only [Items.coins, List.filter_eq_nil_iff]
  constructor
  · intro h it hit
    have hmem : (if ∃ inv ∈ invs, items.firstCoin inv = some it then it.addStack amount else it) ∈
        (items.addToCoins amount invs).rows :=
      Items.mem_addStacks.mpr ⟨it, hit, by simp⟩
    have hnot := h _ hmem
    split at hnot
    · exact hnot
    · exact hnot
  · intro h it hit
    obtain ⟨it₀, hit₀, rfl⟩ := Items.mem_addStacks.mp hit
    have hnot := h it₀ hit₀
    split
    · exact hnot
    · exact hnot

theorem Items.addStack_ne (hamount : 0 < amount) (it : Item) : it.addStack amount ≠ it := by
  intro heq
  have hstack : it.stackSize + amount = it.stackSize := congrArg Item.stackSize heq
  omega

def Game.SolariLands (g g' : Game) (pawn amount : Nat) : Prop :=
  ∃ inv, g.IsBackpack pawn inv ∧
    ((∃ it, g.items.firstCoin inv = some it ∧ g' = { g with
        items := g.items.addStacks amount (fun r => r.id = it.id) }) ∨
      g.items.coins inv = [] ∧ g' = { g with
        items := g.items.insert (newItem g.items "SolarisCoin" amount coinStats 0 inv) })

def Game.OneForSolari (g : Game) (account pawn : Nat) : Prop :=
  ∃ inv, inv.actorId = some pawn ∧ (∀ inv' ∈ g.backpacks account, inv' = inv) ∧
    (g.items.coins inv = [] → g.backpacks account = [inv])

/-- What `build_solari_grant` makes of the items. -/
def Items.addSolari (items : Items) (amount : Nat) (invs : List Inventory) : Items :=
  (items.addToCoins amount invs).insertInto "SolarisCoin" amount coinStats 0
    (invs.filter fun inv => items.coins inv = [])

theorem Game.solariSql_eq (h : g.solariSql account amount = some g') :
    g.backpacks account ≠ [] ∧
      g' = { g with items := g.items.addSolari amount (g.backpacks account) } := by
  unfold Game.solariSql at h
  split at h
  · cases h
  · case h_2 first rest hbackpacks =>
    split at h
    · cases h
    · cases h
      rw [hbackpacks]
      refine ⟨List.cons_ne_nil _ _, ?_⟩
      unfold Items.addSolari
      congr 2
      refine List.filter_congr (fun inv _ => ?_)
      rw [decide_eq_decide]
      exact Items.coins_addToCoins

theorem Items.next_addSolari (items : Items) (amount : Nat) (invs : List Inventory) :
    (items.addSolari amount invs).next =
      items.next + (invs.filter fun inv => items.coins inv = []).length :=
  Items.next_insertInto

theorem eq_of_grown (hamount : 0 < amount) (hinvs : ∀ inv ∈ invs, inv ∈ g.backpacks account)
    (hinv : g.IsBackpack pawn inv) (hit : g.items.firstCoin inv = some it)
    (heq : g.items.addSolari amount invs = g.items.addStacks amount (fun r => r.id = it.id)) :
    ∀ inv' ∈ invs, inv' = inv := by
  have hnext : g.items.next + (invs.filter (fun inv => g.items.coins inv = [])).length =
      g.items.next := by
    rw [← Items.next_addSolari _ amount, heq]
    rfl
  have hnil : invs.filter (fun inv => g.items.coins inv = []) = [] :=
    List.eq_nil_of_length_eq_zero (by omega)
  unfold Items.addSolari at heq
  rw [hnil] at heq
  have hsame : ∀ r ∈ g.items.rows,
      (if decide (∃ inv ∈ invs, g.items.firstCoin inv = some r) then r.addStack amount else r) =
        if decide (r.id = it.id) then r.addStack amount else r :=
    List.map_inj_left.mp (congrArg Serial.rows heq)
  intro inv' hinv'
  have hcoins : g.items.firstCoin inv' ≠ none := by
    rw [Ne, Items.firstCoin_eq_none]
    simpa using List.filter_eq_nil_iff.mp hnil inv' hinv'
  obtain ⟨it', hit'⟩ := Option.ne_none_iff_exists'.mp hcoins
  obtain ⟨hmem', hin'⟩ := Items.firstCoin_mem hit'
  have hboth := hsame it' hmem'
  rw [if_pos (decide_eq_true ⟨inv', hinv', hit'⟩)] at hboth
  by_cases hid : it'.id = it.id
  · obtain ⟨hmem, hin⟩ := Items.firstCoin_mem hit
    rw [Serial.eq_of_id_eq hmem' hmem hid, hin] at hin'
    exact Game.eq_of_backpack_id (hinvs inv' hinv') hinv (Option.some.inj hin').symm
  · rw [if_neg (by simpa using hid)] at hboth
    exact absurd hboth (Items.addStack_ne hamount it')

theorem eq_of_new (hamount : 0 < amount) (hinvs : ∀ inv ∈ invs, inv ∈ g.backpacks account)
    (hinv : g.IsBackpack pawn inv)
    (heq : g.items.addSolari amount invs =
      g.items.insert (newItem g.items "SolarisCoin" amount coinStats 0 inv)) : invs = [inv] := by
  have hnext : g.items.next + (invs.filter (fun inv => g.items.coins inv = [])).length =
      g.items.next + 1 := by
    rw [← Items.next_addSolari _ amount, heq]
    rfl
  have hlength : (invs.filter (fun inv => g.items.coins inv = [])).length = 1 := by omega
  obtain ⟨inv', hone⟩ := List.length_eq_one_iff.mp hlength
  unfold Items.addSolari at heq
  rw [hone] at heq
  obtain ⟨hnew, hrows⟩ := List.cons.inj (congrArg Serial.rows heq)
  have hmem' : inv' ∈ invs := List.mem_of_mem_filter (hone ▸ List.mem_singleton_self inv')
  have hid : inv'.id = inv.id := Option.some.inj (congrArg Item.inventoryId hnew)
  have hsame : inv' = inv := Game.eq_of_backpack_id (hinvs inv' hmem') hinv hid
  have hno : ∀ inv'' ∈ invs, g.items.coins inv'' = [] := by
    intro inv'' hinv''
    by_contra hcoins
    obtain ⟨it, hit⟩ := Option.ne_none_iff_exists'.mp (mt Items.firstCoin_eq_none.mp hcoins)
    have hgrown := List.map_inj_left.mp (hrows.trans (List.map_id _).symm) it
      (Items.firstCoin_mem hit).1
    rw [if_pos (decide_eq_true ⟨inv'', hinv'', hit⟩)] at hgrown
    exact Items.addStack_ne hamount it hgrown
  rw [← hsame, ← hone]
  exact (List.filter_eq_self.mpr (fun inv hinv => decide_eq_true (hno inv hinv))).symm

theorem addToCoins_one (hall : ∀ inv' ∈ invs, inv' = inv) (hinv : inv ∈ invs)
    (hit : items.firstCoin inv = some it) : items.addToCoins amount invs =
      items.addStacks amount (fun r => r.id = it.id) := by
  refine Serial.ext_rows (List.map_congr_left (fun r hr => ?_)) rfl
  congr 1
  rw [decide_eq_true_eq, decide_eq_true_eq, eq_iff_iff]
  constructor
  · rintro ⟨inv', hinv', hr⟩
    rw [hall inv' hinv', hit] at hr
    rw [Option.some.inj hr]
  · intro hid
    rw [Serial.eq_of_id_eq hr (Items.firstCoin_mem hit).1 hid]
    exact ⟨inv, hinv, hit⟩

theorem solari_iff (hamount : 0 < amount) (h : g.solariSql account amount = some g') :
    g.SolariLands g' pawn amount ↔ g.OneForSolari account pawn := by
  obtain ⟨hne, rfl⟩ := Game.solariSql_eq h
  constructor
  · rintro ⟨inv, hinv, ⟨it, hit, heq⟩ | ⟨hnone, heq⟩⟩
    · refine ⟨inv, hinv.actor, ?_, fun hnone => ?_⟩
      · exact eq_of_grown hamount (fun _ h => h) hinv hit (congrArg Game.items heq)
      · rw [Items.firstCoin_eq_none.mpr hnone] at hit
        cases hit
    · have hone := eq_of_new hamount (fun _ h => h) hinv (congrArg Game.items heq)
      refine ⟨inv, hinv.actor, ?_, fun _ => hone⟩
      rw [hone]
      exact fun inv' hinv' => List.mem_singleton.mp hinv'
  · rintro ⟨inv, hactor, hall, honce⟩
    have hinv : inv ∈ g.backpacks account := by
      obtain ⟨first, hfirst⟩ := List.exists_mem_of_ne_nil _ hne
      exact hall first hfirst ▸ hfirst
    obtain ⟨_, -, hmem, -, hmain⟩ := Game.mem_backpacks.mp hinv
    refine ⟨inv, ⟨hmem, hactor, hmain⟩, ?_⟩
    unfold Items.addSolari
    by_cases hcoins : g.items.coins inv = []
    · refine Or.inr ⟨hcoins, ?_⟩
      have hupdate : g.items.addToCoins amount [inv] = g.items := by
        refine Items.addStacks_eq_self (fun it _ => decide_eq_false ?_)
        rintro ⟨inv', hinv', hit⟩
        rw [List.mem_singleton.mp hinv', Items.firstCoin_eq_none.mpr hcoins] at hit
        cases hit
      rw [honce hcoins, hupdate, List.filter_cons_of_pos (by simpa using hcoins), List.filter_nil]
      rfl
    · obtain ⟨it, hit⟩ := Option.ne_none_iff_exists'.mp (mt Items.firstCoin_eq_none.mp hcoins)
      have hnil : (g.backpacks account).filter (fun inv => g.items.coins inv = []) = [] := by
        refine List.filter_eq_nil_iff.mpr (fun inv' hinv' => ?_)
        rw [hall inv' hinv']
        simpa using hcoins
      refine Or.inl ⟨it, hit, ?_⟩
      rw [hnil, ← addToCoins_one hall hinv hit]
      rfl

end Items

/-! ## Rewards -/

section Rewards

variable {g g' : Game} {account ctrl amount : Nat} {houseName templateId : String} {b : Backend}

def Game.RewardLands (g g' : Game) (ctrl : Nat) (houseName templateId : String) (amount : Nat) : Prop :=
  ∃ rewards, (g.rewards.filter fun r => r.key ≠ (ctrl, houseName, templateId)).insert?
      ⟨ctrl, houseName, amount, templateId⟩ = some rewards ∧ g' = { g with rewards }

theorem length_insertRewards {es : List SlotRow} {rewards rewards' : Table Reward Reward.key}
    (h : insertRewards houseName amount templateId es rewards = some rewards') :
    rewards'.rows.length = rewards.rows.length + es.length := by
  induction es generalizing rewards with
  | nil =>
    cases h
    rfl
  | cons e es ih =>
    obtain ⟨ctrl, -, h⟩ := Option.bind_eq_some_iff.mp h
    obtain ⟨rewards₁, hins, h⟩ := Option.bind_eq_some_iff.mp h
    rw [ih h, Table.rows_insert? hins, List.length_cons, List.length_cons]
    omega

theorem rewards_iff (hctrl : ∃ e ∈ g.slotsOf account, e.playerControllerId = some ctrl)
    (h : g.itemLiveSql b account houseName templateId amount = some g') :
    g.RewardLands g' ctrl houseName templateId amount ↔ ∃ e, g.slotsOf account = [e] := by
  obtain ⟨rewards₁, hclear, h⟩ := Option.bind_eq_some_iff.mp h
  obtain ⟨rewards, hins, rfl⟩ := Option.map_eq_some_iff.mp h
  obtain ⟨e, he, hctrl⟩ := hctrl
  constructor
  · rintro ⟨rewards', hins', heq⟩
    have hsame : rewards = rewards' := congrArg Game.rewards heq
    unfold Game.clearReward at hclear
    split at hclear
    · case h_1 hnone =>
      rw [hnone] at he
      exact absurd he List.not_mem_nil
    · case h_2 e' hone => exact ⟨e', hone⟩
    · split at hclear
      · case h_3 _ hmany hlazy =>
        -- the table was empty, so that it has a row for each slot
        cases hclear
        have hlength := length_insertRewards hins
        rw [hsame, Table.rows_insert? hins', hlazy.2] at hlength
        simp only [Table.filter, hlazy.2, List.filter_nil, List.length_cons, List.length_nil] at hlength
        exact List.length_eq_one_iff.mp (by omega)
      · cases hclear
  · rintro ⟨e', hone⟩
    rw [hone] at he
    obtain rfl := List.mem_singleton.mp he
    unfold Game.clearReward at hclear
    rw [hone] at hclear hins
    cases hclear
    simp only [insertRewards, hctrl, Option.bind_some, Option.any_some, Option.bind_eq_some_iff] at hins
    obtain ⟨rewards₂, hins, hrest⟩ := hins
    cases hrest
    refine ⟨rewards, ?_, rfl⟩
    rw [← hins]
    congr 2
    funext r
    simp

end Rewards

end LastSietch.Grants
