import LastSietch.Relink.Plan
import LastSietch.Identity.Removals

/-!
# Runs of the relink

What the items of a plan leave of the links, whichever of them go through.
-/

namespace LastSietch.Relink

open Identity (Link Links Stamp RelinkItem)
open Runs (exec)

/-! ## One item -/

section Grant

variable {links : Links} {item : RelinkItem} {s l : Link}

def IsGrant (item : RelinkItem) (s : Link) : Prop :=
  s.discordId = item.discordId ∧ s.accountId = item.new ∧ s.revokedAt = none

/-- A row that stands for `l` in a later table. -/
def SameKey (l s : Link) : Prop :=
  s.id = l.id ∧ s.discordId = l.discordId ∧ s.accountId = l.accountId

theorem mem_grant (hs : s ∈ item.grant links) : s ∈ links ∨ IsGrant item s := by
  unfold RelinkItem.grant at hs
  split at hs
  · rename_i links' hinsert
    rcases (SerialTable.mem_insert? hinsert).mp hs with rfl | hs
    · exact Or.inr ⟨rfl, rfl, rfl⟩
    · exact Or.inl hs
  · obtain ⟨r, hr, rfl⟩ := SerialTable.mem_update.mp hs
    by_cases hkey : r.discordId = item.discordId ∧ r.accountId = item.new
    · rw [if_pos (decide_eq_true hkey)]
      exact Or.inr ⟨hkey.1, hkey.2, rfl⟩
    · rw [if_neg (fun h => hkey (of_decide_eq_true h))]
      exact Or.inl hr

theorem grant_keeps (item : RelinkItem) (hl : l ∈ links) : ∃ s ∈ item.grant links, SameKey l s ∧
    (l.revokedAt = none → s.revokedAt = none) ∧
    (¬ (l.discordId = item.discordId ∧ l.accountId = item.new) → s = l) := by
  unfold RelinkItem.grant
  split
  · rename_i links' hinsert
    exact ⟨l, (SerialTable.mem_insert? hinsert).mpr (Or.inr hl), ⟨rfl, rfl, rfl⟩, fun h => h,
      fun _ => rfl⟩
  · refine ⟨_, SerialTable.mem_update.mpr ⟨l, hl, rfl⟩, ?_, fun hactive => ?_, fun hkey => ?_⟩
    · split <;> exact ⟨rfl, rfl, rfl⟩
    · split
      · rfl
      · exact hactive
    · exact if_neg (fun h => hkey (of_decide_eq_true h))

theorem grant_held (links : Links) (item : RelinkItem) :
    ∃ s ∈ item.grant links, IsGrant item s := by
  unfold RelinkItem.grant
  split
  · rename_i links' hinsert
    exact ⟨_, (SerialTable.mem_insert? hinsert).mpr (Or.inl rfl), rfl, rfl, rfl⟩
  · rename_i hnone
    obtain ⟨r, hr, hkey⟩ := SerialTable.insert?_eq_none.mp hnone
    have hkey : r.discordId = item.discordId ∧ r.accountId = item.new := Prod.mk.inj hkey
    refine ⟨_, SerialTable.mem_update.mpr ⟨r, hr, rfl⟩, ?_⟩
    rw [if_pos (decide_eq_true hkey)]
    exact ⟨hkey.1, hkey.2, rfl⟩

theorem staleLink_iff : item.staleLink s = true ↔
    s.id = item.linkId ∧ s.accountId = item.old ∧ s.revokedAt = none :=
  decide_eq_true_iff

def granted (item : RelinkItem) (links : Links) : Links :=
  if item.move then item.grant links else links

theorem mem_granted (hs : s ∈ granted item links) :
    s ∈ links ∨ item.move = true ∧ IsGrant item s := by
  unfold granted at hs
  split at hs
  · rename_i hmove
    exact (mem_grant hs).imp_right (fun h => ⟨hmove, h⟩)
  · exact Or.inl hs

theorem granted_keeps (item : RelinkItem) (hl : l ∈ links) : ∃ s ∈ granted item links, SameKey l s ∧
    (l.revokedAt = none → s.revokedAt = none) ∧
    (¬ (item.move = true ∧ l.discordId = item.discordId ∧ l.accountId = item.new) → s = l) := by
  unfold granted
  split
  · rename_i hmove
    obtain ⟨s, hs, hkey, hactive, hsame⟩ := grant_keeps item hl
    exact ⟨s, hs, hkey, hactive, fun hother => hsame (fun h => hother ⟨hmove, h⟩)⟩
  · exact ⟨l, hl, ⟨rfl, rfl, rfl⟩, fun h => h, fun _ => rfl⟩

variable {stamp : Stamp}

theorem mem_links : s ∈ item.links stamp links ↔ ∃ r ∈ granted item links,
    s = if item.staleLink r then { r with revokedAt := some stamp } else r := by
  simp only [RelinkItem.links, granted, SerialTable.mem_update]

theorem mem_item_links (hs : s ∈ item.links stamp links) (hactive : s.revokedAt = none) :
    (s ∈ links ∨ item.move = true ∧ IsGrant item s) ∧ item.staleLink s = false := by
  obtain ⟨r, hr, rfl⟩ := mem_links.mp hs
  by_cases hstale : item.staleLink r = true
  · rw [if_pos hstale] at hactive
    cases hactive
  · rw [if_neg hstale]
    exact ⟨mem_granted hr, Bool.eq_false_iff.mpr hstale⟩

theorem granted_mem_links (hs : s ∈ granted item links) (hfresh : item.staleLink s = false) :
    s ∈ item.links stamp links :=
  mem_links.mpr ⟨s, hs, by rw [hfresh]; rfl⟩

theorem item_links_keeps (item : RelinkItem) (stamp : Stamp) (hl : l ∈ links) :
    ∃ s ∈ item.links stamp links, SameKey l s := by
  obtain ⟨s, hs, hkey, -⟩ := granted_keeps item hl
  refine ⟨_, mem_links.mpr ⟨s, hs, rfl⟩, ?_⟩
  split
  · exact hkey
  · exact hkey

end Grant

/-! ## Some of the items -/

/-- The links after the items `done` have gone through, in the order of the run. -/
structure Followed (start links : Links) (done : List RelinkItem) : Prop where
  stays : ∀ l ∈ start, ∃ s ∈ links, SameKey l s
  active : ∀ s ∈ links, s.revokedAt = none →
    (s ∈ start ∧ ∀ j ∈ done, s.id ≠ j.linkId) ∨ ∃ m ∈ done, m.move = true ∧ IsGrant m s
  granted : ∀ m ∈ done, m.move = true → Held links m.discordId m.new
  kept : ∀ l ∈ start, l.revokedAt = none → (∀ j ∈ done, l.id ≠ j.linkId) → l ∈ links

namespace Followed

variable {start links : Links} {pairs : List Pair} {done : List RelinkItem} {item m : RelinkItem}

theorem refl (links : Links) : Followed links links [] where
  stays l hl := ⟨l, hl, rfl, rfl, rfl⟩
  active _ hs _ := Or.inl ⟨hs, fun _ hj => absurd hj List.not_mem_nil⟩
  granted _ hm := absurd hm List.not_mem_nil
  kept _ hl _ _ := hl

/-- What a move grants was not held at the start, so that it is not an old link of the plan. -/
theorem not_old (h : Followed start links done) (hitem : PlannedIn start pairs item)
    (hm : PlannedIn start pairs m) (hmove : m.move = true) {s : Link}
    (hs : s ∈ Relink.granted item links) (hgrant : IsGrant m s) : item.staleLink s = false := by
  refine Bool.eq_false_iff.mpr (fun hstale => ?_)
  obtain ⟨hid, -, -⟩ := staleLink_iff.mp hstale
  obtain ⟨l, hl, hactive, hlid, hdiscord, haccount⟩ := hitem.link
  obtain ⟨r, hr, hrid, hrdiscord, hraccount⟩ := h.stays l hl
  obtain ⟨q, hq, ⟨hqid, hqdiscord, hqaccount⟩, -⟩ := granted_keeps item hr
  have hsame : s = q := by
    refine SerialTable.eq_of_id_eq hs hq (hid.trans ?_)
    exact hlid.symm.trans (hrid.symm.trans hqid.symm)
  refine hm.anew hmove ⟨l, hl, ?_, ?_, hactive⟩
  · rw [← hgrant.1, hsame, hqdiscord, hrdiscord]
  · rw [← hgrant.2.1, hsame, hqaccount, hraccount]

theorem step (h : Followed start links done) (hdone : ∀ m ∈ done, PlannedIn start pairs m)
    (hitem : PlannedIn start pairs item) (stamp : Stamp) :
    Followed start (item.links stamp links) (item :: done) where
  stays := by
    intro l hl
    obtain ⟨r, hr, hrid, hrdiscord, hraccount⟩ := h.stays l hl
    obtain ⟨s, hs, hsid, hsdiscord, hsaccount⟩ := item_links_keeps item stamp hr
    exact ⟨s, hs, hsid.trans hrid, hsdiscord.trans hrdiscord, hsaccount.trans hraccount⟩
  active := by
    intro s hs hactive
    obtain ⟨hs | ⟨hmove, hgrant⟩, hstale⟩ := mem_item_links hs hactive
    · rcases h.active s hs hactive with ⟨hstart, hother⟩ | ⟨m, hm, hgrant⟩
      · refine Or.inl ⟨hstart, List.forall_mem_cons.mpr ⟨fun hid => ?_, hother⟩⟩
        obtain ⟨l, hl, -, hlid, -, haccount⟩ := hitem.link
        have hsame : s = l := SerialTable.eq_of_id_eq hstart hl (hid.trans hlid.symm)
        rw [staleLink_iff.mpr ⟨hid, hsame ▸ haccount, hactive⟩] at hstale
        cases hstale
      · exact Or.inr ⟨m, List.mem_cons_of_mem _ hm, hgrant⟩
    · exact Or.inr ⟨item, List.mem_cons_self .., hmove, hgrant⟩
  granted := by
    intro m hm hmove
    rcases List.mem_cons.mp hm with rfl | hm
    · obtain ⟨s, hs, hgrant⟩ := grant_held links m
      have hs : s ∈ Relink.granted m links := by
        unfold Relink.granted
        rw [if_pos hmove]
        exact hs
      exact ⟨s, granted_mem_links hs (h.not_old hitem hitem hmove hs hgrant), hgrant⟩
    · obtain ⟨r, hr, hrgrant⟩ := h.granted m hm hmove
      obtain ⟨s, hs, ⟨-, hdiscord, haccount⟩, hactive, -⟩ := granted_keeps item hr
      have hgrant : IsGrant m s :=
        ⟨hdiscord.trans hrgrant.1, haccount.trans hrgrant.2.1, hactive hrgrant.2.2⟩
      exact ⟨s, granted_mem_links hs (h.not_old hitem (hdone m hm) hmove hs hgrant), hgrant⟩
  kept := by
    intro l hl hactive hother
    obtain ⟨hitem', hother⟩ := List.forall_mem_cons.mp hother
    obtain ⟨s, hs, -, -, hsame⟩ := granted_keeps item (h.kept l hl hactive hother)
    have hsame : s = l := hsame (fun hkey =>
      hitem.anew hkey.1 ⟨l, hl, hkey.2.1, hkey.2.2, hactive⟩)
    refine granted_mem_links (hsame ▸ hs) (Bool.eq_false_iff.mpr (fun hstale => ?_))
    exact hitem' (staleLink_iff.mp hstale).1

end Followed

/-! ## A run -/

section Run

variable {pairs : List Pair} {e : RelinkItem → Setting} {start : Links}

theorem runItem_cases (apply : Bool) (e : RelinkItem → Setting) (item : PlanItem) (w : World) :
    (w.runItem apply e item).2 = w ∧ (w.runItem apply e item).1.result ≠ .applied ∨
      ∃ i w', item = .apply i ∧ w.applyItem (e i) i = .ok w' ∧ (w.runItem apply e item).2 = w' := by
  unfold World.runItem
  split
  · exact Or.inl ⟨rfl, by simp⟩
  · rename_i i
    split
    · split
      · rename_i w' h
        exact Or.inr ⟨i, w', rfl, h, rfl⟩
      · exact Or.inl ⟨rfl, by simp⟩
    · exact Or.inl ⟨rfl, by simp⟩

/-- Some of the items have gone through, and these are all of them when each outcome says so. -/
theorem runItems_followed (apply : Bool) (e : RelinkItem → Setting) {items : List PlanItem}
    (hitems : ∀ i, .apply i ∈ items → PlannedIn start pairs i) {w : World} {done : List RelinkItem}
    (hdone : ∀ m ∈ done, PlannedIn start pairs m) (h : Followed start w.base.links done) :
    ∃ more, (∀ i ∈ more, .apply i ∈ items) ∧
      Followed start (w.runItems apply e items).2.base.links (more ++ done) ∧
      ((∀ o ∈ (w.runItems apply e items).1, o.result = .applied) →
        ∀ item ∈ items, ∃ i ∈ more, item = .apply i) := by
  induction items generalizing w done with
  | nil => exact ⟨[], by simp, h, by simp⟩
  | cons item items ih =>
    have hrest : ∀ i, .apply i ∈ items → PlannedIn start pairs i :=
      fun i hi => hitems i (List.mem_cons_of_mem _ hi)
    rcases runItem_cases apply e item w with ⟨hw, hresult⟩ | ⟨i, w', rfl, hok, hw⟩
    · obtain ⟨more, hmore, hfollowed, -⟩ := ih hrest (w := (w.runItem apply e item).2) hdone
        (by rw [hw]; exact h)
      refine ⟨more, fun i hi => List.mem_cons_of_mem _ (hmore i hi), hfollowed, fun hall => ?_⟩
      exact absurd (hall _ (List.mem_cons_self ..)) hresult
    · have hplanned := hitems i (List.mem_cons_self ..)
      obtain ⟨base, hbase, rfl⟩ := World.applyItem_spec hok
      have hstep : Followed start (w.runItem apply e (.apply i)).2.base.links (i :: done) := by
        rw [hw]
        show Followed start base.links (i :: done)
        rw [(Base.applyItem_links hbase).1]
        exact h.step hdone hplanned _
      obtain ⟨more, hmore, hfollowed, hall⟩ := ih hrest
        (List.forall_mem_cons.mpr ⟨hplanned, hdone⟩) hstep
      refine ⟨more ++ [i], fun j hj => ?_, ?_, fun happlied => ?_⟩
      · rcases List.mem_append.mp hj with hj | hj
        · exact List.mem_cons_of_mem _ (hmore j hj)
        · rw [List.mem_singleton.mp hj]
          exact List.mem_cons_self ..
      · rw [List.append_assoc]
        exact hfollowed
      · refine List.forall_mem_cons.mpr ⟨⟨i, by simp, rfl⟩, fun j hj => ?_⟩
        obtain ⟨k, hk, rfl⟩ := hall (fun o ho => happlied o (List.mem_cons_of_mem _ ho)) j hj
        exact ⟨k, List.mem_append_left _ hk, rfl⟩

theorem runItems_todo (apply : Bool) (e : RelinkItem → Setting) (items : List PlanItem)
    (w : World) : (w.runItems apply e items).2 =
      (w.runItems apply e ((todo items).map .apply)).2 := by
  induction items generalizing w with
  | nil => rfl
  | cons item items ih =>
    cases item with
    | refuse l new why => exact ih w
    | apply i => exact ih (w.runItem apply e (.apply i)).2

theorem runItems_idle (e : RelinkItem → Setting) (items : List PlanItem) (w : World) :
    (w.runItems false e items).2 = w := by
  induction items generalizing w with
  | nil => rfl
  | cons item items ih =>
    cases item with
    | refuse l new why => exact ih w
    | apply i => exact ih w

theorem run_followed (pairs : List Pair) (apply : Bool) (maxChanges : Int)
    (e : RelinkItem → Setting) (w : World) :
    ∃ done, (∀ i ∈ done, .apply i ∈ w.base.plan pairs) ∧
      Followed w.base.links (w.run pairs apply maxChanges e).2.base.links done ∧
      ((∀ o ∈ (w.run pairs apply maxChanges e).1.items, o.result = .applied) →
        ∀ item ∈ w.base.plan pairs, ∃ i ∈ done, item = .apply i) := by
  obtain ⟨done, hdone, hfollowed, hall⟩ := runItems_followed
    (apply && !(apply && decide (maxChanges < (todo (w.base.plan pairs)).length))) e
    (fun i hi => planned_of_plan hi) (fun _ hm => absurd hm List.not_mem_nil)
    (Followed.refl w.base.links)
  rw [List.append_nil] at hfollowed
  exact ⟨done, hdone, hfollowed, hall⟩

variable {w : World}

theorem mem_claims {items : List PlanItem} {a : Nat} {d : String} :
    (a, d) ∈ items.flatMap PlanItem.claim ↔
      ∃ i, .apply i ∈ items ∧ i.new = a ∧ i.discordId = d := by
  rw [List.mem_flatMap]
  constructor
  · rintro ⟨item, hitem, hclaim⟩
    cases item with
    | refuse => cases hclaim
    | apply i =>
      obtain ⟨hnew, hdiscord⟩ := Prod.mk.inj (List.mem_singleton.mp hclaim)
      exact ⟨i, hitem, hnew.symm, hdiscord.symm⟩
  · rintro ⟨i, hi, rfl, rfl⟩
    exact ⟨_, hi, List.mem_cons_self ..⟩

namespace Followed

variable {links : Links} {done : List RelinkItem}

theorem held (h : Followed start links done) {d : String} {a : Nat} (hheld : Held links d a) :
    Held start d a ∨ ∃ m ∈ done, m.discordId = d ∧ m.new = a := by
  obtain ⟨s, hs, rfl, rfl, hactive⟩ := hheld
  rcases h.active s hs hactive with ⟨hstart, -⟩ | ⟨m, hm, -, hgrant⟩
  · exact Or.inl ⟨s, hstart, rfl, rfl, hactive⟩
  · exact Or.inr ⟨m, hm, hgrant.1.symm, hgrant.2.1.symm⟩

theorem oneHolder {base : Base} (h : Followed base.links links done)
    (hdone : ∀ i ∈ done, .apply i ∈ base.plan pairs) (hone : OneHolder base.links) :
    OneHolder links := by
  have hclaims := claims_oneEach base pairs (activeLinks base.links)
    (holders_oneEach hone)
  have hmem : ∀ {a d}, Held links d a →
      (a, d) ∈ (base.plan pairs).flatMap PlanItem.claim ++ holders base.links := by
    intro a d hheld
    refine List.mem_append.mpr ?_
    rcases h.held hheld with hbefore | ⟨m, hm, hdiscord, hnew⟩
    · exact Or.inr (mem_holders.mpr hbefore)
    · exact Or.inl (mem_claims.mpr ⟨m, hdone m hm, hnew, hdiscord⟩)
  exact fun a d d' hd hd' => hclaims a d d' (hmem hd) (hmem hd')

theorem old_link (h : Followed start links done) (hdone : ∀ i ∈ done, PlannedIn start pairs i)
    {s : Link} (hs : s ∈ links) {j : RelinkItem} (hj : j ∈ done) (hid : s.id = j.linkId) :
    s.revokedAt ≠ none := by
  intro hactive
  rcases h.active s hs hactive with ⟨-, hother⟩ | ⟨m, hm, hmove, hgrant⟩
  · exact hother j hj hid
  · obtain ⟨l, hl, hlactive, hlid, -, -⟩ := (hdone j hj).link
    obtain ⟨r, hr, hrid, hrdiscord, hraccount⟩ := h.stays l hl
    have hsame : s = r := SerialTable.eq_of_id_eq hs hr (hid.trans (hlid.symm.trans hrid.symm))
    refine (hdone m hm).anew hmove ⟨l, hl, ?_, ?_, hlactive⟩
    · rw [← hgrant.1, hsame, hrdiscord]
    · rw [← hgrant.2.1, hsame, hraccount]

end Followed

/-- After all items were applied, what is planned next is for an account that a move was to. -/
theorem Followed.planned_again {base base' : Base} {done : List RelinkItem}
    (h : Followed base.links base'.links done)
    (hdone : ∀ i ∈ done, PlannedIn base.links pairs i)
    (hall : ∀ item ∈ base.plan pairs, ∃ i ∈ done, item = .apply i) {item : PlanItem}
    (hitem : item ∈ base'.plan pairs) : (∀ j ∈ base.plan pairs, item.linkId ≠ j.linkId) ∧
      ∃ m ∈ done, m.move = true ∧ item.old = m.new := by
  obtain ⟨l, hl, hactive, hid, hold, p, hp, hpair⟩ := mem_plan hitem
  constructor
  · intro j hj hsame
    obtain ⟨k, hk, rfl⟩ := hall j hj
    exact h.old_link hdone hl hk (hid.symm.trans hsame) hactive
  · rcases h.active l hl hactive with ⟨hstart, hother⟩ | ⟨m, hm, hmove, hgrant⟩
    · -- a link with a pair has had its item
      obtain ⟨j, hj, hjid⟩ := exists_planned base (holders base.links)
        (mem_activeLinks.mpr ⟨hstart, hactive⟩) hp hpair
      obtain ⟨k, hk, rfl⟩ := hall j hj
      exact absurd hjid.symm (hother k hk)
    · exact ⟨m, hm, hmove, hold.trans hgrant.2.1⟩

theorem Followed.plan_nil_iff {base base' : Base} {done : List RelinkItem}
    (h : Followed base.links base'.links done)
    (hdone : ∀ i ∈ done, PlannedIn base.links pairs i)
    (hall : ∀ item ∈ base.plan pairs, ∃ i ∈ done, item = .apply i) : base'.plan pairs = [] ↔
      ∀ m ∈ done, m.move = true → ∀ p ∈ pairs, p.old ≠ m.new := by
  constructor
  · intro hnil m hm hmove p hp hold
    obtain ⟨l, hl, -, haccount, hactive⟩ := h.granted m hm hmove
    exact plan_eq_nil.mp hnil l hl hactive p hp (hold.trans haccount.symm)
  · intro hnone
    refine List.eq_nil_iff_forall_not_mem.mpr (fun item hitem => ?_)
    obtain ⟨-, m, hm, hmove, hnew⟩ := h.planned_again hdone hall hitem
    obtain ⟨l, -, -, -, hold, p, hp, hpair⟩ := mem_plan hitem
    exact hnone m hm hmove p hp (hpair.trans (hold.symm.trans hnew))

/-- A run leaves each account with one holder, and gives an account only to who held an old account
that it is the one target of. It changes nothing over the cap or for a refused item. After all
items were applied the next plan has none for their links: it is for the accounts that the moves
were to, and empty exactly when none of these is an old account itself. -/
theorem relink_links (pairs : List Pair) (apply : Bool) (maxChanges : Int)
    (e : RelinkItem → Setting) {w : World} (hone : OneHolder w.base.links) :
    let items := w.base.plan pairs
    let r := w.run pairs apply maxChanges e
    OneHolder r.2.base.links ∧
    (∀ d a, Held r.2.base.links d a → Held w.base.links d a ∨
      ∃ old, Held w.base.links d old ∧ UniqueTarget pairs old a) ∧
    (maxChanges < (todo items).length → r.2 = w) ∧
    (r.2 = (w.runItems (apply && !r.1.capped) e ((todo items).map .apply)).2 ∧
      ∀ l new why, .refuse l new why ∈ items → l ∈ r.2.base.links) ∧
    ((∀ o ∈ r.1.items, o.result = .applied) →
      (∀ i ∈ r.2.base.plan pairs, (∀ j ∈ items, i.linkId ≠ j.linkId) ∧
        ∃ m, .apply m ∈ items ∧ m.move = true ∧ i.old = m.new) ∧
      (r.2.base.plan pairs = [] ↔
        ∀ m, .apply m ∈ items → m.move = true → ∀ p ∈ pairs, p.old ≠ m.new)) := by
  intro items r
  obtain ⟨done, hdone, hfollowed, hall⟩ := run_followed pairs apply maxChanges e w
  have hplanned : ∀ i ∈ done, PlannedIn w.base.links pairs i :=
    fun i hi => planned_of_plan (hdone i hi)
  refine ⟨hfollowed.oneHolder hdone hone, fun d a hheld => ?_, fun hcap => ?_,
    ⟨runItems_todo _ e _ w, fun l new why hrefused => ?_⟩,
    fun happlied => ⟨fun i hi => ?_, ?_⟩⟩
  · refine (hfollowed.held hheld).imp_right ?_
    rintro ⟨m, hm, rfl, rfl⟩
    obtain ⟨l, hl, hactive, -, hdiscord, hold⟩ := (hplanned m hm).link
    exact ⟨m.old, ⟨l, hl, hdiscord, hold, hactive⟩, (hplanned m hm).target⟩
  · have hoff : (apply && !(apply && decide (maxChanges < (todo items).length))) = false := by
      cases apply <;> simp [hcap]
    show (w.runItems _ e items).2 = w
    rw [hoff]
    exact runItems_idle e items w
  · obtain ⟨hl, hactive, hother⟩ := refused_of_plan hrefused
    exact hfollowed.kept l hl hactive (fun j hj => hother j (hdone j hj))
  · obtain ⟨hfresh, m, hm, hmove, hnew⟩ :=
      hfollowed.planned_again hplanned (hall happlied) hi
    exact ⟨hfresh, m, hdone m hm, hmove, hnew⟩
  · refine (hfollowed.plan_nil_iff hplanned (hall happlied)).trans
      ⟨fun h m hm => ?_, fun h m hm => ?_⟩
    · obtain ⟨k, hk, hsame⟩ := hall happlied _ hm
      cases hsame
      exact h m hk
    · exact h m (hdone m hm)

end Run

def twoAccounts : World where
  base := .legacy ⟨⟨[⟨⟨1, "4815162342", 1001, 50, none⟩, "Paul", "muaddib"⟩,
    ⟨⟨2, "4815162342", 1002, 60, none⟩, "Chani", "muaddib"⟩], by decide⟩, 3, by decide, by decide⟩
  mutes := Serial.empty
  blocks := Table.empty
  directory := Table.empty
  audit := []

theorem twoAccounts_oneHolder : OneHolder twoAccounts.base.links := by
  have hsame : ∀ l ∈ twoAccounts.base.links, l.discordId = "4815162342" := by decide
  rintro a d d' ⟨l, hl, rfl, -⟩ ⟨l', hl', rfl, -⟩
  exact (hsame l hl).trans (hsame l' hl').symm

def merge : List Pair := [(some 1001, some 3003), (some 1002, some 3003)].filterMap transferPair

def chain : List Pair := [(some 1001, some 2002), (some 2002, some 3003)].filterMap transferPair

/-- The second link is retired, and then there is nothing to do. -/
theorem relink_links_merge :
    ((twoAccounts.run merge true 3 fun _ => atNoon).2.base.plan merge) = [] := by
  have happlied : ∀ o ∈ (twoAccounts.run merge true 3 fun _ => atNoon).1.items,
      o.result = .applied := by decide
  have hends : ∀ m ∈ todo (twoAccounts.base.plan merge), ∀ p ∈ merge, p.old ≠ m.new := by
    decide
  refine ((relink_links merge true 3 (fun _ => atNoon)
    twoAccounts_oneHolder).2.2.2.2 happlied).2.mpr (fun m hm _ => ?_)
  exact hends m (mem_todo.mpr hm)

/-- Every item is applied, and the next run plans the second step of the chain. -/
theorem chain_planned_again : OneHolder twoAccounts.base.links ∧
    (∀ o ∈ (twoAccounts.run chain true 3 fun _ => atNoon).1.items, o.result = .applied) ∧
    (twoAccounts.run chain true 3 fun _ => atNoon).2.base.plan chain ≠ [] := by
  refine ⟨twoAccounts_oneHolder, by decide, fun hnil => ?_⟩
  have hnext : ((twoAccounts.run chain true 3 fun _ => atNoon).2.base.plan chain).map
      PlanItem.linkId = [3] := by decide
  rw [hnil] at hnext
  cases hnext

/-! ## The run among the actions of the identity system -/

theorem runItem_base (apply : Bool) (e : RelinkItem → Setting) (item : PlanItem) {w : World}
    {db : Identity.Db} (hbase : w.base = .migrated db) :
    (w.runItem apply e item).2.base = .migrated db ∨ ∃ i db', item = .apply i ∧
      db.applyItem (e i).stamp i = .ok db' ∧ (w.runItem apply e item).2.base = .migrated db' := by
  cases item with
  | refuse link new why => exact Or.inl hbase
  | apply i =>
    cases apply with
    | false => exact Or.inl hbase
    | true =>
      cases h : w.applyItem (e i) i with
      | error f => exact Or.inl (by simp [World.runItem, h, hbase])
      | ok w' =>
        obtain ⟨base, happlied, rfl⟩ := World.applyItem_spec h
        rw [hbase] at happlied
        dsimp only [Base.applyItem] at happlied
        split at happlied
        · rename_i db' hdb
          cases happlied
          exact Or.inr ⟨i, db', rfl, hdb, by simp [World.runItem, h, World.carryForward]⟩
        · cases happlied

theorem runItems_identity (apply : Bool) (e : RelinkItem → Setting) (items : List PlanItem)
    {w : World} {v : Identity.World} (hbase : w.base = .migrated v.db) :
    ∃ as v', (∀ a ∈ as, ∃ i, .apply i ∈ items ∧ a.op = .applyItem i) ∧
      exec Identity.step v as = some v' ∧ (w.runItems apply e items).2.base = .migrated v'.db := by
  induction items generalizing w v with
  | nil => exact ⟨[], v, by simp, rfl, hbase⟩
  | cons item items ih =>
    rcases runItem_base apply e item hbase with hsame | ⟨i, db', rfl, hdb, hnext⟩
    · obtain ⟨as, v', has, hrun, hend⟩ := ih hsame
      refine ⟨as, v', fun a ha => ?_, hrun, hend⟩
      obtain ⟨i, hi, hop⟩ := has a ha
      exact ⟨i, List.mem_cons_of_mem _ hi, hop⟩
    · obtain ⟨as, v', has, hrun, hend⟩ := @ih _ ⟨db', v.clock⟩ hnext
      refine ⟨⟨v.clock, 0, (e i).stamp, .applyItem i⟩ :: as, v', fun a ha => ?_, ?_, hend⟩
      · rcases List.mem_cons.mp ha with rfl | ha
        · exact ⟨i, List.mem_cons_self .., rfl⟩
        · obtain ⟨j, hj, hop⟩ := has a ha
          exact ⟨j, List.mem_cons_of_mem _ hj, hop⟩
      · refine Runs.exec_cons.mpr ⟨⟨db', v.clock⟩, ?_, hrun⟩
        simp [Identity.step, Identity.Action.run, Identity.Db.after, hdb]

/-- The relink of a transfer is a run of the identity system, by actions that are planned: it
leaves each account with one binding and its owner, and no profile without a method. -/
theorem relink_keeps_accounts {links : Links} {db : Identity.Db}
    (hstart : Identity.backfilled links = .ok db) {clock : ℚ} {as : List Identity.Action}
    {v : Identity.World} (hrun : exec Identity.step ⟨db, clock⟩ as = some v) {w : World}
    (hbase : w.base = .migrated v.db) (pairs : List Pair) (apply : Bool) (maxChanges : Int)
    (e : RelinkItem → Setting) :
    ∃ bs v', (w.run pairs apply maxChanges e).2.base = .migrated v'.db ∧
      exec Identity.step v bs = some v' ∧
      (∀ b ∈ bs, ∃ i, .apply i ∈ w.base.plan pairs ∧ b.op = .applyItem i) ∧
      v'.db.BoundOnce ∧ (v'.db.installed = true → v'.db.Owned) ∧
      ∀ p, 0 < v.db.usableMethods p → 0 < v'.db.usableMethods p := by
  obtain ⟨bs, v', hbs, hmore, hend⟩ := runItems_identity
    (apply && !(apply && decide (maxChanges < (todo (w.base.plan pairs)).length))) e
    (w.base.plan pairs) hbase
  obtain ⟨honce, howned, -⟩ :=
    Identity.owners_always hstart clock (Runs.exec_append.mpr ⟨v, hrun, hmore⟩)
  refine ⟨bs, v', hend, hmore, hbs, honce, howned, fun p hp => ?_⟩
  exact Identity.Db.usableMethods_pos.mpr
    (Identity.run_hasMethod (Identity.Db.usableMethods_pos.mp hp) hmore)

theorem signIn_goes : (exec Identity.step ⟨Identity.startDb, 0⟩ Identity.signIn).isSome = true := rfl

theorem relink_keeps_accounts_moved :
    let v := (exec Identity.step ⟨Identity.startDb, 0⟩ Identity.signIn).get signIn_goes
    let r := World.run chain true 3 (fun _ => atNoon) { twoAccounts with base := .migrated v.db }
    (∃ l ∈ r.2.base.links, l.accountId = 2002 ∧ l.revokedAt = none) ∧
      ∃ bs v', r.2.base = .migrated v'.db ∧ exec Identity.step v bs = some v' ∧
        0 < v'.db.usableMethods 0 := by
  intro v r
  obtain ⟨bs, v', hend, hrun, -, -, -, hkept⟩ := relink_keeps_accounts Identity.backfilled_oneLink
    (Option.some_get signIn_goes).symm (w := { twoAccounts with base := .migrated v.db }) rfl chain
    true 3 (fun _ => atNoon)
  exact ⟨by decide, bs, v', hend, hrun, hkept 0 (by decide)⟩

end LastSietch.Relink
