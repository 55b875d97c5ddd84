import LastSietch.Landsraad.Lines

/-!
# A claim delivers what it withdraws

* `Db.claim_ok`: what a claim that does not raise has gone through.
* `claim_delivers`: the ledger, the stacks and the slots after it.
* `runs_deliver`: every claim of a run of previews and applies.
-/

namespace LastSietch.Landsraad

open Refinery (Inventory Item Items)

/-! ## The pending lines -/

def Reward.line (r : Reward) : Line := ⟨r.houseName, r.templateId, r.amount.toNat⟩

def Reward.Pending (owner : Nat) (r : Reward) : Prop := r.playerId = owner ∧ 0 < r.amount

instance (owner : Nat) (r : Reward) : Decidable (r.Pending owner) :=
  inferInstanceAs (Decidable (_ ∧ _))

section Pending

variable {collate : String → String → Bool} {cat : String → Option (Int × Int)} {owner : Nat}
  {ledger : Ledger} {line : Line} {r r' : Reward} {withdraw : List Line}

theorem mem_pending : line ∈ Db.pending collate cat owner ledger ↔
    ∃ r ∈ ledger, r.Pending owner ∧ r.line = line := by
  unfold Db.pending
  rw [List.mem_insertionSort, List.mem_map]
  constructor
  · rintro ⟨r, hr, rfl⟩
    obtain ⟨hmem, hpending⟩ := List.mem_filter.mp hr
    exact ⟨r, hmem, of_decide_eq_true hpending, rfl⟩
  · rintro ⟨r, hr, hpending, rfl⟩
    exact ⟨r, List.mem_filter.mpr ⟨hr, decide_eq_true hpending⟩, rfl⟩

theorem eq_of_same (hr : r ∈ ledger) (hr' : r' ∈ ledger) (hplayer : r.playerId = r'.playerId)
    (h : r.line.Same r'.line) : r = r' := by
  refine Table.eq_of_key_eq hr hr' ?_
  show (r.playerId, r.houseName, r.templateId) = (r'.playerId, r'.houseName, r'.templateId)
  rw [hplayer, show r.houseName = r'.houseName from h.1, show r.templateId = r'.templateId from h.2]

theorem pending_pairwise :
    (Db.pending collate cat owner ledger).Pairwise (fun a b => ¬ a.Same b) := by
  have hrows : ((ledger.rows.filter (fun r => r.playerId = owner ∧ 0 < r.amount)).map
      (fun r : Reward => r.line)).Pairwise (fun a b => ¬ a.Same b) := by
    rw [List.pairwise_map]
    have hkeys : ledger.rows.Pairwise (fun r r' => (r.playerId, r.houseName, r.templateId) ≠
        (r'.playerId, r'.houseName, r'.templateId)) := List.pairwise_map.mp ledger.unique
    refine List.Pairwise.imp_of_mem ?_ (hkeys.filter _)
    intro r r' hr hr' hne hsame
    have howner := (of_decide_eq_true (List.mem_filter.mp hr).2).1
    have howner' := (of_decide_eq_true (List.mem_filter.mp hr').2).1
    refine hne ?_
    rw [howner, howner', show r.houseName = r'.houseName from hsame.1,
      show r.templateId = r'.templateId from hsame.2]
  refine hrows.perm (List.perm_insertionSort _ _).symm ?_
  exact fun h hsame => h ⟨hsame.1.symm, hsame.2.symm⟩

theorem taken_owner (h : r.playerId = owner) : taken owner withdraw r = listed withdraw r.line := by
  unfold taken
  rw [if_pos h]
  rfl

theorem taken_other
    (hlisted : ∀ l ∈ withdraw, ∃ line ∈ Db.pending collate cat owner ledger, l.Same line)
    (hr : r ∈ ledger) (h : ¬ r.Pending owner) : taken owner withdraw r = 0 := by
  refine taken_eq_zero ?_
  rintro ⟨howner, l, hl, hhouse, htemplate⟩
  obtain ⟨line, hline, hsame⟩ := hlisted l hl
  obtain ⟨r', hr', hpending, rfl⟩ := mem_pending.mp hline
  have heq : r = r' := eq_of_same hr hr' (howner.trans hpending.1.symm)
    ⟨hhouse.symm.trans hsame.1, htemplate.symm.trans hsame.2⟩
  exact h (heq ▸ hpending)

end Pending

/-! ## The law -/

def Db.bag (db : Db) (free : List Nat) (out : List Out) : Bag :=
  ⟨db.items, free, db.orders, db.fulfilled, db.actors, out⟩

/-- An apply that commits has delivered what it has withdrawn, as its receipt `out` says. -/
structure Delivered (e : Setting) (inv : Inventory) (db : Db) (out : List Out) (db' : Db) : Prop where
  /-- A pending line loses what is in the backpack and on the exchange, or all of it to its unlock;
  the rest is at the rep. -/
  lines : ∀ r ∈ db.ledger, r.Pending e.owner → ∃ done,
    r.less done ∈ db'.ledger ∧ Receipt r.line done (ofLine r.line out)
  others : ∀ r ∈ db.ledger, ¬ r.Pending e.owner → r ∈ db'.ledger
  pending : ∀ o ∈ out, ∃ r ∈ db.ledger, r.Pending e.owner ∧ o.house = r.houseName ∧
    o.template = r.templateId
  /-- The rows that the receipt names, and no others, have changed, and none is above its cap. -/
  sound : ∃ free, Puts.Sound e (db.bag (db.freeSlots inv) []) out (db'.bag free out)
  room : (∃ r' ∈ db'.items, db.items.next ≤ r'.id ∧ r'.inventoryId = some e.backpack) →
    slotSafety ≤ (db'.freeSlots inv).length
  share : ∀ i j, db'.items.Share e.backpack i j → db.items.Share e.backpack i j
  solaris : ∀ o ∈ out, o.lane = .exchange → o.template ≠ solarisTemplate
  characters : db'.characters = db.characters
  inventories : db'.inventories = db.inventories

section Claim

variable {native : Native} {collate : String → String → Bool} {c : Call} {db db' : Db}
  {report : Report}

theorem Db.claim_ok (h : db.claim native collate c = .ok (report, db')) :
    ∃ character pawn inv withdraw s ledger deliveries, db.character c.owner = some character ∧
      character.playerPawnId = some pawn ∧ db.backpack pawn = some inv ∧
      claimLines (db.setting c inv pawn)
        (Db.pending collate (db.setting c inv pawn).cat c.owner db.ledger)
        ([], db.bag (db.freeSlots inv) []) = .ok (withdraw, s) ∧
      native.apply c.owner withdraw db.ledger = .ok ledger ∧
      report.lines = s.out ∧
      db' = { db with items := s.items, orders := s.orders, fulfilled := s.fulfilled,
                      actors := s.actors, ledger, deliveries } := by
  obtain ⟨character, hcharacter, h⟩ := bind_eq_ok.mp h
  obtain ⟨pawn, hpawn, h⟩ := bind_eq_ok.mp h
  obtain ⟨_, -, h⟩ := bind_eq_ok.mp h
  obtain ⟨inv, hinv, h⟩ := bind_eq_ok.mp h
  obtain ⟨⟨withdraw, s⟩, hloop, h⟩ := bind_eq_ok.mp h
  obtain ⟨ledger, hledger, h⟩ := bind_eq_ok.mp h
  obtain ⟨deliveries, -, h⟩ := bind_eq_ok.mp h
  obtain ⟨_, -, h⟩ := bind_eq_ok.mp h
  cases h
  exact ⟨character, pawn, inv, withdraw, s, ledger, deliveries, orRaise_eq_ok.mp hcharacter,
    orRaise_eq_ok.mp hpawn, orRaise_eq_ok.mp hinv, hloop, hledger, rfl, rfl⟩

variable {inv : Inventory}

theorem Db.backpack_mem {pawn : Nat} (h : db.backpack pawn = some inv) :
    inv ∈ db.inventories ∧ inv.actorId = some pawn ∧ inv.inventoryType = some 0 := by
  have hsome := List.find?_some h
  exact ⟨List.mem_of_find?_eq_some h, of_decide_eq_true hsome⟩

theorem setting_fit {pawn : Nat} (h : db.backpack pawn = some inv) :
    (db.setting c inv pawn).Fit where
  backpack := db.exchange_no_backpack inv (Db.backpack_mem h).1 (Db.backpack_mem h).2.2
  solaris := safeCats_solaris c.ctx

theorem mem_freeSlots {i : Nat} : i ∈ db.freeSlots inv ↔
    i < (inv.maxItemCount.getD 0).toNat ∧
      ∀ r ∈ db.items, ¬ (r.inventoryId = some inv.id ∧ r.positionIndex = (i : Int)) := by
  unfold Db.freeSlots
  rw [List.mem_filter, List.mem_range, decide_eq_true_eq]

theorem mem_withdrawn {owner : Nat} {withdraw : List Line} {ledger ledger' : Ledger} {r : Reward}
    (h : native.apply owner withdraw ledger = .ok ledger') (hr : r ∈ ledger) :
    r.less (taken owner withdraw r) ∈ ledger' := by
  unfold Native.apply at h
  split at h
  · case isTrue hnone =>
    cases h
    have hzero : taken owner withdraw r = 0 := by
      rw [hnone]
      exact taken_eq_zero (fun h => by simp at h)
    rw [hzero]
    simpa [Reward.less] using hr
  · exact (native.decrements h _).mpr ⟨r, hr, rfl⟩

theorem claim_delivers (h : db.claim native collate c = .ok (report, db')) :
    ∃ character pawn inv, db.character c.owner = some character ∧
      character.playerPawnId = some pawn ∧ db.backpack pawn = some inv ∧
      Delivered (db.setting c inv pawn) inv db report.lines db' := by
  obtain ⟨character, pawn, inv, withdraw, s, ledger, deliveries, hcharacter, hpawn, hinv, hloop,
    hledger, hreport, rfl⟩ := Db.claim_ok h
  refine ⟨character, pawn, inv, hcharacter, hpawn, hinv, ?_⟩
  have hfit := setting_fit (c := c) hinv
  obtain ⟨w, hw, ⟨out, hputs, hof, hreceipts⟩, hlisted⟩ :=
    claimLines_receipts hfit pending_pairwise hloop
  rw [List.nil_append] at hw
  subst hw
  have hout : s.out = out := hputs.out_eq.trans (List.nil_append _)
  rw [hreport, hout]
  have hsound := hputs.sound
  have hslotted := hputs.slotted (List.nodup_range.filter _) (fun slot hslot r hr hback hpos =>
    (mem_freeSlots.mp hslot).2 r hr ⟨hback, hpos⟩)
  refine { lines := fun r hr hpending => ?_, others := fun r hr hpending => ?_,
           pending := fun o ho => ?_, sound := ⟨s.free, ?_⟩, room := fun hnew => ?_,
           share := hslotted.share, solaris := fun o ho hlane => ?_, characters := rfl,
           inventories := rfl }
  · have hreceipt := hreceipts r.line (mem_pending.mpr ⟨r, hr, hpending, rfl⟩)
    refine ⟨_, ?_, hreceipt⟩
    rw [← taken_owner hpending.1]
    exact mem_withdrawn hledger hr
  · have hmem := mem_withdrawn hledger hr
    rw [taken_other hlisted hr hpending] at hmem
    simpa [Reward.less] using hmem
  · obtain ⟨line, hline, hhouse, htemplate⟩ := hof o ho
    obtain ⟨r, hr, hpending, rfl⟩ := mem_pending.mp hline
    exact ⟨r, hr, hpending, hhouse, htemplate⟩
  · obtain ⟨items, free, orders, fulfilled, actors, out'⟩ := s
    obtain rfl : out' = out := hout
    exact hsound
  · have hsub : s.free ⊆ Db.freeSlots { db with
        items := s.items, orders := s.orders, fulfilled := s.fulfilled, actors := s.actors,
        ledger, deliveries } inv := by
      intro slot hslot
      refine mem_freeSlots.mpr ⟨(mem_freeSlots.mp (hslotted.sub.subset hslot)).1, ?_⟩
      exact fun r hr hstands => hslotted.free slot hslot r hr hstands.1 hstands.2
    have hnodup : s.free.Nodup := (List.nodup_range.filter _).sublist hslotted.sub
    exact Nat.le_trans (hslotted.room hnew) (List.subperm_of_subset hnodup hsub).length_le
  · have hplaced := hsound.placed o ho
    unfold Placed at hplaced
    simp only [hlane] at hplaced
    exact hplaced.1

end Claim

section Runs

variable (native : Native) (collate : String → String → Bool)

def Db.after (db : Db) (calls : List Call) : Db :=
  calls.foldl (fun db c => db.settled native collate c) db

/-- A claim that raises and a preview change nothing, and an apply that commits delivers what it
withdraws. -/
def Keeps (db : Db) (c : Call) (db' : Db) : Prop :=
  match db.claim native collate c with
  | .error _ => db' = db
  | .ok (report, _) =>
    if c.preview then db' = db
    else ∃ character pawn inv, db.character c.owner = some character ∧
      character.playerPawnId = some pawn ∧ db.backpack pawn = some inv ∧
      Delivered (db.setting c inv pawn) inv db report.lines db'

theorem settled_keeps (db : Db) (c : Call) :
    Keeps native collate db c (db.settled native collate c) := by
  unfold Keeps Db.settled
  cases hclaim : db.claim native collate c with
  | error refusal => rfl
  | ok result =>
    obtain ⟨report, db₁⟩ := result
    by_cases hpreview : c.preview = true
    · simp only [hpreview, if_true]
    · simp only [hpreview, Bool.false_eq_true, if_false]
      exact claim_delivers hclaim

/-- Every claim of a run delivers exactly what it withdraws. -/
theorem runs_deliver (db : Db) (calls : List Call) (c : Call) :
    Keeps native collate (db.after native collate calls) c
      (db.after native collate (calls ++ [c])) := by
  unfold Db.after
  rw [List.foldl_append]
  exact settled_keeps native collate _ c

end Runs

end LastSietch.Landsraad
