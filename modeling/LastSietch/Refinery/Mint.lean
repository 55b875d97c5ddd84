import LastSietch.Refinery.Tables

/-!
# Minting the dust

The mint merges into a stack of the bank that is below the cap, else it opens a stack in a free
slot, pass after pass until nothing is left; `volumeGate` is checked once before it. The guard
of the loop is its fuel.

* `freeSlot_spec`: the slot is free, and inside a bank with a slot cap.
-/

namespace LastSietch.Refinery

def defaultStatsJson : String := "\x7b\x7d"

def Items.inventoryRows (items : Items) (inv : Nat) : List Item :=
  items.rows.filter (fun r => r.inventoryId = some inv)

def mintStats (items : Items) (bank : Nat) (template : String) : String :=
  ((pick (fun r s => decide (r.id < s.id)) (items.rowsOf bank template)).map (·.stats)).getD
    defaultStatsJson

def usedVolume (items : Items) (bank : Nat) : ℚ :=
  ((items.inventoryRows bank).map (fun r => r.volumeOverride.getD 0 * (r.stackSize : ℚ))).sum

/-- Whether the fit is unverified, or `bank_volume`. -/
def volumeGate (bank : Inventory) (unitVol : Option ℚ) (dust : Int) (items : Items) :
    Except Refusal Bool :=
  if bank.maxItemVolume.getD 0 ≤ 0 then .ok false
  else
    match unitVol with
    | none => .ok true
    | some v =>
      if bank.maxItemVolume.getD 0 < usedVolume items bank.id + v * (dust : ℚ) then
        .error .bankVolume
      else .ok false

/-! ## The loop -/

structure MintState where
  items : Items
  left : Int
  minted : Int
  stackRows : List Stack

/-- `ORDER BY it.position_index ASC, it.id ASC`. -/
def firstStack (r s : Item) : Bool :=
  r.positionIndex < s.positionIndex || (r.positionIndex == s.positionIndex && r.id < s.id)

def openStack (items : Items) (bank : Nat) (template : String) (maxStack : Int) : Option Item :=
  pick firstStack
    ((items.rowsOf bank template).filter (fun r => r.qualityLevel = 0 ∧ r.stackSize < maxStack))

/-- `COALESCE(MAX(position_index) + 1, 0)`. -/
def appendSlot (items : Items) (bank : Nat) : Int :=
  (((items.inventoryRows bank).map (·.positionIndex)).max?.map (· + 1)).getD 0

def firstGap (items : Items) (bank : Nat) (cap : Int) : Option Int :=
  ((List.range cap.toNat).map Int.ofNat).find?
    (fun i => (items.inventoryRows bank).all (fun r => r.positionIndex ≠ i))

def freeSlot (items : Items) (bank : Inventory) : Except Refusal Int :=
  match bank.maxItemCount with
  | none => .ok (appendSlot items bank.id)
  | some mic =>
    if mic = 0 then .error (.noSpace .zeroSlots)
    else if mic < 0 then .ok (appendSlot items bank.id)
    else orRaise (firstGap items bank.id mic) (.noSpace .noFreeSlot)

def mintPass (bank : Inventory) (template stats : String) (maxStack : Int) (m : MintState) :
    Except Refusal MintState :=
  match openStack m.items bank.id template maxStack with
  | some r =>
    let take := min (maxStack - r.stackSize) m.left
    .ok
      { items := m.items.update (fun q => q.id = r.id)
          (fun q => { q with stackSize := q.stackSize + take })
        left := m.left - take
        minted := m.minted + take
        stackRows := m.stackRows ++ [⟨r.id, r.positionIndex, r.stackSize + take, true⟩] }
  | none => do
    let slot ← freeSlot m.items bank
    let take := min maxStack m.left
    let items ← orRaise
      (m.items.insert? (fun id =>
        { id, inventoryId := some bank.id, stackSize := take, positionIndex := slot,
          templateId := template, stats, qualityLevel := 0, acquisitionTime := 0, isNew := true,
          volumeOverride := none })) .writeFailed
    pure
      { items
        left := m.left - take
        minted := m.minted + take
        stackRows := m.stackRows ++ [⟨m.items.next, slot, take, false⟩] }

def mintLoop (bank : Inventory) (template stats : String) (maxStack : Int) :
    Nat → MintState → Except Refusal MintState
  | 0, m => if 0 < m.left then .error (.noSpace .notConverged) else .ok m
  | fuel + 1, m =>
    if 0 < m.left then do
      let m' ← mintPass bank template stats maxStack m
      mintLoop bank template stats maxStack fuel m'
    else .ok m

/-- The mint: `dust + 2` passes at most. -/
def mint (bank : Inventory) (template : String) (maxStack : Int) (dust : Nat) (items : Items) :
    Except Refusal MintState :=
  mintLoop bank template (mintStats items bank.id template) maxStack (dust + 2)
    ⟨items, dust, 0, []⟩

/-! ## The slot -/

section Slot

variable {items : Items} {bank : Inventory} {inv : Nat} {slot cap : Int}

theorem mem_inventoryRows {r : Item} :
    r ∈ items.inventoryRows inv ↔ r ∈ items ∧ r.inventoryId = some inv := by
  simp only [Items.inventoryRows, List.mem_filter, decide_eq_true_eq]
  exact Iff.rfl

theorem lt_appendSlot {r : Item} (hr : r ∈ items) (hinv : r.inventoryId = some inv) :
    r.positionIndex < appendSlot items inv := by
  have hmem : r.positionIndex ∈ (items.inventoryRows inv).map (·.positionIndex) :=
    List.mem_map_of_mem (mem_inventoryRows.mpr ⟨hr, hinv⟩)
  unfold appendSlot
  cases hmax : ((items.inventoryRows inv).map (·.positionIndex)).max? with
  | none =>
    rw [List.max?_eq_none_iff] at hmax
    rw [hmax] at hmem
    cases hmem
  | some n =>
    have hle := (List.max?_eq_some_iff.mp hmax).2 _ hmem
    rw [Option.map_some, Option.getD_some]
    omega

theorem firstGap_spec (h : firstGap items inv cap = some slot) :
    (∀ r ∈ items, r.inventoryId = some inv → r.positionIndex ≠ slot) ∧ 0 ≤ slot ∧ slot < cap := by
  constructor
  · intro r hr hinv
    have hall := List.find?_some h
    rw [List.all_eq_true] at hall
    have hne := hall r (mem_inventoryRows.mpr ⟨hr, hinv⟩)
    rwa [decide_eq_true_eq] at hne
  · obtain ⟨n, hn, rfl⟩ := List.mem_map.mp (List.mem_of_find?_eq_some h)
    have hlt := List.mem_range.mp hn
    rw [Int.ofNat_eq_natCast]
    omega

theorem freeSlot_spec (h : freeSlot items bank = .ok slot) :
    (∀ r ∈ items, r.inventoryId = some bank.id → r.positionIndex ≠ slot) ∧
      ∀ mic, bank.maxItemCount = some mic → 0 < mic → 0 ≤ slot ∧ slot < mic := by
  have happend : ∀ r ∈ items, r.inventoryId = some bank.id →
      r.positionIndex ≠ appendSlot items bank.id :=
    fun r hr hinv => (lt_appendSlot hr hinv).ne
  unfold freeSlot at h
  cases hmic : bank.maxItemCount with
  | none =>
    rw [hmic] at h
    cases h
    exact ⟨happend, fun mic hmic => by cases hmic⟩
  | some mic =>
    rw [hmic] at h
    dsimp only at h
    split at h
    · cases h
    · split at h
      · cases h
        refine ⟨happend, fun mic' hmic' hpos => ?_⟩
        cases hmic'
        omega
      · obtain ⟨hfree, hrange⟩ := firstGap_spec (orRaise_eq_ok.mp h)
        refine ⟨hfree, fun mic' hmic' _ => ?_⟩
        cases hmic'
        exact hrange

end Slot

/-! ## What the mint does -/

/-- The table `after` is `before` with `dust` more units of the template in the bank: its rows
are old ones, or of the template, in the bank and within the cap. -/
structure Minted (bank : Nat) (template : String) (maxStack dust : Int) (before after : Items) :
    Prop where
  held : after.held bank template = before.held bank template + dust
  made : ∀ r ∈ after, r ∈ before ∨
    r.inventoryId = some bank ∧ r.templateId = template ∧ r.stackSize ≤ maxStack
  kept : ∀ r ∈ before, r ∈ after ∨
    r.inventoryId = some bank ∧ r.templateId = template ∧
      ∃ r' ∈ after, r.stackSize < r'.stackSize ∧ r' = { r with stackSize := r'.stackSize }
  share : ∀ i j, after.Share bank i j → before.Share bank i j

namespace Minted

variable {bank : Nat} {template : String} {maxStack d d' : Int} {items items' items'' : Items}

theorem refl (items : Items) : Minted bank template maxStack 0 items items where
  held := (add_zero _).symm
  made _ hr := Or.inl hr
  kept _ hr := Or.inl hr
  share _ _ h := h

theorem trans (h : Minted bank template maxStack d items items')
    (h' : Minted bank template maxStack d' items' items'') :
    Minted bank template maxStack (d + d') items items'' where
  held := by
    rw [h'.held, h.held, add_assoc]
  made r hr := by
    rcases h'.made r hr with hr | hr
    · exact h.made r hr
    · exact Or.inr hr
  kept r hr := by
    rcases h.kept r hr with hr | ⟨hinv, htemplate, r', hr', hlt, heq⟩
    · exact h'.kept r hr
    · refine Or.inr ⟨hinv, htemplate, ?_⟩
      rcases h'.kept r' hr' with hr' | ⟨-, -, r'', hr'', hlt', heq'⟩
      · exact ⟨r', hr', hlt, heq⟩
      · refine ⟨r'', hr'', hlt.trans hlt', ?_⟩
        rw [heq', heq]
  share i j hshare := h.share i j (h'.share i j hshare)

end Minted

section Pass

variable {bank : Inventory} {template stats : String} {maxStack : Int} {m m' : MintState}

theorem openStack_spec {items : Items} {inv : Nat} {r : Item}
    (h : openStack items inv template maxStack = some r) :
    r ∈ items ∧ r.inventoryId = some inv ∧ r.templateId = template ∧ r.stackSize < maxStack := by
  have hr := List.mem_filter.mp (pick_mem h)
  rw [decide_eq_true_eq] at hr
  obtain ⟨hmem, hinv, htemplate⟩ := Items.mem_rowsOf.mp hr.1
  exact ⟨hmem, hinv, htemplate, hr.2.2⟩

theorem minted_merge {items : Items} {inv : Nat} {r : Item} {n : Int}
    (hr : openStack items inv template maxStack = some r) (hn : 0 < n)
    (hmax : r.stackSize + n ≤ maxStack) :
    Minted inv template maxStack n items
      (items.update (fun q => q.id = r.id) (fun q => { q with stackSize := q.stackSize + n })) := by
  obtain ⟨hmem, hinv, htemplate, -⟩ := openStack_spec hr
  have hrows : ∀ s, s ∈ items.update (fun q => q.id = r.id)
      (fun q => { q with stackSize := q.stackSize + n }) ↔
        s ∈ items ∧ s.id ≠ r.id ∨ s ∈ some { r with stackSize := r.stackSize + n } := by
    intro s
    rw [SerialTable.mem_update_id hmem, or_comm, Option.mem_some_iff, eq_comm (a := s)]
  refine { held := ?_, made := ?_, kept := ?_, share := ?_ }
  · have hswap := SerialTable.sum_swap hmem (fun s hs => by cases hs; rfl) hrows
      (Item.unitsIn inv template)
    have hold : r.unitsIn inv template = r.stackSize := if_pos ⟨hinv, htemplate⟩
    have hnew : Item.unitsIn inv template { r with stackSize := r.stackSize + n } =
        r.stackSize + n := if_pos ⟨hinv, htemplate⟩
    rw [Option.elim_some, hold, hnew] at hswap
    rw [Items.held_eq, Items.held_eq]
    omega
  · intro s hs
    rcases (hrows s).mp hs with ⟨hs, -⟩ | hs
    · exact Or.inl hs
    · cases hs
      exact Or.inr ⟨hinv, htemplate, hmax⟩
  · intro s hs
    by_cases hid : s.id = r.id
    · have hsr : s = r := SerialTable.eq_of_id_eq hs hmem hid
      subst hsr
      refine Or.inr ⟨hinv, htemplate, _, (hrows _).mpr (Or.inr rfl), ?_, rfl⟩
      show s.stackSize < s.stackSize + n
      omega
    · exact Or.inl ((hrows s).mpr (Or.inl ⟨hs, hid⟩))
  · intro i j
    refine Items.share_of (fun s hs => ?_)
    rcases (hrows s).mp hs with ⟨hs, -⟩ | hs
    · exact ⟨s, hs, rfl, rfl, rfl⟩
    · cases hs
      exact ⟨r, hmem, rfl, rfl, rfl⟩

theorem minted_insert {items items' : Items} {n slot : Int} {inv : Nat} {mk : Nat → Item}
    {hid : ∀ id, (mk id).id = id} (hins : items.insert? mk hid = some items')
    (hinv : ∀ id, (mk id).inventoryId = some inv) (htemplate : ∀ id, (mk id).templateId = template)
    (hsize : ∀ id, (mk id).stackSize = n) (hslot : ∀ id, (mk id).positionIndex = slot)
    (hfree : ∀ r ∈ items, r.inventoryId = some inv → r.positionIndex ≠ slot)
    (hmax : n ≤ maxStack) : Minted inv template maxStack n items items' := by
  have hrows := (SerialTable.rows_insert? hins).1
  have hmem : ∀ s, s ∈ items' ↔ s = mk items.next ∨ s ∈ items :=
    fun s => SerialTable.mem_insert? hins
  refine { held := ?_, made := ?_, kept := ?_, share := ?_ }
  · have hnew : (mk items.next).unitsIn inv template = n := by
      rw [← hsize items.next]
      exact if_pos ⟨hinv _, htemplate _⟩
    rw [Items.held_eq, Items.held_eq, hrows, List.map_cons, List.sum_cons, hnew]
    omega
  · intro s hs
    rcases (hmem s).mp hs with rfl | hs
    · exact Or.inr ⟨hinv _, htemplate _, (hsize _).trans_le hmax⟩
    · exact Or.inl hs
  · intro s hs
    exact Or.inl ((hmem s).mpr (Or.inr hs))
  · rintro i j ⟨hne, r, hr, s, hs, hri, hsj, hrinv, hsinv, hpos⟩
    rcases (hmem r).mp hr with rfl | hr <;> rcases (hmem s).mp hs with rfl | hs
    · exact absurd (hri.symm.trans hsj) hne
    · exact absurd (hpos.symm.trans (hslot _)) (hfree s hs hsinv)
    · exact absurd (hpos.trans (hslot _)) (hfree r hr hrinv)
    · exact ⟨hne, r, hr, s, hs, hri, hsj, hrinv, hsinv, hpos⟩

theorem mintPass_minted (hmax : 0 < maxStack) (hleft : 0 < m.left)
    (h : mintPass bank template stats maxStack m = .ok m') :
    ∃ n, 0 < n ∧ n ≤ m.left ∧ m'.left = m.left - n ∧ m'.minted = m.minted + n ∧
      Minted bank.id template maxStack n m.items m'.items := by
  unfold mintPass at h
  split at h
  · rename_i r hr
    cases h
    have hlt := (openStack_spec hr).2.2.2
    refine ⟨min (maxStack - r.stackSize) m.left, by omega, by omega, rfl, rfl, ?_⟩
    exact minted_merge hr (by omega) (by omega)
  · obtain ⟨slot, hslot, h⟩ := bind_eq_ok.mp h
    obtain ⟨items, hins, h⟩ := bind_eq_ok.mp h
    cases pure_eq_ok.mp h
    refine ⟨min maxStack m.left, by omega, by omega, rfl, rfl, ?_⟩
    exact minted_insert (orRaise_eq_ok.mp hins) (fun _ => rfl) (fun _ => rfl) (fun _ => rfl)
      (fun _ => rfl) (freeSlot_spec hslot).1 (min_le_left ..)

theorem mintLoop_minted (hmax : 0 < maxStack) {fuel : Nat} (hleft : 0 ≤ m.left)
    (h : mintLoop bank template stats maxStack fuel m = .ok m') :
    m'.minted = m.minted + m.left ∧
      Minted bank.id template maxStack m.left m.items m'.items := by
  induction fuel generalizing m with
  | zero =>
    unfold mintLoop at h
    split at h
    · cases h
    · have hzero : m.left = 0 := by omega
      cases h
      rw [hzero]
      exact ⟨(add_zero _).symm, Minted.refl _⟩
  | succ fuel ih =>
    unfold mintLoop at h
    split at h
    · rename_i hpos
      obtain ⟨m₁, hpass, hrest⟩ := bind_eq_ok.mp h
      obtain ⟨n, hn, hle, hleft₁, hminted₁, hmint⟩ := mintPass_minted hmax hpos hpass
      obtain ⟨hminted, hmint'⟩ := ih (by omega) hrest
      refine ⟨by omega, ?_⟩
      have hall := hmint.trans hmint'
      have hsum : n + m₁.left = m.left := by omega
      rwa [hsum] at hall
    · have hzero : m.left = 0 := by omega
      cases h
      rw [hzero]
      exact ⟨(add_zero _).symm, Minted.refl _⟩

end Pass

end LastSietch.Refinery
