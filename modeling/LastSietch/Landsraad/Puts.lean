import LastSietch.Landsraad.Claim

/-!
# What a line of the receipt stands for

Every turn of the loops writes one line of the receipt. `Put` says what else changes with it: the
item that it names holds that many units more, in a free slot of the backpack or in an order on the
exchange, and no other row moves.

* `toBackpack_put`, `toExchange_put`, `merge_put`, `stay_put`, `unlock_put`: each statement group.
* `Puts.sound`, `Puts.slots`: what holds of the stacks and of the slots after any number of them.
-/

namespace LastSietch.Landsraad

open Refinery (Item Items)
open Bag (grow)

def Setting.capOf (e : Setting) (template : String) : Option Cap :=
  if template = solarisTemplate then some Cap.solaris else e.cap template

def units (out : List Out) (i : Nat) : Nat := ((out.filter (·.itemId = some i)).map (·.qty)).sum

def Placed (e : Setting) (s : Bag) (o : Out) : Prop :=
  match o.lane with
  | .backpack => ∃ r ∈ s.items, o.itemId = some r.id ∧ r.inventoryId = some e.backpack ∧
      r.templateId = o.template
  | .exchange => o.template ≠ solarisTemplate ∧ ∃ r ∈ s.items, o.itemId = some r.id ∧
      r.inventoryId = some exchangeInv ∧ r.templateId = o.template ∧
      ∃ order ∈ s.orders, o.orderId = some order.id ∧ order.itemId = some r.id ∧
        order.ownerId = e.owner ∧ order.templateId = o.template ∧
        ⟨order.id, completionType, o.qty, none, some order.id⟩ ∈ s.fulfilled ∧
        order.isNpcOrder = false ∧ ∃ t, e.expiry = some t ∧ order.expirationTime = some t
  | .unlock => o.itemId = none ∧ ∃ unlock, swatchUnlock o.template = some unlock ∧
      Bag.hasUnlock s.actors e.pawn unlock = .ok true
  | .rep => o.itemId = none

def Capped (e : Setting) (r : Item) : Prop :=
  ∃ cap, e.capOf r.templateId = some cap ∧ r.stackSize ≤ cap.size

structure Put (e : Setting) (s : Bag) (o : Out) (s' : Bag) : Prop where
  out : s'.out = s.out ++ [o]
  next : s.items.next ≤ s'.items.next
  old : ∀ r ∈ s.items, grow (units [o] r.id) r ∈ s'.items
  new : ∀ r' ∈ s'.items, (∃ r ∈ s.items, r' = grow (units [o] r.id) r) ∨
    (s.items.next ≤ r'.id ∧ o.itemId = some r'.id ∧ r'.stackSize = o.qty ∧
      (r'.inventoryId = some e.backpack → ∃ slot : Nat, s.free = slot :: s'.free ∧
        r'.positionIndex = slot))
  free : s'.free = s.free ∨ (∃ slot, s.free = slot :: s'.free) ∧ slotSafety ≤ s'.free.length
  placed : Placed e s' o
  capped : ∀ r' ∈ s'.items, o.itemId = some r'.id → Capped e r'
  orders : ∀ order ∈ s.orders, order ∈ s'.orders
  ordered : ∀ order ∈ s'.orders, order ∈ s.orders ∨ o.lane = .exchange ∧ o.orderId = some order.id ∧
    order.expirationTime = e.expiry
  fulfilled : ∀ f ∈ s.fulfilled, f ∈ s'.fulfilled
  unlocks : ∀ unlock, Bag.hasUnlock s.actors e.pawn unlock = .ok true →
    Bag.hasUnlock s'.actors e.pawn unlock = .ok true

section Units

variable {out out' : List Out} {o : Out} {i m n : Nat} {r : Item}

@[simp] theorem units_nil : units [] i = 0 := rfl

@[simp] theorem units_append : units (out ++ out') i = units out i + units out' i := by
  simp [units]

theorem units_single : units [o] i = if o.itemId = some i then o.qty else 0 := by
  unfold units
  by_cases h : o.itemId = some i
  · simp [h]
  · simp [h]

theorem units_eq_zero (h : ∀ o ∈ out, o.itemId ≠ some i) : units out i = 0 := by
  have hnone : out.filter (·.itemId = some i) = [] :=
    List.filter_eq_nil_iff.mpr (fun o ho => by simpa using h o ho)
  unfold units
  rw [hnone]
  rfl

@[simp] theorem grow_zero : grow 0 r = r := by simp [grow]

theorem grow_grow : grow m (grow n r) = grow (n + m) r := by
  simp [grow, add_assoc]

end Units

/-! ## The statement groups -/

section Groups

variable {e : Setting} {s s' : Bag} {line : Line} {cap : Cap} {qty slot : Nat} {rest : List Nat}
  {r : Item}

variable {mk : Nat → Item}

theorem old_of_insert {items : Items} {hid : ∀ n, (mk n).id = n} {o : Out}
    (hins : s.items.insert? mk hid = some items) (ho : o.itemId = some s.items.next) :
    ∀ r ∈ s.items, grow (units [o] r.id) r ∈ items := by
  intro r hr
  have hlt := SerialTable.id_lt_next hr
  have hne : o.itemId ≠ some r.id := by
    rw [ho]
    intro h
    have hnext : s.items.next = r.id := Option.some.inj h
    omega
  rw [units_single, if_neg hne, grow_zero]
  exact (SerialTable.mem_insert? hins).mpr (Or.inr hr)

theorem new_of_insert {items : Items} {hid : ∀ n, (mk n).id = n} {o : Out}
    (ho : o.itemId = some s.items.next) (hins : s.items.insert? mk hid = some items) :
    ∀ r' ∈ items, (∃ r ∈ s.items, r' = grow (units [o] r.id) r) ∨ r' = mk s.items.next := by
  intro r' hr'
  rcases (SerialTable.mem_insert? hins).mp hr' with rfl | hr
  · exact Or.inr rfl
  · refine Or.inl ⟨r', hr, ?_⟩
    have hlt := SerialTable.id_lt_next hr
    have hne : o.itemId ≠ some r'.id := by
      rw [ho]
      intro h
      have hnext : s.items.next = r'.id := Option.some.inj h
      omega
    rw [units_single, if_neg hne, grow_zero]

theorem eq_of_insert {items : Items} {hid : ∀ n, (mk n).id = n} {r' : Item}
    (hins : s.items.insert? mk hid = some items) (hr' : r' ∈ items) (h : r'.id = s.items.next) :
    r' = mk s.items.next := by
  rcases (SerialTable.mem_insert? hins).mp hr' with rfl | hr
  · rfl
  · have hlt := SerialTable.id_lt_next hr
    omega

theorem Bag.room_eq (h : s.room = some (slot, rest)) :
    s.free = slot :: rest ∧ slotSafety ≤ rest.length := by
  unfold Bag.room at h
  split at h
  · case h_1 slot' rest' hfree =>
    split at h
    · case isTrue hroom =>
      cases h
      rw [List.length_cons] at hroom
      exact ⟨hfree, by omega⟩
    · cases h
  · cases h

theorem toBackpack_put (hcap : e.capOf line.template = some cap) (hqty : qty ≤ cap.size)
    (hroom : s.room = some (slot, rest)) (h : s.toBackpack e line qty slot rest = .ok s') :
    Put e s ⟨.backpack, line.house, line.template, qty, some s.items.next, none, none⟩ s' := by
  obtain ⟨items, hins, h⟩ := bind_eq_ok.mp h
  cases h
  have hins := orRaise_eq_ok.mp hins
  obtain ⟨hfree, hsafe⟩ := Bag.room_eq hroom
  have hmem : Bag.newItem e.backpack slot line.template qty s.items.next ∈ items :=
    (SerialTable.mem_insert? hins).mpr (Or.inl rfl)
  refine { out := rfl, next := ?_, old := old_of_insert hins rfl, new := fun r' hr' => ?_,
           free := Or.inr ⟨⟨slot, hfree⟩, hsafe⟩, placed := ⟨_, hmem, rfl, rfl, rfl⟩,
           capped := fun r' hr' hid => ?_, orders := fun _ h => h, ordered := fun _ h => Or.inl h,
           fulfilled := fun _ h => h, unlocks := fun _ h => h }
  · exact (SerialTable.rows_insert? hins).2 ▸ Nat.le_succ _
  · refine Or.imp_right (fun hnew => ?_) (new_of_insert rfl hins r' hr')
    rw [hnew]
    exact ⟨Nat.le_refl _, rfl, rfl, fun _ => ⟨slot, hfree, rfl⟩⟩
  · rw [eq_of_insert hins hr' (Option.some.inj hid).symm]
    exact ⟨cap, hcap, Int.ofNat_le.mpr hqty⟩

theorem toExchange_put {cat : Int × Int} {expiry : Int} (hbackpack : e.backpack ≠ exchangeInv)
    (hexpiry : e.expiry = some expiry) (hsolaris : line.template ≠ solarisTemplate) (hcap : e.capOf line.template = some cap)
    (hqty : qty ≤ cap.size) (h : s.toExchange e line qty cat expiry = .ok s') :
    Put e s ⟨.exchange, line.house, line.template, qty, some s.items.next, some s.orders.next, none⟩
      s' := by
  obtain ⟨items, hins, h⟩ := bind_eq_ok.mp h
  obtain ⟨orders, hord, h⟩ := bind_eq_ok.mp h
  cases h
  have hins := orRaise_eq_ok.mp hins
  have hord := orRaise_eq_ok.mp hord
  have hmem := (SerialTable.mem_insert? hins).mpr (Or.inl rfl)
  have hmemOrder := (SerialTable.mem_insert? hord).mpr (Or.inl rfl)
  refine { out := rfl, next := ?_, old := old_of_insert hins rfl, new := fun r' hr' => ?_,
           free := Or.inl rfl, placed := ?_, capped := fun r' hr' hid => ?_,
           orders := fun _ h => (SerialTable.mem_insert? hord).mpr (Or.inr h),
           ordered := fun order horder => ?_, fulfilled := fun _ h => List.mem_cons_of_mem _ h,
           unlocks := fun _ h => h }
  · exact (SerialTable.rows_insert? hins).2 ▸ Nat.le_succ _
  · refine Or.imp_right (fun hnew => ?_) (new_of_insert rfl hins r' hr')
    rw [hnew]
    refine ⟨Nat.le_refl _, rfl, rfl, fun hinv => ?_⟩
    exact absurd (Option.some.inj hinv).symm hbackpack
  · exact ⟨hsolaris, _, hmem, rfl, rfl, rfl, _, hmemOrder, rfl, rfl, rfl, rfl,
      List.mem_cons_self .., rfl, expiry, hexpiry, rfl⟩
  · rw [eq_of_insert hins hr' (Option.some.inj hid).symm]
    exact ⟨cap, hcap, Int.ofNat_le.mpr hqty⟩
  · rcases (SerialTable.mem_insert? hord).mp horder with rfl | hold
    · exact Or.inr ⟨rfl, rfl, hexpiry.symm⟩
    · exact Or.inl hold

theorem log_put {lane : Lane} {note : Option String} {actors : Table Actor Actor.id}
    (hplaced : Placed e { s with actors } ⟨lane, line.house, line.template, qty, none, none, note⟩)
    (hunlocks : ∀ unlock, Bag.hasUnlock s.actors e.pawn unlock = .ok true →
      Bag.hasUnlock actors e.pawn unlock = .ok true) :
    Put e s ⟨lane, line.house, line.template, qty, none, none, note⟩
      ({ s with actors }.log lane line qty none none note) := by
  have hgrow : ∀ r : Item,
      grow (units [(⟨lane, line.house, line.template, qty, none, none, note⟩ : Out)] r.id) r = r := by
    intro r
    rw [units_single, if_neg (by simp), grow_zero]
  refine { out := rfl, next := Nat.le_refl _, old := fun r hr => ?_, new := fun r hr => ?_,
           free := Or.inl rfl, placed := ?_, capped := fun _ _ h => (by cases h),
           orders := fun _ h => h, ordered := fun _ h => Or.inl h, fulfilled := fun _ h => h,
           unlocks := hunlocks }
  · rw [hgrow]
    exact hr
  · exact Or.inl ⟨r, hr, (hgrow r).symm⟩
  · cases lane with
    | backpack => exact hplaced
    | exchange => exact hplaced
    | unlock => exact hplaced
    | rep => exact hplaced

theorem stay_put {note : String} :
    Put e s ⟨.rep, line.house, line.template, qty, none, none, some note⟩ (s.stay line qty note) :=
  @log_put e s line qty .rep (some note) s.actors rfl (fun _ h => h)

theorem coinStack_spec (h : s.coinStack e = some r) : r ∈ s.items ∧
    r.inventoryId = some e.backpack ∧ r.templateId = solarisTemplate ∧
    r.stackSize < (solarisStackMax : Int) := by
  obtain ⟨hrow, hsmall⟩ := List.mem_filter.mp (pick_mem h)
  obtain ⟨hmem, hinv, htemplate⟩ := Items.mem_rowsOf.mp hrow
  exact ⟨hmem, hinv, htemplate, of_decide_eq_true hsmall⟩

theorem merge_put (htemplate : line.template = solarisTemplate) (hstack : s.coinStack e = some r)
    (hqty : r.stackSize + qty ≤ solarisStackMax) {note : String} :
    Put e s ⟨.backpack, line.house, line.template, qty, some r.id, none, some note⟩
      ({ s with
        items := s.items.update (fun q => q.id = r.id) (grow qty) (Bag.id_grow qty) (Bag.id_grow qty)
        }.log .backpack line qty (some r.id) none (some note)) := by
  obtain ⟨hmem, hinv, hsolaris, -⟩ := coinStack_spec hstack
  have hunits : ∀ q : Item, grow (units [(⟨.backpack, line.house, line.template, qty, some r.id, none,
      some note⟩ : Out)] q.id) q = if decide (q.id = r.id) then grow qty q else q := by
    intro q
    rw [units_single]
    by_cases hid : q.id = r.id
    · rw [if_pos (by rw [hid]), if_pos (decide_eq_true hid)]
    · have hne : r.id ≠ q.id := fun h => hid h.symm
      rw [if_neg (by simpa using hne), if_neg (by simpa using hid), grow_zero]
  have hgrown : grow qty r ∈ s.items.update (fun q => q.id = r.id) (grow qty) (Bag.id_grow qty)
      (Bag.id_grow qty) := (SerialTable.mem_update_id hmem).mpr (Or.inl rfl)
  have hmemGrown : ∀ q', q' ∈ s.items.update (fun q => q.id = r.id) (grow qty) (Bag.id_grow qty)
      (Bag.id_grow qty) ↔ ∃ q ∈ s.items, q' = if decide (q.id = r.id) then grow qty q else q :=
    fun _ => SerialTable.mem_update
  refine { out := rfl, next := Nat.le_refl _, old := fun q hq => ?_, new := fun q' hq' => ?_,
           free := Or.inl rfl, placed := ⟨_, hgrown, rfl, hinv, ?_⟩, capped := fun q' hq' hid => ?_,
           orders := fun _ h => h, ordered := fun _ h => Or.inl h, fulfilled := fun _ h => h,
           unlocks := fun _ h => h }
  · rw [hunits]
    exact (hmemGrown _).mpr ⟨q, hq, rfl⟩
  · obtain ⟨q, hq, rfl⟩ := (hmemGrown q').mp hq'
    exact Or.inl ⟨q, hq, (hunits q).symm⟩
  · exact hsolaris.trans htemplate.symm
  · obtain rfl : grow qty r = q' := SerialTable.eq_of_id_eq hgrown hq' (Option.some.inj hid)
    refine ⟨Cap.solaris, ?_, hqty⟩
    show e.capOf r.templateId = _
    rw [hsolaris]
    exact if_pos rfl

/-! ### Unlocks -/

theorem hasUnlock_eq_true {actors : Table Actor Actor.id} {pawn : Nat} {unlock : String} :
    Bag.hasUnlock actors pawn unlock = .ok true ↔
      ∃ a, actors.get? pawn = some a ∧ ∃ ids, a.unlocks = .ids ids ∧ unlock ∈ ids := by
  unfold Bag.hasUnlock
  cases actors.get? pawn with
  | none => simp
  | some a => cases hunlocks : a.unlocks <;> simp [hunlocks]

theorem hasUnlock_addUnlock {actors : Table Actor Actor.id} {pawn : Nat} {unlock unlock' : String}
    (h : Bag.hasUnlock actors pawn unlock' = .ok true) :
    Bag.hasUnlock (Bag.addUnlock pawn unlock actors) pawn unlock' = .ok true := by
  obtain ⟨a, ha, ids, hids, hmem⟩ := hasUnlock_eq_true.mp h
  refine hasUnlock_eq_true.mpr ⟨{ a with unlocks := .ids (ids ++ [unlock]) }, ?_, _, rfl,
    List.mem_append_left _ hmem⟩
  unfold Bag.addUnlock
  rw [Table.get?_update, ha, Option.map_some, if_pos (decide_eq_true (Table.key_of_get? ha)), hids]

theorem unlock_put {unlock : String} {done : Nat} (hknown : swatchUnlock line.template = some unlock)
    (h : s.unlock e line unlock = .ok (done, s')) : done = line.amount ∧ ∃ note,
      Put e s ⟨.unlock, line.house, line.template, line.amount, none, none, note⟩ s' := by
  obtain ⟨has, hhas, h⟩ := bind_eq_ok.mp h
  split at h
  · case isTrue htrue =>
    cases h
    subst htrue
    have hput := @log_put e s line line.amount .unlock (some "already_unlocked") s.actors
      ⟨rfl, unlock, hknown, hhas⟩ (fun _ h => h)
    exact ⟨rfl, _, hput⟩
  · obtain ⟨has', hhas', h⟩ := bind_eq_ok.mp h
    obtain ⟨u, hrequire, h⟩ := bind_eq_ok.mp h
    cases h
    rw [require_eq_ok.mp hrequire] at hhas'
    exact ⟨rfl, _, log_put (s := s) ⟨rfl, unlock, hknown, hhas'⟩
      (fun _ h => hasUnlock_addUnlock h)⟩

end Groups

/-- The receipt `out` has been written from `s` to `s'`. -/
inductive Puts (e : Setting) (s : Bag) : List Out → Bag → Prop
  | nil : Puts e s [] s
  | snoc {out : List Out} {o : Out} {s₁ s₂ : Bag} (hs : Puts e s out s₁) (h : Put e s₁ o s₂) :
      Puts e s (out ++ [o]) s₂

namespace Puts

variable {e : Setting} {s s' s'' : Bag} {out out' : List Out} {o : Out}

theorem single (h : Put e s o s') : Puts e s [o] s' := snoc nil h

theorem append (h : Puts e s out s') (h' : Puts e s' out' s'') : Puts e s (out ++ out') s'' := by
  induction h' with
  | nil => rwa [List.append_nil]
  | snoc _ hput ih =>
    rw [← List.append_assoc]
    exact snoc ih hput

theorem out_eq (h : Puts e s out s') : s'.out = s.out ++ out := by
  induction h with
  | nil => rw [List.append_nil]
  | snoc _ hput ih => rw [hput.out, ih, List.append_assoc]

/-! ### Stacks -/

structure Sound (e : Setting) (s : Bag) (out : List Out) (s' : Bag) : Prop where
  next : s.items.next ≤ s'.items.next
  grown : ∀ r ∈ s.items, grow (units out r.id) r ∈ s'.items
  new : ∀ r' ∈ s'.items, (∃ r ∈ s.items, r.id = r'.id) ∨
    s.items.next ≤ r'.id ∧ r'.stackSize = units out r'.id ∧ ∃ o ∈ out, o.itemId = some r'.id
  placed : ∀ o ∈ out, Placed e s' o
  capped : ∀ o ∈ out, ∀ r' ∈ s'.items, o.itemId = some r'.id → Capped e r'
  orders : ∀ order ∈ s.orders, order ∈ s'.orders
  ordered : ∀ order ∈ s'.orders, order ∈ s.orders ∨
    (∃ o ∈ out, o.lane = .exchange ∧ o.orderId = some order.id) ∧ order.expirationTime = e.expiry

theorem placed_mono (hput : Put e s o s') {o₀ : Out} (h : Placed e s o₀) : Placed e s' o₀ := by
  unfold Placed at h ⊢
  cases hlane : o₀.lane with
  | backpack =>
    simp only [hlane] at h ⊢
    obtain ⟨r, hr, hid, hinv, htemplate⟩ := h
    exact ⟨_, hput.old r hr, hid, hinv, htemplate⟩
  | exchange =>
    simp only [hlane] at h ⊢
    obtain ⟨hsolaris, r, hr, hid, hinv, htemplate, order, horder, hoid, hitem, howner, hotemplate,
      hfulfilled, hexpires⟩ := h
    exact ⟨hsolaris, _, hput.old r hr, hid, hinv, htemplate, order, hput.orders order horder, hoid,
      hitem, howner, hotemplate, hput.fulfilled _ hfulfilled, hexpires⟩
  | unlock =>
    simp only [hlane] at h ⊢
    obtain ⟨hitem, unlock, hknown, hhas⟩ := h
    exact ⟨hitem, unlock, hknown, hput.unlocks unlock hhas⟩
  | rep =>
    simp only [hlane] at h ⊢
    exact h

theorem below_of_placed (h : Placed e s o) {i : Nat} (hi : o.itemId = some i) : i < s.items.next := by
  unfold Placed at h
  cases hlane : o.lane with
  | backpack =>
    simp only [hlane] at h
    obtain ⟨r, hr, hid, -⟩ := h
    rw [hid] at hi
    exact Option.some.inj hi ▸ SerialTable.id_lt_next hr
  | exchange =>
    simp only [hlane] at h
    obtain ⟨-, r, hr, hid, -⟩ := h
    rw [hid] at hi
    exact Option.some.inj hi ▸ SerialTable.id_lt_next hr
  | unlock =>
    simp only [hlane] at h
    rw [h.1] at hi
    cases hi
  | rep =>
    simp only [hlane] at h
    rw [h] at hi
    cases hi

theorem Sound.step (h : Sound e s out s') (hput : Put e s' o s'') : Sound e s (out ++ [o]) s'' where
  next := Nat.le_trans h.next hput.next
  grown := by
    intro r hr
    rw [units_append, ← grow_grow]
    exact hput.old _ (h.grown r hr)
  new := by
    intro r' hr'
    rcases hput.new r' hr' with ⟨r, hr, rfl⟩ | ⟨hfresh, hid, hsize, -⟩
    · rcases h.new r hr with hold | ⟨hnew, hsize, o', ho', hid⟩
      · exact Or.inl hold
      · refine Or.inr ⟨hnew, ?_, o', List.mem_append_left _ ho', hid⟩
        show r.stackSize + _ = ((units (out ++ [o]) r.id : Nat) : Int)
        rw [units_append, hsize]
        push_cast
        rfl
    · refine Or.inr ⟨Nat.le_trans h.next hfresh, ?_, o, ?_, hid⟩
      · have hnone : units out r'.id = 0 := by
          refine units_eq_zero (fun o' ho' hid' => ?_)
          have hlt := below_of_placed (h.placed o' ho') hid'
          omega
        rw [units_append, hnone, units_single, if_pos hid, hsize, Nat.zero_add]
      · exact List.mem_append_right _ (List.mem_singleton_self o)
  placed := by
    intro o' ho'
    rcases List.mem_append.mp ho' with ho' | ho'
    · exact placed_mono hput (h.placed o' ho')
    · exact List.mem_singleton.mp ho' ▸ hput.placed
  capped := by
    intro o' ho' r' hr' hid
    by_cases hnow : o.itemId = some r'.id
    · exact hput.capped r' hr' hnow
    · rcases List.mem_append.mp ho' with ho' | ho'
      · rcases hput.new r' hr' with ⟨r, hr, rfl⟩ | ⟨-, hid', -⟩
        · have hzero : units [o] r.id = 0 := by
            rw [units_single]
            exact if_neg hnow
          rw [hzero, grow_zero] at hid ⊢
          exact h.capped o' ho' r hr hid
        · exact absurd hid' hnow
      · exact absurd (List.mem_singleton.mp ho' ▸ hid) hnow
  orders := fun order horder => hput.orders order (h.orders order horder)
  ordered := by
    intro order horder
    rcases hput.ordered order horder with hold | ⟨hlane, hid, hexpires⟩
    · rcases h.ordered order hold with hold | ⟨⟨o', ho', hnew⟩, hexpires⟩
      · exact Or.inl hold
      · exact Or.inr ⟨⟨o', List.mem_append_left _ ho', hnew⟩, hexpires⟩
    · have ho := List.mem_append_right out (List.mem_singleton_self o)
      exact Or.inr ⟨⟨o, ho, hlane, hid⟩, hexpires⟩

theorem sound (h : Puts e s out s') : Sound e s out s' := by
  induction h with
  | nil =>
    exact { next := Nat.le_refl _, grown := fun r hr => by rwa [units_nil, grow_zero],
            new := fun r hr => Or.inl ⟨r, hr, rfl⟩, placed := fun _ h => absurd h List.not_mem_nil,
            capped := fun _ h => absurd h List.not_mem_nil, orders := fun _ h => h,
            ordered := fun _ h => Or.inl h }
  | snoc _ hput ih => exact ih.step hput

/-! ### Slots -/

/-- `free` are slots of the backpack in which nothing stands. -/
def Free (e : Setting) (s : Bag) : Prop :=
  ∀ slot ∈ s.free, ∀ r ∈ s.items, r.inventoryId = some e.backpack → r.positionIndex ≠ (slot : Int)

structure Slotted (e : Setting) (s s' : Bag) : Prop where
  sub : s'.free.Sublist s.free
  free : Free e s'
  room : (∃ r' ∈ s'.items, s.items.next ≤ r'.id ∧ r'.inventoryId = some e.backpack) →
    slotSafety ≤ s'.free.length
  share : ∀ i j, s'.items.Share e.backpack i j → s.items.Share e.backpack i j

theorem free_step (hput : Put e s o s') (hnodup : s.free.Nodup) (h : Free e s) : Free e s' := by
  intro slot hslot r' hr' hinv
  have hsub : s'.free ⊆ s.free := by
    rcases hput.free with heq | ⟨⟨_, heq⟩, -⟩
    · rw [heq]
      exact List.Subset.refl _
    · rw [heq]
      exact List.subset_cons_self _ _
  rcases hput.new r' hr' with ⟨r, hr, rfl⟩ | ⟨-, -, -, hnew⟩
  · exact h slot (hsub hslot) r hr hinv
  · obtain ⟨slot', hfree, hpos⟩ := hnew hinv
    rw [hfree, List.nodup_cons] at hnodup
    rw [hpos]
    intro heq
    exact hnodup.1 (Int.ofNat.inj heq ▸ hslot)

theorem share_step (hput : Put e s o s') (h : Free e s) {i j : Nat}
    (hshare : s'.items.Share e.backpack i j) : s.items.Share e.backpack i j := by
  obtain ⟨hne, r', hr', q', hq', rfl, rfl, hrinv, hqinv, hpos⟩ := hshare
  rcases hput.new r' hr' with ⟨r, hr, rfl⟩ | ⟨-, hrid, -, hrnew⟩
  · rcases hput.new q' hq' with ⟨q, hq, rfl⟩ | ⟨-, -, -, hqnew⟩
    · exact ⟨hne, r, hr, q, hq, rfl, rfl, hrinv, hqinv, hpos⟩
    · obtain ⟨slot, hfree, hslot⟩ := hqnew hqinv
      exact absurd (hpos.trans hslot) (h slot (hfree ▸ List.mem_cons_self ..) r hr hrinv)
  · rcases hput.new q' hq' with ⟨q, hq, rfl⟩ | ⟨-, hqid, -⟩
    · obtain ⟨slot, hfree, hslot⟩ := hrnew hrinv
      exact absurd (hpos.symm.trans hslot) (h slot (hfree ▸ List.mem_cons_self ..) q hq hqinv)
    · exact absurd (Option.some.inj (hrid.symm.trans hqid)) hne

theorem slotted (h : Puts e s out s') (hnodup : s.free.Nodup) (hfree : Free e s) :
    Slotted e s s' := by
  induction h with
  | nil =>
    refine { sub := List.Sublist.refl _, free := hfree, room := ?_, share := fun _ _ h => h }
    rintro ⟨r, hr, hnew, -⟩
    have hlt := SerialTable.id_lt_next hr
    omega
  | @snoc out o s₁ s₂ hs hput ih =>
    have hnodup₁ := hnodup.sublist ih.sub
    refine { sub := ?_, free := free_step hput hnodup₁ ih.free, room := ?_,
             share := fun i j h => ih.share i j (share_step hput ih.free h) }
    · rcases hput.free with heq | ⟨⟨_, heq⟩, -⟩
      · exact heq ▸ ih.sub
      · exact List.Sublist.trans (heq ▸ List.sublist_cons_self _ _) ih.sub
    · rintro ⟨r', hr', hnew, hinv⟩
      rcases hput.free with heq | ⟨-, hsafe⟩
      · rcases hput.new r' hr' with ⟨r, hr, rfl⟩ | ⟨-, -, -, hslot⟩
        · rw [heq]
          exact ih.room ⟨r, hr, hnew, hinv⟩
        · -- a new row of the backpack takes a slot
          obtain ⟨slot, hcons, -⟩ := hslot hinv
          have hlength := congrArg List.length (heq.trans hcons)
          rw [List.length_cons] at hlength
          omega
      · exact hsafe

end Puts

end LastSietch.Landsraad
