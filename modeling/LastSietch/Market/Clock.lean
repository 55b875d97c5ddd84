import LastSietch.Lib.Runs
import LastSietch.Landsraad.Delivery
import LastSietch.Market.Writers

/-!
# The clock of the market

Each write takes the time from the orders and stores an order that the next write takes the time
from.

* `stored_clock`, `claimed_clock`: when a write leaves the clock where it is.
-/

namespace LastSietch.Market

open Runs (exec Along)
open Landsraad (Order Orders Native)

/-! ## The clock -/

section Clock

variable {orders orders' : Orders} {o : Order} {T e : Int} {id : Nat}

def Carries (T : Int) (o : Order) : Prop := counted o = some (T + daySecs)

theorem counted_eq_some : counted o = some e ↔
    o.isNpcOrder = false ∧ o.expirationTime = some e ∧ e < sentinel := by
  unfold counted
  split
  · case isTrue hnpc =>
    rw [Option.filter_eq_some_iff, decide_eq_true_eq]
    exact ⟨fun h => ⟨hnpc, h⟩, fun h => h.2⟩
  · case isFalse hnpc => exact iff_of_false (fun h => by cases h) (fun h => hnpc h.1)

theorem clock_eq_some : clock orders = some T ↔
    (∃ o ∈ orders, Carries T o) ∧ ∀ o ∈ orders, ∀ e, counted o = some e → e ≤ T + daySecs := by
  unfold clock
  rw [Option.map_eq_some_iff]
  constructor
  · rintro ⟨m, hmax, rfl⟩
    obtain ⟨hmem, hle⟩ := List.max?_eq_some_iff.mp hmax
    rw [Int.sub_add_cancel]
    obtain ⟨o, ho, hcounted⟩ := List.mem_filterMap.mp hmem
    refine ⟨⟨o, ho, ?_⟩, fun o ho e he => hle e (List.mem_filterMap.mpr ⟨o, ho, he⟩)⟩
    unfold Carries
    rw [Int.sub_add_cancel]
    exact hcounted
  · rintro ⟨⟨o, ho, hcarries⟩, hle⟩
    refine ⟨T + daySecs, List.max?_eq_some_iff.mpr ⟨?_, fun e he => ?_⟩, by omega⟩
    · exact List.mem_filterMap.mpr ⟨o, ho, hcarries⟩
    · obtain ⟨o, ho, he⟩ := List.mem_filterMap.mp he
      exact hle o ho e he

/-- An order that is not among `ids` carries the clock. -/
def Carried (T : Int) (orders : Orders) (ids : Nat → Prop) : Prop :=
  ∃ o ∈ orders, ¬ ids o.id ∧ Carries T o

/-- A player has an order with the expiration, which those among `ids` have, and the others are as
before. -/
structure Written (ids : Nat → Prop) (e : Int) (orders orders' : Orders) : Prop where
  here : ∃ o ∈ orders', counted o = if e < sentinel then some e else none
  new : ∀ o ∈ orders', ids o.id → o.expirationTime = some e
  others : ∀ o, ¬ ids o.id → (o ∈ orders' ↔ o ∈ orders)

theorem counted_player (hnpc : o.isNpcOrder = false) (hexpires : o.expirationTime = some e) :
    counted o = if e < sentinel then some e else none := by
  unfold counted
  rw [if_pos hnpc, hexpires]
  by_cases h : e < sentinel
  · rw [if_pos h]
    exact Option.filter_some_pos (decide_eq_true h)
  · rw [if_neg h]
    exact Option.filter_some_neg (by simpa using h)

theorem Stored.written (h : Stored id e orders orders') : Written (· = id) e orders orders' := by
  obtain ⟨o, ho, hid, hexpires, hnpc⟩ := h.here
  refine ⟨⟨o, ho, counted_player hnpc hexpires⟩, fun o' ho' hid' => ?_, h.others⟩
  rw [SerialTable.eq_of_id_eq ho' ho (hid'.trans hid.symm)]
  exact hexpires

theorem written_clock {ids : Nat → Prop} {window : Int} (hclock : clock orders = some T)
    (hwindow : daySecs ≤ window) (h : Written ids (T + window) orders orders') :
    clock orders' = some T ↔
      window = daySecs ∨ sentinel ≤ T + window ∧ Carried T orders ids := by
  obtain ⟨⟨c, hc, hcarries⟩, hle⟩ := clock_eq_some.mp hclock
  have hbelow : T + daySecs < sentinel := (counted_eq_some.mp hcarries).2.2
  obtain ⟨o, ho, hcounted⟩ := h.here
  rw [clock_eq_some]
  constructor
  · rintro ⟨⟨c', hc', hcarries'⟩, hle'⟩
    by_cases hday : window = daySecs
    · exact Or.inl hday
    · have hpast : sentinel ≤ T + window := by
        by_contra hnot
        rw [if_pos (by omega)] at hcounted
        have hlate := hle' o ho _ hcounted
        omega
      have hother : ¬ ids c'.id := by
        intro hnew
        have hexpires := h.new c' hc' hnew
        rw [(counted_eq_some.mp hcarries').2.1] at hexpires
        have hends := Option.some.inj hexpires
        omega
      exact Or.inr ⟨hpast, c', (h.others c' hother).mp hc', hother, hcarries'⟩
  · intro hkeeps
    have hrest : ∀ o' ∈ orders', ∀ e, counted o' = some e → e ≤ T + daySecs ∨ e = T + window := by
      intro o' ho' e he
      by_cases hnew : ids o'.id
      · have hexpires := h.new o' ho' hnew
        rw [(counted_eq_some.mp he).2.1] at hexpires
        exact Or.inr (Option.some.inj hexpires)
      · exact Or.inl (hle o' ((h.others o' hnew).mp ho') e he)
    rcases hkeeps with rfl | ⟨hpast, c', hc', hother, hcarries'⟩
    · rw [if_pos hbelow] at hcounted
      refine ⟨⟨o, ho, hcounted⟩, fun o' ho' e he => ?_⟩
      rcases hrest o' ho' e he with hold | hnew
      · exact hold
      · exact hnew.le
    · refine ⟨⟨c', (h.others c' hother).mpr hc', hcarries'⟩, fun o' ho' e he => ?_⟩
      have hcounts := (counted_eq_some.mp he).2.2
      rcases hrest o' ho' e he with hold | hnew
      · exact hold
      · omega

theorem carried_of_fresh (hclock : clock orders = some T) (hfresh : ∀ o ∈ orders, o.id ≠ id) :
    Carried T orders (· = id) := by
  obtain ⟨⟨c, hc, hcarries⟩, -⟩ := clock_eq_some.mp hclock
  exact ⟨c, hc, hfresh c hc, hcarries⟩

end Clock

section Claims

variable {native : Native} {collate : String → String → Bool} {c : Landsraad.Call}
  {land land' : Landsraad.Db} {report : Landsraad.Report} {T : Int}

theorem claim_written (h : land.claim native collate c = .ok (report, land'))
    (hnow : land.gameNow c.now = some T) (hover : ∃ o ∈ report.lines, o.lane = .exchange) :
    Written (fun i => ∀ o ∈ land.orders, o.id ≠ i) (T + Landsraad.exchangeExpiryDays * daySecs)
      land.orders land'.orders := by
  obtain ⟨character, pawn, inv, -, -, -, hdelivered⟩ := Landsraad.claim_delivers h
  obtain ⟨free, hsound⟩ := hdelivered.sound
  have hexpiry : (land.setting c inv pawn).expiry =
      some (T + Landsraad.exchangeExpiryDays * daySecs) := by
    show land.expiry c.now = _
    unfold Landsraad.Db.expiry
    rw [hnow]
    rfl
  have hnew : ∀ o ∈ land'.orders, o ∈ land.orders ∨
      o.expirationTime = some (T + Landsraad.exchangeExpiryDays * daySecs) := fun o ho =>
    Or.imp_right (fun h => h.2.trans hexpiry) (hsound.ordered o ho)
  obtain ⟨line, hline, hlane⟩ := hover
  have hplaced := hsound.placed line hline
  unfold Landsraad.Placed at hplaced
  simp only [hlane] at hplaced
  obtain ⟨-, r, -, -, -, -, o, ho, -, -, -, -, -, hnpc, t, ht, hexpires⟩ := hplaced
  rw [hexpiry] at ht
  refine { here := ⟨o, ho, counted_player hnpc (hexpires.trans ht.symm)⟩,
           new := fun o ho hfresh => ?_, others := fun o hold => ⟨fun ho => ?_, hsound.orders o⟩ }
  · rcases hnew o ho with hmem | hexpires
    · exact absurd rfl (hfresh o hmem)
    · exact hexpires
  · simp only [not_forall, not_not] at hold
    obtain ⟨o', ho', hid⟩ := hold
    rwa [← SerialTable.eq_of_id_eq (hsound.orders o' ho') ho hid]

end Claims

/-! ## Runs -/

structure Stamp where
  orderId : Nat
  window : Int
  expiration : Option Int
  deriving DecidableEq, Repr

structure Sys where
  db : Db
  stamps : List Stamp

inductive Act
  | list (q : Listing)
  | cancel (q : Cancel)
  | relist (q : Relist)
  | claim (c : Landsraad.Call)

section Runs

variable (x : Exchange) (native : Native) (collate : String → String → Bool) (T : Int)

def Sys.commit (s : Sys) (window : Int) : Except Refusal (Receipt × Db) → Option Sys
  | .ok (r, db) => some ⟨db, s.stamps ++ [⟨r.orderId, window, db.expirationOf r.orderId⟩]⟩
  | .error _ => none

/-- A claim at the time `T` that overflows to the exchange. -/
def Sys.claim (s : Sys) (c : Landsraad.Call) : Option Sys :=
  if c.preview = false ∧ s.db.land.gameNow c.now = some T then
    match s.db.land.claim native collate c with
    | .ok (report, land) =>
      if ∃ o ∈ report.lines, o.lane = .exchange then some { s with db := { s.db with land } }
      else none
    | .error _ => none
  else none

/-- One write at the time `T`. -/
def step (s : Sys) : Act → Option Sys
  | .list q => s.commit (q.days * daySecs) (s.db.sell x q)
  | .cancel q => s.commit purgeWindowSecs (s.db.cancel x q)
  | .relist q => s.commit (q.days * daySecs) (s.db.relist x q)
  | .claim c => s.claim native collate T c

/-- The clock is at `T`, and every listing and cancel has got its window from `T`. -/
def OnTime (s : Sys) : Prop :=
  clock s.db.orders = some T ∧ ∀ stamp ∈ s.stamps, stamp.expiration = some (T + stamp.window)

def Still (s : Sys) : Act → Prop
  | .list q => q.days = 1 ∨ sentinel ≤ T + q.days * daySecs
  | .cancel q => sentinel ≤ T + purgeWindowSecs ∧ Carried T s.db.orders (· = q.orderId)
  | .relist q => q.days = 1 ∨
      sentinel ≤ T + q.days * daySecs ∧ Carried T s.db.orders (· = q.orderId)
  | .claim _ => sentinel ≤ T + Landsraad.exchangeExpiryDays * daySecs

variable {x native collate T} {s s' : Sys} {a : Act} {as : List Act}

theorem days_mul_eq {days : Nat} : (days : Int) * daySecs = daySecs ↔ days = 1 := by
  unfold daySecs
  omega

theorem day_le_days {days : Nat} (h : days ∈ validDurations) : daySecs ≤ days * daySecs := by
  have hpos : 1 ≤ days := by
    unfold validDurations at h
    simp only [List.mem_cons, List.not_mem_nil, or_false] at h
    omega
  unfold daySecs
  omega

theorem commit_onTime {window : Int} {result : Except Refusal (Receipt × Db)} (hs : OnTime T s)
    (hwindow : daySecs ≤ window)
    (hstores : ∀ r db, result = .ok (r, db) → Stores window s.db r db)
    (h : s.commit window result = some s') : ∃ r db, result = .ok (r, db) ∧
      (OnTime T s' ↔ window = daySecs ∨
        sentinel ≤ T + window ∧ Carried T s.db.orders (· = r.orderId)) := by
  unfold Sys.commit at h
  split at h
  · case h_1 r db =>
    cases h
    refine ⟨r, db, rfl, ?_⟩
    obtain ⟨T', hclock, hstored⟩ := hstores r db rfl
    obtain rfl : T' = T := Option.some.inj (hclock.symm.trans hs.1)
    obtain ⟨o, ho, hid, hexpires, -⟩ := hstored.here
    have hexpiration : db.expirationOf r.orderId = some (T' + window) := by
      unfold Db.expirationOf
      rw [SerialTable.byId?_eq_some.mpr ⟨ho, hid⟩]
      exact hexpires
    rw [← written_clock hclock hwindow hstored.written]
    refine ⟨fun h => h.1, fun h => ⟨h, fun stamp hstamp => ?_⟩⟩
    rcases List.mem_append.mp hstamp with hold | hnew
    · exact hs.2 stamp hold
    · rw [List.mem_singleton.mp hnew]
      exact hexpiration
  · cases h

theorem claim_onTime {c : Landsraad.Call} (hs : OnTime T s)
    (h : s.claim native collate T c = some s') :
    OnTime T s' ↔ sentinel ≤ T + Landsraad.exchangeExpiryDays * daySecs := by
  unfold Sys.claim at h
  split at h
  · case isTrue hcall =>
    split at h
    · case h_1 report land hclaim =>
      split at h
      · case isTrue hover =>
        cases h
        have hwritten := claim_written hclaim hcall.2 hover
        have hstays := written_clock hs.1 (by decide) hwritten
        obtain ⟨⟨o, ho, hcarries⟩, -⟩ := clock_eq_some.mp hs.1
        have hcarried : Carried T s.db.orders (fun i => ∀ o ∈ s.db.land.orders, o.id ≠ i) :=
          ⟨o, ho, fun h => h o ho rfl, hcarries⟩
        constructor
        · intro hs'
          rcases hstays.mp hs'.1 with hday | hpast
          · exact absurd hday (by decide)
          · exact hpast.1
        · exact fun hpast => ⟨hstays.mpr (Or.inr ⟨hpast, hcarried⟩), hs.2⟩
      · cases h
    · cases h
  · cases h

theorem step_onTime (hs : OnTime T s) (h : step x native collate T s a = some s') :
    Still T s a ↔ OnTime T s' := by
  cases a with
  | list q =>
    obtain ⟨r, db, hsell, hiff⟩ :=
      commit_onTime hs (day_le_days q.days_valid) (fun r db h => (Db.sell_stores h).1) h
    have hcarried := carried_of_fresh hs.1 (Db.sell_stores hsell).2
    unfold Still
    rw [hiff, days_mul_eq, and_iff_left hcarried]
  | cancel q =>
    obtain ⟨r, db, hcancel, hiff⟩ :=
      commit_onTime hs (by decide) (fun r db h => (Db.cancel_stores h).2) h
    unfold Still
    rw [hiff, (Db.cancel_stores hcancel).1, or_iff_right (by decide)]
  | relist q =>
    obtain ⟨r, db, hrelist, hiff⟩ :=
      commit_onTime hs (day_le_days q.days_valid) (fun r db h => (Db.relist_stores h).2) h
    unfold Still
    rw [hiff, (Db.relist_stores hrelist).1, days_mul_eq]
  | claim c => exact (claim_onTime hs h).symm

/-- The clock stays, and every stamp is right, all through a run exactly when each of its writes is
for a day, or past the sentinel. -/
theorem clock_iff (hs : OnTime T s) (hrun : exec (step x native collate T) s as = some s') :
    (∀ bs s'', bs <+: as → exec (step x native collate T) s bs = some s'' → OnTime T s'') ↔
      Along (step x native collate T) (Still T) s as :=
  Runs.along_iff_of_exec (fun _ _ _ hs h => step_onTime hs h) hs hrun

end Runs

/-! ## Thirty days for one

A day is left of two orders of player 11. One is cancelled, and a stack from the bank is listed for
a day after it. -/

def sampleOrder (id item : Nat) : Order :=
  ⟨id, 1, Landsraad.exchangeId, 11, some item, "CopperBar", 4, 1, Landsraad.accessPoint, false, 250,
    some (1000000 + daySecs), 1, 1, 0⟩

def sampleDb : Db where
  land :=
    { characters := [⟨1, some 11, some 101, some .other, some .offline, none, none, none⟩]
      accounts := Table.empty
      inventories := ⟨[⟨201, some 101, some 30, some 40, none⟩], List.nodup_singleton _⟩
      items := ⟨⟨[⟨1, some 201, 5, 0, "CopperBar", Landsraad.statsJson, 0, 0, true, none⟩],
        List.nodup_singleton _⟩, 2, List.nodup_singleton _, by decide⟩
      actors := Table.empty
      ledger := Table.empty
      orders := ⟨⟨[sampleOrder 1 51, sampleOrder 2 52], by decide⟩, 3, by decide, by decide⟩
      fulfilled := []
      deliveries := Table.empty
      farm := none
      exchange_no_backpack := by decide }
  sellOrders := [⟨1, 5⟩, ⟨2, 5⟩]
  balances := [⟨11, bankCurrencyId, 1000⟩]
  wallets := fun _ => 0
  placeables := []
  links := []
  ranks := []
  vehicles := []

theorem one_valid : 1 ∈ validDurations := by decide

def sampleCancel : Act := .cancel ⟨11, 2, 1⟩

def copperBars : Listing := ⟨11, 1, 5, 100, 1, 100, none, none, false, false, 0, one_valid⟩

def sampleListing : Act := .list copperBars

def sampleStep : Sys → Act → Option Sys :=
  step .described .game (fun a b => decide (a ≤ b)) 1000000

/-- The listing on its own leaves the clock where it is. -/
theorem listing_keeps_clock : ∃ s', exec sampleStep ⟨sampleDb, []⟩ [sampleListing] = some s' ∧
    ∀ bs s'', bs <+: [sampleListing] → exec sampleStep ⟨sampleDb, []⟩ bs = some s'' →
      OnTime 1000000 s'' := by
  have hrun : ∃ s', exec sampleStep ⟨sampleDb, []⟩ [sampleListing] = some s' ∧
      s'.stamps.length = 1 := Runs.exec_shows (by decide)
  obtain ⟨s', hs', -⟩ := hrun
  refine ⟨s', hs', (clock_iff ⟨by decide, ?_⟩ hs').mpr ⟨Or.inl rfl, fun _ _ => trivial⟩⟩
  exact fun _ h => absurd h List.not_mem_nil

/-- After the cancel, the clock is 29 days ahead, and the listing ends after thirty. -/
theorem purge_moves_clock : ¬ ∀ (x : Exchange) (native : Native) (collate : String → String → Bool)
    (T : Int) (s s' : Sys) (as : List Act), OnTime T s →
      exec (step x native collate T) s as = some s' → OnTime T s' := by
  intro h
  have hrun : ∃ s', exec sampleStep ⟨sampleDb, []⟩ [sampleCancel, sampleListing] = some s' ∧
      clock s'.db.orders = some (1000000 + 29 * daySecs) ∧
      ⟨3, daySecs, some (1000000 + 30 * daySecs)⟩ ∈ s'.stamps := Runs.exec_shows (by decide)
  obtain ⟨s', hs', -, hlate⟩ := hrun
  have honTime := h _ _ _ _ _ s' _ ⟨by decide, fun _ h => absurd h List.not_mem_nil⟩ hs'
  exact absurd (honTime.2 _ hlate) (by decide)

end LastSietch.Market
