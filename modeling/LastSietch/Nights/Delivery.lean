import LastSietch.Nights.Books
import LastSietch.Nights.Writer

/-!
# Refunded and granted

Every delivery attempt, of the order route, the sweep or an operator, is one call with the
order's key. A call may be served late, when its sender has given up and another call is out,
or never; an answer may be lost. A refund is safe when nothing was granted and no call is left
that could still grant. `World.lastWord` is that condition on the two refunds that can break
it: a definite failure counts when it is the writer's last word on the order, and an operator's
confirmation when it is true.

* `not_refunded_and_granted`: in every run under this condition no order is both refunded and
  granted, however calls are delayed, lost, repeated or answered late.
* `lateCall_refunded_and_granted`: a call that outlives its sender's timeout breaks it.
-/

namespace LastSietch.Nights

open Runs

/-! ## Calls -/

structure Request where
  call : Nat
  orderId : Nat
  payload : Payload
  deriving DecidableEq, Repr

structure Served where
  call : Nat
  orderId : Nat
  answer : Outcome
  deriving DecidableEq, Repr

structure Waiter where
  call : Nat
  orderId : Nat
  deriving DecidableEq, Repr

/-- `served` stands newest first. -/
structure World where
  shop : Shop
  claims : Claims
  next : Nat
  inFlight : List Request
  served : List Served
  waiting : List Waiter

def World.start : World := ⟨Shop.start, Table.empty, 0, [], [], []⟩

inductive Move
  | shop (op : ShopOp)
  | send (orderId : Nat) (now : Int)
  | serve (call : Nat) (facts : GameFacts)
  | lose (call : Nat)
  | answer (call : Nat)
  | timeout (call : Nat)
  | crash (call : Nat)

def ShopOp.isDelivery : ShopOp → Bool
  | .beginDelivery _ _ => true
  | .applyOutcome _ _ => true
  | _ => false

def World.waiter (w : World) (call : Nat) : Option Waiter :=
  w.waiting.find? (fun wt => wt.call = call)

def World.dropWaiter (w : World) (call : Nat) : List Waiter :=
  w.waiting.filter (fun wt => wt.call ≠ call)

def World.fold (w : World) (wt : Waiter) (outcome : Option Outcome) : World :=
  { w with
    shop := w.shop.perform (.applyOutcome wt.orderId outcome)
    waiting := w.dropWaiter wt.call }

def World.step (cfg : WriterConfig) (w : World) : Move → Option World
  | .shop op => if op.isDelivery then none else some { w with shop := w.shop.perform op }
  | .send orderId now =>
    match w.shop.beginDelivery orderId now with
    | (shop, none) => some { w with shop }
    | (shop, some order) =>
      some { w with
        shop
        next := w.next + 1
        inFlight := ⟨w.next, order.id, order.payload⟩ :: w.inFlight
        waiting := ⟨w.next, order.id⟩ :: w.waiting }
  | .serve call facts =>
    (w.inFlight.find? (fun r => r.call = call)).map (fun req =>
      let res := doSnShop cfg w.claims req.payload facts
      { w with
        claims := res.1
        inFlight := w.inFlight.filter (fun r => r.call ≠ call)
        served := ⟨call, req.orderId, res.2⟩ :: w.served })
  | .lose call => some { w with inFlight := w.inFlight.filter (fun r => r.call ≠ call) }
  | .answer call =>
    match w.waiter call, w.served.find? (fun e => e.call = call) with
    | some wt, some e => some (w.fold wt (some e.answer))
    | _, _ => none
  | .timeout call => (w.waiter call).map (fun wt => w.fold wt none)
  | .crash call => some { w with waiting := w.dropWaiter call }

def World.lastServed (w : World) (orderId : Nat) : Option Served :=
  w.served.find? (fun e => e.orderId = orderId)

def World.quiet (w : World) (orderId : Nat) : Bool :=
  w.inFlight.all (fun r => decide (r.orderId ≠ orderId))

def World.closed (w : World) (orderId : Nat) : Bool :=
  (w.shop.orders.byId? orderId).all (fun o => o.status.settled)

/-- A definite failure is folded in as the last word on its order, with no call left, and an
operator confirms only what is so. -/
def World.lastWord (w : World) : Move → Bool
  | .answer call =>
    match w.waiter call, w.served.find? (fun e => e.call = call) with
    | some wt, some e =>
      e.answer.definiteFailure.isNone || w.closed wt.orderId ||
        (w.quiet wt.orderId && decide (w.lastServed wt.orderId = some e))
    | _, _ => true
  | .shop (.refund orderId _ confirm) =>
    match w.shop.orders.byId? orderId with
    | none => true
    | some o =>
      !(o.needsConfirm && confirm) || (w.quiet orderId && (w.claims.get? o.deliveryKey).isNone)
  | _ => true

theorem perform_orders (s : Shop) (op : ShopOp) {o' : Order} (ho' : o' ∈ (s.perform op).orders) :
    (o'.id = s.orders.next ∧ o'.status ≠ .refunded ∧ o'.status ≠ .failed) ∨
      ∃ o ∈ s.orders, o'.identity = o.identity ∧ (o'.status = .failed → o.status = .failed) ∧
        (o'.status = .refunded →
          o.status = .refunded ∨ o.status.settled = false ∧ RefundCause o op) := by
  have hchange := perform_change s op
  revert hchange ho'
  generalize s.perform op = s'
  intro ho' hchange
  cases hchange with
  | placed catalog orders ledger row o hop hp =>
    rcases (SerialTable.mem_of_rows hp.rows).mp ho' with rfl | ho'
    · refine Or.inl ⟨hp.fresh, ?_, ?_⟩ <;> rcases hp.status with hs | ⟨hs, -⟩ <;> simp [hs]
    · exact Or.inr ⟨o', ho', rfl, fun h => h, Or.inl⟩
  | moved orders o q hm hstatus hfailed =>
    rcases hm.replaced.mem_iff.mp ho' with rfl | ⟨ho', -⟩
    · exact Or.inr ⟨o, hm.replaced.mem, hm.identity, fun h => absurd h hfailed,
        fun h => absurd h hstatus⟩
    · exact Or.inr ⟨o', ho', rfl, fun h => h, Or.inl⟩
  | refunded orders o q hm hstatus hcause =>
    rcases hm.replaced.mem_iff.mp ho' with rfl | ⟨ho', -⟩
    · refine Or.inr ⟨o, hm.replaced.mem, hm.identity, fun h => ?_,
        fun _ => Or.inr ⟨hm.unsettled, hcause⟩⟩
      rw [hstatus] at h
      cases h
    · exact Or.inr ⟨o', ho', rfl, fun h => h, Or.inl⟩
  | _ => exact Or.inr ⟨o', ho', rfl, fun h => h, Or.inl⟩

theorem perform_keeps (s : Shop) (op : ShopOp) {o : Order} (ho : o ∈ s.orders) :
    ∃ o' ∈ (s.perform op).orders, o'.identity = o.identity ∧ o.attempts ≤ o'.attempts := by
  have hkeep : ∀ {orders : Orders} {q q' : Order}, Moves s orders q q' →
      ∃ o' ∈ orders, o'.identity = o.identity ∧ o.attempts ≤ o'.attempts := by
    intro orders q q' hm
    by_cases hid : o.id = q.id
    · have heq : o = q := SerialTable.eq_of_id_eq ho hm.replaced.mem hid
      exact ⟨q', hm.replaced.mem_new, heq ▸ hm.identity, heq ▸ hm.attempts⟩
    · exact ⟨o, hm.replaced.mem_iff.mpr (Or.inr ⟨ho, hid⟩), rfl, le_refl _⟩
  have hchange := perform_change s op
  revert hchange
  generalize s.perform op = s'
  intro hchange
  cases hchange with
  | placed catalog orders ledger row q hop hp =>
    exact ⟨o, (SerialTable.mem_of_rows hp.rows).mpr (Or.inr ho), rfl, le_refl _⟩
  | moved orders q q' hm hstatus hfailed => exact hkeep hm
  | refunded orders q q' hm hstatus hcause => exact hkeep hm
  | _ => exact ⟨o, ho, rfl, le_refl _⟩

theorem payload_of_identity {o o' : Order} (h : o'.identity = o.identity) :
    o'.payload = o.payload ∧ o'.id = o.id ∧ o'.lane = o.lane ∧ o'.deliveryKey = o.deliveryKey := by
  simp only [Order.identity, Prod.mk.injEq] at h
  obtain ⟨hid, -, hp, ha, hc, hsku, hlane, -⟩ := h
  simp [Order.payload, Order.deliveryKey, hid, hp, ha, hc, hsku, hlane]

/-! ## The invariant -/

def Order.Sent (o : Order) : Prop := o.lane ∈ gameLanes ∧ 0 < o.attempts

structure Safe (w : World) (o : Order) : Prop where
  ungranted : w.claims.get? o.deliveryKey = none
  quiet : ∀ r ∈ w.inFlight, r.orderId ≠ o.id

structure Sound (cfg : WriterConfig) (w : World) : Prop where
  requests : ∀ r ∈ w.inFlight, ∃ o ∈ w.shop.orders, o.id = r.orderId ∧ r.payload = o.payload ∧ o.Sent
  granted : ∀ c ∈ w.claims, ∃ o ∈ w.shop.orders, c.key = o.deliveryKey ∧ o.Sent ∧
    cfg.refusal o.payload = none
  last : ∀ o ∈ w.shop.orders, ∀ e, w.lastServed o.id = some e → e.answer.definiteFailure ≠ none →
    w.claims.get? o.deliveryKey = none
  refunded : ∀ o ∈ w.shop.orders, o.status = .refunded → Safe w o
  noFailed : ∀ o ∈ w.shop.orders, o.status ≠ .failed

theorem sound_start (cfg : WriterConfig) : Sound cfg World.start where
  requests r hr := by cases hr
  granted c hc := absurd hc (Table.not_mem_empty c)
  last o ho := absurd ho (SerialTable.not_mem_empty o)
  refunded o ho := absurd ho (SerialTable.not_mem_empty o)
  noFailed o ho := absurd ho (SerialTable.not_mem_empty o)

namespace Sound

variable {cfg : WriterConfig} {w : World}

theorem of_claim (h : Sound cfg w) {o : Order} (ho : o ∈ w.shop.orders)
    (hclaim : w.claims.get? o.deliveryKey ≠ none) : o.Sent ∧ cfg.refusal o.payload = none := by
  obtain ⟨c, hc⟩ := Option.ne_none_iff_exists'.mp hclaim
  obtain ⟨hmem, hkey⟩ := Table.get?_eq_some.mp hc
  obtain ⟨q, hq, hqkey, hsent, hpass⟩ := h.granted c hmem
  have hid : o.id = q.id := congrArg (fun k => k.2.2) (hkey.symm.trans hqkey)
  rw [SerialTable.eq_of_id_eq ho hq hid]
  exact ⟨hsent, hpass⟩

theorem ungranted_of_next (h : Sound cfg w) {o : Order} (hid : o.id = w.shop.orders.next) :
    w.claims.get? o.deliveryKey = none := by
  refine Table.get?_eq_none.mpr (fun c hc hkey => ?_)
  obtain ⟨q, hq, hqkey, -, -⟩ := h.granted c hc
  have hqid : o.id = q.id := congrArg (fun k => k.2.2) (hkey.symm.trans hqkey)
  have := SerialTable.id_lt_next hq
  omega

theorem safe_of_unsent (h : Sound cfg w) {o : Order} (ho : o ∈ w.shop.orders) (hunsent : ¬ o.Sent) :
    Safe w o where
  ungranted := by
    by_contra hclaim
    exact hunsent (h.of_claim ho hclaim).1
  quiet r hr hid := by
    obtain ⟨q, hq, hqid, -, hsent⟩ := h.requests r hr
    rw [SerialTable.eq_of_id_eq hq ho (hqid.trans hid)] at hsent
    exact hunsent hsent

theorem perform (h : Sound cfg w) (op : ShopOp)
    (hcause : ∀ o ∈ w.shop.orders, o.status.settled = false → RefundCause o op → Safe w o) :
    Sound cfg { w with shop := w.shop.perform op } where
  requests r hr := by
    obtain ⟨o, ho, hid, hpayload, hlane, hattempts⟩ := h.requests r hr
    obtain ⟨o', ho', hidentity, hle⟩ := perform_keeps w.shop op ho
    obtain ⟨hp, hi, hl, -⟩ := payload_of_identity hidentity
    exact ⟨o', ho', hi.trans hid, hpayload.trans hp.symm, hl ▸ hlane, by omega⟩
  granted c hc := by
    obtain ⟨o, ho, hkey, ⟨hlane, hattempts⟩, hpass⟩ := h.granted c hc
    obtain ⟨o', ho', hidentity, hle⟩ := perform_keeps w.shop op ho
    obtain ⟨hp, -, hl, hk⟩ := payload_of_identity hidentity
    exact ⟨o', ho', hkey.trans hk.symm, ⟨hl ▸ hlane, by omega⟩, hp.symm ▸ hpass⟩
  last o' ho' e he hfail := by
    rcases perform_orders w.shop op ho' with ⟨hid, -, -⟩ | ⟨o, ho, hidentity, -, -⟩
    · exact h.ungranted_of_next hid
    · obtain ⟨-, hi, -, hk⟩ := payload_of_identity hidentity
      rw [hk]
      exact h.last o ho e (hi ▸ he) hfail
  refunded o' ho' hs := by
    rcases perform_orders w.shop op ho' with ⟨-, hne, -⟩ | ⟨o, ho, hidentity, -, hback⟩
    · exact absurd hs hne
    · obtain ⟨-, hi, -, hk⟩ := payload_of_identity hidentity
      have hsafe : Safe w o := by
        rcases hback hs with hold | ⟨hset, hc⟩
        · exact h.refunded o ho hold
        · exact hcause o ho hset hc
      exact ⟨by rw [hk]; exact hsafe.ungranted, by rw [hi]; exact hsafe.quiet⟩
  noFailed o' ho' hs := by
    rcases perform_orders w.shop op ho' with ⟨-, -, hne⟩ | ⟨o, ho, -, hback, -⟩
    · exact hne hs
    · exact h.noFailed o ho (hback hs)

theorem drop (h : Sound cfg w) {inFlight : List Request} (hsub : ∀ r ∈ inFlight, r ∈ w.inFlight)
    (waiting : List Waiter) (next : Nat) : Sound cfg { w with inFlight, waiting, next } where
  requests r hr := h.requests r (hsub r hr)
  granted := h.granted
  last := h.last
  refunded o ho hs := ⟨(h.refunded o ho hs).ungranted,
    fun r hr => (h.refunded o ho hs).quiet r (hsub r hr)⟩
  noFailed := h.noFailed

theorem fold (h : Sound cfg w) (wt : Waiter) (outcome : Option Outcome)
    (hlast : ∀ r, outcome = some r → r.definiteFailure ≠ none → w.closed wt.orderId = true ∨
      w.quiet wt.orderId = true ∧ ∃ e, w.lastServed wt.orderId = some e ∧ e.answer = r) :
    Sound cfg (w.fold wt outcome) := by
  refine (h.perform (.applyOutcome wt.orderId outcome) ?_).drop (fun r hr => hr) _ _
  intro o ho hset hc
  obtain ⟨hid, r, hr, hfail⟩ := hc.of_applyOutcome
  have hget : w.shop.orders.byId? wt.orderId = some o :=
    SerialTable.byId?_eq_some.mpr ⟨ho, hid.symm⟩
  obtain hclosed | ⟨hquiet, e, he, rfl⟩ := hlast r hr hfail
  · simp [World.closed, hget, hset] at hclosed
  rw [hid] at hquiet he
  refine ⟨h.last o ho e he hfail, fun q hq => ?_⟩
  exact of_decide_eq_true (List.all_eq_true.mp hquiet q hq)

theorem serve (h : Sound cfg w) {req : Request} (hreq : req ∈ w.inFlight) (call : Nat)
    (facts : GameFacts) {inFlight : List Request} (hsub : ∀ r ∈ inFlight, r ∈ w.inFlight) :
    Sound cfg { w with
      claims := (doSnShop cfg w.claims req.payload facts).1
      inFlight
      served := ⟨call, req.orderId, (doSnShop cfg w.claims req.payload facts).2⟩ :: w.served } := by
  obtain ⟨o, ho, hid, hpayload, hsent⟩ := h.requests req hreq
  have hkey : req.payload.key = o.deliveryKey := congrArg Payload.key hpayload
  rcases doSnShop_cases cfg w.claims req.payload facts with
    ⟨row, hrows, hrow, hpass, hfree, hanswer⟩ | ⟨hclaims, hanswer⟩
  · -- the key of the granted row is the order's, so nothing changes for any other order
    have hother : ∀ q ∈ w.shop.orders, q.id ≠ req.orderId →
        (doSnShop cfg w.claims req.payload facts).1.get? q.deliveryKey =
          w.claims.get? q.deliveryKey := by
      intro q hq hne
      have hqkey : row.key ≠ q.deliveryKey := by
        intro heq
        apply hne
        rw [hrow, hkey] at heq
        exact (congrArg (fun k => k.2.2) heq).symm.trans hid
      simp [Table.get?, hrows, hqkey]
    refine ⟨fun r hr => h.requests r (hsub r hr), fun c hc => ?_, fun q hq e he hfail => ?_,
      fun q hq hs => ?_, h.noFailed⟩
    · rcases (Table.mem_of_rows hrows).mp hc with rfl | hc
      · exact ⟨o, ho, hrow.trans hkey, hsent, hpayload ▸ hpass⟩
      · exact h.granted c hc
    · by_cases hq' : req.orderId = q.id
      · simp only [World.lastServed, List.find?_cons, hq', decide_true] at he
        cases he
        exact absurd hanswer hfail
      · simp only [World.lastServed, List.find?_cons, hq', decide_false] at he
        rw [hother q hq (Ne.symm hq')]
        exact h.last q hq e he hfail
    · have hsafe := h.refunded q hq hs
      refine ⟨?_, fun r hr => hsafe.quiet r (hsub r hr)⟩
      rw [hother q hq (Ne.symm (hsafe.quiet req hreq))]
      exact hsafe.ungranted
  · rw [hclaims]
    refine ⟨fun r hr => h.requests r (hsub r hr), h.granted, fun q hq e he hfail => ?_,
      fun q hq hs => ⟨(h.refunded q hq hs).ungranted,
        fun r hr => (h.refunded q hq hs).quiet r (hsub r hr)⟩, h.noFailed⟩
    by_cases hq' : req.orderId = q.id
    · simp only [World.lastServed, List.find?_cons, hq', decide_true] at he
      cases he
      have hqo : q = o := SerialTable.eq_of_id_eq hq ho (hq'.symm.trans hid.symm)
      subst hqo
      by_contra hclaim
      obtain ⟨code, hcode⟩ := Option.ne_none_iff_exists'.mp hfail
      rcases hanswer code hcode with hrefusal | hnone
      · rw [hpayload] at hrefusal
        exact hrefusal (h.of_claim hq hclaim).2
      · rw [hkey] at hnone
        exact hclaim hnone
    · simp only [World.lastServed, List.find?_cons, hq', decide_false] at he
      exact h.last q hq e he hfail

theorem send (h : Sound cfg w) (orderId : Nat) (now : Int) {w' : World}
    (hstep : World.step cfg w (.send orderId now) = some w') : Sound cfg w' := by
  have hperform : Sound cfg { w with shop := (w.shop.beginDelivery orderId now).1 } :=
    h.perform (.beginDelivery orderId now) (fun o _ _ hc => by cases hc)
  cases hbegin : w.shop.beginDelivery orderId now with
  | mk shop order =>
    simp only [World.step, hbegin] at hstep
    rw [hbegin] at hperform
    cases order with
    | none =>
      cases hstep
      exact hperform
    | some order =>
      cases hstep
      obtain ⟨horder, hstatus, hsent⟩ := beginDelivery_spec hbegin
      refine ⟨fun r hr => ?_, hperform.granted, hperform.last, fun o ho hs => ?_, hperform.noFailed⟩
      · rcases List.mem_cons.mp hr with rfl | hr
        · exact ⟨order, horder, rfl, rfl, hsent⟩
        · exact hperform.requests r hr
      · have hsafe := hperform.refunded o ho hs
        refine ⟨hsafe.ungranted, fun r hr => ?_⟩
        rcases List.mem_cons.mp hr with rfl | hr
        · intro hid
          have heq : order = o := SerialTable.eq_of_id_eq horder ho hid
          rw [← heq, hstatus] at hs
          cases hs
        · exact hsafe.quiet r hr

/-- Role orders are not the writer's, an order that needs no confirmation was never sent, and
the condition covers the rest. -/
theorem step (h : Sound cfg w) {m : Move} {w' : World} (hlast : w.lastWord m = true)
    (hstep : World.step cfg w m = some w') : Sound cfg w' := by
  cases m with
  | shop op =>
    simp only [World.step, Option.ite_none_left_eq_some, Option.some.injEq] at hstep
    obtain ⟨hop, rfl⟩ := hstep
    refine h.perform op (fun o ho hset hc => ?_)
    cases op with
    | ackRole orderId ok error =>
      refine h.safe_of_unsent ho (fun hsent => ?_)
      have hgame := hsent.1
      rw [hc.of_ackRole] at hgame
      simp [gameLanes] at hgame
    | refund orderId reason confirm =>
      obtain ⟨hid, hcheck⟩ := hc.of_refund
      have hget : w.shop.orders.byId? orderId = some o := SerialTable.byId?_eq_some.mpr ⟨ho, hid.symm⟩
      simp only [World.lastWord, hget, Bool.or_eq_true, Bool.not_eq_true', Bool.and_eq_true,
        Bool.and_eq_false_iff, Option.isNone_iff_eq_none] at hlast
      have hcases : o.needsConfirm = false ∨ w.quiet orderId = true ∧
          w.claims.get? o.deliveryKey = none := by
        rcases hcheck with hneeds | rfl
        · exact Or.inl hneeds
        · simpa using hlast
      rcases hcases with hneeds | ⟨hquiet, hfree⟩
      · refine h.safe_of_unsent ho (fun hsent => ?_)
        have hattempts := hsent.2
        have hfailed := h.noFailed o ho
        unfold Order.needsConfirm at hneeds
        cases hs : o.status <;> simp_all [Status.settled]
      · rw [hid] at hquiet
        exact ⟨hfree, fun q hq => of_decide_eq_true (List.all_eq_true.mp hquiet q hq)⟩
    | applyOutcome orderId outcome => simp [ShopOp.isDelivery] at hop
    | _ => cases hc
  | send orderId now => exact h.send orderId now hstep
  | serve call facts =>
    obtain ⟨req, hreq, rfl⟩ := Option.map_eq_some_iff.mp hstep
    exact h.serve (List.mem_of_find?_eq_some hreq) call facts
      (fun r hr => (List.mem_filter.mp hr).1)
  | lose call =>
    cases hstep
    exact h.drop (fun r hr => (List.mem_filter.mp hr).1) _ _
  | answer call =>
    simp only [World.step] at hstep
    split at hstep
    · rename_i wt e hwt he
      cases hstep
      refine h.fold wt (some e.answer) (fun r hr hfail => ?_)
      cases hr
      simp only [World.lastWord, hwt, he, Bool.or_eq_true, Option.isNone_iff_eq_none,
        Bool.and_eq_true, decide_eq_true_eq] at hlast
      rcases hlast with (hnone | hclosed) | ⟨hquiet, hserved⟩
      · exact absurd hnone hfail
      · exact Or.inl hclosed
      · exact Or.inr ⟨hquiet, e, hserved, rfl⟩
    · cases hstep
  | timeout call =>
    obtain ⟨wt, -, rfl⟩ := Option.map_eq_some_iff.mp hstep
    exact h.fold wt none (fun r hr => by cases hr)
  | crash call =>
    cases hstep
    exact h.drop (fun r hr => hr) _ _

end Sound

/-- Over every interleaving of attempts that are delayed, lost or answered late, redrives,
outcomes, acks and refunds in which a definite failure is the last word on its order and an
operator confirms only what is so: no order ends refunded with its item granted. -/
theorem not_refunded_and_granted (cfg : WriterConfig) {moves : List Move} {w : World}
    (hrun : exec (World.step cfg) World.start moves = some w)
    (hlast : Along (World.step cfg) (fun w m => w.lastWord m = true) World.start moves) :
    ∀ o ∈ w.shop.orders, ¬ (o.status = .refunded ∧ ∃ c ∈ w.claims, c.key = o.deliveryKey) := by
  have hsound : Sound cfg w :=
    exec_invariant (fun m a m' hm hg hs => hm.step hg hs) (sound_start cfg) hlast hrun
  rintro o ho ⟨hs, c, hc, hkey⟩
  exact Table.get?_eq_none.mp (hsound.refunded o ho hs).ungranted c hc hkey

def writerConfig : WriterConfig :=
  ⟨⟨[⟨"sn-still", .bank, 1, 1, 0, .off, true⟩], by decide⟩, 250000⟩

/-- The bank has 10 slots, `used` of them taken. -/
def bankFacts (used : Nat) : GameFacts :=
  ⟨true, true, false, true, 1, 0, 0, true, false, false, false, some (used, 10), false, false⟩

def orderStill : List Move :=
  [.shop (.adminAward 1 10 "case-1"),
    .shop (.placeOrder 1 "sn-still" stillKey stall 5 (some 10) (some 100)), .send 1 5]

/-- The first call does not get through in time. The second finds the bank full, which
refunds the order; the player makes room, and the first call is served after all. -/
def lateCallRun : List Move :=
  orderStill ++ [.timeout 0, .send 1 100, .serve 1 (bankFacts 10), .answer 1,
    .serve 0 (bankFacts 3)]

theorem lateCall_refunded_and_granted :
    ∃ w, exec (World.step writerConfig) World.start lateCallRun = some w ∧
      ∃ o ∈ w.shop.orders, o.status = .refunded ∧ ∃ c ∈ w.claims.rows, c.key = o.deliveryKey := by
  have hrun := (Option.some_get
    (show (exec (World.step writerConfig) World.start lateCallRun).isSome by rfl)).symm
  exact ⟨_, hrun, by decide⟩

def lostCallRun : List Move :=
  orderStill ++ [.timeout 0, .send 1 100, .lose 0, .serve 1 (bankFacts 10), .answer 1]

theorem not_refunded_and_granted_lostCall :
    ∃ w, exec (World.step writerConfig) World.start lostCallRun = some w ∧
      (∃ o ∈ w.shop.orders, o.status = .refunded) ∧
      ∀ o ∈ w.shop.orders, ¬ (o.status = .refunded ∧ ∃ c ∈ w.claims, c.key = o.deliveryKey) := by
  have hrun := (Option.some_get
    (show (exec (World.step writerConfig) World.start lostCallRun).isSome by rfl)).symm
  exact ⟨_, hrun, by decide, not_refunded_and_granted writerConfig hrun (by decide)⟩

end LastSietch.Nights
