import LastSietch.Landsraad.Puts

/-!
# The receipt of a line

What the loop writes for one line of the ledger accounts for all of it: what went into the bag, what
went to the exchange, the whole line where its unlock is on the pawn, and the rest at the rep.

* `fill_puts`: the loop over the chunks.
* `claimLines_receipts`: the loop over the ledger, with what it lists for the withdrawal.
-/

namespace LastSietch.Landsraad

def laneQty (lane : Lane) (out : List Out) : Nat :=
  ((out.filter (·.lane = lane)).map (·.qty)).sum

/-- The receipt of a line of which `done` is withdrawn. -/
structure Receipt (line : Line) (done : Nat) (out : List Out) : Prop where
  of : ∀ o ∈ out, o.house = line.house ∧ o.template = line.template
  sent : laneQty .backpack out + laneQty .exchange out + laneQty .unlock out = done
  rest : done + laneQty .rep out = line.amount
  whole : laneQty .unlock out = 0 ∨ laneQty .unlock out = line.amount

/-- A part of a receipt with `n` units in the backpack and on the exchange. -/
structure Moved (line : Line) (n : Nat) (out : List Out) : Prop where
  of : ∀ o ∈ out, o.house = line.house ∧ o.template = line.template
  sent : laneQty .backpack out + laneQty .exchange out = n
  unlock : laneQty .unlock out = 0
  rep : laneQty .rep out = 0

section Receipts

variable {line : Line} {out out' : List Out} {lane lane' : Lane} {m n qty : Nat}
  {item order : Option Nat} {note : Option String}

@[simp] theorem laneQty_nil : laneQty lane [] = 0 := rfl

@[simp] theorem laneQty_append : laneQty lane (out ++ out') = laneQty lane out + laneQty lane out' := by
  simp [laneQty]

@[simp] theorem laneQty_single :
    laneQty lane [⟨lane, line.house, line.template, qty, item, order, note⟩] = qty := by
  simp [laneQty]

theorem laneQty_other (h : lane' ≠ lane) :
    laneQty lane [⟨lane', line.house, line.template, qty, item, order, note⟩] = 0 := by
  simp [laneQty, h]

theorem Moved.nil : Moved line 0 [] :=
  ⟨fun _ h => absurd h List.not_mem_nil, rfl, rfl, rfl⟩

theorem Moved.append (h : Moved line m out) (h' : Moved line n out') :
    Moved line (m + n) (out ++ out') where
  of := by
    intro o ho
    rcases List.mem_append.mp ho with ho | ho
    · exact h.of o ho
    · exact h'.of o ho
  sent := by
    rw [laneQty_append, laneQty_append, ← h.sent, ← h'.sent]
    omega
  unlock := by rw [laneQty_append, h.unlock, h'.unlock]
  rep := by rw [laneQty_append, h.rep, h'.rep]

theorem Moved.backpack :
    Moved line qty [⟨.backpack, line.house, line.template, qty, item, order, note⟩] := by
  refine ⟨fun o ho => ?_, ?_, ?_, ?_⟩
  · rw [List.mem_singleton.mp ho]
    exact ⟨rfl, rfl⟩
  · rw [laneQty_single, laneQty_other (by decide), Nat.add_zero]
  · exact laneQty_other (by decide)
  · exact laneQty_other (by decide)

theorem Moved.exchange :
    Moved line qty [⟨.exchange, line.house, line.template, qty, item, order, note⟩] := by
  refine ⟨fun o ho => ?_, ?_, ?_, ?_⟩
  · rw [List.mem_singleton.mp ho]
    exact ⟨rfl, rfl⟩
  · rw [laneQty_single, laneQty_other (by decide), Nat.zero_add]
  · exact laneQty_other (by decide)
  · exact laneQty_other (by decide)

theorem Moved.receipt (h : Moved line n out) (hn : n ≤ line.amount) :
    Receipt line n (out ++
      [⟨.rep, line.house, line.template, line.amount - n, item, order, note⟩]) where
  of := by
    intro o ho
    rcases List.mem_append.mp ho with ho | ho
    · exact h.of o ho
    · rw [List.mem_singleton.mp ho]
      exact ⟨rfl, rfl⟩
  sent := by
    rw [laneQty_append, laneQty_append, laneQty_append, laneQty_other (by decide),
      laneQty_other (by decide), laneQty_other (by decide), h.unlock]
    exact h.sent
  rest := by
    rw [laneQty_append, h.rep, laneQty_single]
    omega
  whole := by
    rw [laneQty_append, h.unlock, laneQty_other (by decide)]
    exact Or.inl rfl

theorem Moved.all (h : Moved line line.amount out) : Receipt line line.amount out where
  of := h.of
  sent := by rw [h.unlock, Nat.add_zero, h.sent]
  rest := by rw [h.rep, Nat.add_zero]
  whole := Or.inl h.unlock

theorem Receipt.stay : Receipt line 0
    [⟨.rep, line.house, line.template, line.amount, item, order, note⟩] :=
  Moved.nil.receipt (Nat.zero_le _)

theorem Receipt.unlock : Receipt line line.amount
    [⟨.unlock, line.house, line.template, line.amount, item, order, note⟩] := by
  refine ⟨fun o ho => ?_, ?_, ?_, Or.inr ?_⟩
  · rw [List.mem_singleton.mp ho]
    exact ⟨rfl, rfl⟩
  · rw [laneQty_single, laneQty_other (by decide), laneQty_other (by decide), Nat.zero_add]
  · rw [laneQty_other (by decide), Nat.add_zero]
  · exact laneQty_single

end Receipts

/-! ## One line -/

section Line

variable {e : Setting} {s s' : Bag} {line : Line} {cap : Cap} {left left' done : Nat}

structure Setting.Fit (e : Setting) : Prop where
  backpack : e.backpack ≠ exchangeInv
  solaris : e.cat solarisTemplate = none

theorem place_put (hfit : e.Fit) (hcap : e.capOf line.template = some cap) {qty : Nat}
    {placed : Except Refusal Bag} (hqty : qty ≤ cap.size) (hplace : s.place e line qty = some placed)
    (h : placed = .ok s') : ∃ o, Put e s o s' ∧ Moved line qty [o] := by
  unfold Bag.place at hplace
  split at hplace
  · case h_1 slot rest hroom =>
    cases hplace
    exact ⟨_, toBackpack_put hcap hqty hroom h, Moved.backpack⟩
  · case h_2 cat expiry _ hcat hexpiry =>
    cases hplace
    refine ⟨_, toExchange_put hfit.backpack hexpiry (fun hsolaris => ?_) hcap hqty h, Moved.exchange⟩
    rw [hsolaris, hfit.solaris] at hcat
    cases hcat
  · cases hplace

theorem fill_puts (hfit : e.Fit) (hcap : e.capOf line.template = some cap)
    (h : s.fill e line cap left = .ok (left', s')) :
    left' ≤ left ∧ ∃ out, Puts e s out s' ∧ Moved line (left - left') out := by
  induction left using Nat.strong_induction_on generalizing s with
  | _ left ih =>
    unfold Bag.fill at h
    cases left with
    | zero =>
      cases h
      exact ⟨Nat.zero_le _, [], Puts.nil, Moved.nil⟩
    | succ rest =>
      have hsize := cap.size_pos
      dsimp only at h
      split at h
      · case h_1 placed hplace =>
        obtain ⟨s₁, hok, h⟩ := bind_eq_ok.mp h
        obtain ⟨o, hput, hmoved⟩ := place_put hfit hcap (Nat.min_le_right _ _) hplace hok
        obtain ⟨hle, out, hputs, hrest⟩ := ih _ (by omega) h
        refine ⟨by omega, [o] ++ out, (Puts.single hput).append hputs, ?_⟩
        have hsum : rest + 1 - left' =
            min (rest + 1) cap.size + (rest + 1 - min (rest + 1) cap.size - left') := by omega
        rw [hsum]
        exact hmoved.append hrest
      · cases h
        exact ⟨Nat.le_refl _, [], Puts.nil, (Nat.sub_self (rest + 1)).symm ▸ Moved.nil⟩

theorem deliver_receipt (hfit : e.Fit) (hcap : e.capOf line.template = some cap) {s₀ : Bag}
    {out : List Out} (hputs : Puts e s₀ out s) (hleft : left ≤ line.amount)
    (hmoved : Moved line (line.amount - left) out) (h : s.deliver e line cap left = .ok (done, s')) :
    ∃ out', Puts e s₀ out' s' ∧ Receipt line done out' := by
  obtain ⟨⟨left', s₁⟩, hfill, h⟩ := bind_eq_ok.mp h
  obtain ⟨hle, out₁, hputs₁, hmoved₁⟩ := fill_puts hfit hcap hfill
  have hall : Moved line (line.amount - left') (out ++ out₁) := by
    have hsum : line.amount - left' = line.amount - left + (left - left') := by omega
    rw [hsum]
    exact hmoved.append hmoved₁
  cases h
  split
  · case isTrue hrest =>
    refine ⟨_, (hputs.append hputs₁).append (Puts.single stay_put), ?_⟩
    have hreceipt : Receipt line (line.amount - left') (out ++ out₁ ++ [⟨.rep, line.house,
        line.template, line.amount - (line.amount - left'), none, none, some "no_room"⟩]) :=
      hall.receipt (Nat.sub_le _ _)
    rwa [Nat.sub_sub_self (Nat.le_trans hle hleft)] at hreceipt
  · case isFalse hnone =>
    obtain rfl : left' = 0 := by omega
    exact ⟨_, hputs.append hputs₁, hall.all⟩

theorem mergeCoins_puts (hsolaris : line.template = solarisTemplate) :
    (s.mergeCoins e line).1 ≤ line.amount ∧ ∃ out, Puts e s out (s.mergeCoins e line).2 ∧
      Moved line (line.amount - (s.mergeCoins e line).1) out := by
  unfold Bag.mergeCoins
  split
  · case h_1 r hstack =>
    obtain ⟨-, -, -, hsmall⟩ := coinStack_spec hstack
    refine ⟨Nat.sub_le _ _, _, Puts.single (merge_put hsolaris hstack ?_), ?_⟩
    · omega
    · rw [Nat.sub_sub_self (Nat.min_le_left _ _)]
      exact Moved.backpack
  · exact ⟨Nat.le_refl _, [], Puts.nil, (Nat.sub_self line.amount).symm ▸ Moved.nil⟩

theorem turn_receipt (hfit : e.Fit) (h : s.turn e line = .ok (done, s')) :
    ∃ out, Puts e s out s' ∧ Receipt line done out := by
  unfold Bag.turn at h
  split at h
  · split at h
    · split at h
      · case h_1 unlock hknown =>
        obtain ⟨rfl, note, hput⟩ := unlock_put hknown h
        exact ⟨_, Puts.single hput, Receipt.unlock⟩
      · cases h
        exact ⟨_, Puts.single stay_put, Receipt.stay⟩
    · cases h
      exact ⟨_, Puts.single stay_put, Receipt.stay⟩
  · split at h
    · case isTrue hsolaris =>
      obtain ⟨hle, out, hputs, hmoved⟩ := mergeCoins_puts (e := e) (s := s) hsolaris
      exact deliver_receipt hfit (if_pos hsolaris) hputs hle hmoved h
    · case isFalse hsolaris =>
      split at h
      · case h_1 cap hcap =>
        refine deliver_receipt hfit ((if_neg hsolaris).trans hcap) Puts.nil (Nat.le_refl _) ?_ h
        exact (Nat.sub_self line.amount).symm ▸ Moved.nil
      · cases h
        exact ⟨_, Puts.single stay_put, Receipt.stay⟩

end Line

/-! ## The ledger -/

section Loop

def Line.Same (a b : Line) : Prop := a.house = b.house ∧ a.template = b.template

instance (a b : Line) : Decidable (a.Same b) := inferInstanceAs (Decidable (_ ∧ _))

def ofLine (line : Line) (out : List Out) : List Out :=
  out.filter fun o => o.house = line.house ∧ o.template = line.template

def listed (lines : List Line) (line : Line) : Nat :=
  ((lines.filter (fun l => l.Same line)).map (·.amount)).sum

variable {e : Setting} {s s' : Bag} {line line' : Line} {lines withdraw withdraw' : List Line}
  {out out' : List Out} {done : Nat}

@[simp] theorem ofLine_append : ofLine line (out ++ out') = ofLine line out ++ ofLine line out' :=
  List.filter_append ..

theorem Receipt.ofLine_self (h : Receipt line done out) : ofLine line out = out :=
  List.filter_eq_self.mpr (fun o ho => decide_eq_true (h.of o ho))

theorem Receipt.ofLine_other (h : Receipt line done out) (hne : ¬ line.Same line') :
    ofLine line' out = [] := by
  refine List.filter_eq_nil_iff.mpr (fun o ho hmatch => hne ?_)
  obtain ⟨hhouse, htemplate⟩ := of_decide_eq_true hmatch
  obtain ⟨hhouse', htemplate'⟩ := h.of o ho
  exact ⟨hhouse'.symm.trans hhouse, htemplate'.symm.trans htemplate⟩

theorem listed_append : listed (lines ++ withdraw) line = listed lines line + listed withdraw line := by
  simp [listed]

theorem listed_single : listed [line'] line = if line'.Same line then line'.amount else 0 := by
  unfold listed
  by_cases h : line'.Same line
  · simp [h]
  · simp [h]

theorem listed_eq_zero (h : ∀ l ∈ lines, ¬ l.Same line) : listed lines line = 0 := by
  have hnone : lines.filter (fun l => l.Same line) = [] :=
    List.filter_eq_nil_iff.mpr (fun l hl => by simpa using h l hl)
  unfold listed
  rw [hnone]
  rfl

/-- What the loop leaves: each line has its receipt, and what is withdrawn is what was sent. -/
structure Claimed (e : Setting) (lines : List Line) (s : Bag) (withdraw : List Line) (s' : Bag) :
    Prop where
  puts : ∃ out, Puts e s out s' ∧ (∀ o ∈ out, ∃ line ∈ lines, o.house = line.house ∧
      o.template = line.template) ∧
    ∀ line ∈ lines, Receipt line (listed withdraw line) (ofLine line out)
  listed : ∀ l ∈ withdraw, ∃ line ∈ lines, l.Same line

theorem claimLines_receipts (hfit : e.Fit) (hpairs : lines.Pairwise (fun a b => ¬ a.Same b))
    (h : claimLines e lines (withdraw, s) = .ok (withdraw', s')) :
    ∃ w, withdraw' = withdraw ++ w ∧ Claimed e lines s w s' := by
  induction lines generalizing withdraw s with
  | nil =>
    cases h
    refine ⟨[], (List.append_nil _).symm, ⟨[], Puts.nil, ?_, ?_⟩, ?_⟩
    · exact fun o ho => absurd ho List.not_mem_nil
    · exact fun l hl => absurd hl List.not_mem_nil
    · exact fun l hl => absurd hl List.not_mem_nil
  | cons line lines ih =>
    obtain ⟨hfirst, hpairs⟩ := List.pairwise_cons.mp hpairs
    unfold claimLines at h
    rw [List.foldlM_cons] at h
    obtain ⟨⟨withdraw₁, s₁⟩, hturn, h⟩ := bind_eq_ok.mp h
    obtain ⟨⟨done, s₂⟩, hturn, hpure⟩ := bind_eq_ok.mp hturn
    cases hpure
    obtain ⟨out₁, hputs₁, hreceipt⟩ := turn_receipt hfit hturn
    obtain ⟨w, hw, ⟨out, hputs, hof, hreceipts⟩, hlisted⟩ := ih hpairs h
    have hstep : ∃ w₁, withdraw' = withdraw ++ (w₁ ++ w) ∧ (∀ l ∈ w₁, l.Same line) ∧
        listed w₁ line = done := by
      split at hw
      · refine ⟨[{ line with amount := done }], by rw [hw, List.append_assoc], fun l hl => ?_, ?_⟩
        · rw [List.mem_singleton.mp hl]
          exact ⟨rfl, rfl⟩
        · rw [listed_single, if_pos ⟨rfl, rfl⟩]
      · case isFalse hzero =>
        obtain rfl : done = 0 := by omega
        exact ⟨[], hw, fun l hl => absurd hl List.not_mem_nil, rfl⟩
    obtain ⟨w₁, hw₁, hsame, hdone⟩ := hstep
    refine ⟨w₁ ++ w, hw₁, ⟨out₁ ++ out, hputs₁.append hputs, fun o ho => ?_, fun l hl => ?_⟩,
      fun l hl => ?_⟩
    · rcases List.mem_append.mp ho with ho | ho
      · exact ⟨line, List.mem_cons_self .., hreceipt.of o ho⟩
      · obtain ⟨l, hl, hmatch⟩ := hof o ho
        exact ⟨l, List.mem_cons_of_mem _ hl, hmatch⟩
    · rw [ofLine_append, listed_append]
      rcases List.mem_cons.mp hl with rfl | hl
      · have hrest : listed w l = 0 := by
          refine listed_eq_zero (fun l' hl' hsame' => ?_)
          obtain ⟨l'', hl'', hsame''⟩ := hlisted l' hl'
          exact hfirst l'' hl'' ⟨hsame'.1.symm.trans hsame''.1, hsame'.2.symm.trans hsame''.2⟩
        have hout : ofLine l out = [] := by
          refine List.filter_eq_nil_iff.mpr (fun o ho hmatch => ?_)
          obtain ⟨hhouse, htemplate⟩ := of_decide_eq_true hmatch
          obtain ⟨l', hl', hhouse', htemplate'⟩ := hof o ho
          exact hfirst l' hl' ⟨hhouse.symm.trans hhouse', htemplate.symm.trans htemplate'⟩
        rw [hrest, hdone, hout, hreceipt.ofLine_self, List.append_nil, Nat.add_zero]
        exact hreceipt
      · have hne := hfirst l hl
        have hzero : listed w₁ l = 0 := by
          refine listed_eq_zero (fun l' hl' hsame' => hne ?_)
          obtain ⟨hhouse, htemplate⟩ := hsame l' hl'
          exact ⟨hhouse.symm.trans hsame'.1, htemplate.symm.trans hsame'.2⟩
        rw [hzero, hreceipt.ofLine_other hne, Nat.zero_add, List.nil_append]
        exact hreceipts l hl
    · rcases List.mem_append.mp hl with hl | hl
      · exact ⟨line, List.mem_cons_self .., hsame l hl⟩
      · obtain ⟨l', hl', hmatch⟩ := hlisted l hl
        exact ⟨l', List.mem_cons_of_mem _ hl', hmatch⟩

end Loop

end LastSietch.Landsraad
