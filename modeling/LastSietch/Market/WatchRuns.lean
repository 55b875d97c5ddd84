import LastSietch.Market.Watch

/-!
# Runs of the price watcher

Ticks of the watcher, between which the players make watches, change their prices and remove them. A
tick reads the watches and the market first and writes later, and the players go on in between.

`epochs` keeps what was found for each watch since its price was set, which no query sees; its
alerts are to be the starts of the runs of deals in it (`one_alert_per_deal`).
-/

namespace LastSietch.MarketWatch

open Runs StorageMirror

/-- A price that a watch was given, and the cheapest listing at each tick since, newest first. -/
structure Epoch where
  maxPrice : Int
  found : List (Option Int)

def dealAt (maxPrice : Int) (found : Option Int) : Option Int := found.filter (· ≤ maxPrice)

def dealStarts (maxPrice : Int) : List (Option Int) → List Int
  | [] => []
  | found :: earlier =>
    match dealAt maxPrice found, earlier.head?.bind (dealAt maxPrice) with
    | some price, none => price :: dealStarts maxPrice earlier
    | _, _ => dealStarts maxPrice earlier

def Epoch.alerts (e : Epoch) : List (Int × Int) :=
  (dealStarts e.maxPrice e.found).map fun price => (e.maxPrice, price)

def Epoch.deal (e : Epoch) : Option Int := e.found.head?.bind (dealAt e.maxPrice)

abbrev Watches := SerialTable Watch (·.id) (fun w => (w.accountId, w.templateId))

/-- What a tick has read: the watches, and the market, which it asks for the ids in some order. -/
structure Batch where
  watches : List Watch
  market : List Listing
  order : List TemplateId

structure Tables where
  watches : Watches
  alerts : List Alert

def Watches.setWatch (watches : Watches) (id : Nat) (f : Watch → Watch)
    (hid : ∀ w, (f w).id = w.id := by intro _; rfl)
    (hkey : ∀ w, ((f w).accountId, (f w).templateId) = (w.accountId, w.templateId) := by
      intro _; rfl) : Watches :=
  watches.update (fun w => w.id = id) f hid hkey

/-- The body of the loop over the watches. `w` is the row as it was read. -/
def visit (now : Nat) (cheapest : Option Int) (db : Tables) (w : Watch) : Tables :=
  let watches := db.watches.setWatch w.id fun r => { r with lastCheckedAt := some now }
  if w.armed = true then
    match dealAt w.maxPrice cheapest with
    | some price =>
      { watches := watches.setWatch w.id fun r =>
          { r with armed := false, lastMatchPrice := some price, lastTriggeredAt := some now }
        alerts := ⟨w.id, w.discordId, w.accountId, w.templateId, w.nameCached, w.maxPrice, price,
          now⟩ :: db.alerts }
    | none => { db with watches }
  else if dealAt w.maxPrice cheapest = none then
    { db with watches := watches.setWatch w.id fun r => { r with armed := true } }
  else { db with watches }

/-! ## Runs -/

structure Sys where
  db : Tables
  batch : Option Batch
  epochs : Nat → List Epoch

inductive Act
  | read (now : Nat) (market : List Listing) (order : List TemplateId) (fails : Bool)
  | write (now : Nat) (commits : Bool)
  | addWatch (accountId : Nat) (discordId : String) (templateId : TemplateId) (nameCached : String)
      (maxPrice : Int)
  | removeWatch (accountId id : Nat)

structure Settings where
  mirror : Config
  /-- `MARKET_WATCH_MAX_PER_ACCOUNT`. -/
  maxPerAccount : Nat

def found (cheapest : Option Int) : List Epoch → List Epoch
  | [] => []
  | e :: earlier => { e with found := cheapest :: e.found } :: earlier

def Sys.visit (s : Sys) (now : Nat) (b : Batch) (w : Watch) : Sys :=
  { s with
    db := MarketWatch.visit now (priceOf b.market b.order w.templateId) s.db w
    epochs := Function.update s.epochs w.id
      (found (cheapest b.market w.templateId) (s.epochs w.id)) }

def Sys.addWatch (cfg : Settings) (s : Sys) (accountId : Nat) (discordId : String)
    (templateId : TemplateId) (nameCached : String) (maxPrice : Int) : Sys :=
  let existing := s.db.watches.get? (accountId, templateId)
  let count := (s.db.watches.rows.filter (·.accountId = accountId)).length
  if cfg.maxPerAccount ≤ count ∧ existing.isNone = true then s
  else if maxPrice ≤ 0 ∨ accountId = 0 then s
  else
    match existing with
    | some w => { s with
        db := { s.db with watches := s.db.watches.setWatch w.id fun r =>
          { r with maxPrice, nameCached, armed := true, lastMatchPrice := none,
                   lastTriggeredAt := none } }
        epochs := Function.update s.epochs w.id (⟨maxPrice, []⟩ :: s.epochs w.id) }
    | none =>
      match s.db.watches.insert? fun id =>
        ⟨id, discordId, accountId, templateId, nameCached, maxPrice, true, none, none, none⟩ with
      | none => s
      | some watches => { s with
          db := { s.db with watches }
          epochs := Function.update s.epochs s.db.watches.next [⟨maxPrice, []⟩] }

def step (cfg : Settings) (s : Sys) : Act → Option Sys
  | .read now market order fails =>
    let watched := s.db.watches.rows.map (·.templateId)
    if s.batch.isNone = true ∧ order.Nodup ∧ order ⊆ watched ∧ watched ⊆ order then
      if s.db.watches.rows = [] ∨ fails = true ∨ marketFresh cfg.mirror now market = false then
        some s
      else some { s with batch := some ⟨s.db.watches.rows, market, order⟩ }
    else none
  | .write now commits =>
    s.batch.map fun b =>
      { if commits = true then b.watches.foldl (fun s w => s.visit now b w) s else s with
        batch := none }
  | .addWatch accountId discordId templateId nameCached maxPrice =>
    some (s.addWatch cfg accountId discordId templateId nameCached maxPrice)
  | .removeWatch accountId id =>
    some { s with db := { s.db with
      watches := s.db.watches.filter fun w => !(w.id = id && w.accountId = accountId) } }

/-- The listings are spelled as the watches are; and no watch that a tick has read is changed or
removed before it writes. -/
def Sys.Allowed (cfg : Settings) (s : Sys) : Act → Prop
  | .read now market _ fails => fails = false → marketFresh cfg.mirror now market = true →
    ∀ w ∈ s.db.watches, Spelled market w.templateId
  | .write _ _ => True
  | .addWatch accountId _ templateId _ _ => ∀ b, s.batch = some b →
    ∀ w ∈ b.watches, ¬(w.accountId = accountId ∧ w.templateId = templateId)
  | .removeWatch accountId id => ∀ b, s.batch = some b →
    ∀ w ∈ b.watches, ¬(w.id = id ∧ w.accountId = accountId)

structure Sys.Start (s : Sys) : Prop where
  watches : s.db.watches.rows = []
  alerts : s.db.alerts = []
  batch : s.batch = none
  epochs : ∀ id, s.epochs id = []

def Tables.alertsOf (db : Tables) (id : Nat) : List (Int × Int) :=
  (db.alerts.filter (·.watchId = id)).map fun a => (a.thresholdPrice, a.matchPrice)

def Sys.Told (s : Sys) : Prop := ∀ id, s.db.alertsOf id = (s.epochs id).flatMap Epoch.alerts

def Watch.Follows (w : Watch) (epochs : List Epoch) : Prop :=
  ∃ e earlier, epochs = e :: earlier ∧ e.maxPrice = w.maxPrice ∧ (w.armed = true ↔ e.deal = none)

structure Sys.Kept (s : Sys) : Prop where
  told : s.Told
  follows : ∀ w ∈ s.db.watches, w.Follows (s.epochs w.id)
  unused : ∀ id, s.db.watches.next ≤ id → s.epochs id = []

structure Inv (s : Sys) : Prop extends s.Kept where
  batch : ∀ b, s.batch = some b → (b.watches.map (·.id)).Nodup ∧ ∀ w ∈ b.watches,
    w ∈ s.db.watches ∧ w.templateId ∈ b.order ∧ Spelled b.market w.templateId

/-! ## One watch -/

section Visit

variable {now : Nat} {cheapest : Option Int} {db : Tables} {w r : Watch}

def Watch.fires (w : Watch) (cheapest : Option Int) : Option Int :=
  if w.armed = true then dealAt w.maxPrice cheapest else none

def Watch.visited (w : Watch) (now : Nat) (cheapest : Option Int) : Watch :=
  { w with
    lastCheckedAt := some now
    armed := (dealAt w.maxPrice cheapest).isNone
    lastMatchPrice := (w.fires cheapest).or w.lastMatchPrice
    lastTriggeredAt := if (w.fires cheapest).isSome = true then some now else w.lastTriggeredAt }

theorem mem_setWatch {watches : Watches} {f : Watch → Watch} {hid : ∀ w, (f w).id = w.id}
    {hkey : ∀ w, ((f w).accountId, (f w).templateId) = (w.accountId, w.templateId)}
    (hw : w ∈ watches) :
    r ∈ watches.setWatch w.id f hid hkey ↔ r = f w ∨ r ∈ watches ∧ r.id ≠ w.id :=
  SerialTable.mem_update_id hw

theorem mem_setWatch_twice {watches : Watches} {f g : Watch → Watch} {hid : ∀ w, (f w).id = w.id}
    {hkey : ∀ w, ((f w).accountId, (f w).templateId) = (w.accountId, w.templateId)}
    {hid' : ∀ w, (g w).id = w.id}
    {hkey' : ∀ w, ((g w).accountId, (g w).templateId) = (w.accountId, w.templateId)}
    (hw : w ∈ watches) :
    r ∈ (watches.setWatch w.id f hid hkey).setWatch w.id g hid' hkey' ↔
      r = g (f w) ∨ r ∈ watches ∧ r.id ≠ w.id := by
  have hfw : f w ∈ watches.setWatch w.id f hid hkey := (mem_setWatch hw).mpr (Or.inl rfl)
  have hset := @mem_setWatch (f w) r _ g hid' hkey' hfw
  rw [hid w] at hset
  rw [hset, mem_setWatch hw]
  refine or_congr_right ?_
  constructor
  · rintro ⟨rfl | hr, hne⟩
    · exact absurd (hid w) hne
    · exact hr
  · exact fun hr => ⟨Or.inr hr, hr.2⟩

theorem mem_visit (hw : w ∈ db.watches) :
    r ∈ (visit now cheapest db w).watches ↔
      r = w.visited now cheapest ∨ r ∈ db.watches ∧ r.id ≠ w.id := by
  unfold visit Watch.visited Watch.fires
  by_cases harmed : w.armed = true
  · rw [if_pos harmed, if_pos harmed]
    cases hdeal : dealAt w.maxPrice cheapest with
    | none =>
      rw [mem_setWatch hw]
      refine or_congr_left ?_
      simp [harmed]
    | some price =>
      rw [mem_setWatch_twice hw]
      refine or_congr_left ?_
      simp
  · rw [if_neg harmed, if_neg harmed]
    cases hdeal : dealAt w.maxPrice cheapest with
    | none =>
      rw [if_pos rfl, mem_setWatch_twice hw]
      refine or_congr_left ?_
      simp
    | some price =>
      rw [if_neg (Option.some_ne_none price), mem_setWatch hw]
      refine or_congr_left ?_
      simp [harmed]

theorem next_visit : (visit now cheapest db w).watches.next = db.watches.next := by
  unfold visit
  split
  · split <;> rfl
  · split <;> rfl

theorem alertsOf_visit (id : Nat) :
    (visit now cheapest db w).alertsOf id =
      (if id = w.id then (w.fires cheapest).toList.map fun price => (w.maxPrice, price) else []) ++
        db.alertsOf id := by
  unfold visit Tables.alertsOf Watch.fires
  by_cases harmed : w.armed = true
  · rw [if_pos harmed, if_pos harmed]
    cases hdeal : dealAt w.maxPrice cheapest with
    | none => simp
    | some price =>
      dsimp only
      rw [List.filter_cons]
      by_cases hid : id = w.id
      · simp [hid]
      · have hne : ¬w.id = id := fun heq => hid heq.symm
        simp [hid, hne]
  · rw [if_neg harmed, if_neg harmed]
    split <;> simp

end Visit

theorem alerts_found (e : Epoch) (c : Option Int) :
    Epoch.alerts { e with found := c :: e.found } =
      (if e.deal = none then (dealAt e.maxPrice c).toList.map fun price => (e.maxPrice, price)
        else []) ++ e.alerts := by
  unfold Epoch.alerts Epoch.deal
  dsimp only
  rw [dealStarts]
  cases hdeal : dealAt e.maxPrice c with
  | none => simp
  | some price =>
    cases hlast : e.found.head?.bind (dealAt e.maxPrice) with
    | none => simp
    | some last => simp

theorem deal_found (e : Epoch) (c : Option Int) :
    Epoch.deal { e with found := c :: e.found } = dealAt e.maxPrice c := rfl

/-! ## What the steps keep -/

variable {cfg : Settings} {s s' : Sys}

theorem Sys.Kept.visit (h : s.Kept) {now : Nat} {b : Batch} {w : Watch} (hw : w ∈ s.db.watches)
    (hprice : priceOf b.market b.order w.templateId = cheapest b.market w.templateId) :
    (s.visit now b w).Kept := by
  obtain ⟨e, earlier, hepochs, hmax, harmed⟩ := h.follows w hw
  have hfound : Function.update s.epochs w.id
      (found (cheapest b.market w.templateId) (s.epochs w.id)) w.id =
        { e with found := cheapest b.market w.templateId :: e.found } :: earlier := by
    rw [Function.update_self, hepochs]
    rfl
  have hfires : w.fires (cheapest b.market w.templateId) =
      if e.deal = none then dealAt e.maxPrice (cheapest b.market w.templateId) else none := by
    unfold Watch.fires
    rw [hmax]
    by_cases hdeal : e.deal = none
    · rw [if_pos hdeal, if_pos (harmed.mpr hdeal)]
    · rw [if_neg hdeal, if_neg fun h => hdeal (harmed.mp h)]
  refine ⟨fun id => ?_, fun r hr => ?_, fun id hid => ?_⟩
  · unfold Sys.visit
    dsimp only
    rw [hprice, alertsOf_visit, h.told id]
    by_cases hid : id = w.id
    · subst hid
      rw [hfound, hepochs, List.flatMap_cons, List.flatMap_cons, alerts_found, if_pos rfl, hfires,
        ← hmax, List.append_assoc]
      congr 1
      split <;> rfl
    · rw [if_neg hid, Function.update_of_ne hid, List.nil_append]
  · unfold Sys.visit at hr ⊢
    dsimp only at hr ⊢
    rw [hprice, mem_visit hw] at hr
    rcases hr with rfl | ⟨hr, hne⟩
    · rw [show (w.visited now (cheapest b.market w.templateId)).id = w.id from rfl, hfound]
      refine ⟨_, earlier, rfl, hmax, ?_⟩
      rw [deal_found, hmax]
      exact Option.isNone_iff_eq_none
    · rw [Function.update_of_ne hne]
      exact h.follows r hr
  · unfold Sys.visit at hid ⊢
    dsimp only at hid ⊢
    rw [next_visit] at hid
    have hne : id ≠ w.id := fun heq => Nat.not_le.mpr (SerialTable.id_lt_next hw) (heq ▸ hid)
    rw [Function.update_of_ne hne]
    exact h.unused id hid

theorem mem_of_visited {now : Nat} {b : Batch} {w v : Watch} (hw : w ∈ s.db.watches)
    (hv : v ∈ s.db.watches) (hne : v.id ≠ w.id) : v ∈ (s.visit now b w).db.watches :=
  (mem_visit hw).mpr (Or.inr ⟨hv, hne⟩)

theorem Sys.Kept.visits {now : Nat} {b : Batch} {watches : List Watch} (h : s.Kept)
    (hnodup : (watches.map (·.id)).Nodup) (hread : ∀ w ∈ watches, w ∈ s.db.watches)
    (hprice : ∀ w ∈ watches,
      priceOf b.market b.order w.templateId = cheapest b.market w.templateId) :
    (watches.foldl (fun s w => s.visit now b w) s).Kept := by
  induction watches generalizing s with
  | nil => exact h
  | cons w watches ih =>
    rw [List.map_cons, List.nodup_cons] at hnodup
    have hw := hread w List.mem_cons_self
    refine ih (h.visit hw (hprice w List.mem_cons_self)) hnodup.2 (fun v hv => ?_)
      (fun v hv => hprice v (List.mem_cons_of_mem w hv))
    have hne : v.id ≠ w.id := fun heq => hnodup.1 (heq ▸ List.mem_map.mpr ⟨v, hv, rfl⟩)
    exact mem_of_visited hw (hread v (List.mem_cons_of_mem w hv)) hne

theorem Sys.Kept.start (h : s.Kept) {watches : Watches} {id : Nat} {maxPrice : Int} {v : Watch}
    {earlier : List Epoch} (hearlier : earlier = s.epochs id) (hid : v.id = id)
    (hmax : v.maxPrice = maxPrice) (harmed : v.armed = true)
    (hrows : ∀ r, r ∈ watches ↔ r = v ∨ r ∈ s.db.watches ∧ r.id ≠ id)
    (hnext : s.db.watches.next ≤ watches.next) (hlt : id < watches.next) :
    Sys.Kept { s with
      db := { s.db with watches }
      epochs := Function.update s.epochs id (⟨maxPrice, []⟩ :: earlier) } := by
  refine ⟨fun other => ?_, fun r hr => ?_, fun other hother => ?_⟩
  · have htold := h.told other
    dsimp only
    by_cases hother : other = id
    · subst hother
      rw [Function.update_self, hearlier, List.flatMap_cons]
      exact htold
    · rw [Function.update_of_ne hother]
      exact htold
  · rcases (hrows r).mp hr with rfl | ⟨hr, hne⟩
    · rw [hid]
      dsimp only
      rw [Function.update_self]
      exact ⟨_, earlier, rfl, hmax.symm, iff_of_true harmed rfl⟩
    · dsimp only
      rw [Function.update_of_ne hne]
      exact h.follows r hr
  · dsimp only at hother ⊢
    rw [Function.update_of_ne (Nat.ne_of_gt (hlt.trans_le hother))]
    exact h.unused other (hnext.trans hother)

theorem Sys.Kept.addWatch (h : s.Kept) (accountId : Nat) (discordId : String)
    (templateId : TemplateId) (nameCached : String) (maxPrice : Int) :
    (s.addWatch cfg accountId discordId templateId nameCached maxPrice).Kept := by
  unfold Sys.addWatch
  dsimp only
  split
  · exact h
  split
  · exact h
  split
  · rename_i w hw
    have hmem := SerialTable.mem_of_get? hw
    have hlt := SerialTable.id_lt_next hmem
    exact h.start (v := { w with
      maxPrice, nameCached, armed := true, lastMatchPrice := none, lastTriggeredAt := none })
      rfl rfl rfl rfl (fun r => mem_setWatch hmem) (Nat.le_refl _) hlt
  · split
    · exact h
    · rename_i watches hinsert
      obtain ⟨_, hnext⟩ := SerialTable.rows_insert? hinsert
      refine h.start (v := ⟨s.db.watches.next, discordId, accountId, templateId, nameCached,
        maxPrice, true, none, none, none⟩) (h.unused _ (Nat.le_refl _)).symm rfl rfl rfl
        (fun r => ?_) (by omega) (by omega)
      refine (SerialTable.mem_insert? hinsert).trans (or_congr_right ?_)
      exact (and_iff_left_of_imp fun hr => (SerialTable.id_lt_next hr).ne).symm

theorem mem_addWatch {accountId : Nat} {discordId : String} {templateId : TemplateId}
    {nameCached : String} {maxPrice : Int} {w : Watch} (hw : w ∈ s.db.watches)
    (hother : ¬(w.accountId = accountId ∧ w.templateId = templateId)) :
    w ∈ (s.addWatch cfg accountId discordId templateId nameCached maxPrice).db.watches := by
  unfold Sys.addWatch
  dsimp only
  split
  · exact hw
  split
  · exact hw
  split
  · rename_i v hv
    obtain ⟨hmem, hkey⟩ := SerialTable.get?_eq_some.mp hv
    rw [mem_setWatch hmem]
    refine Or.inr ⟨hw, fun hid => hother ?_⟩
    rw [SerialTable.eq_of_id_eq hw hmem hid]
    exact ⟨congrArg Prod.fst hkey, congrArg Prod.snd hkey⟩
  · split
    · exact hw
    · rename_i watches hinsert
      exact (SerialTable.mem_insert? hinsert).mpr (Or.inr hw)

theorem batch_addWatch {accountId : Nat} {discordId : String} {templateId : TemplateId}
    {nameCached : String} {maxPrice : Int} :
    (s.addWatch cfg accountId discordId templateId nameCached maxPrice).batch = s.batch := by
  unfold Sys.addWatch
  dsimp only
  split
  · rfl
  split
  · rfl
  split
  · rfl
  · split <;> rfl

theorem Inv.step {a : Act} (h : Inv s) (hallowed : s.Allowed cfg a)
    (hstep : step cfg s a = some s') : Inv s' := by
  cases a with
  | read now market order fails =>
    simp only [MarketWatch.step] at hstep
    split at hstep
    · rename_i henabled
      split at hstep
      · cases hstep
        exact h
      · rename_i hread
        cases hstep
        push Not at hread
        obtain ⟨_, hfails, hfresh⟩ := hread
        refine ⟨⟨h.told, h.follows, h.unused⟩, fun b hb => ?_⟩
        cases hb
        refine ⟨s.db.watches.serial, fun w hw => ⟨hw, ?_, ?_⟩⟩
        · exact henabled.2.2.2 (List.mem_map.mpr ⟨w, hw, rfl⟩)
        · exact hallowed (by simpa using hfails) (by simpa using hfresh) w hw
    · cases hstep
  | write now commits =>
    obtain ⟨b, hb, rfl⟩ := Option.map_eq_some_iff.mp hstep
    obtain ⟨hnodup, hread⟩ := h.batch b hb
    have hkept : Sys.Kept (if commits = true then
        b.watches.foldl (fun s w => s.visit now b w) s else s) := by
      split
      · exact h.toKept.visits hnodup (fun w hw => (hread w hw).1)
          fun w hw => prices_exact (hread w hw).2.1 (hread w hw).2.2
      · exact h.toKept
    exact ⟨⟨hkept.told, hkept.follows, hkept.unused⟩, fun b hb => by cases hb⟩
  | addWatch accountId discordId templateId nameCached maxPrice =>
    cases hstep
    refine ⟨h.toKept.addWatch accountId discordId templateId nameCached maxPrice, fun b hb => ?_⟩
    rw [batch_addWatch] at hb
    obtain ⟨hnodup, hread⟩ := h.batch b hb
    exact ⟨hnodup, fun w hw => ⟨mem_addWatch (hread w hw).1 (hallowed b hb w hw), (hread w hw).2⟩⟩
  | removeWatch accountId id =>
    cases hstep
    refine ⟨⟨h.told, fun w hw => ?_, h.unused⟩, fun b hb => ?_⟩
    · exact h.follows w (SerialTable.mem_filter.mp hw).1
    · obtain ⟨hnodup, hread⟩ := h.batch b hb
      refine ⟨hnodup, fun w hw => ⟨?_, (hread w hw).2⟩⟩
      have hother := hallowed b hb w hw
      exact SerialTable.mem_filter.mpr ⟨(hread w hw).1, by simpa [imp_iff_not_or] using hother⟩

theorem Sys.Start.inv (h : s.Start) : Inv s := by
  refine ⟨⟨fun id => ?_, fun w hw => ?_, fun id _ => h.epochs id⟩, fun b hb => ?_⟩
  · rw [h.epochs id, Tables.alertsOf, h.alerts]
    rfl
  · rw [SerialTable.mem_def, h.watches] at hw
    cases hw
  · rw [h.batch] at hb
    cases hb

/-- Where the listings of a template are spelled as its watch is, and nobody changes or removes a
watch that a tick is at, every watch gets one alert for each run of deals, with the price that the
run begins with. -/
theorem one_alert_per_deal (cfg : Settings) (hstart : s.Start) {acts : List Act}
    (hallowed : Along (step cfg) (Sys.Allowed cfg) s acts)
    (hrun : exec (step cfg) s acts = some s') : s'.Told := by
  have hinv : Inv s' := exec_invariant
    (fun _ _ _ h hallowed hstep => h.step hallowed hstep) hstart.inv hallowed hrun
  exact hinv.told

theorem ore_term : (∀ c ∈ ['O', 'r', 'e'], c.isAlphanum = true ∨ c = '_' ∨ c = '-') ∧
    2 ≤ ['O', 'r', 'e'].length ∧ ['O', 'r', 'e'].length ≤ 64 := by
  have hall : ['O', 'r', 'e'].all (fun c => c.isAlphanum || c = '_' || c = '-') = true := by decide
  refine ⟨fun c hc => ?_, by decide, by decide⟩
  simpa [or_assoc] using List.all_eq_true.mp hall c hc

def ore : TemplateId := ⟨['O', 'r', 'e'], ore_term⟩

def settings : Settings := ⟨⟨true, 300⟩, 25⟩

def noWatches : Sys := ⟨⟨.empty, []⟩, none, fun _ => []⟩

theorem noWatches_start : noWatches.Start := ⟨rfl, rfl, rfl, fun _ => rfl⟩

def oneTick (listed : List Char) : List Act :=
  [.addWatch 1 "d" ore "Ore" 10, .read 100 [⟨listed, some 5, some 100⟩] [ore] false,
   .write 101 true]

/-- The listing is in another case, and nobody is told. -/
theorem deal_missed : noWatches.Start ∧
    ∃ s', exec (step settings) noWatches (oneTick ['o', 'r', 'e']) = some s' ∧ ¬s'.Told := by
  have hshows : (exec (step settings) noWatches (oneTick ['o', 'r', 'e'])).any (fun s' => decide
      (s'.db.alertsOf 1 = [] ∧ (s'.epochs 1).flatMap Epoch.alerts = [(10, 5)])) = true := by
    decide
  obtain ⟨s', hrun, hnone, hdue⟩ := exec_shows hshows
  refine ⟨noWatches_start, s', hrun, fun htold => ?_⟩
  have h := htold 1
  rw [hnone, hdue] at h
  cases h

theorem oneTick_allowed :
    Along (step settings) (Sys.Allowed settings) noWatches (oneTick ['O', 'r', 'e']) := by
  refine ⟨fun b hb => (by cases hb), fun watched hwatched => ?_⟩
  refine ⟨fun _ _ w hw l hl _ => ?_, fun _ _ => ⟨trivial, fun _ _ => trivial⟩⟩
  cases hwatched
  rw [List.mem_singleton.mp hl, List.mem_singleton.mp hw]
  rfl

theorem oneTick_told : ∃ s', exec (step settings) noWatches (oneTick ['O', 'r', 'e']) = some s' ∧
    s'.db.alertsOf 1 = [(10, 5)] ∧ s'.Told := by
  have hshows : (exec (step settings) noWatches (oneTick ['O', 'r', 'e'])).any (fun s' => decide
      (s'.db.alertsOf 1 = [(10, 5)])) = true := by decide
  obtain ⟨s', hrun, halert⟩ := exec_shows hshows
  exact ⟨s', hrun, halert, one_alert_per_deal settings noWatches_start oneTick_allowed hrun⟩

end LastSietch.MarketWatch
