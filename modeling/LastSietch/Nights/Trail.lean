import Mathlib.Data.Finset.Card
import LastSietch.Nights.Credit
import LastSietch.Nights.Knock

/-!
# The seek trail

Runs of Knocks by any profiles at any times, between any other acts that leave the hits to
the Knock and every account to its one profile. Activity has no cap, so the evidence of a hit
is credited in the transaction that writes it: `Settled` says that no such evidence waits,
`Awards` what a transaction on a settled ledger adds, and `HitKey` which keys a hit can add.
-/

namespace LastSietch.Nights

open Quota Runs

/-! ## Evidence that is added -/

/-- `p` has been credited the key. -/
def Sys.Holds (s : Sys) (p : Nat) (k : Key) : Prop := ∃ c ∈ s.credits, c.profileId = p ∧ c.key = k

instance (s : Sys) (p : Nat) (k : Key) : Decidable (s.Holds p k) :=
  inferInstanceAs (Decidable (∃ c ∈ s.credits.rows, c.profileId = p ∧ c.key = k))

/-- Beyond `s`, the state `s'` has evidence of the account for `keys`, and nothing else. -/
structure Adds (accountId : Nat) (keys : List Key) (s s' : Sys) : Prop where
  credits : s'.credits = s.credits
  facts : s'.facts = s.facts
  links : s'.links = s.links
  old : ∀ e ∈ s.earn, e ∈ s'.earn
  new : ∀ e ∈ s'.earn, e ∈ s.earn ∨ e.accountId = accountId ∧ e.key ∈ keys
  all : ∀ k ∈ keys, ∃ e ∈ s'.earn, e.accountId = accountId ∧ e.key = k

theorem addEarn_frame (s : Sys) (accountId : Nat) (night : String) (source : EarnSource)
    (ref : String) (amount : Int) :
    (s.addEarn accountId night source ref amount).1.credits = s.credits ∧
      (s.addEarn accountId night source ref amount).1.facts = s.facts ∧
      (s.addEarn accountId night source ref amount).1.links = s.links ∧
      ∀ e ∈ s.earn, e ∈ (s.addEarn accountId night source ref amount).1.earn := by
  rcases addEarn_cases s accountId night source ref amount with h | ⟨earn, h, hold⟩
  · rw [h]
    exact ⟨rfl, rfl, rfl, fun e he => he⟩
  · rw [h]
    exact ⟨rfl, rfl, rfl, hold⟩

theorem addEarn_new {s : Sys} {accountId : Nat} {night : String} {source : EarnSource}
    {ref : String} {amount : Int} {e : EarnRow}
    (he : e ∈ (s.addEarn accountId night source ref amount).1.earn) :
    e ∈ s.earn ∨ e.accountId = accountId ∧ e.key = ⟨night, source.1, ref⟩ := by
  unfold Sys.addEarn at he
  split at he
  · split at he
    · exact Or.inl he
    · rename_i earn hins
      rcases (SerialTable.mem_insert? hins).mp he with rfl | hold
      · exact Or.inr ⟨rfl, rfl⟩
      · exact Or.inl hold
  · exact Or.inl he

theorem addEarn_recorded {s : Sys} {accountId : Nat} {night : String} {source : EarnSource}
    {ref : String} {amount : Int} (hpos : 0 < amount) :
    ∃ e ∈ (s.addEarn accountId night source ref amount).1.earn,
      e.accountId = accountId ∧ e.key = ⟨night, source.1, ref⟩ := by
  unfold Sys.addEarn
  rw [dif_pos hpos]
  split
  · rename_i hins
    obtain ⟨e, he, hkey⟩ := SerialTable.insert?_eq_none.mp hins
    rw [Prod.mk.injEq] at hkey
    exact ⟨e, he, hkey⟩
  · rename_i earn hins
    exact ⟨_, (SerialTable.mem_insert? hins).mpr (Or.inl rfl), rfl, rfl⟩

theorem profileEligible_congr {s s' : Sys} (h : s'.facts = s.facts) (accounts : List Nat) :
    s'.profileEligible accounts = s.profileEligible accounts := by
  have heq : s'.accountEligible = s.accountEligible := by
    funext a
    rw [Sys.accountEligible, Sys.accountEligible, h]
  rw [Sys.profileEligible, Sys.profileEligible, heq]

namespace Adds

variable {accountId : Nat} {keys keys' : List Key} {s m s' : Sys}

theorem addEarn (s : Sys) (accountId : Nat) (night : String) (source : EarnSource) (ref : String)
    {amount : Int} (hpos : 0 < amount) :
    Adds accountId [⟨night, source.1, ref⟩] s
      (s.addEarn accountId night source ref amount).1 := by
  obtain ⟨hcredits, hfacts, hlinks, hold⟩ := addEarn_frame s accountId night source ref amount
  refine ⟨hcredits, hfacts, hlinks, hold, fun e he => ?_, fun k hk => ?_⟩
  · rcases addEarn_new he with h | ⟨hacct, hkey⟩
    · exact Or.inl h
    · exact Or.inr ⟨hacct, List.mem_singleton.mpr hkey⟩
  · obtain rfl := List.mem_singleton.mp hk
    exact addEarn_recorded hpos

theorem trans (h : Adds accountId keys s m) (h' : Adds accountId keys' m s') :
    Adds accountId (keys ++ keys') s s' := by
  refine ⟨h'.credits.trans h.credits, h'.facts.trans h.facts, h'.links.trans h.links,
    fun e he => h'.old e (h.old e he), fun e he => ?_, fun k hk => ?_⟩
  · rcases h'.new e he with hm | ⟨hacct, hkey⟩
    · rcases h.new e hm with hs | ⟨hacct, hkey⟩
      · exact Or.inl hs
      · exact Or.inr ⟨hacct, List.mem_append_left _ hkey⟩
    · exact Or.inr ⟨hacct, List.mem_append_right _ hkey⟩
  · rcases List.mem_append.mp hk with hk | hk
    · obtain ⟨e, he, hrest⟩ := h.all k hk
      exact ⟨e, h'.old e he, hrest⟩
    · exact h'.all k hk

end Adds

/-! ## A pass over settled evidence -/

theorem pass_new {s : Sys} {p q : Nat} {accounts : Option (List Nat)} {k : Key}
    (h : (s.creditProfile p accounts).1.Holds q k) :
    s.Holds q k ∨ q = p ∧ (k.source = .streak ∨
      ∃ e ∈ s.pending p (accounts.getD (s.profileAccounts p)), e.key = k) := by
  obtain ⟨c, hc, rfl, rfl⟩ := h
  rcases credit_new hc with hold | ⟨hp, hkey | hkey⟩
  · exact Or.inl ⟨c, hold, rfl, rfl⟩
  · exact Or.inr ⟨hp, Or.inl (by rw [hkey]; rfl)⟩
  · exact Or.inr ⟨hp, Or.inr hkey⟩

theorem pass_kept {s : Sys} {c : CreditRow} (hc : c ∈ s.credits) (p : Nat)
    (accounts : Option (List Nat)) : c ∈ (s.creditProfile p accounts).1.credits :=
  (Grows.mem c).apply (.creditProfile p accounts) hc

theorem pass_paid {s : Sys} {p : Nat} {accounts : List Nat}
    (helig : s.profileEligible accounts = true) {e : EarnRow} (he : e ∈ s.earn)
    (hacct : e.accountId ∈ accounts) (hactivity : e.key.source = .activity) :
    (s.creditProfile p (some accounts)).1.Holds p e.key := by
  cases hget : s.credits.get? (p, e.key) with
  | some c =>
    obtain ⟨hc, hp, hkey⟩ := mem_of_credited hget
    exact ⟨c, pass_kept hc p _, hp, hkey⟩
  | none =>
    have hpending : e ∈ s.pending p accounts := mem_pending.mpr ⟨he, hacct, hget⟩
    have hgroup := mem_groups.mpr ⟨e, hpending, rfl⟩
    rcases creditProfile_cases s p (some accounts) with ⟨hno, -⟩ | ⟨-, heq⟩
    · cases helig.symm.trans hno
    · rw [heq]
      rcases creditGroups_complete p hgroup (maxAmount_pos hpending) s.credits with
        ⟨c, hc, hp, hkey⟩ | ⟨cap, hcap, -⟩
      · exact ⟨c, (Grows.mem c).creditStreak p hc, hp, hkey⟩
      · have hnone : capFor e.key.night e.key.source = none := by
          rw [hactivity]
          simp [capFor, caps]
        rw [hnone] at hcap
        cases hcap

section

variable (owner : Nat → Nat)

def Settled (s : Sys) : Prop :=
  ∀ e ∈ s.earn, e.key.source = .activity → s.Holds (owner e.accountId) e.key

/-- On the way from a settled `s` to a settled `s'` the profile `p` was credited the activity
keys of `keys`; nothing else was credited for activity and no other hit recorded. -/
structure Awards (p : Nat) (keys : List Key) (s s' : Sys) : Prop where
  settled : Settled owner s'
  kept : ∀ c ∈ s.credits, c ∈ s'.credits
  new : ∀ q k, k.source = .activity → s'.Holds q k → s.Holds q k ∨ q = p ∧ k ∈ keys
  paid : ∀ k ∈ keys, k.source = .activity → s'.Holds p k
  hits : ∀ e ∈ s'.earn, e.key.source = .knock ∨ e.key.source = .activity →
    e ∈ s.earn ∨ e.key ∈ keys
  evidenced : Evidenced s.earn s.credits → Evidenced s'.earn s'.credits

variable {owner} {p : Nat} {accountId : Nat} {accounts : List Nat} {keys keys' : List Key}
variable {s m s' : Sys}

theorem Sys.Holds.mono (hkept : ∀ c ∈ s.credits, c ∈ s'.credits) {k : Key} (h : s.Holds p k) :
    s'.Holds p k := by
  obtain ⟨c, hc, hrest⟩ := h
  exact ⟨c, hkept c hc, hrest⟩

theorem Awards.trans (h : Awards owner p keys s m) (h' : Awards owner p keys' m s') :
    Awards owner p (keys ++ keys') s s' where
  settled := h'.settled
  kept c hc := h'.kept c (h.kept c hc)
  new q k hk hs' := by
    rcases h'.new q k hk hs' with hm | ⟨hq, hkey⟩
    · rcases h.new q k hk hm with hs | ⟨hq, hkey⟩
      · exact Or.inl hs
      · exact Or.inr ⟨hq, List.mem_append_left _ hkey⟩
    · exact Or.inr ⟨hq, List.mem_append_right _ hkey⟩
  paid k hk hactivity := by
    rcases List.mem_append.mp hk with hk | hk
    · exact (h.paid k hk hactivity).mono h'.kept
    · exact h'.paid k hk hactivity
  hits e he hsource := by
    rcases h'.hits e he hsource with hm | hkey
    · rcases h.hits e hm hsource with hs | hkey
      · exact Or.inl hs
      · exact Or.inr (List.mem_append_left _ hkey)
    · exact Or.inr (List.mem_append_right _ hkey)
  evidenced hs := h'.evidenced (h.evidenced hs)

theorem Settled.not_pending (h : Settled owner s) (hown : ∀ a ∈ accounts, owner a = p)
    {e : EarnRow} (he : e ∈ s.earn) (hactivity : e.key.source = .activity)
    (hpending : e ∈ s.pending p accounts) : False := by
  obtain ⟨-, hacct, hnone⟩ := mem_pending.mp hpending
  obtain ⟨c, hc, hp, hkey⟩ := h e he hactivity
  rw [hown e.accountId hacct] at hp
  exact Table.get?_eq_none.mp hnone c hc (Prod.ext hp hkey)

theorem Adds.awards (h : Adds accountId keys s m) (hsettled : Settled owner s)
    (hacct : accountId ∈ accounts) (hown : ∀ a ∈ accounts, owner a = p)
    (helig : s.profileEligible accounts = true) :
    Awards owner p keys s (m.creditProfile p (some accounts)).1 := by
  obtain ⟨hearn, hfacts, hlinks⟩ := pass_earn m p (some accounts)
  have helig' : m.profileEligible accounts = true := by
    rw [profileEligible_congr h.facts]
    exact helig
  have hkept : ∀ c ∈ s.credits, c ∈ (m.creditProfile p (some accounts)).1.credits := by
    intro c hc
    exact pass_kept (h.credits ▸ hc) p _
  have hholds : ∀ {q k}, m.Holds q k → s.Holds q k := by
    rintro q k ⟨c, hc, hrest⟩
    exact ⟨c, h.credits ▸ hc, hrest⟩
  have hnew : ∀ e ∈ m.earn, e.accountId = accountId → e.key.source = .activity →
      (m.creditProfile p (some accounts)).1.Holds p e.key := by
    intro e he heq hactivity
    exact pass_paid helig' he (heq ▸ hacct) hactivity
  refine ⟨fun e he hactivity => ?_, hkept, fun q k hk hs' => ?_, fun k hk hactivity => ?_,
    fun e he _ => ?_, fun hs => ?_⟩
  · rw [hearn] at he
    rcases h.new e he with hold | ⟨heq, -⟩
    · exact (hsettled e hold hactivity).mono hkept
    · rw [heq, hown accountId hacct]
      exact hnew e he heq hactivity
  · rcases pass_new hs' with hm | ⟨rfl, hstreak | ⟨e, he, rfl⟩⟩
    · exact Or.inl (hholds hm)
    · rw [hstreak] at hk
      cases hk
    · rcases h.new e (mem_pending.mp he).1 with hold | ⟨-, hkey⟩
      · obtain ⟨-, hin, hnone⟩ := mem_pending.mp he
        refine (hsettled.not_pending hown hold hk (mem_pending.mpr ⟨hold, hin, ?_⟩)).elim
        rw [← h.credits]
        exact hnone
      · exact Or.inr ⟨rfl, hkey⟩
  · obtain ⟨e, he, heq, rfl⟩ := h.all k hk
    exact hnew e he heq hactivity
  · rw [hearn] at he
    rcases h.new e he with hold | ⟨-, hkey⟩
    · exact Or.inl hold
    · exact Or.inr hkey
  · refine Evidenced.apply (s := m) ?_ (.creditProfile p (some accounts))
    intro c hc hsource
    obtain ⟨e, he, hkey⟩ := hs c (h.credits ▸ hc) hsource
    exact ⟨e, h.old e he, hkey⟩

end

/-! ## The keys of a hit -/

def hitKey (night ref : String) : Key := ⟨night, .activity, ref⟩

def trailAll : String := "trail:all"

theorem notMem_of_spotIdRe {id : String} (h : spotIdRe id = true) : ':' ∉ id.toList := by
  unfold spotIdRe at h
  cases hlist : id.toList with
  | nil => exact List.not_mem_nil
  | cons c cs =>
    rw [hlist] at h
    simp only [Bool.and_eq_true, Bool.or_eq_true, List.all_eq_true, decide_eq_true_eq,
      beq_iff_eq] at h
    obtain ⟨⟨hc, -⟩, hcs⟩ := h
    intro hmem
    rcases List.mem_cons.mp hmem with rfl | hmem
    · revert hc
      decide
    · have hcolon := hcs ':' hmem
      revert hcolon
      decide

theorem colon_mem_first (ref : String) : ':' ∈ (ref ++ ":first").toList := by
  rw [String.toList_append]
  exact List.mem_append_right _ (by decide)

theorem first_injective {ref ref' : String} (h : ref ++ ":first" = ref' ++ ":first") :
    ref = ref' := by
  have hlist := congrArg String.toList h
  rw [String.toList_append, String.toList_append] at hlist
  exact String.toList_injective (List.append_cancel_right hlist)

theorem getLast?_append (ref suffix : String) {c : Char} (h : suffix.toList.getLast? = some c) :
    (ref ++ suffix).toList.getLast? = some c := by
  have hne : suffix.toList ≠ [] := by
    intro hnil
    rw [hnil] at h
    cases h
  rw [String.toList_append, List.getLast?_append_of_ne_nil _ hne, h]

theorem first_ne_storm (ref ref' : String) : ref ++ ":first" ≠ ref' ++ ":storm" := by
  intro h
  have hlast := getLast?_append ref ":first" (c := 't') (by decide)
  rw [h, getLast?_append ref' ":storm" (c := 'm') (by decide)] at hlast
  cases hlast

theorem first_ne_trailAll (ref : String) : ref ++ ":first" ≠ trailAll := by
  intro h
  have hlast := getLast?_append ref ":first" (c := 't') (by decide)
  rw [h] at hlast
  revert hlast
  decide

theorem storm_ne_trailAll (ref : String) : ref ++ ":storm" ≠ trailAll := by
  intro h
  have hlast := getLast?_append ref ":storm" (c := 'm') (by decide)
  rw [h] at hlast
  revert hlast
  decide

section

variable {board : Board}

variable {d : Place}

theorem Board.eq_of_id_eq {d' : Place} (hd : d ∈ board.places) (hd' : d' ∈ board.places)
    (h : d.id = d'.id) : d = d' :=
  List.inj_on_of_nodup_map board.ids hd hd' h

theorem Board.colon_notMem (hd : d ∈ board.places) : ':' ∉ d.id.toList :=
  notMem_of_spotIdRe (board.valid d hd).id

theorem mem_spotsFor {night : String} :
    d ∈ board.spotsFor night ↔ d ∈ board.places ∧ d.night = night := by
  simp [Board.spotsFor, List.mem_insertionSort]

theorem mem_trail {night : String} {q : Spot} :
    q ∈ board.trail night ↔
      ∃ d ∈ board.places, d.night = night ∧ d.kind = .clue ∧ d.toSpot = q := by
  simp only [Board.trail, Nights.trail, List.mem_insertionSort, List.mem_filter, List.mem_map,
    mem_spotsFor, decide_eq_true_eq]
  constructor
  · rintro ⟨⟨d, ⟨hd, hnight⟩, rfl⟩, hkind⟩
    exact ⟨d, hd, hnight, hkind, rfl⟩
  · rintro ⟨d, hd, hnight, hkind, rfl⟩
    exact ⟨⟨d, ⟨hd, hnight⟩, rfl⟩, hkind⟩

theorem nodup_trail (board : Board) (night : String) :
    ((board.trail night).map Spot.id).Nodup := by
  have hplaces : ((board.spotsFor night).map (fun d => d.id)).Nodup := by
    have hperm := (List.perm_insertionSort (fun d d' : Place => d.rank ≤ d'.rank)
      (board.places.filter (fun d => d.night = night))).map (fun d => d.id)
    rw [Board.spotsFor, hperm.nodup_iff]
    exact board.ids.sublist (List.filter_sublist.map _)
  have hperm := (List.perm_insertionSort (fun q q' : Spot => q.seq ≤ q'.seq)
    (((board.spotsFor night).map Place.toSpot).filter (fun q => q.kind = .clue))).map Spot.id
  rw [Board.trail, Nights.trail, hperm.nodup_iff]
  apply List.Nodup.sublist (List.filter_sublist.map _)
  rw [List.map_map]
  exact hplaces

theorem done_before {spots before after : List Spot} {done : List String} {q q' : Spot}
    (hnodup : ((trail spots).map Spot.id).Nodup) (hopen : openClue spots done = some q')
    (hid : q'.id = q.id) (htrail : trail spots = before ++ q :: after) :
    ∀ r ∈ before, r.id ∈ done := by
  rw [openClue, htrail, List.find?_append] at hopen
  rw [htrail, List.map_append, List.map_cons] at hnodup
  cases hfind : before.find? (fun r => r.id ∉ done) with
  | none =>
    intro r hr
    simpa using List.find?_eq_none.mp hfind r hr
  | some r =>
    -- an open clue before `q` would be another spot with its id
    rw [hfind] at hopen
    obtain rfl : r = q' := Option.some.inj hopen
    have hr := List.mem_map_of_mem (f := Spot.id) (List.mem_of_find?_eq_some hfind)
    rw [hid] at hr
    exact absurd (List.mem_cons_self ..) ((List.nodup_append.mp hnodup).2.2 _ hr _ · rfl)

structure KnownKey (board : Board) (k : Key) : Prop where
  porch : k.source = .knock → ∃ d ∈ board.places, d.kind = .porch ∧ k.ref = d.id
  spot : k.source = .activity →
    ':' ∈ k.ref.toList ∨ ∃ d ∈ board.places, k = hitKey d.night d.id

structure Known (board : Board) (s : Sys) : Prop where
  evidenced : Evidenced s.earn s.credits
  keys : ∀ e ∈ s.earn, KnownKey board e.key

variable {s s' : Sys} {p : Nat} {night : String}

theorem Known.credit (h : Known board s) {c : CreditRow} (hc : c ∈ s.credits)
    (hsource : c.key.source ≠ .streak) : KnownKey board c.key := by
  obtain ⟨e, he, hkey⟩ := h.evidenced c hc hsource
  exact hkey ▸ h.keys e he

theorem mem_hitRefs {ref : String} :
    ref ∈ s.hitRefs p night ↔ ∃ c ∈ s.credits, c.profileId = p ∧ c.key.night = night ∧
      (c.key.source = .knock ∨ c.key.source = .activity) ∧ c.key.ref = ref := by
  simp [Sys.hitRefs, Table.mem_def, and_assoc]

theorem Known.key_of_clue (h : Known board s) (hd : d ∈ board.places)
    (hclue : d.kind = .clue) {c : CreditRow} (hc : c ∈ s.credits)
    (hsource : c.key.source = .knock ∨ c.key.source = .activity) (href : c.key.ref = d.id) :
    c.key = hitKey d.night d.id := by
  rcases hsource with hknock | hactivity
  · obtain ⟨d', hd', hporch, href'⟩ := (h.credit hc (by rw [hknock]; decide)).porch hknock
    obtain rfl := Board.eq_of_id_eq hd hd' (href.symm.trans href')
    cases hclue.symm.trans hporch
  · rcases (h.credit hc (by rw [hactivity]; decide)).spot hactivity with hcolon | ⟨d', hd', hkey⟩
    · rw [href] at hcolon
      exact absurd hcolon (Board.colon_notMem hd)
    · have hid : d.id = d'.id := by
        rw [← href, hkey]
        rfl
      obtain rfl := Board.eq_of_id_eq hd hd' hid
      exact hkey

theorem Known.holds_of_done (h : Known board s) {q : Spot} (hq : q ∈ board.trail night)
    (hdone : q.id ∈ s.hitRefs p night) : s.Holds p (hitKey night q.id) := by
  obtain ⟨d, hd, rfl, hclue, rfl⟩ := mem_trail.mp hq
  obtain ⟨c, hc, hp, -, hsource, href⟩ := mem_hitRefs.mp hdone
  exact ⟨c, hc, hp, h.key_of_clue hd hclue hc hsource href⟩

/-! ## What a hit adds -/

/-- The keys that a hit on `d` can add on the way from `s` to `s'`, and when. -/
inductive HitKey (board : Board) (p : Nat) (night : String) (d : Place) (s s' : Sys) (k : Key) :
    Prop
  | spot (key : k = ⟨night, (sourceFor d.kind).1, d.id⟩)
  | first (key : k = hitKey night (d.id ++ ":first"))
      (room : s.finders night d.id < seekFirstN) (found : s'.Holds p (hitKey night d.id))
  | storm (key : k = hitKey night (d.id ++ ":storm"))
  | all (key : k = hitKey night trailAll)
      (found : ∀ q ∈ board.trail night, s'.Holds p (hitKey night q.id))

theorem sourceFor_of_ne_porch {kind : SpotKind} (h : kind ≠ .porch) :
    (sourceFor kind).1 = .activity := by
  cases kind with
  | porch => exact absurd rfl h
  | clue | stall | seek | haunt => rfl

theorem creditHit_frame (s : Sys) (p accountId : Nat) (night : String) (spot : Spot)
    (accounts : List Nat) :
    (s.creditHit p accountId night spot accounts).1.facts = s.facts ∧
      (s.creditHit p accountId night spot accounts).1.links = s.links := by
  simp only [Sys.creditHit]
  rw [(pass_earn _ p _).2.1, (pass_earn _ p _).2.2]
  split
  · rw [(addEarn_frame ..).2.1, (addEarn_frame ..).2.1, (addEarn_frame ..).2.2.1,
      (addEarn_frame ..).2.2.1]
    exact ⟨rfl, rfl⟩
  · exact ⟨(addEarn_frame ..).2.1, (addEarn_frame ..).2.2.1⟩

theorem creditBonus_links (s : Sys) (p accountId : Nat) (night ref : String) (amount : Int)
    (accounts : List Nat) :
    (s.creditBonus p accountId night ref amount accounts).links = s.links := by
  rw [Sys.creditBonus, (pass_earn _ p _).2.2, (addEarn_frame ..).2.2.1]

variable {owner : Nat → Nat} {accountId : Nat} {accounts : List Nat}

theorem creditBonus_awards (hsettled : Settled owner s) (hacct : accountId ∈ accounts)
    (hown : ∀ a ∈ accounts, owner a = p) (helig : s.profileEligible accounts = true)
    (night ref : String) {amount : Int} (hpos : 0 < amount) :
    Awards owner p [hitKey night ref] s
      (s.creditBonus p accountId night ref amount accounts) :=
  (Adds.addEarn s accountId night activity ref hpos).awards hsettled hacct hown helig

theorem creditHit_awards (hsettled : Settled owner s) (hacct : accountId ∈ accounts)
    (hown : ∀ a ∈ accounts, owner a = p) (helig : s.profileEligible accounts = true)
    (night : String) (hd : d.Valid) :
    ∃ keys, Awards owner p keys s (s.creditHit p accountId night d.toSpot accounts).1 ∧
      ⟨night, (sourceFor d.kind).1, d.id⟩ ∈ keys ∧
      ∀ k ∈ keys, k = ⟨night, (sourceFor d.kind).1, d.id⟩ ∨
        k = hitKey night (d.id ++ ":first") ∧ d.kind = .seek ∧
          s.finders night d.id < seekFirstN := by
  have hpos : 0 < d.award := by
    have haward := hd.award.1
    omega
  have hadd := Adds.addEarn s accountId night (sourceFor d.kind) d.id hpos
  have hfinders : (s.addEarn accountId night (sourceFor d.kind) d.id d.award).1.finders night
      d.id = s.finders night d.id := by
    rw [Sys.finders, Sys.finders, hadd.credits]
  simp only [Sys.creditHit, hfinders]
  split
  · rename_i hfirst
    have hbonus : 0 < d.firstNBonus := by
      have hne := hfirst.2.1
      have hnonneg := hd.bonus.1
      omega
    have hboth := hadd.trans (Adds.addEarn _ accountId night activity (d.id ++ ":first") hbonus)
    refine ⟨_, hboth.awards hsettled hacct hown helig, by simp, fun k hk => ?_⟩
    rcases List.mem_append.mp hk with hk | hk
    · exact Or.inl (List.mem_singleton.mp hk)
    · exact Or.inr ⟨List.mem_singleton.mp hk, hfirst.1, hfirst.2.2⟩
  · refine ⟨_, hadd.awards hsettled hacct hown helig, by simp, fun k hk => ?_⟩
    exact Or.inl (List.mem_singleton.mp hk)

theorem Awards.known {keys : List Key} (h : Awards owner p keys s s') (hknown : Known board s)
    (hkeys : ∀ k ∈ keys, KnownKey board k) : Known board s' where
  evidenced := h.evidenced hknown.evidenced
  keys e he := by
    by_cases hsource : e.key.source = .knock ∨ e.key.source = .activity
    · rcases h.hits e he hsource with hold | hkey
      · exact hknown.keys e hold
      · exact hkeys e.key hkey
    · rw [not_or] at hsource
      exact ⟨fun hknock => absurd hknock hsource.1, fun hact => absurd hact hsource.2⟩

theorem HitKey.known (hd : d ∈ board.places) {k : Key}
    (h : HitKey board p d.night d s s' k) : KnownKey board k := by
  have hbonus : ∀ ref : String, ':' ∈ ref.toList → KnownKey board (hitKey d.night ref) := by
    intro ref hcolon
    exact ⟨nofun, fun _ => Or.inl hcolon⟩
  cases h with
  | spot key =>
    subst key
    by_cases hporch : d.kind = .porch
    · refine ⟨fun _ => ⟨d, hd, hporch, rfl⟩, fun hactivity => ?_⟩
      rw [hporch] at hactivity
      cases hactivity
    · have hsource := sourceFor_of_ne_porch hporch
      refine ⟨fun hknock => ?_, fun _ => Or.inr ⟨d, hd, ?_⟩⟩
      · cases hsource.symm.trans hknock
      · rw [hitKey, hsource]
  | first key =>
    subst key
    exact hbonus _ (colon_mem_first d.id)
  | storm key =>
    subst key
    refine hbonus _ ?_
    rw [String.toList_append]
    exact List.mem_append_right _ (by decide)
  | all key =>
    subst key
    exact hbonus _ (by decide)

theorem HitKey.mono {m : Sys} (hkept : ∀ c ∈ m.credits, c ∈ s'.credits) {k : Key}
    (h : HitKey board p night d s m k) : HitKey board p night d s s' k := by
  cases h with
  | spot key => exact .spot key
  | first key room found => exact .first key room (found.mono hkept)
  | storm key => exact .storm key
  | all key found => exact .all key (fun q hq => (found q hq).mono hkept)

theorem knockHit_cases (s : Sys) (p accountId : Nat) (night : String) (spots : List Spot)
    (spot : Spot) (stormLive : Bool) (accounts : List Nat) :
    (s.knockHit p accountId night spots spot stormLive accounts).1 =
        (s.creditHit p accountId night spot accounts).1 ∨
      (s.knockHit p accountId night spots spot stormLive accounts).1 =
        (s.creditHit p accountId night spot accounts).1.creditBonus p accountId night
          (spot.id ++ ":storm") stormBonus accounts ∨
      openClue spots ((s.creditHit p accountId night spot accounts).1.hitRefs p night) = none ∧
        (s.knockHit p accountId night spots spot stormLive accounts).1 =
          (s.creditHit p accountId night spot accounts).1.creditBonus p accountId night
            trailAll trailAllAward accounts := by
  simp only [Sys.knockHit]
  by_cases hclue : spot.kind = .clue
  · simp only [hclue, reduceCtorEq, false_and, if_false, if_true]
    split
    · rename_i hdone
      rw [currentClue_eq, Option.map_eq_none_iff] at hdone
      exact Or.inr (Or.inr ⟨hdone, rfl⟩)
    · exact Or.inl rfl
  · rw [if_neg hclue]
    split
    · exact Or.inr (Or.inl rfl)
    · exact Or.inl rfl

theorem knockHit_links (s : Sys) (p accountId : Nat) (night : String) (spots : List Spot)
    (spot : Spot) (stormLive : Bool) (accounts : List Nat) :
    (s.knockHit p accountId night spots spot stormLive accounts).1.links = s.links := by
  have hhit := (creditHit_frame s p accountId night spot accounts).2
  rcases knockHit_cases s p accountId night spots spot stormLive accounts with
    heq | heq | ⟨-, heq⟩
  · rw [heq, hhit]
  · rw [heq, creditBonus_links, hhit]
  · rw [heq, creditBonus_links, hhit]

theorem knockHit_awards (hsettled : Settled owner s) (hknown : Known board s)
    (hacct : accountId ∈ accounts) (hown : ∀ a ∈ accounts, owner a = p)
    (helig : s.profileEligible accounts = true) (hd : d ∈ board.places)
    (stormLive : Bool) :
    ∃ keys, Awards owner p keys s (s.knockHit p accountId d.night
        ((board.spotsFor d.night).map Place.toSpot) d.toSpot stormLive accounts).1 ∧
      ⟨d.night, (sourceFor d.kind).1, d.id⟩ ∈ keys ∧
      ∀ k ∈ keys, HitKey board p d.night d s (s.knockHit p accountId d.night
        ((board.spotsFor d.night).map Place.toSpot) d.toSpot stormLive accounts).1 k := by
  obtain ⟨keys, hhit, hspot, hkeys⟩ :=
    creditHit_awards hsettled hacct hown helig d.night (board.valid d hd)
  have hcases := knockHit_cases s p accountId d.night
    ((board.spotsFor d.night).map Place.toSpot) d.toSpot stormLive accounts
  have hfacts := (creditHit_frame s p accountId d.night d.toSpot accounts).1
  generalize (s.creditHit p accountId d.night d.toSpot accounts).1 = hit at hhit hcases hfacts
  generalize (s.knockHit p accountId d.night ((board.spotsFor d.night).map Place.toSpot)
    d.toSpot stormLive accounts).1 = s' at hcases
  have helig' : hit.profileEligible accounts = true := by
    rw [profileEligible_congr hfacts]
    exact helig
  have hfound : ∀ k ∈ keys, HitKey board p d.night d s hit k := by
    intro k hk
    rcases hkeys k hk with key | ⟨key, hseek, hroom⟩
    · exact .spot key
    · refine .first key hroom ?_
      have hpaid := hhit.paid _ hspot
      rw [hseek] at hpaid
      exact hpaid rfl
  rcases hcases with rfl | rfl | ⟨hdone, rfl⟩
  · exact ⟨keys, hhit, hspot, hfound⟩
  · have hbonus := creditBonus_awards hhit.settled hacct hown helig'
      d.night (d.id ++ ":storm") (show 0 < stormBonus by decide)
    refine ⟨_, hhit.trans hbonus, List.mem_append_left _ hspot, fun k hk => ?_⟩
    rcases List.mem_append.mp hk with hk | hk
    · exact (hfound k hk).mono hbonus.kept
    · exact .storm (List.mem_singleton.mp hk)
  · have hbonus := creditBonus_awards hhit.settled hacct hown helig'
      d.night trailAll (show 0 < trailAllAward by decide)
    refine ⟨_, hhit.trans hbonus, List.mem_append_left _ hspot, fun k hk => ?_⟩
    rcases List.mem_append.mp hk with hk | hk
    · exact (hfound k hk).mono hbonus.kept
    · refine .all (List.mem_singleton.mp hk) (fun q hq => ?_)
      have hknown' : Known board hit := hhit.known hknown (fun k hk => (hfound k hk).known hd)
      have hin : q.id ∈ hit.hitRefs p d.night := by
        simpa using List.find?_eq_none.mp hdone q hq
      exact (hknown'.holds_of_done hq hin).mono hbonus.kept

theorem mem_finders {ref : String} {q : Nat} :
    q ∈ (s.credits.rows.filter (fun c => c.key = hitKey night ref)).map CreditRow.profileId ↔
      s.Holds q (hitKey night ref) := by
  simp only [List.mem_map, List.mem_filter, decide_eq_true_eq, Sys.Holds, Table.mem_def]
  constructor
  · rintro ⟨c, ⟨hc, hkey⟩, hq⟩
    exact ⟨c, hc, hq, hkey⟩
  · rintro ⟨c, hc, hq, hkey⟩
    exact ⟨c, ⟨hc, hkey⟩, hq⟩

theorem finders_le_succ {ref ref' : String}
    (h : ∀ q, s'.Holds q (hitKey night ref) → s.Holds q (hitKey night ref') ∨ q = p) :
    s'.finders night ref ≤ s.finders night ref' + 1 := by
  unfold Sys.finders
  rw [← List.card_toFinset, ← List.card_toFinset]
  refine le_trans (Finset.card_le_card ?_) (Finset.card_insert_le p _)
  intro q hq
  rw [List.mem_toFinset] at hq
  rw [Finset.mem_insert, List.mem_toFinset]
  rcases h q (mem_finders.mp hq) with hs | rfl
  · exact Or.inr (mem_finders.mpr hs)
  · exact Or.inl rfl

theorem finders_le {ref ref' : String}
    (h : ∀ q, s'.Holds q (hitKey night ref) → s.Holds q (hitKey night ref')) :
    s'.finders night ref ≤ s.finders night ref' := by
  unfold Sys.finders
  rw [← List.card_toFinset, ← List.card_toFinset]
  apply Finset.card_le_card
  intro q hq
  rw [List.mem_toFinset] at hq ⊢
  exact mem_finders.mpr (h q (mem_finders.mp hq))

/-! ## The invariant -/

structure Trailing (board : Board) (owner : Nat → Nat) (s : Sys) : Prop where
  links : ∀ l ∈ s.links, owner l.accountId = l.profileId
  settled : Settled owner s
  known : Known board s
  found : ∀ p night ref, s.Holds p (hitKey night (ref ++ ":first")) → s.Holds p (hitKey night ref)
  few : ∀ night ref, s.finders night (ref ++ ":first") ≤ seekFirstN
  whole : ∀ p night, s.Holds p (hitKey night trailAll) →
    ∀ q ∈ board.trail night, s.Holds p (hitKey night q.id)

theorem trailing_start (board : Board) (owner : Nat → Nat) : Trailing board owner Sys.start where
  links l hl := absurd hl List.not_mem_nil
  settled e he := absurd he (SerialTable.not_mem_empty e)
  known := ⟨fun c hc => absurd hc (Table.not_mem_empty c),
    fun e he => absurd he (SerialTable.not_mem_empty e)⟩
  found p night ref h := by
    obtain ⟨c, hc, -⟩ := h
    exact absurd hc (Table.not_mem_empty c)
  few night ref := Nat.zero_le _
  whole p night h := by
    obtain ⟨c, hc, -⟩ := h
    exact absurd hc (Table.not_mem_empty c)

section

variable {keys : List Key}

theorem HitKey.eq_first {d : Place} (hd : d ∈ board.places) {ref : String}
    (h : HitKey board p d.night d s s' (hitKey night (ref ++ ":first"))) :
    d.night = night ∧ d.id = ref ∧ s.finders night ref < seekFirstN ∧
      s'.Holds p (hitKey night ref) := by
  cases h with
  | spot key =>
    have hid : ref ++ ":first" = d.id := congrArg Key.ref key
    exact absurd (hid ▸ colon_mem_first ref) (Board.colon_notMem hd)
  | first key room found =>
    obtain rfl : night = d.night := congrArg Key.night key
    obtain rfl : ref = d.id := first_injective (congrArg Key.ref key)
    exact ⟨rfl, rfl, room, found⟩
  | storm key => exact absurd (congrArg Key.ref key) (first_ne_storm ref d.id)
  | all key => exact absurd (congrArg Key.ref key) (first_ne_trailAll ref)

theorem HitKey.eq_trailAll {d : Place} (hd : d ∈ board.places)
    (h : HitKey board p d.night d s s' (hitKey night trailAll)) :
    ∀ q ∈ board.trail night, s'.Holds p (hitKey night q.id) := by
  cases h with
  | spot key =>
    have hid : trailAll = d.id := congrArg Key.ref key
    exact absurd (hid ▸ (by decide : ':' ∈ trailAll.toList)) (Board.colon_notMem hd)
  | first key => exact absurd (congrArg Key.ref key).symm (first_ne_trailAll d.id)
  | storm key => exact absurd (congrArg Key.ref key).symm (storm_ne_trailAll d.id)
  | all key found =>
    obtain rfl : night = d.night := congrArg Key.night key
    exact found

theorem HitKey.eq_spot {d d' : Place} (hd : d ∈ board.places) (hd' : d' ∈ board.places)
    (h : HitKey board p d.night d s s' (hitKey night d'.id)) : d = d' := by
  cases h with
  | spot key => exact Board.eq_of_id_eq hd hd' (congrArg Key.ref key).symm
  | first key =>
    have hid : d'.id = d.id ++ ":first" := congrArg Key.ref key
    exact absurd (hid ▸ colon_mem_first d.id) (Board.colon_notMem hd')
  | storm key =>
    have hid : d'.id = d.id ++ ":storm" := congrArg Key.ref key
    refine absurd ?_ (Board.colon_notMem hd')
    rw [hid, String.toList_append]
    exact List.mem_append_right _ (by decide)
  | all key =>
    have hid : d'.id = trailAll := congrArg Key.ref key
    exact absurd (hid ▸ (by decide : ':' ∈ trailAll.toList)) (Board.colon_notMem hd')

theorem Trailing.awards (h : Trailing board owner s) (haw : Awards owner p keys s s')
    (hlinks : ∀ l ∈ s'.links, owner l.accountId = l.profileId)
    (hkeys : ∀ k ∈ keys, ∃ d ∈ board.places, HitKey board p d.night d s s' k) :
    Trailing board owner s' where
  links := hlinks
  settled := haw.settled
  known := by
    apply haw.known h.known
    intro k hk
    obtain ⟨d, hd, hkey⟩ := hkeys k hk
    exact hkey.known hd
  found q night ref hfirst := by
    rcases haw.new q _ rfl hfirst with hold | ⟨rfl, hk⟩
    · exact (h.found q night ref hold).mono haw.kept
    · obtain ⟨d, hd, hkey⟩ := hkeys _ hk
      exact (hkey.eq_first hd).2.2.2
  few night ref := by
    by_cases hk : hitKey night (ref ++ ":first") ∈ keys
    · obtain ⟨d, hd, hkey⟩ := hkeys _ hk
      have hroom := (hkey.eq_first hd).2.2.1
      have hfirsts : s.finders night (ref ++ ":first") ≤ s.finders night ref :=
        finders_le (fun q hq => h.found q night ref hq)
      have hnew : s'.finders night (ref ++ ":first") ≤ s.finders night (ref ++ ":first") + 1 :=
        finders_le_succ (fun q hq => (haw.new q _ rfl hq).imp_right And.left)
      omega
    · refine le_trans (finders_le (fun q hq => ?_)) (h.few night ref)
      rcases haw.new q _ rfl hq with hold | ⟨-, hin⟩
      · exact hold
      · exact absurd hin hk
  whole q night hall := by
    rcases haw.new q _ rfl hall with hold | ⟨rfl, hk⟩
    · exact fun c hc => (h.whole q night hold c hc).mono haw.kept
    · obtain ⟨d, hd, hkey⟩ := hkeys _ hk
      exact hkey.eq_trailAll hd

end

end

/-! ## Runs -/

inductive Visit
  | knock (k : Knock)
  | act (a : Act)

def Board.visit (board : Board) (w : Sietch) : Visit → Option Sietch
  | .knock k => some (board.knock w k).1
  | .act a => some { w with sys := w.sys.apply a }

def Act.Owned (owner : Nat → Nat) : Act → Prop
  | .addEarn _ _ source _ _ => source.1 ≠ .knock ∧ source.1 ≠ .activity
  | .link profileId accountId => owner accountId = profileId
  | .creditProfile profileId accounts => ∀ a ∈ accounts.getD [], owner a = profileId
  | _ => True

def Visit.Owned (owner : Nat → Nat) : Visit → Prop
  | .knock k => owner k.accountId = k.profileId ∧ ∀ a ∈ k.accounts.getD [], owner a = k.profileId
  | .act a => a.Owned owner

section

variable {board : Board} {owner : Nat → Nat} {s : Sys}

theorem owned_accounts (hlinks : ∀ l ∈ s.links, owner l.accountId = l.profileId) {p : Nat}
    {accounts : Option (List Nat)} (h : ∀ a ∈ accounts.getD [], owner a = p) :
    ∀ a ∈ accounts.getD (s.profileAccounts p), owner a = p := by
  cases accounts with
  | some accounts => exact h
  | none =>
    intro a ha
    obtain ⟨l, hl, rfl⟩ := List.mem_map.mp ha
    obtain ⟨hl, hp⟩ := List.mem_filter.mp hl
    exact (hlinks l hl).trans (of_decide_eq_true hp)

theorem act_earn {a : Act} (hown : a.Owned owner) {e : EarnRow} (he : e ∈ (s.apply a).earn)
    (hsource : e.key.source = .knock ∨ e.key.source = .activity) : e ∈ s.earn := by
  cases a with
  | addEarn accountId night source ref amount =>
    rcases addEarn_new he with hold | ⟨-, hkey⟩
    · exact hold
    · rw [hkey] at hsource
      rcases hsource with h | h
      · exact absurd h hown.1
      · exact absurd h hown.2
  | link profileId accountId =>
    simp only [Sys.apply, Sys.link] at he
    split at he <;> exact he
  | recordEarly accountId early =>
    simp only [Sys.apply, Sys.recordEarly] at he
    split at he <;> exact he
  | recordLevel accountId lvl =>
    simp only [Sys.apply, Sys.recordLevel] at he
    split at he
    · exact he
    · split at he <;> exact he
  | creditProfile p accounts =>
    rw [Sys.apply, (pass_earn s p accounts).1] at he
    exact he
  | unlink | post => exact he

theorem act_links (hlinks : ∀ l ∈ s.links, owner l.accountId = l.profileId) {a : Act}
    (hown : a.Owned owner) : ∀ l ∈ (s.apply a).links, owner l.accountId = l.profileId := by
  intro l hl
  cases a with
  | addEarn accountId night source ref amount =>
    rw [Sys.apply, (addEarn_frame ..).2.2.1] at hl
    exact hlinks l hl
  | link profileId accountId =>
    simp only [Sys.apply, Sys.link] at hl
    split at hl
    · exact hlinks l hl
    · rcases List.mem_append.mp hl with hl | hl
      · exact hlinks l hl
      · obtain rfl := List.mem_singleton.mp hl
        exact hown
  | unlink profileId accountId => exact hlinks l (List.mem_filter.mp hl).1
  | recordEarly accountId early =>
    simp only [Sys.apply, Sys.recordEarly] at hl
    split at hl <;> exact hlinks l hl
  | recordLevel accountId lvl =>
    simp only [Sys.apply, Sys.recordLevel] at hl
    split at hl
    · exact hlinks l hl
    · split at hl <;> exact hlinks l hl
  | creditProfile p accounts =>
    rw [Sys.apply, (pass_earn s p accounts).2.2] at hl
    exact hlinks l hl
  | post entry => exact hlinks l hl

theorem act_awards (h : Trailing board owner s) {a : Act} (hown : a.Owned owner) :
    Awards owner 0 [] s (s.apply a) := by
  have hkept : ∀ c ∈ s.credits, c ∈ (s.apply a).credits := fun c hc => (Grows.mem c).apply a hc
  refine ⟨fun e he hactivity => ?_, hkept, fun q k hk hq => Or.inl ?_, ?_,
    fun e he hsource => Or.inl (act_earn hown he hsource), fun hs => hs.apply a⟩
  · exact (h.settled e (act_earn hown he (Or.inr hactivity)) hactivity).mono hkept
  · rcases apply_credits s a with heq | ⟨p, accounts, rfl⟩
    · obtain ⟨c, hc, hrest⟩ := hq
      exact ⟨c, heq ▸ hc, hrest⟩
    · rcases pass_new hq with hold | ⟨-, hstreak | ⟨e, he, rfl⟩⟩
      · exact hold
      · rw [hstreak] at hk
        cases hk
      · have hpending := he
        exact (h.settled.not_pending (owned_accounts h.links hown) (mem_pending.mp he).1 hk
          hpending).elim
  · intro k hk
    cases hk

theorem Awards.refl (hsettled : Settled owner s) (p : Nat) : Awards owner p [] s s where
  settled := hsettled
  kept _ hc := hc
  new _ _ _ h := Or.inl h
  paid _ hk := by cases hk
  hits _ he _ := Or.inl he
  evidenced h := h

theorem mem_openSpots {k : Knock} {night : String} {d : Place}
    (hd : d ∈ board.openSpots s k night) :
    d ∈ board.places ∧ d.night = night ∧
      (d.kind = .clue → ∃ q, openClue ((board.spotsFor d.night).map Place.toSpot)
        (s.hitRefs k.profileId d.night) = some q ∧ q.id = d.id) := by
  obtain ⟨hmem, hopen⟩ := List.mem_filter.mp hd
  obtain ⟨-, -, -, hclue⟩ := of_decide_eq_true hopen
  obtain ⟨hplace, hnight⟩ := mem_spotsFor.mp hmem
  refine ⟨hplace, hnight, fun hkind => ?_⟩
  have hsome := hclue hkind
  cases hq : openClue ((board.spotsFor night).map Place.toSpot) (s.hitRefs k.profileId night) with
  | none =>
    rw [hq] at hsome
    cases hsome
  | some q =>
    rw [hq] at hsome
    exact ⟨q, by rw [hnight, hq], of_decide_eq_true hsome⟩

theorem Knock.owned_accountsIn (hlinks : ∀ l ∈ s.links, owner l.accountId = l.profileId)
    {k : Knock} (hown : (Visit.knock k).Owned owner) :
    k.accountId ∈ k.accountsIn s ∧ ∀ a ∈ k.accountsIn s, owner a = k.profileId := by
  have haccounts := owned_accounts hlinks hown.2
  simp only [Knock.accountsIn]
  split
  · rename_i hin
    exact ⟨hin, haccounts⟩
  · refine ⟨List.mem_append_right _ (List.mem_singleton.mpr rfl), fun a ha => ?_⟩
    rcases List.mem_append.mp ha with ha | ha
    · exact haccounts a ha
    · rw [List.mem_singleton.mp ha]
      exact hown.1

theorem visit_awards {w w' : Sietch} {v : Visit} (h : Trailing board owner w.sys)
    (hown : v.Owned owner) (hstep : board.visit w v = some w') :
    ∃ p keys, Awards owner p keys w.sys w'.sys ∧
      (∀ l ∈ w'.sys.links, owner l.accountId = l.profileId) ∧
      ∀ k ∈ keys, ∃ d ∈ board.places, HitKey board p d.night d w.sys w'.sys k ∧
        (d.kind = .clue → ∃ q, openClue ((board.spotsFor d.night).map Place.toSpot)
          (w.sys.hitRefs p d.night) = some q ∧ q.id = d.id) := by
  cases v with
  | act a =>
    obtain rfl := Option.some.inj hstep
    exact ⟨0, [], act_awards h hown, act_links h.links hown, fun k hk => by cases hk⟩
  | knock k =>
    obtain rfl := Option.some.inj hstep
    rcases knock_cases board w k with heq | ⟨night, d, hhit⟩
    · rw [heq]
      exact ⟨0, [], Awards.refl h.settled 0, h.links, fun k hk => by cases hk⟩
    · obtain ⟨hd, rfl, hclue⟩ := mem_openSpots hhit.isOpen
      obtain ⟨hacct, haccounts⟩ := Knock.owned_accountsIn h.links hown
      obtain ⟨keys, haw, -, hkeys⟩ :=
        knockHit_awards h.settled h.known hacct haccounts hhit.eligible hd k.stormLive
      rw [hhit.sys]
      refine ⟨k.profileId, keys, haw, ?_, fun key hk => ⟨d, hd, hkeys key hk, hclue⟩⟩
      rw [knockHit_links]
      exact h.links

theorem Trailing.visit {w w' : Sietch} {v : Visit} (h : Trailing board owner w.sys)
    (hown : v.Owned owner) (hstep : board.visit w v = some w') : Trailing board owner w'.sys := by
  obtain ⟨p, keys, haw, hlinks, hkeys⟩ := visit_awards h hown hstep
  refine h.awards haw hlinks (fun k hk => ?_)
  obtain ⟨d, hd, hkey, -⟩ := hkeys k hk
  exact ⟨d, hd, hkey⟩

theorem Trailing.in_order {w w' : Sietch} {v : Visit} (h : Trailing board owner w.sys)
    (hown : v.Owned owner) (hstep : board.visit w v = some w') {p : Nat} {night : String}
    {before after : List Spot} {q : Spot} (htrail : board.trail night = before ++ q :: after)
    (hnew : w'.sys.Holds p (hitKey night q.id)) (hold : ¬ w.sys.Holds p (hitKey night q.id)) :
    ∀ r ∈ before, w.sys.Holds p (hitKey night r.id) := by
  obtain ⟨p', keys, haw, -, hkeys⟩ := visit_awards h hown hstep
  obtain ⟨rfl, hk⟩ := (haw.new p _ rfl hnew).resolve_left hold
  obtain ⟨d, hd, hkey, hclue⟩ := hkeys _ hk
  have hmem : q ∈ board.trail night := by
    rw [htrail]
    exact List.mem_append_right _ (List.mem_cons_self ..)
  obtain ⟨d', hd', rfl, hkind, rfl⟩ := mem_trail.mp hmem
  obtain rfl := hkey.eq_spot hd hd'
  obtain ⟨q', hopen, hid⟩ := hclue hkind
  intro r hr
  have hin : r ∈ board.trail d.night := by
    rw [htrail]
    exact List.mem_append_left _ hr
  exact h.known.holds_of_done hin
    (done_before (nodup_trail board d.night) hopen hid htrail r hr)

def Sys.hitsOn (s : Sys) (p : Nat) (ref : String) : List CreditRow :=
  s.credits.rows.filter (fun c =>
    c.profileId = p ∧ (c.key.source = .knock ∨ c.key.source = .activity) ∧ c.key.ref = ref)

theorem Known.clue_once (h : Known board s) (p : Nat) {d : Place} (hd : d ∈ board.places)
    (hclue : d.kind = .clue) : (s.hitsOn p d.id).length ≤ 1 := by
  refine s.credits.length_filter_le_one (k := (p, hitKey d.night d.id)) (fun c hc hhit => ?_)
  obtain ⟨hp, hsource, href⟩ := of_decide_eq_true hhit
  exact Prod.ext hp (h.key_of_clue hd hclue hc hsource href)

end

def firstClue : Place :=
  { id := "n1-first", kind := .clue, seq := 1, riddle := "under the arch", award := 4,
    firstNBonus := 0, night := "2026-10-26", map := "hagga", x := 0, y := 0, radius := 15000,
    isPublic := false }

def secondClue : Place :=
  { firstClue with id := "n1-second", seq := 2, riddle := "by the wreck", y := 90000 }

def twoClues : Board where
  places := [firstClue, secondClue]
  ids := by decide
  valid := by
    have hfirst : firstClue.Valid := by
      refine ⟨by decide, by decide, Or.inl rfl, ?_, by decide, by decide, by decide, by decide⟩
      exact ⟨by decide, by decide⟩
    have hsecond : secondClue.Valid :=
      ⟨by decide, hfirst.night, hfirst.map, hfirst.radius, hfirst.award, hfirst.bonus,
        by decide, by decide⟩
    simp [hfirst, hsecond]
  partitions := [1, 33]
  hypot x y := |x| + |y|

def knockFrom (y : ℚ) (seconds : Int) : Visit :=
  .knock
    { profileId := 1, accountId := 10,
      pos := some ⟨"HaggaBasin", some 1, some 0, some y, true, false⟩,
      now := firstDay * 86400 * second + seconds * second, spotId := none, stormLive := false,
      accounts := none }

def hitFirst : List Visit := [.act (.link 1 10), .act (.recordLevel 10 20), knockFrom 0 0]

end LastSietch.Nights
