import LastSietch.Cielago.Giveaway
import LastSietch.Lib.Runs

/-!
# Draws in runs

Entries, ends, rerolls and restarts in any order. `_end_giveaway` draws and saves, and only then
looks for the channel, edits the message and comes to `_finish_founders`, which keeps the winners'
codes and drops the others; a giveaway is in `ending` between the two. A restart, a channel that is
not there or an error on the way leaves the second part out for good, and a reroll makes new winners
without it.
-/

namespace LastSietch.Giveaways

open Dict
open Runs (exec Along)

variable (py : Python)

/-! ## The system -/

/-- How `save` goes; `OSError` is logged only, and may come in the middle of the write. -/
inductive Write
  | done | refused | cut

inductive Mode
  | plain
  | weekend (gameEntries : Json) (platform : String) (reminder : Bool)
  | founders (role starter : Nat)

structure Sys where
  now : Nat
  posted : List Nat
  store : Store
  file : File
  forms : List (Nat × Nat)
  ending : List Nat
  given : List ((Nat × Nat) × String)

inductive Act
  | clock (now : Nat)
  | start (messageId channelId guildId : Nat) (prizes : List String) (endsAt : Nat) (mode : Mode)
      (write : Write)
  | press (user messageId : Nat) (founder : Bool) (write : Write)
  | submit (user messageId : Nat) (raw : String) (write : Write)
  | remind (messageId : Nat) (write : Write)
  | tick (messageId : Nat) (picks : Nat → Nat) (channel : Bool) (write : Write)
  | end_ (messageId : Nat) (picks : Nat → Nat) (channel : Bool) (write : Write)
  | finish (messageId : Nat) (write : Write)
  /-- An error between the draw and `_finish_founders`. -/
  | fail (messageId : Nat)
  | reroll (messageId : Nat) (picks : Nat → Nat) (write : Write)
  | restart

def Giveaway.opened (messageId channelId guildId : Nat) (prizes : List String) (endsAt : Nat)
    (mode : Mode) : Giveaway where
  messageId
  channelId
  guildId
  prizes
  endsAt
  entrants := .empty
  winners := []
  ended := false
  isWeekend := match mode with
    | .weekend .. => true
    | .plain | .founders .. => false
  gameEntries := match mode with
    | .weekend gameEntries _ _ => gameEntries
    | .plain | .founders .. => .null
  platform := match mode with
    | .weekend _ platform _ => some platform
    | .plain | .founders .. => none
  reminderSent := match mode with
    | .weekend _ _ reminder => !reminder
    | .plain | .founders .. => false
  foundersRoleId := match mode with
    | .founders role _ => some role
    | .plain | .weekend .. => none
  starterId := match mode with
    | .founders _ starter => some starter
    | .plain | .weekend .. => none
  codes := []

def writeFile (file : File) (store : Store) : Write → File
  | .done => .holds (dump store)
  | .refused => file
  | .cut => .broken

def Sys.put (s : Sys) (g : Giveaway) (write : Write) : Sys :=
  let store := assign s.store g.messageId g
  { s with store, file := writeFile s.file store write }

/-- `_end_giveaway` as far as `_finish_founders`. -/
def Sys.end_ (s : Sys) (g : Giveaway) (picks : Nat → Nat) (channel : Bool) (write : Write) : Sys :=
  let drawn := s.put (g.draw picks) write
  if g.founders = true ∧ channel = true then { drawn with ending := g.messageId :: s.ending }
  else drawn

def step (s : Sys) : Act → Option Sys
  | .clock now => some { s with now }
  | .start messageId channelId guildId prizes endsAt mode write =>
    if messageId ∈ s.posted ∨ prizes = [] then none
    else some { s.put (.opened messageId channelId guildId prizes endsAt mode) write with
      posted := messageId :: s.posted }
  | .press user messageId founder write =>
    match handleEntry (s.store.lookup messageId) user founder with
    | (some g, _) => some (s.put g write)
    | (none, .form) => some { s with forms := (user, messageId) :: s.forms }
    | (none, .message _) => some s
  | .submit user messageId raw write =>
    if ¬s.forms.contains (user, messageId) then none
    else
      let closed := { s with forms := s.forms.erase (user, messageId) }
      match finishFoundersEntry py (s.store.lookup messageId) user raw with
      | (some g, _) => some { closed.put g write with
          given := ((messageId, user), (g.codes.lookup user).getD NO_CODE) :: s.given }
      | (none, _) => some closed
  | .remind messageId write => do
    let g ← s.store.lookup messageId
    if g.ended = false ∧ g.isWeekend = true ∧ g.reminderSent = false ∧
        g.endsAt ≤ s.now + 24 * 3600 then
      some (s.put { g with reminderSent := true } write)
    else none
  | .tick messageId picks channel write => do
    let g ← s.store.lookup messageId
    if g.ended = false ∧ g.endsAt ≤ s.now then some (s.end_ g picks channel write) else none
  | .end_ messageId picks channel write => do
    let g ← s.store.lookup messageId
    if g.ended then none else some (s.end_ g picks channel write)
  | .finish messageId write => do
    let g ← s.store.lookup messageId
    if messageId ∈ s.ending then
      some { s.put g.finishFounders write with ending := s.ending.filter (· ≠ messageId) }
    else none
  | .fail messageId =>
    if messageId ∈ s.ending then
      some { s with ending := s.ending.filter (· ≠ messageId) }
    else none
  | .reroll messageId picks write => do
    let g ← s.store.lookup messageId
    if g.ended then some (s.put (g.reroll picks) write) else none
  | .restart => (load s.file).map fun store => { s with store, forms := [], ending := [] }

def Sys.lastCode (s : Sys) (messageId user : Nat) : Option String :=
  s.given.lookup (messageId, user)

structure CodesOf (users : List Nat) (last : Nat → Option String) (g : Giveaway) : Prop where
  given : ∀ u ∈ users, ∃ code, last u = some code ∧ g.codes.lookup u = some code
  others : ∀ e ∈ g.codes, e.1 ∈ users

/-- Every giveaway that has ended is drawn; where the draw is over, a founders' giveaway has the
codes that its winners gave last, and no others. -/
def Sys.Respected (s : Sys) : Prop :=
  ∀ id g, s.store.lookup id = some g → g.ended = true → Drawn g ∧
    (g.founders = true → id ∉ s.ending → CodesOf g.winners (s.lastCode id) g)

def Giveaway.AllWin (g : Giveaway) : Prop := g.entrants.card ≤ g.prizes.length

instance (g : Giveaway) : Decidable g.AllWin := inferInstanceAs (Decidable (_ ≤ _))

def Sys.UpToDate (s : Sys) : Prop :=
  match s.file with
  | .holds data => data = dump s.store
  | .missing | .broken => s.store = []

/-- A draw whose second part will not come is one that nobody loses, as is one that a restart, an
error or a reroll leaves behind; a restart comes after a save. -/
def Sys.Careful (s : Sys) : Act → Prop
  | .tick messageId _ channel _ | .end_ messageId _ channel _ =>
    ∀ g ∈ s.store.lookup messageId, g.founders = true → channel = true ∨ g.AllWin
  | .fail messageId => ∀ g ∈ s.store.lookup messageId, g.AllWin
  | .reroll messageId picks _ => ∀ g ∈ s.store.lookup messageId, g.founders = true →
      messageId ∈ s.ending ∨ ∀ w ∈ selectWinners picks g.entrants g.prizes.length, w ∈ g.winners
  | .restart => s.UpToDate ∧ ∀ messageId ∈ s.ending, ∀ g ∈ s.store.lookup messageId, g.AllWin
  | _ => True

/-! ## The invariant -/

/-- A giveaway, by what its users gave last and whether the second part of its draw is to come. -/
structure Fair (last : Nat → Option String) (pending : Prop) (g : Giveaway) : Prop where
  begun : pending → g.ended = true
  drawn : g.ended = true → Drawn g
  collected : g.founders = true → (g.ended = false ∨ pending) → CodesOf g.entrants.ids last g
  kept : g.founders = true → g.ended = true → ¬pending → CodesOf g.winners last g

variable {last : Nat → Option String} {g n g' : Giveaway}

theorem Fair.left_out {pending : Prop}
    (h : Fair last pending g) (hpending : pending) (hall : g.AllWin) : Fair last False g := by
  have hended := h.begun hpending
  have hdrawn := h.drawn hended
  refine ⟨False.elim, h.drawn, fun hf _ => h.collected hf (Or.inr hpending), fun hf _ _ => ?_⟩
  have hcollected := h.collected hf (Or.inr hpending)
  exact ⟨fun w hw => hcollected.given w (hdrawn.mem w hw),
    fun e he => (hdrawn.mem_iff hall).mpr (hcollected.others e he)⟩

theorem Fair.of_not {pending : Prop}
    (h : Fair last False g) (hnot : ¬pending) : Fair last pending g := by
  rw [eq_false hnot]
  exact h

structure Inv (s : Sys) : Prop where
  keyed : Keyed s.store
  posted : ∀ e ∈ s.store, e.1 ∈ s.posted
  ending : ∀ id ∈ s.ending, id ∈ s.posted
  fair : ∀ id g, s.store.lookup id = some g → Fair (s.lastCode id) (id ∈ s.ending) g

variable {s s' : Sys}

variable {id user : Nat}

theorem Inv.id_eq (h : Inv s) (hg : s.store.lookup id = some g) :
    g.messageId = id :=
  h.keyed.id_eq (id, g) (mem_of_lookup hg)

theorem Inv.codes (h : Inv s) (hg : s.store.lookup id = some g) :
    (g.codes.map (·.1)).Nodup :=
  h.keyed.codes (id, g) (mem_of_lookup hg)

theorem Inv.put (h : Inv s) (hstore : s'.store = assign s.store g.messageId g)
    (hposted : ∀ id ∈ s.posted, id ∈ s'.posted) (hid : g.messageId ∈ s'.posted)
    (hending : ∀ id ∈ s'.ending, id = g.messageId ∨ id ∈ s.ending)
    (hcodes : (g.codes.map (·.1)).Nodup)
    (hfair : Fair (s'.lastCode g.messageId) (g.messageId ∈ s'.ending) g)
    (hrest : ∀ id, id ≠ g.messageId →
      s'.lastCode id = s.lastCode id ∧ (id ∈ s.ending → id ∈ s'.ending)) : Inv s' where
  keyed := hstore ▸ keyed_assign h.keyed hcodes
  posted := by
    intro e he
    rw [hstore] at he
    rcases mem_assign he with rfl | he
    · exact hid
    · exact hposted e.1 (h.posted e he)
  ending := by
    intro id hin
    rcases hending id hin with rfl | hin
    · exact hid
    · exact hposted id (h.ending id hin)
  fair := by
    intro id g' hg'
    rw [hstore, lookup_assign] at hg'
    by_cases hsame : id = g.messageId
    · rw [if_pos hsame] at hg'
      obtain rfl := Option.some.inj hg'
      exact hsame ▸ hfair
    · rw [if_neg hsame] at hg'
      obtain ⟨hlast, hpending⟩ := hrest id hsame
      have hiff : (id ∈ s'.ending) = (id ∈ s.ending) :=
        propext ⟨fun hin => (hending id hin).resolve_left hsame, hpending⟩
      rw [hlast, hiff]
      exact h.fair id g' hg'

theorem Inv.draw (h : Inv s) (hg : s.store.lookup id = some g)
    (hlive : g.ended = false) {picks : Nat → Nat} {channel : Bool} {write : Write}
    (hcareful : g.founders = true → channel = true ∨ g.AllWin) :
    Inv (s.end_ g picks channel write) := by
  have hid := h.id_eq hg
  have hdrawn : Drawn (g.draw picks) := drawn_of_select picks rfl
  have hposted : g.messageId ∈ s.posted := hid ▸ h.posted (id, g) (mem_of_lookup hg)
  have hcodesOf : ((g.draw picks).codes.map (·.1)).Nodup :=
    Inv.codes (g := g) h hg
  have hcollected (hf : g.founders = true) : CodesOf g.entrants.ids (s.lastCode id) g :=
    (h.fair id g hg).collected hf (Or.inl hlive)
  unfold Sys.end_
  dsimp only
  split
  · rename_i hpending
    refine h.put (g := g.draw picks) rfl (fun _ hin => hin) hposted (fun i hin => ?_) hcodesOf ?_
      (fun i hne => ⟨rfl, fun hin => List.mem_cons_of_mem _ hin⟩)
    · exact List.mem_cons.mp hin
    · refine ⟨fun _ => rfl, fun _ => hdrawn, fun hf _ => ?_,
        fun _ _ hno => absurd List.mem_cons_self hno⟩
      have hcodes := hcollected hf
      rw [← hid] at hcodes
      exact ⟨hcodes.given, hcodes.others⟩
  · rename_i hnot
    refine h.put (g := g.draw picks) rfl (fun _ hin => hin) hposted (fun i hin => Or.inr hin)
      hcodesOf ?_ (fun i hne => ⟨rfl, fun hin => hin⟩)
    refine ⟨fun _ => rfl, fun _ => hdrawn, fun hf hopen => ?_, fun hf _ _ => ?_⟩
    all_goals
      have hcodes := hcollected hf
      rw [← hid] at hcodes
    · exact ⟨hcodes.given, hcodes.others⟩
    · have hall : g.AllWin := by
        rcases hcareful hf with hchannel | hall
        · exact absurd ⟨hf, hchannel⟩ hnot
        · exact hall
      refine ⟨fun w hw => hcodes.given w (hdrawn.mem w hw), fun e he => ?_⟩
      exact (hdrawn.mem_iff hall).mpr (hcodes.others e he)

theorem Inv.touch (h : Inv s) (hg : s.store.lookup id = some g)
    (hid' : n.messageId = g.messageId) (hcodes : n.codes = g.codes)
    (hfair : Fair (s.lastCode id) (id ∈ s.ending) n) (write : Write) : Inv (s.put n write) := by
  have hid := h.id_eq hg
  refine h.put (g := n) rfl (fun _ hin => hin) ?_ (fun i hin => Or.inr hin) ?_ ?_
    (fun i _ => ⟨rfl, fun hin => hin⟩)
  · rw [hid', hid]
    exact h.posted (id, g) (mem_of_lookup hg)
  · rw [hcodes]
    exact h.codes hg
  · rw [hid', hid]
    exact hfair

variable {reply : Reply}

theorem handleEntry_some {founder : Bool}
    (h : handleEntry (some g) user founder = (some g', reply)) :
    g.ended = false ∧ g.founders = false ∧ g' = { g with entrants := g.entrants.insert user } := by
  simp only [handleEntry] at h
  split at h
  · cases h
  · rename_i hlive
    split at h
    · cases h
    · split at h
      · split at h <;> cases h
      · rename_i hplain
        cases h
        exact ⟨Bool.eq_false_of_not_eq_true hlive, Bool.eq_false_of_not_eq_true hplain, rfl⟩

theorem Inv.press (h : Inv s) {founder : Bool}
    (hentry : handleEntry (s.store.lookup id) user founder = (some g', reply)) (write : Write) :
    Inv (s.put g' write) := by
  cases hg : s.store.lookup id with
  | none =>
    rw [hg] at hentry
    cases hentry
  | some g =>
    rw [hg] at hentry
    obtain ⟨hlive, hplain, rfl⟩ := handleEntry_some hentry
    refine h.touch (n := { g with entrants := g.entrants.insert user }) hg rfl rfl
      ⟨(h.fair id g hg).begun, fun hended => ?_, fun hf => ?_, fun hf => ?_⟩ write
    · exact absurd (hlive.symm.trans hended) Bool.false_ne_true
    · exact absurd (hplain.symm.trans hf) Bool.false_ne_true
    · exact absurd (hplain.symm.trans hf) Bool.false_ne_true

theorem finishFoundersEntry_some {raw : String}
    (h : finishFoundersEntry py (some g) user raw = (some g', reply)) :
    g.ended = false ∧ ∃ code, g' = { g with
      entrants := g.entrants.insert user, codes := assign g.codes user code } := by
  simp only [finishFoundersEntry] at h
  split at h
  · cases h
  · rename_i hlive
    split at h
    · cases h
    · rename_i code _
      cases h
      exact ⟨Bool.eq_false_of_not_eq_true hlive, code, rfl⟩

theorem CodesOf.submit
    (h : CodesOf g.entrants.ids last g) (last' : Nat → Option String) (user : Nat) (code : String)
    (hnew : last' user = some code) (hold : ∀ u, u ≠ user → last' u = last u) :
    CodesOf (g.entrants.insert user).ids last' { g with
      entrants := g.entrants.insert user, codes := assign g.codes user code } := by
  refine ⟨fun u hu => ?_, fun e he => ?_⟩
  · rw [lookup_assign]
    by_cases hsame : u = user
    · exact ⟨code, hsame ▸ hnew, if_pos hsame⟩
    · rw [if_neg hsame, hold u hsame]
      exact h.given u ((IdSet.mem_insert.mp hu).resolve_left hsame)
  · refine IdSet.mem_insert.mpr ?_
    rcases mem_assign he with rfl | he
    · exact Or.inl rfl
    · exact Or.inr (h.others e he)

theorem Inv.submit (h : Inv s) {raw : String}
    (hentry : finishFoundersEntry py (s.store.lookup id) user raw = (some g', reply))
    (forms : List (Nat × Nat)) (write : Write) :
    Inv { ({ s with forms } : Sys).put g' write with
      given := ((id, user), (g'.codes.lookup user).getD NO_CODE) :: s.given } := by
  cases hg : s.store.lookup id with
  | none =>
    rw [hg] at hentry
    cases hentry
  | some g =>
    rw [hg] at hentry
    obtain ⟨hlive, code, rfl⟩ := finishFoundersEntry_some py hentry
    have hid := h.id_eq hg
    have hcode : ((assign g.codes user code).lookup user).getD NO_CODE = code := by
      rw [lookup_assign, if_pos rfl, Option.getD_some]
    have hlast : ∀ i u, ((((id, user), code) :: s.given).lookup (i, u)) =
        if (i, u) = (id, user) then some code else s.lastCode i u := by
      intro i u
      by_cases hsame : (i, u) = (id, user)
      · rw [if_pos hsame, hsame, List.lookup_cons_self]
      · have hne : ((i, u) == (id, user)) = false := beq_false_of_ne hsame
        rw [if_neg hsame, List.lookup_cons, hne]
        rfl
    rw [hcode]
    refine h.put (g := { g with
      entrants := g.entrants.insert user, codes := assign g.codes user code }) rfl
      (fun _ hin => hin) ?_ (fun i hin => Or.inr hin) ?_ ?_ (fun i hne => ⟨?_, fun hin => hin⟩)
    · exact hid ▸ h.posted (id, g) (mem_of_lookup hg)
    · exact nodup_assign (h.codes hg) user code
    · have hcollected (hf : g.founders = true) :=
        ((h.fair id g hg).collected hf (Or.inl hlive)).submit
          (fun u => (((id, user), code) :: s.given).lookup (id, u)) user code
          ((hlast id user).trans (if_pos rfl))
          (fun u hne => (hlast id u).trans (if_neg fun heq => hne (Prod.ext_iff.mp heq).2))
      refine ⟨?_, fun hended => ?_, fun hf _ => ?_, fun _ hended => ?_⟩
      · exact hid ▸ (h.fair id g hg).begun
      · rw [hlive] at hended
        cases hended
      · exact hid ▸ hcollected hf
      · rw [hlive] at hended
        cases hended
    · funext u
      refine (hlast i u).trans (if_neg fun heq => hne ?_)
      exact (Prod.ext_iff.mp heq).1.trans hid.symm

theorem Inv.finish (h : Inv s) (hg : s.store.lookup id = some g)
    (hpending : id ∈ s.ending) (write : Write) :
    Inv { s.put g.finishFounders write with ending := s.ending.filter (· ≠ id) } := by
  have hid := h.id_eq hg
  have hfair := h.fair id g hg
  have hended : g.ended = true := hfair.begun hpending
  have hdrawn := hfair.drawn hended
  have hgone : id ∉ s.ending.filter (· ≠ id) := fun hin =>
    (of_decide_eq_true (List.mem_filter.mp hin).2) rfl
  have hkeys : ((g.winners.map fun w => (w, (g.codes.lookup w).getD NO_CODE)).map (·.1)) =
      g.winners := by
    rw [List.map_map]
    exact List.map_id _
  have hcodes : g.finishFounders.codes =
      g.winners.map fun w => (w, (g.codes.lookup w).getD NO_CODE) :=
    assignAll_of_nodup (by rw [hkeys]; exact hdrawn.nodup)
  refine h.put (g := g.finishFounders) rfl (fun _ hin => hin) ?_ (fun i hin => ?_) ?_ ?_
    (fun i hne => ⟨rfl, fun hin => ?_⟩)
  · exact hid ▸ h.posted (id, g) (mem_of_lookup hg)
  · exact Or.inr (List.mem_of_mem_filter hin)
  · rw [hcodes, hkeys]
    exact hdrawn.nodup
  · show Fair (s.lastCode g.messageId) (g.messageId ∈ s.ending.filter (· ≠ id)) g.finishFounders
    rw [hid]
    refine ⟨fun _ => hended, fun _ => ⟨hdrawn.nodup, hdrawn.mem, hdrawn.length⟩,
      fun _ hopen => ?_, fun hf _ _ => ?_⟩
    · rcases hopen with hlive | hin
      · rw [show g.finishFounders.ended = g.ended from rfl, hended] at hlive
        cases hlive
      · exact absurd hin hgone
    · have hcollected := hfair.collected hf (Or.inr hpending)
      refine ⟨fun w hw => ?_, fun e he => ?_⟩
      · obtain ⟨code, hlast, hlookup⟩ := hcollected.given w (hdrawn.mem w hw)
        have hkept := lookup_map_key (l := g.winners) hw fun w => (g.codes.lookup w).getD NO_CODE
        refine ⟨code, hlast, ?_⟩
        rw [hcodes, hkept, hlookup, Option.getD_some]
      · rw [hcodes] at he
        obtain ⟨w, hw, rfl⟩ := List.mem_map.mp he
        exact hw
  · exact List.mem_filter.mpr ⟨hin, decide_eq_true (hid ▸ hne)⟩

theorem Inv.fail (h : Inv s) (hpending : id ∈ s.ending)
    (hcareful : ∀ g ∈ s.store.lookup id, g.AllWin) :
    Inv { s with ending := s.ending.filter (· ≠ id) } := by
  refine ⟨h.keyed, h.posted, fun i hin => h.ending i (List.mem_of_mem_filter hin), fun i g hg => ?_⟩
  have hfair := h.fair i g hg
  show Fair (s.lastCode i) (i ∈ s.ending.filter (· ≠ id)) g
  by_cases hsame : i = id
  · subst hsame
    have hgone : i ∉ s.ending.filter (· ≠ i) := fun hin =>
      (of_decide_eq_true (List.mem_filter.mp hin).2) rfl
    exact (hfair.left_out hpending (hcareful g hg)).of_not hgone
  · have hiff : (i ∈ s.ending.filter (· ≠ id)) = (i ∈ s.ending) :=
      propext ⟨List.mem_of_mem_filter, fun hin => List.mem_filter.mpr ⟨hin, decide_eq_true hsame⟩⟩
    rw [hiff]
    exact hfair

theorem Inv.reroll (h : Inv s) (hg : s.store.lookup id = some g)
    (hended : g.ended = true) {picks : Nat → Nat}
    (hcareful : g.founders = true → id ∈ s.ending ∨
      ∀ w ∈ selectWinners picks g.entrants g.prizes.length, w ∈ g.winners) (write : Write) :
    Inv (s.put (g.reroll picks) write) := by
  have hfair := h.fair id g hg
  have hdrawn : Drawn (g.reroll picks) := drawn_of_select picks rfl
  refine h.touch (n := g.reroll picks) hg rfl rfl ⟨fun _ => hended, fun _ => hdrawn,
    fun hf hopen => ?_, fun hf _ hno => ?_⟩ write
  · have hcollected := hfair.collected hf hopen
    exact ⟨hcollected.given, hcollected.others⟩
  · have hkept := hfair.kept hf hended hno
    have hsame := (hcareful hf).resolve_left hno
    refine ⟨fun w hw => hkept.given w (hsame w hw), fun e he => ?_⟩
    -- The new winners are as many as the old ones, so none of the old ones is left out.
    have hsub : (g.reroll picks).winners.Subperm g.winners :=
      List.subperm_of_subset hdrawn.nodup hsame
    have hlength : g.winners.length ≤ (g.reroll picks).winners.length := by
      rw [(hfair.drawn hended).length, hdrawn.length]
      exact le_rfl
    exact (hsub.perm_of_length_le hlength).mem_iff.mpr (hkept.others e he)

theorem Inv.start (h : Inv s) {messageId channelId guildId : Nat} {prizes : List String}
    {endsAt : Nat} {mode : Mode} (hnew : messageId ∉ s.posted) (write : Write) :
    Inv { s.put (.opened messageId channelId guildId prizes endsAt mode) write with
      posted := messageId :: s.posted } := by
  refine h.put (g := .opened messageId channelId guildId prizes endsAt mode) rfl
    (fun _ hin => List.mem_cons_of_mem _ hin) List.mem_cons_self (fun i hin => Or.inr hin)
    List.nodup_nil ?_ (fun i _ => ⟨rfl, fun hin => hin⟩)
  refine ⟨fun hin => absurd (h.ending messageId hin) hnew, fun hended => ?_, fun _ _ => ?_,
    fun _ hended => ?_⟩
  · cases hended
  · exact ⟨fun u hu => (by cases hu), fun e he => (by cases he)⟩
  · cases hended

theorem load_file (h : Inv s) (hfile : s.UpToDate) : load s.file = some s.store := by
  unfold Sys.UpToDate at hfile
  split at hfile
  · rename_i data heq
    rw [heq, hfile]
    exact load_dump h.keyed
  · rename_i heq
    rw [heq, hfile]
    rfl
  · rename_i heq
    rw [heq, hfile]
    rfl

theorem Inv.restart (h : Inv s) (hall : ∀ id ∈ s.ending, ∀ g ∈ s.store.lookup id, g.AllWin) :
    Inv { s with forms := [], ending := [] } := by
  refine ⟨h.keyed, h.posted, fun i hin => (by cases hin), fun i g hg => ?_⟩
  have hfair := h.fair i g hg
  by_cases hpending : i ∈ s.ending
  · exact (hfair.left_out hpending (hall i hpending g hg)).of_not List.not_mem_nil
  · have hiff : (i ∈ s.ending) = (i ∈ ([] : List Nat)) :=
      propext ⟨fun hin => absurd hin hpending, fun hin => by cases hin⟩
    show Fair (s.lastCode i) (i ∈ ([] : List Nat)) g
    rw [← hiff]
    exact hfair

theorem Inv.congr (h : Inv s) (hstore : s'.store = s.store) (hposted : s'.posted = s.posted)
    (hending : s'.ending = s.ending) (hgiven : s'.given = s.given) : Inv s' where
  keyed := hstore ▸ h.keyed
  posted := by rw [hstore, hposted]; exact h.posted
  ending := by rw [hending, hposted]; exact h.ending
  fair := by
    intro id g hg
    have hlast : s'.lastCode id = s.lastCode id := by
      unfold Sys.lastCode
      rw [hgiven]
    rw [hstore] at hg
    rw [hlast, hending]
    exact h.fair id g hg

theorem Inv.step {a : Act} (h : Inv s) (hcareful : s.Careful a) (hstep : step py s a = some s') :
    Inv s' := by
  cases a with
  | clock now =>
    cases hstep
    exact h.congr rfl rfl rfl rfl
  | start messageId channelId guildId prizes endsAt mode write =>
    simp only [Giveaways.step] at hstep
    split at hstep
    · cases hstep
    · rename_i hnew
      cases hstep
      exact h.start (fun hin => hnew (Or.inl hin)) write
  | press user messageId founder write =>
    simp only [Giveaways.step] at hstep
    split at hstep
    · rename_i g reply hentry
      cases hstep
      exact h.press hentry write
    · cases hstep
      exact h.congr rfl rfl rfl rfl
    · cases hstep
      exact h
  | submit user messageId raw write =>
    simp only [Giveaways.step] at hstep
    split at hstep
    · cases hstep
    · split at hstep
      · rename_i g reply hentry
        cases hstep
        exact h.submit py hentry _ write
      · cases hstep
        exact h.congr rfl rfl rfl rfl
  | remind messageId write =>
    obtain ⟨g, hg, hstep⟩ := Option.bind_eq_some_iff.mp hstep
    split at hstep
    · cases hstep
      have hfair := h.fair messageId g hg
      refine h.touch (n := { g with reminderSent := true }) hg rfl rfl
        ⟨hfair.begun, fun hended => ?_, fun hf hopen => ?_, fun hf hended hno => ?_⟩ write
      · exact ⟨(hfair.drawn hended).nodup, (hfair.drawn hended).mem, (hfair.drawn hended).length⟩
      · exact ⟨(hfair.collected hf hopen).given, (hfair.collected hf hopen).others⟩
      · exact ⟨(hfair.kept hf hended hno).given, (hfair.kept hf hended hno).others⟩
    · cases hstep
  | tick messageId picks channel write =>
    obtain ⟨g, hg, hstep⟩ := Option.bind_eq_some_iff.mp hstep
    split at hstep
    · rename_i hdue
      cases hstep
      exact h.draw hg hdue.1 (hcareful g hg)
    · cases hstep
  | end_ messageId picks channel write =>
    obtain ⟨g, hg, hstep⟩ := Option.bind_eq_some_iff.mp hstep
    split at hstep
    · cases hstep
    · rename_i hlive
      cases hstep
      exact h.draw hg (Bool.eq_false_of_not_eq_true hlive) (hcareful g hg)
  | finish messageId write =>
    obtain ⟨g, hg, hstep⟩ := Option.bind_eq_some_iff.mp hstep
    split at hstep
    · rename_i hpending
      cases hstep
      exact h.finish hg hpending write
    · cases hstep
  | fail messageId =>
    simp only [Giveaways.step] at hstep
    split at hstep
    · rename_i hpending
      cases hstep
      exact h.fail hpending hcareful
    · cases hstep
  | reroll messageId picks write =>
    obtain ⟨g, hg, hstep⟩ := Option.bind_eq_some_iff.mp hstep
    split at hstep
    · rename_i hended
      cases hstep
      exact h.reroll hg hended (hcareful g hg) write
    · cases hstep
  | restart =>
    obtain ⟨store, hload, rfl⟩ := Option.map_eq_some_iff.mp hstep
    rw [load_file h hcareful.1] at hload
    obtain rfl := Option.some.inj hload
    exact h.restart hcareful.2

/-! ## Ended for good -/

def Sys.Closed (entrants : IdSet) (id : Nat) (s : Sys) : Prop :=
  ∃ g, s.store.lookup id = some g ∧ g.ended = true ∧ g.entrants = entrants

variable {entrants : IdSet}

theorem Closed.put (h : s.Closed entrants id)
    (hg : g.messageId = id → g.ended = true ∧ g.entrants = entrants)
    (hstore : s'.store = assign s.store g.messageId g) : s'.Closed entrants id := by
  obtain ⟨old, hold, hended, hentrants⟩ := h
  unfold Sys.Closed
  rw [hstore, lookup_assign]
  by_cases hsame : id = g.messageId
  · rw [if_pos hsame]
    exact ⟨g, rfl, (hg hsame.symm).1, (hg hsame.symm).2⟩
  · rw [if_neg hsame]
    exact ⟨old, hold, hended, hentrants⟩

theorem Closed.put_live {id' : Nat} (hinv : Inv s)
    (h : s.Closed entrants id) (hg : s.store.lookup id' = some g) (hlive : g.ended = false)
    (hid : n.messageId = g.messageId) (hstore : s'.store = assign s.store n.messageId n) :
    s'.Closed entrants id := by
  refine Closed.put h (fun hsame => ?_) hstore
  obtain ⟨old, hold, hended, _⟩ := h
  have hsame' : id = id' := (hsame.symm.trans hid).trans (hinv.id_eq hg)
  rw [hsame', hg] at hold
  obtain rfl := Option.some.inj hold
  rw [hlive] at hended
  cases hended

theorem Closed.put_ended {id' : Nat} (hinv : Inv s)
    (h : s.Closed entrants id) (hg : s.store.lookup id' = some g) (hended : n.ended = true)
    (hid : n.messageId = g.messageId) (hentrants : n.entrants = g.entrants)
    (hstore : s'.store = assign s.store n.messageId n) : s'.Closed entrants id := by
  refine Closed.put h (fun hsame => ⟨hended, hentrants.trans ?_⟩) hstore
  obtain ⟨old, hold, _, hold'⟩ := h
  have hsame' : id = id' := (hsame.symm.trans hid).trans (hinv.id_eq hg)
  rw [hsame', hg] at hold
  obtain rfl := Option.some.inj hold
  exact hold'

theorem store_end_ (s : Sys) (g : Giveaway) (picks : Nat → Nat) (channel : Bool) (write : Write) :
    (s.end_ g picks channel write).store =
      assign s.store (g.draw picks).messageId (g.draw picks) := by
  unfold Sys.end_
  dsimp only
  split <;> rfl

theorem Closed.step {a : Act} (hinv : Inv s)
    (hcareful : s.Careful a) (h : s.Closed entrants id) (hstep : step py s a = some s') :
    s'.Closed entrants id := by
  cases a with
  | clock now =>
    cases hstep
    exact h
  | start messageId channelId guildId prizes endsAt mode write =>
    simp only [Giveaways.step] at hstep
    split at hstep
    · cases hstep
    · rename_i hnew
      cases hstep
      refine Closed.put (g := .opened messageId channelId guildId prizes endsAt mode) h
        (fun hsame => ?_) rfl
      obtain ⟨old, hold, _⟩ := h
      have hposted : id ∈ s.posted := hinv.posted (id, old) (mem_of_lookup hold)
      rw [← show messageId = id from hsame] at hposted
      exact absurd (Or.inl hposted) hnew
  | press user messageId founder write =>
    simp only [Giveaways.step] at hstep
    split at hstep
    · rename_i g' reply hentry
      cases hstep
      cases hg : s.store.lookup messageId with
      | none =>
        rw [hg] at hentry
        cases hentry
      | some g =>
        rw [hg] at hentry
        obtain ⟨hlive, _, rfl⟩ := handleEntry_some hentry
        exact Closed.put_live (n := { g with entrants := g.entrants.insert user }) hinv h hg hlive
          rfl rfl
    · cases hstep
      exact h
    · cases hstep
      exact h
  | submit user messageId raw write =>
    simp only [Giveaways.step] at hstep
    split at hstep
    · cases hstep
    · split at hstep
      · rename_i g' reply hentry
        cases hstep
        cases hg : s.store.lookup messageId with
        | none =>
          rw [hg] at hentry
          cases hentry
        | some g =>
          rw [hg] at hentry
          obtain ⟨hlive, code, rfl⟩ := finishFoundersEntry_some py hentry
          exact Closed.put_live (n := { g with
            entrants := g.entrants.insert user, codes := assign g.codes user code }) hinv h hg hlive
            rfl rfl
      · cases hstep
        exact h
  | remind messageId write =>
    obtain ⟨g, hg, hstep⟩ := Option.bind_eq_some_iff.mp hstep
    split at hstep
    · rename_i hdue
      cases hstep
      exact Closed.put_live (n := { g with reminderSent := true }) hinv h hg hdue.1 rfl rfl
    · cases hstep
  | tick messageId picks channel write =>
    obtain ⟨g, hg, hstep⟩ := Option.bind_eq_some_iff.mp hstep
    split at hstep
    · rename_i hdue
      cases hstep
      exact Closed.put_live (n := g.draw picks) hinv h hg hdue.1 rfl (store_end_ ..)
    · cases hstep
  | end_ messageId picks channel write =>
    obtain ⟨g, hg, hstep⟩ := Option.bind_eq_some_iff.mp hstep
    split at hstep
    · cases hstep
    · rename_i hlive
      cases hstep
      exact Closed.put_live (n := g.draw picks) hinv h hg (Bool.eq_false_of_not_eq_true hlive) rfl
        (store_end_ ..)
  | finish messageId write =>
    obtain ⟨g, hg, hstep⟩ := Option.bind_eq_some_iff.mp hstep
    split at hstep
    · rename_i hpending
      cases hstep
      exact Closed.put_ended (n := g.finishFounders) hinv h hg
        ((hinv.fair messageId g hg).begun hpending) rfl rfl rfl
    · cases hstep
  | fail messageId =>
    simp only [Giveaways.step] at hstep
    split at hstep
    · cases hstep
      exact h
    · cases hstep
  | reroll messageId picks write =>
    obtain ⟨g, hg, hstep⟩ := Option.bind_eq_some_iff.mp hstep
    split at hstep
    · rename_i hended
      cases hstep
      exact Closed.put_ended (n := g.reroll picks) hinv h hg hended rfl rfl rfl
    · cases hstep
  | restart =>
    obtain ⟨store, hload, rfl⟩ := Option.map_eq_some_iff.mp hstep
    rw [load_file hinv hcareful.1] at hload
    obtain rfl := Option.some.inj hload
    exact h

structure Sys.Start (s : Sys) : Prop where
  store : s.store = []
  ending : s.ending = []

theorem Sys.Start.inv (h : s.Start) : Inv s where
  keyed := by
    rw [h.store]
    exact ⟨List.nodup_nil, fun e he => (by cases he), fun e he => (by cases he)⟩
  posted := by
    rw [h.store]
    exact fun e he => by cases he
  ending := by
    rw [h.ending]
    exact fun id hin => by cases hin
  fair := by
    rw [h.store]
    exact fun id g hg => by cases hg

theorem Inv.respected (h : Inv s) : s.Respected := fun id g hg hended =>
  ⟨(h.fair id g hg).drawn hended, fun hf hno => (h.fair id g hg).kept hf hended hno⟩

def nothing : Sys where
  now := 0
  posted := []
  store := []
  file := .missing
  forms := []
  ending := []
  given := []

theorem nothing_start : nothing.Start := ⟨rfl, rfl⟩

def twoFounders : List Act :=
  [.start 1 2 3 ["Base game"] 100 (.founders 9 8) .done, .press 5 1 true .done,
    .submit 5 1 "12345" .done, .press 6 1 true .done, .submit 6 1 "67890" .done, .clock 100]

instance (s : Sys) : Decidable s.UpToDate := by
  unfold Sys.UpToDate
  split <;> infer_instance

instance (s : Sys) (a : Act) : Decidable (s.Careful a) := by
  cases a <;> unfold Sys.Careful <;> infer_instance

def drawnWithChannel : List Act := twoFounders ++ [.tick 1 (fun _ => 0) true .done]

end LastSietch.Giveaways
