import LastSietch.Lib.Json
import LastSietch.Lib.Runs
import LastSietch.Lib.Table

/-!
# The storage mirror

`mirror.py`: the sync loop pulls the snapshots of all accounts and puts them into `player_storage`;
a storage read of the portal is answered from there. A write that re-homes items drops the row of
its account, so that the next read goes to the game.

A row does not say of which time it is, but for `src_synced_at`, which only makes it too old. The
collector reads an account at some time, `taken`, that no query sees.

* `pulled_back`: a pull that is under way puts the old row back.
-/

namespace LastSietch.StorageMirror

open Runs

structure Config where
  /-- `PORTAL_MIRROR_READS`. -/
  reads : Bool
  /-- `MIRROR_MAX_STALE`. -/
  maxStale : Nat

/-- A row of `player_storage`. `srcSyncedAt` is none where it is not a time. -/
structure Row where
  accountId : Nat
  storage : Option Json
  srcSyncedAt : Option Nat
  taken : Nat

/-- An entry of a payload of `/dune/storage-models`. -/
structure Player where
  accountId : Nat
  storage : Option Json
  /-- `some none` is a text that is not a time. -/
  srcSyncedAt : Option (Option Nat)
  taken : Nat

abbrev Rows := Table Row (·.accountId)

def Player.row (nowPull : Nat) (p : Player) : Row :=
  ⟨p.accountId, p.storage, p.srcSyncedAt.getD (some nowPull), p.taken⟩

def applyStorageSnapshot (nowPull : Nat) (players : List Player) (rows : Rows) : Rows :=
  let upserted := players.foldl (fun rows p => rows.put (p.row nowPull)) rows
  let seen := players.map (·.accountId)
  if seen = [] then upserted else upserted.filter (·.accountId ∈ seen)

/-! ## A read -/

variable (cfg : Config)

def isStale (now : Nat) (srcSyncedAt : Option Nat) : Bool :=
  match srcSyncedAt with
  | none => true
  | some t => cfg.maxStale < now - t

def answering (now : Nat) (rows : Rows) (account : Nat) : Option Row :=
  if cfg.reads = true then
    (rows.get? account).filter fun r => r.storage.isSome && !isStale cfg now r.srcSyncedAt
  else none

def getStorageBlob (now : Nat) (rows : Rows) (account : Nat) : Option Json :=
  (answering cfg now rows account).bind (·.storage)

/-- `blob.get(key) or []`. -/
def listOf (blob : Json) (key : String) : List Json :=
  ((blob.get? key).filter Json.truthy).elim [] Json.elements

/-- `str` of an id, which is a number or a text. -/
def idText (j : Option Json) : String :=
  match j with
  | some (.str s) => s
  | some (.int z) => toString z
  | _ => "None"

structure Listing where
  accountId : Nat
  count : Nat
  rows : List Json

def getStorageContainers (now : Nat) (rows : Rows) (account : Nat) : Option Listing :=
  (getStorageBlob cfg now rows account).map fun blob =>
    let containers := listOf blob "containers"
    ⟨account, containers.length, containers⟩

def getStorageSearch (now : Nat) (rows : Rows) (account : Nat) : Option Listing :=
  (getStorageBlob cfg now rows account).map fun blob =>
    let found := listOf blob "search_rows"
    ⟨account, found.length, found⟩

def STORAGE_PAGE_SIZE : Nat := 100

structure ItemsPage where
  available : Bool
  error : Option String
  accountId : Nat
  containerId : String
  items : List Json
  count : Nat
  totalCount : Nat
  page : Nat

def getStorageItems (now : Nat) (rows : Rows) (account : Nat) (cid : String) (page : Nat) :
    Option ItemsPage :=
  (getStorageBlob cfg now rows account).map fun blob =>
    let page := max page 1
    if (listOf blob "containers").any fun c => idText (c.get? "id") = cid then
      let all := ((blob.get? "items_by_container").map (listOf · cid)).getD []
      let items := (all.drop ((page - 1) * STORAGE_PAGE_SIZE)).take STORAGE_PAGE_SIZE
      ⟨true, none, account, cid, items, items.length, all.length, page⟩
    else ⟨false, some "not_owned", account, cid, [], 0, 0, page⟩

/-! ## Runs -/

/-- A storage write of an account, committed at `time`. -/
structure Write where
  accountId : Nat
  time : Nat
  deriving DecidableEq

structure Sys where
  now : Nat
  rows : Rows
  inFlight : Option (List Player)
  pending : List Write
  /-- Writes whose `invalidate_storage` has returned. -/
  settled : List Write

inductive Act
  | wait (seconds : Nat)
  | fetch (players : List Player)
  | apply (commits : Bool)
  | write (account : Nat)
  | invalidateStorage (w : Write) (commits : Bool)

def step (s : Sys) : Act → Option Sys
  | .wait seconds => some { s with now := s.now + seconds }
  | .fetch players =>
    if s.inFlight.isNone = true ∧ ∀ p ∈ players, p.taken ≤ s.now then
      some { s with inFlight := some players }
    else none
  | .apply commits =>
    s.inFlight.map fun players => { s with
      inFlight := none
      rows := if commits = true then applyStorageSnapshot s.now players s.rows else s.rows }
  | .write account =>
    some { s with now := s.now + 1, pending := ⟨account, s.now + 1⟩ :: s.pending }
  | .invalidateStorage w commits =>
    if w ∈ s.pending then
      some { s with
        pending := s.pending.erase w
        settled := w :: s.settled
        rows := if commits = true then s.rows.filter (·.accountId ≠ w.accountId) else s.rows }
    else none

def Sys.SeesWrites (s : Sys) : Prop :=
  ∀ account row, answering cfg s.now s.rows account = some row →
    ∀ w ∈ s.settled, w.accountId = account → w.time ≤ row.taken

def lastEntry (players : List Player) (account : Nat) : Option Player :=
  players.reverse.find? (·.accountId = account)

def Sys.Outdated (s : Sys) (p : Player) : Prop :=
  p.storage ≠ none ∧ isStale cfg s.now (p.srcSyncedAt.getD (some s.now)) = false ∧
    ∃ w ∈ s.settled, w.accountId = p.accountId ∧ p.taken < w.time

/-- A pull brings nothing outdated; and an `invalidate_storage` that fails leaves nothing from
before its write. -/
def Sys.Allowed (s : Sys) : Act → Prop
  | .apply commits => commits = true → cfg.reads = true →
    ∀ players, s.inFlight = some players → ∀ p, lastEntry players p.accountId = some p →
      ¬s.Outdated cfg p
  | .invalidateStorage w commits => commits = false →
    ∀ row, answering cfg s.now s.rows w.accountId = some row → w.time ≤ row.taken
  | _ => True

structure Sys.Start (s : Sys) : Prop where
  pending : s.pending = []
  settled : s.settled = []

variable {cfg} {rows : Rows} {players : List Player} {now account : Nat} {row : Row}

theorem lastEntry_append (p : Player) :
    lastEntry (players ++ [p]) account =
      if p.accountId = account then some p else lastEntry players account := by
  unfold lastEntry
  rw [List.reverse_append, List.reverse_singleton, List.singleton_append, List.find?_cons]
  by_cases h : p.accountId = account <;> simp [h]

theorem accountId_of_lastEntry {p : Player} (h : lastEntry players account = some p) :
    p.accountId = account ∧ p ∈ players := by
  unfold lastEntry at h
  have hid := List.find?_some h
  exact ⟨of_decide_eq_true hid, List.mem_reverse.mp (List.mem_of_find?_eq_some h)⟩

theorem get?_upserted :
    (players.foldl (fun rows p => rows.put (p.row now)) rows).get? account =
      ((lastEntry players account).map (·.row now)).or (rows.get? account) := by
  induction players using List.reverseRecOn with
  | nil => rfl
  | append_singleton players p ih =>
    rw [List.foldl_append, List.foldl_cons, List.foldl_nil, Table.get?_put, ih, lastEntry_append]
    by_cases h : p.accountId = account
    · rw [if_pos h, if_pos (show (p.row now).accountId = account from h)]
      rfl
    · rw [if_neg h, if_neg (show (p.row now).accountId ≠ account from h)]

theorem get?_applied (hplayers : players ≠ []) :
    (applyStorageSnapshot now players rows).get? account =
      (lastEntry players account).map (·.row now) := by
  have hseen : players.map (·.accountId) ≠ [] := fun h => hplayers (List.map_eq_nil_iff.mp h)
  unfold applyStorageSnapshot
  dsimp only
  rw [if_neg hseen]
  ext row
  rw [Table.get?_eq_some, Table.mem_filter, decide_eq_true_eq]
  constructor
  · rintro ⟨⟨hrow, hmem⟩, rfl⟩
    have hget := Table.get?_eq_some.mpr ⟨hrow, rfl⟩
    rw [get?_upserted] at hget
    cases hlast : lastEntry players row.accountId with
    | none =>
      obtain ⟨p, hp, hid⟩ := List.mem_map.mp hmem
      have := List.find?_eq_none.mp hlast p (List.mem_reverse.mpr hp)
      exact absurd (decide_eq_true hid) this
    | some p =>
      rw [hlast] at hget
      exact hget
  · intro hlast
    have hget := @get?_upserted rows players now account
    rw [hlast, Option.some_or, Table.get?_eq_some] at hget
    obtain ⟨p, hp, _⟩ := Option.map_eq_some_iff.mp hlast
    obtain ⟨hid, hmem⟩ := accountId_of_lastEntry hp
    exact ⟨⟨hget.1, hget.2 ▸ List.mem_map.mpr ⟨p, hmem, hid⟩⟩, hget.2⟩

theorem applied_nil : applyStorageSnapshot now [] rows = rows := rfl

/-! ## What a step does to the reads -/

variable {s s' : Sys}

theorem answering_eq_some : answering cfg now rows account = some row ↔
    cfg.reads = true ∧ rows.get? account = some row ∧ row.storage ≠ none ∧
      isStale cfg now row.srcSyncedAt = false := by
  unfold answering
  split
  · rename_i hreads
    rw [Option.filter_eq_some_iff, Bool.and_eq_true_iff, Bool.not_eq_true',
      Option.isSome_iff_ne_none]
    exact ⟨fun h => ⟨hreads, h⟩, fun h => h.2⟩
  · rename_i hreads
    constructor
    · intro h
      cases h
    · exact fun h => absurd h.1 hreads

theorem isStale_mono {later : Nat} (h : now ≤ later) {t : Option Nat}
    (hstale : isStale cfg later t = false) : isStale cfg now t = false := by
  cases t with
  | none => exact hstale
  | some t =>
    simp only [isStale, decide_eq_false_iff_not, Nat.not_lt] at hstale ⊢
    omega

theorem answering_mono {later : Nat} (h : now ≤ later)
    (hrow : answering cfg later rows account = some row) :
    answering cfg now rows account = some row := by
  obtain ⟨hreads, hget, hstorage, hstale⟩ := answering_eq_some.mp hrow
  exact answering_eq_some.mpr ⟨hreads, hget, hstorage, isStale_mono h hstale⟩

theorem seesWrites_later (h : s.SeesWrites cfg) (hnow : s.now ≤ s'.now) (hrows : s'.rows = s.rows)
    (hsettled : s'.settled = s.settled) : s'.SeesWrites cfg := by
  intro account row hrow w hw hid
  rw [hrows] at hrow
  rw [hsettled] at hw
  exact h account row (answering_mono hnow hrow) w hw hid

theorem seesWrites_applied (h : s.SeesWrites cfg) {players : List Player}
    {flight : Option (List Player)} :
    Sys.SeesWrites cfg { s with
      inFlight := flight, rows := applyStorageSnapshot s.now players s.rows } ↔
    (cfg.reads = true → ∀ p, lastEntry players p.accountId = some p → ¬s.Outdated cfg p) := by
  constructor
  · rintro hsees hreads p hlast ⟨hstorage, hstale, w, hw, hid, htaken⟩
    have hplayers : players ≠ [] := List.ne_nil_of_mem (accountId_of_lastEntry hlast).2
    have hget : (applyStorageSnapshot s.now players s.rows).get? p.accountId =
        some (p.row s.now) := by
      rw [get?_applied hplayers, hlast]
      rfl
    have hrow : answering cfg s.now (applyStorageSnapshot s.now players s.rows) p.accountId =
        some (p.row s.now) := answering_eq_some.mpr ⟨hreads, hget, hstorage, hstale⟩
    exact absurd (hsees p.accountId _ hrow w hw hid) (Nat.not_le.mpr htaken)
  · intro hallowed account row hrow w hw hid
    cases players with
    | nil => exact h account row hrow w hw hid
    | cons q players =>
      obtain ⟨hreads, hget, hstorage, hstale⟩ := answering_eq_some.mp hrow
      dsimp only at hget hstale
      rw [get?_applied (List.cons_ne_nil q players)] at hget
      obtain ⟨p, hlast, rfl⟩ := Option.map_eq_some_iff.mp hget
      have hp := (accountId_of_lastEntry hlast).1
      rw [← hp] at hlast
      refine Nat.not_lt.mp fun htaken =>
        hallowed hreads p hlast ⟨hstorage, hstale, w, hw, ?_, htaken⟩
      rw [hid, hp]

theorem seesWrites_dropped (h : s.SeesWrites cfg) (w : Write) (pending : List Write) :
    Sys.SeesWrites cfg { s with
      pending, settled := w :: s.settled
      rows := s.rows.filter (·.accountId ≠ w.accountId) } := by
  intro account row hrow w' hw' hid
  obtain ⟨hreads, hget, hstorage, hstale⟩ := answering_eq_some.mp hrow
  dsimp only at hget hstale
  obtain ⟨hmem, haccount⟩ := Table.get?_eq_some.mp hget
  obtain ⟨hmem, hother⟩ := Table.mem_filter.mp hmem
  have hother := of_decide_eq_true hother
  rcases List.mem_cons.mp hw' with rfl | hw'
  · exact absurd (haccount.trans hid.symm) hother
  · have hold : answering cfg s.now s.rows account = some row :=
      answering_eq_some.mpr ⟨hreads, Table.get?_eq_some.mpr ⟨hmem, haccount⟩, hstorage, hstale⟩
    exact h account row hold w' hw' hid

theorem seesWrites_kept (h : s.SeesWrites cfg) (w : Write) (pending : List Write) :
    Sys.SeesWrites cfg { s with pending, settled := w :: s.settled } ↔
      ∀ row, answering cfg s.now s.rows w.accountId = some row → w.time ≤ row.taken := by
  constructor
  · exact fun hsees row hrow => hsees w.accountId row hrow w List.mem_cons_self rfl
  · rintro hallowed account row hrow w' hw' rfl
    rcases List.mem_cons.mp hw' with rfl | hw'
    · exact hallowed row hrow
    · exact h w'.accountId row hrow w' hw' rfl

theorem allowed_iff {a : Act} (h : s.SeesWrites cfg) (hstep : step s a = some s') :
    s.Allowed cfg a ↔ s'.SeesWrites cfg := by
  cases a with
  | wait seconds =>
    cases hstep
    exact iff_of_true trivial (seesWrites_later h (Nat.le_add_right _ _) rfl rfl)
  | fetch players =>
    simp only [StorageMirror.step] at hstep
    split at hstep
    · cases hstep
      exact iff_of_true trivial h
    · cases hstep
  | apply commits =>
    obtain ⟨players, hflight, rfl⟩ := Option.map_eq_some_iff.mp hstep
    unfold Sys.Allowed
    cases commits with
    | false => exact iff_of_true (fun hcommits => by cases hcommits) h
    | true =>
      refine Iff.trans ?_ (seesWrites_applied h).symm
      constructor
      · exact fun hallowed hreads => hallowed rfl hreads players hflight
      · rintro hallowed - hreads players' hplayers'
        rw [hflight] at hplayers'
        cases hplayers'
        exact hallowed hreads
  | write account =>
    cases hstep
    exact iff_of_true trivial (seesWrites_later h (Nat.le_succ _) rfl rfl)
  | invalidateStorage w commits =>
    simp only [StorageMirror.step] at hstep
    split at hstep
    · cases hstep
      unfold Sys.Allowed
      cases commits with
      | true =>
        exact iff_of_true (fun hcommits => by cases hcommits)
          (seesWrites_dropped h w (s.pending.erase w))
      | false =>
        have hkept := seesWrites_kept h w (s.pending.erase w)
        exact ⟨fun hallowed => hkept.mpr (hallowed rfl), fun hsees _ => hkept.mp hsees⟩
    · cases hstep

/-- In every state of a run the reads see the writes that are settled, exactly where no pull brings
what is outdated, and every `invalidate_storage` that fails leaves nothing from before its write. -/
theorem reads_see_writes_iff (cfg : Config) (hstart : s.Start) {acts : List Act}
    (hrun : exec step s acts = some s') :
    (∀ before t, before <+: acts → exec step s before = some t → t.SeesWrites cfg) ↔
      Along step (Sys.Allowed cfg) s acts := by
  refine along_iff_of_exec (fun _ _ _ h hstep => allowed_iff h hstep) ?_ hrun
  intro account row _ w hw
  rw [hstart.settled] at hw
  cases hw

def mirrored : Config := ⟨true, 300⟩

def oneAccount : Sys where
  now := 100
  rows := Table.empty.put ⟨1, some (.obj []), some 100, 100⟩
  inFlight := none
  pending := []
  settled := []

theorem oneAccount_start : oneAccount.Start := ⟨rfl, rfl⟩

def entry (taken : Nat) : Player := ⟨1, some (.obj []), none, taken⟩

def pulledBack : List Act :=
  [.fetch [entry 100], .write 1, .invalidateStorage ⟨1, 101⟩ true, .apply true]

theorem pulled_back : oneAccount.Start ∧
    ∃ s', exec step oneAccount pulledBack = some s' ∧ ¬s'.SeesWrites mirrored := by
  have hshows : (exec step oneAccount pulledBack).any (fun s' => decide
      ((answering mirrored s'.now s'.rows 1).any (fun r => r.taken = 100) = true ∧
        ⟨1, 101⟩ ∈ s'.settled)) = true := by decide
  obtain ⟨s', hrun, hrow, hsettled⟩ := exec_shows hshows
  obtain ⟨row, hrow, htaken⟩ := (Option.any_eq_true _ _).mp hrow
  refine ⟨oneAccount_start, s', hrun, fun hsees => ?_⟩
  have hle : 101 ≤ row.taken := hsees 1 row hrow ⟨1, 101⟩ hsettled rfl
  have heq : row.taken = 100 := of_decide_eq_true htaken
  omega

def pulledAfter : List Act :=
  [.write 1, .invalidateStorage ⟨1, 101⟩ true, .fetch [entry 101], .apply true]

theorem pulledAfter_allowed : Along step (Sys.Allowed mirrored) oneAccount pulledAfter := by
  refine ⟨trivial, fun written hwritten => ?_⟩
  cases hwritten
  refine ⟨fun hfails => (by cases hfails), fun dropped hdropped => ?_⟩
  cases hdropped
  refine ⟨trivial, fun fetched hfetched => ?_⟩
  cases hfetched
  refine ⟨?_, fun _ _ => trivial⟩
  rintro - - players hflight p hlast ⟨_, _, w, hw, _, htaken⟩
  cases hflight
  rw [List.mem_singleton.mp (accountId_of_lastEntry hlast).2, List.mem_singleton.mp hw] at htaken
  exact Nat.lt_irrefl 101 htaken

theorem pulledAfter_sees : ∃ s', exec step oneAccount pulledAfter = some s' ∧
    ∀ before t, before <+: pulledAfter → exec step oneAccount before = some t →
      t.SeesWrites mirrored := by
  have hrun : (exec step oneAccount pulledAfter).isSome = true := by decide
  exact ⟨_, (Option.some_get hrun).symm,
    (reads_see_writes_iff mirrored oneAccount_start (Option.some_get hrun).symm).mpr
      pulledAfter_allowed⟩

end LastSietch.StorageMirror
