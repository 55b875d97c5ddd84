import LastSietch.Lib.Runs

/-!
# Stored bases

A player may store three bases. `build_bb_handoff_grant`, `build_bb_clone_grant` and
`build_import_solido_to_basebackup_grant` count the recipient's rows of `base_backups` before
they write one, and the last two count again; none of them locks the recipient. `step` is one
statement of one of their transactions under read committed: a statement sees what is committed
and what its own transaction has written.

Each writer has a last count after which nothing keeps it from its commit. `stored_le` says that
the cap holds as long as these counts leave room for the writers that have made theirs.
-/

namespace LastSietch.DuneGrant

open Runs (exec Along exec_invariant)

/-! ## Backups and transactions -/

/-- A row of `base_backups`. -/
structure Backup where
  id : Nat
  playerId : Nat
  deriving DecidableEq, Repr

def maxStored : Nat := 3

inductive BackupWriter
  | handoff (source : Nat)
  | clone (source : Nat)
  | importSolido
  deriving DecidableEq, Repr

/-- How far a transaction is; `stashed` and `written` carry `_g22_pre_bb`. -/
inductive BackupStage
  | opened | passed | rechecked
  | stashed (prev : Nat)
  | written (prev : Nat)
  | checked
  deriving DecidableEq, Repr

structure BackupTxn where
  writer : BackupWriter
  stage : BackupStage
  own : Option Backup
  deriving DecidableEq, Repr

/-- The committed rows, the sequence of their ids, and the transactions: `none` is one that has
ended. -/
structure Storage where
  backups : List Backup
  next : Nat
  txns : List (Option BackupTxn)

/-- What the transaction that wrote `own` sees. -/
def seen (backups : List Backup) : Option Backup → List Backup
  | none => backups
  | some b => b :: backups.filter (fun r => r.id ≠ b.id)

/-- `SELECT COUNT(*) FROM dune.base_backups WHERE player_id = v_recipient`. -/
def stored (recipient : Nat) (backups : List Backup) : Nat :=
  backups.countP fun r => r.playerId = recipient

namespace Storage

def source? (s : Storage) (source : Nat) : Option Backup := s.backups.find? fun r => r.id = source

def txn? (s : Storage) (i : Nat) : Option BackupTxn := (s.txns[i]?).join

def putTxn (s : Storage) (i : Nat) (t : BackupTxn) : Storage :=
  { s with txns := s.txns.set i (some t) }

/-- `RAISE EXCEPTION`: what the transaction wrote is gone. -/
def endTxn (s : Storage) (i : Nat) : Storage := { s with txns := s.txns.set i none }

def locked (s : Storage) (i source : Nat) : Bool :=
  (List.range s.txns.length).any fun j =>
    j ≠ i && (s.txn? j).any fun t => t.own.any fun b => b.id = source

/-! ## Statements -/

def preflight (recipient : Nat) (s : Storage) (i : Nat) : Option Storage :=
  match s.txn? i with
  | some ⟨writer, .opened, own⟩ =>
    match writer with
    | .handoff source =>
      match s.source? source with
      | none => some (s.endTxn i)
      | some b =>
        if b.playerId = recipient then some (s.endTxn i)
        else if maxStored ≤ stored recipient s.backups then some (s.endTxn i)
        else some (s.putTxn i ⟨writer, .passed, own⟩)
    | .clone _ | .importSolido =>
      if maxStored ≤ stored recipient s.backups then some (s.endTxn i)
      else some (s.putTxn i ⟨writer, .passed, own⟩)
  | _ => none

def recheck (recipient : Nat) (s : Storage) (i : Nat) : Option Storage :=
  match s.txn? i with
  | some ⟨.importSolido, .passed, own⟩ =>
    if maxStored ≤ stored recipient s.backups then some (s.endTxn i)
    else some (s.putTxn i ⟨.importSolido, .rechecked, own⟩)
  | _ => none

def stash (recipient : Nat) (s : Storage) (i : Nat) : Option Storage :=
  match s.txn? i with
  | some ⟨.importSolido, .rechecked, own⟩ =>
    some (s.putTxn i ⟨.importSolido, .stashed (stored recipient s.backups), own⟩)
  | _ => none

def write (recipient : Nat) (s : Storage) (i : Nat) : Option Storage :=
  match s.txn? i with
  | some ⟨.handoff source, .passed, _⟩ =>
    if s.locked i source then none
    else match s.source? source with
      | none => some (s.endTxn i)
      | some b =>
        some (s.putTxn i ⟨.handoff source, .checked, some { b with playerId := recipient }⟩)
  | some ⟨.clone source, .passed, _⟩ =>
    match s.source? source with
    | none => some (s.putTxn i ⟨.clone source, .written 0, none⟩)
    | some _ =>
      some ({ s with next := s.next + 1 }.putTxn i
        ⟨.clone source, .written 0, some ⟨s.next, recipient⟩⟩)
  | some ⟨.importSolido, .stashed prev, _⟩ =>
    some ({ s with next := s.next + 1 }.putTxn i
      ⟨.importSolido, .written prev, some ⟨s.next, recipient⟩⟩)
  | _ => none

def postCheck (recipient : Nat) (s : Storage) (i : Nat) : Option Storage :=
  match s.txn? i with
  | some ⟨.clone source, .written _, own⟩ =>
    if maxStored < stored recipient (seen s.backups own) then some (s.endTxn i)
    else some (s.putTxn i ⟨.clone source, .checked, own⟩)
  | some ⟨.importSolido, .written prev, own⟩ =>
    if stored recipient (seen s.backups own) ≠ prev + 1 then some (s.endTxn i)
    else some (s.putTxn i ⟨.importSolido, .checked, own⟩)
  | _ => none

def commit (s : Storage) (i : Nat) : Option Storage :=
  match s.txn? i with
  | some ⟨_, .checked, own⟩ => some { s.endTxn i with backups := seen s.backups own }
  | _ => none

end Storage

inductive BackupAct
  | open (writer : BackupWriter)
  | preflight (i : Nat)
  | recheck (i : Nat)
  | stash (i : Nat)
  | write (i : Nat)
  | postCheck (i : Nat)
  | commit (i : Nat)
  | abort (i : Nat)

def storageStep (recipient : Nat) (s : Storage) : BackupAct → Option Storage
  | .open writer => some { s with txns := s.txns ++ [some ⟨writer, .opened, none⟩] }
  | .preflight i => s.preflight recipient i
  | .recheck i => s.recheck recipient i
  | .stash i => s.stash recipient i
  | .write i => s.write recipient i
  | .postCheck i => s.postCheck recipient i
  | .commit i => s.commit i
  | .abort i => some (s.endTxn i)

/-! ## Last counts -/

def BackupTxn.counted (t : BackupTxn) : Bool :=
  match t.writer, t.stage with
  | .handoff _, .opened => false
  | .handoff _, _ => true
  | .clone _, .checked => t.own.isSome
  | .clone _, _ => false
  | .importSolido, .opened | .importSolido, .passed => false
  | .importSolido, _ => true

def Storage.counted (s : Storage) : Nat := s.txns.countP fun t => t.any BackupTxn.counted

def Storage.passesLast (recipient : Nat) (s : Storage) : BackupAct → Bool
  | .preflight i => (s.txn? i).any fun t =>
      match t.writer with
      | .handoff _ => stored recipient s.backups < maxStored
      | _ => false
  | .recheck _ => stored recipient s.backups < maxStored
  | .postCheck i => (s.txn? i).any fun t =>
      match t.writer with
      | .clone _ => t.own.isSome && stored recipient (seen s.backups t.own) ≤ maxStored
      | _ => false
  | _ => false

/-- A last count lets its transaction through only if the committed rows, and the transactions
that have made theirs, leave room for one more. -/
def Storage.Spare (recipient : Nat) (s : Storage) (a : BackupAct) : Prop :=
  s.passesLast recipient a = true → stored recipient s.backups + s.counted < maxStored

instance (recipient : Nat) (s : Storage) (a : BackupAct) : Decidable (s.Spare recipient a) :=
  inferInstanceAs (Decidable (_ → _))

def Storage.Fits (recipient : Nat) (s : Storage) : Prop :=
  stored recipient s.backups + s.counted ≤ maxStored

section Steps

variable {recipient : Nat} {s s' : Storage} {i : Nat}

theorem txn?_eq_some {t : BackupTxn} : s.txn? i = some t ↔ s.txns[i]? = some (some t) := by
  simp [Storage.txn?, Option.join_eq_some_iff]

theorem counted_set {t : BackupTxn} (h : s.txn? i = some t) (t' : Option BackupTxn) :
    (s.txns.set i t').countP (fun t => t.any BackupTxn.counted) + (if t.counted then 1 else 0) =
      s.counted + (if t'.any BackupTxn.counted then 1 else 0) := by
  obtain ⟨hlt, hget⟩ := List.getElem?_eq_some_iff.mp (txn?_eq_some.mp h)
  have hpos : t.counted = true → 0 < s.counted := by
    intro hcounted
    exact List.countP_pos_iff.mpr ⟨some t, hget ▸ List.getElem_mem hlt, hcounted⟩
  rw [List.countP_set hlt, hget]
  simp only [Option.any_some]
  unfold Storage.counted at hpos ⊢
  split_ifs with hold hnew hnew
  · have := hpos hold
    omega
  · have := hpos hold
    omega
  · omega
  · omega

theorem stored_seen_le (recipient : Nat) (backups : List Backup) (own : Option Backup) :
    stored recipient (seen backups own) ≤ stored recipient backups + 1 := by
  cases own with
  | none => exact Nat.le_succ _
  | some b =>
    have hfilter : stored recipient (backups.filter fun r => r.id ≠ b.id) ≤
        stored recipient backups := List.filter_sublist.countP_le
    have hcons : stored recipient (b :: backups.filter fun r => r.id ≠ b.id) ≤
        stored recipient (backups.filter fun r => r.id ≠ b.id) + 1 := by
      unfold stored
      rw [List.countP_cons]
      split_ifs <;> omega
    exact Nat.le_trans hcons (Nat.succ_le_succ hfilter)

/-! ## One statement -/

inductive Statement (recipient : Nat) (s : Storage) (a : BackupAct) : Storage → Prop
  | opened (writer : BackupWriter) :
      Statement recipient s a { s with txns := s.txns ++ [some ⟨writer, .opened, none⟩] }
  | ended (i : Nat) : Statement recipient s a (s.endTxn i)
  | moved {i : Nat} {t t' : BackupTxn} (next : Nat) (ht : s.txn? i = some t)
      (hcounted : t'.counted = true → t.counted = true ∨ s.passesLast recipient a = true) :
      Statement recipient s a ({ s with next }.putTxn i t')
  | committed {i : Nat} {t : BackupTxn} (ht : s.txn? i = some t)
      (hcounted : t.own.isSome = true → t.counted = true) :
      Statement recipient s a { s.endTxn i with backups := seen s.backups t.own }

theorem preflight_statement (h : s.preflight recipient i = some s') :
    Statement recipient s (.preflight i) s' := by
  unfold Storage.preflight at h
  split at h
  next writer own ht =>
    cases writer with
    | handoff source =>
      dsimp only at h
      split at h
      · cases h
        exact .ended i
      · split_ifs at h with howner hfull
        · cases h
          exact .ended i
        · cases h
          exact .ended i
        · cases h
          refine .moved s.next ht fun _ => .inr ?_
          simpa [Storage.passesLast, ht] using hfull
    | clone source =>
      dsimp only at h
      split_ifs at h with hfull
      · cases h
        exact .ended i
      · cases h
        exact .moved s.next ht (by simp [BackupTxn.counted])
    | importSolido =>
      dsimp only at h
      split_ifs at h with hfull
      · cases h
        exact .ended i
      · cases h
        exact .moved s.next ht (by simp [BackupTxn.counted])
  next => cases h

theorem recheck_statement (h : s.recheck recipient i = some s') :
    Statement recipient s (.recheck i) s' := by
  unfold Storage.recheck at h
  split at h
  next own ht =>
    split_ifs at h with hfull
    · cases h
      exact .ended i
    · cases h
      refine .moved s.next ht fun _ => .inr ?_
      simpa [Storage.passesLast] using hfull
  next => cases h

theorem stash_statement (h : s.stash recipient i = some s') :
    Statement recipient s (.stash i) s' := by
  unfold Storage.stash at h
  split at h
  next own ht =>
    cases h
    exact .moved s.next ht fun _ => .inl rfl
  next => cases h

theorem write_statement (h : s.write recipient i = some s') :
    Statement recipient s (.write i) s' := by
  unfold Storage.write at h
  split at h
  next source own ht =>
    split_ifs at h with hlocked
    split at h
    · cases h
      exact .ended i
    · cases h
      exact .moved s.next ht fun _ => .inl rfl
  next source own ht =>
    split at h
    · cases h
      exact .moved s.next ht (by simp [BackupTxn.counted])
    · cases h
      exact .moved (s.next + 1) ht (by simp [BackupTxn.counted])
  next prev own ht =>
    cases h
    exact .moved (s.next + 1) ht fun _ => .inl rfl
  next => cases h

theorem postCheck_statement (h : s.postCheck recipient i = some s') :
    Statement recipient s (.postCheck i) s' := by
  unfold Storage.postCheck at h
  split at h
  next source prev own ht =>
    split_ifs at h with hover
    · cases h
      exact .ended i
    · cases h
      refine .moved s.next ht fun hsome => .inr ?_
      have hsome : own.isSome = true := hsome
      simpa [Storage.passesLast, ht, hsome] using hover
  next prev own ht =>
    split_ifs at h with hdelta
    · cases h
      exact .ended i
    · cases h
      exact .moved s.next ht fun _ => .inl rfl
  next => cases h

theorem commit_statement (h : s.commit i = some s') : Statement recipient s (.commit i) s' := by
  unfold Storage.commit at h
  split at h
  next writer own ht =>
    cases h
    refine .committed ht fun hsome => ?_
    cases writer with
    | handoff source => rfl
    | clone source => exact hsome
    | importSolido => rfl
  next => cases h

theorem storageStep_statement {a : BackupAct} (h : storageStep recipient s a = some s') :
    Statement recipient s a s' := by
  cases a with
  | «open» writer =>
    cases h
    exact .opened writer
  | preflight i => exact preflight_statement h
  | recheck i => exact recheck_statement h
  | stash i => exact stash_statement h
  | write i => exact write_statement h
  | postCheck i => exact postCheck_statement h
  | commit i => exact commit_statement h
  | abort i =>
    cases h
    exact .ended i

theorem Storage.Fits.step {a : BackupAct} (hfits : s.Fits recipient) (hspare : s.Spare recipient a)
    (h : storageStep recipient s a = some s') : s'.Fits recipient := by
  unfold Storage.Fits at hfits ⊢
  cases storageStep_statement h with
  | opened writer =>
    have hopened : (⟨writer, .opened, none⟩ : BackupTxn).counted = false := by
      cases writer <;> rfl
    simpa [Storage.counted, List.countP_append, hopened] using hfits
  | ended i =>
    have hle : (s.endTxn i).counted ≤ s.counted := by
      cases ht : s.txn? i with
      | some t =>
        have hset : (s.endTxn i).counted + _ = _ := counted_set ht none
        simp only [Option.any_none, Bool.false_eq_true, if_false] at hset
        omega
      | none =>
        by_cases hlt : i < s.txns.length
        · unfold Storage.counted Storage.endTxn
          rw [List.countP_set hlt]
          simp
        · have hsame : s.txns.set i none = s.txns :=
            List.set_eq_of_length_le (Nat.not_lt.mp hlt)
          have hcount : (s.endTxn i).counted = s.counted :=
            congrArg (List.countP fun t : Option BackupTxn => t.any BackupTxn.counted) hsame
          exact Nat.le_of_eq hcount
    exact Nat.le_trans (Nat.add_le_add_left hle _) hfits
  | @moved i t t' next ht hcounted =>
    have hset := counted_set ht (some t')
    rw [Option.any_some] at hset
    show stored recipient s.backups + (s.txns.set i (some t')).countP _ ≤ maxStored
    by_cases hnew : t'.counted = true
    · rw [if_pos hnew] at hset
      rcases hcounted hnew with hold | hpasses
      · rw [if_pos hold] at hset
        omega
      · have hroom := hspare hpasses
        omega
    · rw [if_neg hnew] at hset
      omega
  | @committed i t ht hcounted =>
    have hset := counted_set ht none
    simp only [Option.any_none, Bool.false_eq_true, if_false] at hset
    show stored recipient (seen s.backups t.own) + (s.txns.set i none).countP _ ≤ maxStored
    cases hown : t.own with
    | none =>
      show stored recipient s.backups + _ ≤ maxStored
      omega
    | some b =>
      rw [if_pos (hcounted (by rw [hown]; rfl))] at hset
      have hseen := stored_seen_le recipient s.backups (some b)
      omega

end Steps

structure Storage.Start (recipient : Nat) (s : Storage) : Prop where
  idle : ∀ t ∈ s.txns, t = none
  stored_le : stored recipient s.backups ≤ maxStored

instance (recipient : Nat) (s : Storage) : Decidable (s.Start recipient) :=
  decidable_of_iff ((∀ t ∈ s.txns, t = none) ∧ stored recipient s.backups ≤ maxStored)
    ⟨fun h => ⟨h.1, h.2⟩, fun h => ⟨h.idle, h.stored_le⟩⟩

theorem Storage.Start.fits {recipient : Nat} {s : Storage} (h : s.Start recipient) :
    s.Fits recipient := by
  have hnone : s.counted = 0 := by
    refine List.countP_eq_zero.mpr fun t ht => ?_
    rw [h.idle t ht]
    exact Bool.false_ne_true
  unfold Storage.Fits
  rw [hnone]
  exact h.stored_le

theorem stored_le_max {recipient : Nat} {s s' : Storage} {acts : List BackupAct}
    (hs : s.Start recipient) (hspare : Along (storageStep recipient) (Storage.Spare recipient) s acts)
    (hrun : exec (storageStep recipient) s acts = some s') :
    stored recipient s'.backups ≤ maxStored := by
  have hfits := exec_invariant (I := Storage.Fits recipient)
    (fun s a s' hfits hspare h => hfits.step hspare h) hs.fits hspare hrun
  exact Nat.le_trans (Nat.le_add_right _ _) hfits

def twoStored : Storage := ⟨[⟨1, 1⟩, ⟨2, 1⟩, ⟨3, 2⟩], 4, []⟩

def overlapping : List BackupAct :=
  [.open (.handoff 3), .open .importSolido, .preflight 0, .preflight 1, .recheck 1, .stash 1,
   .write 0, .write 1, .postCheck 1, .commit 0, .commit 1]

/-- Each of the two finds two rows and writes a third. -/
theorem overlapping_stores_four : twoStored.Start 1 ∧
    ∃ s', exec (storageStep 1) twoStored overlapping = some s' ∧
      ¬stored 1 s'.backups ≤ maxStored := by
  have hrun : (exec (storageStep 1) twoStored overlapping).any
      (fun s' => ¬stored 1 s'.backups ≤ maxStored) = true := by decide
  obtain ⟨s', hs', hover⟩ := (Option.any_eq_true _ _).mp hrun
  exact ⟨by decide, s', hs', of_decide_eq_true hover⟩

def inTurn : List BackupAct :=
  [.open (.clone 1), .open (.handoff 3), .preflight 0, .preflight 1, .write 0, .write 1,
   .commit 1, .postCheck 0]

theorem stored_le_max_inTurn : ∃ s', exec (storageStep 1) twoStored inTurn = some s' ∧
    s'.txns = [none, none] ∧ stored 1 s'.backups ≤ maxStored := by
  have hrun : (exec (storageStep 1) twoStored inTurn).any
      (fun s' => s'.txns = [none, none]) = true := by decide
  obtain ⟨s', hs', hended⟩ := (Option.any_eq_true _ _).mp hrun
  exact ⟨s', hs', of_decide_eq_true hended,
    stored_le_max (by decide) (by decide) hs'⟩

end LastSietch.DuneGrant
