import LastSietch.Storage.Conservation

/-!
# Replaying a pawn move

Histories of pawn moves, of any owners and under any keys, between which the characters, the
inventories, the items and all else but the ledger of moves may change in any way.

* `pawnMoveTxn_used`: a recorded key decides, before any other guard.
-/

namespace LastSietch.Storage

open Refinery (Game)
open Karum (Balances)

/-- A request of a pawn move, or any change of the world that leaves the ledger of moves alone. -/
inductive Event
  | request (a : PawnMove) (unitVol : Option ℚ) (now : Nat)
  | change (game : Game) (land : Land) (balances : Balances)

structure Turn where
  call : PawnMove
  before : Db
  reply : Except Refusal MoveResult
  after : Db

/-- `COMMIT`, or the rollback of a raise. -/
def turn (a : PawnMove) (unitVol : Option ℚ) (now : Nat) (db : Db) : Turn :=
  match pawnMoveTxn a unitVol now db with
  | .error refusal => ⟨a, db, .error refusal, db⟩
  | .ok (r, db') => ⟨a, db, .ok r, db'⟩

def turns : Db → List Event → List Turn
  | _, [] => []
  | db, .request a unitVol now :: es =>
    turn a unitVol now db :: turns (turn a unitVol now db).after es
  | db, .change game land balances :: es => turns { db with game, land, balances } es

def Turn.Moved (t : Turn) : Prop := t.after.game.items ≠ t.before.game.items

/-- The answer to a request whose key is recorded in `row`. -/
def MoveRow.answer (row : MoveRow) (a : PawnMove) : Except Refusal MoveResult :=
  if row.Agrees a then .ok row.republish else .error .idempotencyConflict

/-- The turn changes nothing, and answers from `row`. -/
def Turn.Replays (t : Turn) (row : MoveRow) : Prop :=
  t.after = t.before ∧ t.reply = row.answer t.call

structure PawnMove.Same (a b : PawnMove) : Prop where
  owner : a.owner = b.owner
  itemId : a.itemId = b.itemId
  expectedTemplate : a.expectedTemplate = b.expectedTemplate
  srcStorage : a.srcStorage = b.srcStorage
  dstStorage : a.dstStorage = b.dstStorage

/-- After a request `s` that was answered, a request `t` under its key changes nothing; it gets
the answer of `s` again if it asks for the same, else a conflict. -/
def Settles (s t : Turn) : Prop :=
  ∀ r, s.reply = .ok r → t.call.idempotencyKey = s.call.idempotencyKey → t.after = t.before ∧
    (s.call.Same t.call → t.reply = .ok { r with replay := true }) ∧
    (¬ s.call.Same t.call → t.reply = .error .idempotencyConflict)

/-! ## One request -/

section Requests

variable {a : PawnMove} {unitVol : Option ℚ} {now : Nat} {db db' : Db} {r : MoveResult}
  {row : MoveRow}

theorem pawnMoveTxn_used (hrow : row ∈ db.moves) (hkey : row.idempotencyKey = a.idempotencyKey) :
    pawnMoveTxn a unitVol now db = (row.answer a).map (fun r => (r, db)) := by
  have hget : db.moves.get? a.idempotencyKey = some row := Table.get?_eq_some.mpr ⟨hrow, hkey⟩
  unfold pawnMoveTxn MoveRow.answer
  rw [hget]
  dsimp only
  split <;> rfl

theorem relocate_records (h : relocate a unitVol now db = .ok (r, db')) :
    ∃ row, row.Agrees a ∧ row.republish = { r with replay := true } ∧
      db'.moves.rows = row :: db.moves.rows ∧ row.idempotencyKey = a.idempotencyKey := by
  unfold relocate at h
  obtain ⟨_, _, h⟩ := bind_eq_ok.mp h
  obtain ⟨⟨backpack, bank⟩, _, h⟩ := bind_eq_ok.mp h
  obtain ⟨item, _, h⟩ := bind_eq_ok.mp h
  obtain ⟨src, _, h⟩ := bind_eq_ok.mp h
  obtain ⟨_, _, h⟩ := bind_eq_ok.mp h
  obtain ⟨srcKind, _, h⟩ := bind_eq_ok.mp h
  obtain ⟨_, hkind, h⟩ := bind_eq_ok.mp h
  obtain ⟨_, _, h⟩ := bind_eq_ok.mp h
  obtain ⟨position, _, h⟩ := bind_eq_ok.mp h
  obtain ⟨unverified, _, h⟩ := bind_eq_ok.mp h
  obtain ⟨moves, hmoves, h⟩ := bind_eq_ok.mp h
  have hsrc := require_eq_ok.mp hkind
  cases pure_eq_ok.mp h
  refine ⟨_, ⟨rfl, rfl, rfl, rfl, rfl⟩, ?_, Table.rows_insert? (orRaise_eq_ok.mp hmoves), rfl⟩
  rw [hsrc]
  rfl

theorem pawnMoveTxn_records (h : pawnMoveTxn a unitVol now db = .ok (r, db')) :
    (∀ row ∈ db.moves, row ∈ db'.moves) ∧ ∃ row ∈ db'.moves,
      row.idempotencyKey = a.idempotencyKey ∧ row.Agrees a ∧
        row.republish = { r with replay := true } := by
  cases hget : db.moves.get? a.idempotencyKey with
  | some row =>
    obtain ⟨hrow, hkey⟩ := Table.get?_eq_some.mp hget
    rw [pawnMoveTxn_used hrow hkey] at h
    obtain ⟨r', hanswer, heq⟩ := map_eq_ok.mp h
    cases heq
    unfold MoveRow.answer at hanswer
    split at hanswer
    · rename_i hagrees
      cases hanswer
      exact ⟨fun _ h => h, row, hrow, hkey, hagrees, rfl⟩
    · cases hanswer
  | none =>
    unfold pawnMoveTxn at h
    rw [hget] at h
    obtain ⟨row, hagrees, hresult, hrows, hkey⟩ := relocate_records h
    have hmem := fun s => Table.mem_of_rows (s := s) hrows
    exact ⟨fun s hs => (hmem s).mpr (Or.inr hs), row, (hmem row).mpr (Or.inl rfl), hkey, hagrees,
      hresult⟩

@[simp] theorem turn_call : (turn a unitVol now db).call = a := by
  unfold turn
  split <;> rfl

@[simp] theorem turn_before : (turn a unitVol now db).before = db := by
  unfold turn
  split <;> rfl

theorem turn_keeps (hrow : row ∈ db.moves) : row ∈ (turn a unitVol now db).after.moves := by
  unfold turn
  split
  · exact hrow
  · rename_i r db' h
    exact (pawnMoveTxn_records h).1 row hrow

theorem turn_replays (hrow : row ∈ db.moves) (hkey : row.idempotencyKey = a.idempotencyKey) :
    (turn a unitVol now db).Replays row := by
  unfold turn Turn.Replays
  rw [pawnMoveTxn_used hrow hkey]
  unfold MoveRow.answer
  split <;> rename_i h <;> split at h <;> cases h
  · exact ⟨rfl, (if_neg ‹_›).symm⟩
  · exact ⟨rfl, (if_pos ‹_›).symm⟩

theorem turn_records (h : (turn a unitVol now db).reply = .ok r) :
    ∃ row ∈ (turn a unitVol now db).after.moves, row.idempotencyKey = a.idempotencyKey ∧
      row.Agrees a ∧ row.republish = { r with replay := true } := by
  unfold turn at h ⊢
  split at h
  · cases h
  · rename_i r' db' htxn
    cases h
    exact (pawnMoveTxn_records htxn).2

theorem turn_moved (h : (turn a unitVol now db).Moved) :
    ∃ r, (turn a unitVol now db).reply = .ok r := by
  unfold Turn.Moved at h
  unfold turn at h ⊢
  split at h
  · exact absurd rfl h
  · exact ⟨_, rfl⟩

end Requests

/-! ## A whole history -/

section Histories

variable {row : MoveRow} {db : Db} {es : List Event} {t : Turn}

theorem replays_of_mem (hrow : row ∈ db.moves) (ht : t ∈ turns db es)
    (hkey : row.idempotencyKey = t.call.idempotencyKey) : t.Replays row := by
  induction es generalizing db with
  | nil => cases ht
  | cons e es ih =>
    cases e with
    | request a unitVol now =>
      rcases List.mem_cons.mp ht with rfl | ht
      · exact turn_replays hrow (hkey.trans (congrArg PawnMove.idempotencyKey turn_call))
      · exact ih (turn_keeps hrow) ht
    | change game land balances => exact @ih { db with game, land, balances } hrow ht

theorem replays_of_before (ht : t ∈ turns db es) (hrow : row ∈ t.before.moves)
    (hkey : row.idempotencyKey = t.call.idempotencyKey) : t.Replays row := by
  induction es generalizing db with
  | nil => cases ht
  | cons e es ih =>
    cases e with
    | request a unitVol now =>
      rcases List.mem_cons.mp ht with rfl | ht
      · rw [turn_before] at hrow
        exact turn_replays hrow (hkey.trans (congrArg PawnMove.idempotencyKey turn_call))
      · exact ih ht
    | change game land balances => exact ih ht

theorem replays_settles {a : PawnMove} {r : MoveResult} (hagrees : row.Agrees a)
    (hresult : row.republish = { r with replay := true }) (h : t.Replays row) :
    t.after = t.before ∧ (a.Same t.call → t.reply = .ok { r with replay := true }) ∧
      (¬ a.Same t.call → t.reply = .error .idempotencyConflict) := by
  have hsame : row.Agrees t.call ↔ a.Same t.call := by
    constructor
    · intro h
      exact ⟨hagrees.ownerCtrl.symm.trans h.ownerCtrl, hagrees.itemId.symm.trans h.itemId,
        hagrees.expectedTemplate.symm.trans h.expectedTemplate,
        hagrees.srcKind.symm.trans h.srcKind, hagrees.dstKind.symm.trans h.dstKind⟩
    · intro h
      exact ⟨hagrees.ownerCtrl.trans h.owner, hagrees.itemId.trans h.itemId,
        hagrees.expectedTemplate.trans h.expectedTemplate, hagrees.srcKind.trans h.srcStorage,
        hagrees.dstKind.trans h.dstStorage⟩
  obtain ⟨hafter, hreply⟩ := h
  unfold MoveRow.answer at hreply
  refine ⟨hafter, fun hyes => ?_, fun hno => ?_⟩
  · rw [hreply, if_pos (hsame.mpr hyes), hresult]
  · rw [hreply, if_neg (fun h => hno (hsame.mp h))]

theorem settles_turns (db : Db) (es : List Event) : (turns db es).Pairwise Settles := by
  induction es generalizing db with
  | nil => exact List.Pairwise.nil
  | cons e es ih =>
    cases e with
    | request a unitVol now =>
      refine List.Pairwise.cons (fun t ht r hr hkey => ?_) (ih _)
      rw [turn_call] at hkey ⊢
      obtain ⟨row, hrow, hrowkey, hagrees, hresult⟩ := turn_records hr
      exact replays_settles hagrees hresult
        (replays_of_mem hrow ht (hrowkey.trans hkey.symm))
    | change game land balances => exact ih _

theorem answered_of_moved (ht : t ∈ turns db es) (hmoved : t.Moved) : ∃ r, t.reply = .ok r := by
  induction es generalizing db with
  | nil => cases ht
  | cons e es ih =>
    cases e with
    | request a unitVol now =>
      rcases List.mem_cons.mp ht with rfl | ht
      · exact turn_moved hmoved
      · exact ih ht
    | change game land balances => exact ih ht

end Histories

/-- In every history: a request under a recorded key changes nothing, and gets the recorded answer
or a conflict; the recorded answer is that of the first request; and no key moves an item twice. -/
theorem pawn_move_replay (db : Db) (es : List Event) :
    (∀ t ∈ turns db es, ∀ row ∈ t.before.moves,
      row.idempotencyKey = t.call.idempotencyKey → t.Replays row) ∧
    (turns db es).Pairwise Settles ∧
    (turns db es).Pairwise (fun s t =>
      s.Moved → t.Moved → s.call.idempotencyKey ≠ t.call.idempotencyKey) := by
  refine ⟨fun t ht row hrow hkey => replays_of_before ht hrow hkey, settles_turns db es, ?_⟩
  refine List.Pairwise.imp_of_mem ?_ (settles_turns db es)
  intro s t hs _ hsettles hmoved hmoved' hkey
  obtain ⟨r, hr⟩ := answered_of_moved hs hmoved
  exact hmoved' (congrArg (fun db : Db => db.game.items) (hsettles r hr hkey.symm).1)

/-- A move, after which player 11 is away with all that he had; then its retry, and another move
under its key. -/
def retriedMove : List Event :=
  [.request sampleMove none 0,
    .change { sampleDb.game with characters := [], inventories := Table.empty } sampleDb.land
      sampleDb.balances,
    .request sampleMove none 5,
    .request { sampleMove with
      expectedTemplate := some solarisTemplate, template_ok := by decide } none 6]

theorem pawn_move_replay_retried :
    (turns sampleDb retriedMove).map (fun t => t.reply.toOption.map (·.replay)) =
        [some false, some true, none] ∧
      (∀ t ∈ turns sampleDb retriedMove, ∀ row ∈ t.before.moves,
        row.idempotencyKey = t.call.idempotencyKey → t.Replays row) ∧
      (turns sampleDb retriedMove).Pairwise Settles ∧
      (turns sampleDb retriedMove).Pairwise (fun s t =>
        s.Moved → t.Moved → s.call.idempotencyKey ≠ t.call.idempotencyKey) :=
  ⟨by decide, pawn_move_replay sampleDb retriedMove⟩

end LastSietch.Storage
