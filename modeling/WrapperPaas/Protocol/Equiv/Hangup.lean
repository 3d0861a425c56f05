/-
  A response whose worker has exited is lost.

  On Linux `poll` reports `POLLIN` while bytes are buffered and `POLLHUP` once the writer has closed
  the pipe, both at once if both are so.  `wait_fd` takes `POLLHUP` for the end of the stream, also
  while the rest of a complete frame is still buffered.  So `read_frame_timeout` returns the frame
  exactly if the worker closes its stdout behind the last `poll` of the frame
  (`buffered_response_iff`).
-/
import Mathlib.Data.List.Basic
import WrapperPaas.Protocol.Equiv.Pipe

namespace WrapperPaas

namespace Supervisor

/-! ### Reading from a worker that exits -/

/-- An iteration of `read_exact_timeout` with something in the pipe: the clocks around the calls of
`poll` that a signal interrupts, the clock at the last call, and the bytes that `read` returns, or
`none` if a signal interrupts it too. -/
structure Visit where
  signals : List (Nat × Nat)
  now : Nat
  piece : Option Bytes
  deriving DecidableEq, Repr

/-- What the system calls return; `closed` says whether the worker has closed its stdout. -/
def Visit.turn (closed : Bool) (v : Visit) : Turn where
  polls := v.signals.map (fun t => ⟨t.1, .interrupted, t.2⟩) ++ [⟨v.now, .ready closed, v.now⟩]
  transfer :=
    match v.piece with
    | some piece => .moved (piece.length - 1)
    | none => .interrupted

/-- The script of these iterations when the worker closes its stdout behind the first `close`. -/
def turnsUntil : (close : Nat) → List Visit → List Turn
  | _, [] => []
  | close, v :: visits => v.turn (close = 0) :: turnsUntil (close - 1) visits

/-- The bytes that are read. -/
def pieces (visits : List Visit) : Bytes := visits.flatMap fun v => v.piece.getD []

/-- The clock is before the deadline. -/
def Visit.InTime (deadline : Nat) (v : Visit) : Prop :=
  v.now < deadline ∧ ∀ t ∈ v.signals, t.1 < deadline ∧ t.2 < deadline

/-- The iterations of one call of `read_exact_timeout`, before the deadline: no piece is empty, and
the last iteration reads one. -/
structure Segmented (deadline : Nat) (visits : List Visit) (b : Bytes) : Prop where
  bytes : pieces visits = b
  piece : ∀ v ∈ visits, v.piece ≠ some []
  last : ∀ v, visits.getLast? = some v → v.piece ≠ none
  inTime : ∀ v ∈ visits, v.InTime deadline

/-- A worker writes a whole frame, perhaps more behind it, and closes its stdout; the supervisor
reads the frame piece by piece. -/
structure ClosingRead where
  frame : Frame
  payload_lt : frame.payload.length < 2 ^ 32
  rest : Bytes
  deadline : Nat
  header : List Visit
  payload : List Visit
  header_segmented : Segmented deadline header (frameHeader frame)
  payload_segmented : Segmented deadline payload frame.payload
  /-- the number of iterations before the one whose `poll` finds that the worker has closed -/
  close : Nat

/-- What `read_frame_timeout` returns. -/
def ClosingRead.read (c : ClosingRead) : Outcome (Frame × Bytes) :=
  readFrameTimeout c.deadline (turnsUntil c.close (c.header ++ c.payload))
    (frameHeader c.frame ++ c.frame.payload ++ c.rest)

/-- The frame is returned, and no end of the stream is reported. -/
def ClosingRead.Returned (c : ClosingRead) : Prop :=
  c.read = .ok (c.frame, c.rest) ∧ ∀ message, c.read ≠ .error (.err .unexpectedEof message)

/-! ### One call of `read_exact_timeout` -/

section Segmented

variable {deadline : Nat} {v : Visit} {visits : List Visit} {b : Bytes}

theorem turnsUntil_append (more : List Visit) : turnsUntil close (visits ++ more) =
    turnsUntil close visits ++ turnsUntil (close - visits.length) more := by
  induction visits generalizing close with
  | nil => rfl
  | cons v visits ih =>
    have hclose : close - (v :: visits).length = close - 1 - visits.length := by
      rw [List.length_cons]
      omega
    rw [List.cons_append, turnsUntil, turnsUntil, ih, hclose, List.cons_append]

/-- A `poll` before the deadline returns when something is in the pipe, and `wait_fd` fails if the
worker has closed its stdout. -/
theorem waitFd_signals {message : String} {closed : Bool} {now : Nat} (hnow : now < deadline)
    {signals : List (Nat × Nat)} (h : ∀ t ∈ signals, t.1 < deadline ∧ t.2 < deadline) :
    waitFd message deadline
        (signals.map (fun t => ⟨t.1, .interrupted, t.2⟩) ++ [⟨now, .ready closed, now⟩]) =
      if closed then .error (.err .unexpectedEof message) else .ok () := by
  induction signals with
  | nil =>
    rw [List.map_nil, List.nil_append, waitFd, if_neg (Nat.not_le.mpr hnow)]
  | cons t signals ih =>
    obtain ⟨hbefore, hafter⟩ := h t List.mem_cons_self
    rw [List.map_cons, List.cons_append, waitFd, if_neg (Nat.not_le.mpr hbefore)]
    dsimp only
    rw [if_neg (Nat.not_le.mpr hafter)]
    exact ih fun u hu => h u (List.mem_cons_of_mem _ hu)

/-- `POLLHUP` ends the loop, whatever the pipe holds. -/
theorem turnProgress_turn (closed : Bool) (zero : Failure) (h : v.InTime deadline) :
    turnProgress (waitReadable deadline) zero (v.turn closed) =
      if closed then .stopped (.err .unexpectedEof "worker stdout closed")
      else
        match v.piece with
        | some piece => .moved (piece.length - 1)
        | none => .again := by
  unfold turnProgress waitReadable Visit.turn
  rw [waitFd_signals h.1 h.2]
  cases closed with
  | true => rfl
  | false =>
    cases v.piece with
    | none => rfl
    | some piece => rfl

theorem Segmented.tail (h : Segmented deadline (v :: visits) b) :
    Segmented deadline visits (pieces visits) := by
  refine ⟨rfl, fun w hw => h.piece w (List.mem_cons_of_mem _ hw), fun w hw => h.last w ?_,
    fun w hw => h.inTime w (List.mem_cons_of_mem _ hw)⟩
  rw [List.getLast?_cons, hw]
  rfl

/-- As long as an iteration is left, a byte is missing. -/
theorem Segmented.ne_nil (h : Segmented deadline visits b) (hne : visits ≠ []) : b ≠ [] := by
  obtain ⟨w, hw⟩ := Option.ne_none_iff_exists'.mp (mt List.getLast?_eq_none_iff.mp hne)
  obtain ⟨piece, hpiece⟩ := Option.ne_none_iff_exists'.mp (h.last w hw)
  have hmem := List.mem_of_getLast? hw
  rw [← h.bytes]
  intro hnil
  have hempty := List.flatMap_eq_nil_iff.mp hnil w hmem
  rw [hpiece] at hempty
  exact h.piece w hmem (hpiece.trans (congrArg some hempty))

/-- `read_exact_timeout` gets its bytes if the worker closes its stdout behind the iterations for
them, and else it reports the end of the stream. -/
theorem Segmented.read (close : Nat) (h : Segmented deadline visits b) (more : List Turn)
    (rest : Bytes) :
    readExactTimeout deadline (turnsUntil close visits ++ more, b ++ rest) b.length =
      if visits.length ≤ close then .ok (b, more, rest)
      else .error (.err .unexpectedEof "worker stdout closed") := by
  unfold readExactTimeout
  dsimp only
  induction visits generalizing close b with
  | nil =>
    obtain rfl : [] = b := h.bytes
    exact (readLoop_zero ..).trans (if_pos (Nat.zero_le close)).symm
  | cons v visits ih =>
    have hne := h.ne_nil (List.cons_ne_nil v visits)
    have hpos : b.length ≠ 0 := mt List.length_eq_zero_iff.mp hne
    have hprogress := fun closed => turnProgress_turn closed
      (.err .unexpectedEof "worker stdout closed") (h.inTime v List.mem_cons_self)
    rw [turnsUntil, List.cons_append]
    cases close with
    | zero =>
      -- closed before this iteration: its `poll` reports the hangup, and a byte is missing
      exact readLoop_stopped (hprogress true) hpos
    | succ n =>
      have hle : (v :: visits).length ≤ n + 1 ↔ visits.length ≤ n := by
        rw [List.length_cons, Nat.add_le_add_iff_right]
      have hopen := hprogress false
      have hbytes : v.piece.getD [] ++ pieces visits = b := h.bytes
      have hrest := ih n h.tail
      simp only [hle]
      cases hpiece : v.piece with
      | none =>
        -- a signal interrupts `read`: the loop goes on with the same bytes missing
        rw [hpiece] at hopen hbytes
        rw [Option.getD_none, List.nil_append] at hbytes
        rw [hbytes] at hrest
        exact (readLoop_again hopen hpos).trans hrest
      | some piece =>
        rw [hpiece] at hopen hbytes
        rw [Option.getD_some] at hbytes
        have hpiece_ne : piece ≠ [] := fun hnil => h.piece v List.mem_cons_self (by
          rw [hpiece, hnil])
        rw [← hbytes]
        refine (readLoop_moved hpiece_ne hopen (pieces visits) rest).trans ?_
        change (readLoop _ _ (turnsUntil n visits ++ more) _ _ >>= _) = _
        rw [hrest]
        split_ifs
        · rfl
        · rfl

end Segmented

/-! ### Frames -/

/-- What `read_frame_timeout` returns, by the point at which the worker closes its stdout. -/
theorem ClosingRead.read_eq (c : ClosingRead) :
    c.read = if c.header.length + c.payload.length ≤ c.close then .ok (c.frame, c.rest)
      else .error (.err .unexpectedEof "worker stdout closed") := by
  have hheader := c.header_segmented.read c.close
    (turnsUntil (c.close - c.header.length) c.payload) (c.frame.payload ++ c.rest)
  have hpayload := c.payload_segmented.read (c.close - c.header.length) [] c.rest
  rw [← turnsUntil_append, ← List.append_assoc] at hheader
  rw [List.append_nil] at hpayload
  unfold ClosingRead.read readFrameTimeout
  by_cases hh : c.header.length ≤ c.close
  · rw [if_pos hh] at hheader
    by_cases hp : c.payload.length ≤ c.close - c.header.length
    · rw [if_pos hp] at hpayload
      rw [if_pos (by omega), readFrame_eq c.payload_lt hheader hpayload]
      rfl
    · rw [if_neg hp] at hpayload
      rw [if_neg (by omega), readFrame_of_payload_error c.payload_lt hheader hpayload]
      rfl
  · rw [if_neg hh] at hheader
    have herror : readFrame (readExactTimeout c.deadline)
        (turnsUntil c.close (c.header ++ c.payload), frameHeader c.frame ++ c.frame.payload ++
          c.rest) = .error (.err .unexpectedEof "worker stdout closed") := by
      change (readExactTimeout _ _ (frameHeader c.frame).length >>= _) = _
      rw [hheader]
      rfl
    rw [if_neg (by omega), herror]
    rfl

/-- **A complete response of a worker that exits.**  Before its deadline `read_frame_timeout`
returns the frame, and reports no end of the stream, if and only if the worker closes its stdout
behind the last `poll` of the frame. -/
theorem buffered_response_iff (c : ClosingRead) :
    c.Returned ↔ c.header.length + c.payload.length ≤ c.close := by
  unfold ClosingRead.Returned
  rw [c.read_eq]
  split_ifs with hclose
  · exact ⟨fun _ => hclose, fun _ => ⟨rfl, fun message h => by cases h⟩⟩
  · refine ⟨fun h => ?_, fun h => absurd h hclose⟩
    cases h.1

/-- A worker answers a health request, and exits when the supervisor has read the header. -/
def exitedWorker : ClosingRead where
  frame := ⟨kindResponse, 1, opHealth, 0, [123, 125]⟩
  payload_lt := by decide
  rest := []
  deadline := 1
  header := [⟨[], 0, some (frameHeader ⟨kindResponse, 1, opHealth, 0, [123, 125]⟩)⟩]
  payload := [⟨[], 0, some [123, 125]⟩]
  header_segmented := ⟨rfl, by simp [frameHeader, be32], by simp, by simp [Visit.InTime]⟩
  payload_segmented := ⟨rfl, by simp, by simp, by simp [Visit.InTime]⟩
  close := 1

/-- Its response is complete and is not returned. -/
theorem buffered_response_lost : ¬ ∀ c : ClosingRead, c.Returned := by
  intro hall
  have h := (hall exitedWorker).1
  cases h

end Supervisor

end WrapperPaas
