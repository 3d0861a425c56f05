/-
  The supervisor's handle on the C++ worker (`src/rust/worker.rs`): the fields of `Worker`, what its
  small member functions do to them, and the transfer of a frame over the worker's pipes.

  A function here is one access to shared state, or code between two such accesses;
  `Worker/Threads.lean` interleaves them.  Times are nanoseconds on the clock of `Instant::now`.

  `version` and `launcher` are left out: they reach only log lines and the command that is spawned.
-/
import Mathlib.Data.List.Basic
import WrapperPaas.Lib.Link
import WrapperPaas.Protocol.Routes

namespace WrapperPaas

namespace Supervisor

abbrev Instant := Nat
abbrev Duration := Nat

/-- The name of a started worker process, in the order of their starts. -/
abbrev ProcId := Nat

/-- The name of a call of one of `Worker`'s functions; it has a thread of its own. -/
abbrev CallId := Nat

def milliseconds (n : Nat) : Duration := n * 1000000
def seconds (n : Nat) : Duration := n * 1000000000

/-! ### Fields -/

/-- The fields of `Worker` that never change. -/
structure Config where
  requestTimeout : Duration
  startupTimeout : Duration
  busyTimeout : Duration
  maxWaiters : UInt32
  maxStartupFailures : UInt32
  exitOnStartupFailure : Bool
  /-- `parse_worker_response(frame)` is `Ok(r)` with `r.restart_worker` -/
  restartRequested : Frame → Bool

structure CurrentRequest where
  id : UInt32
  opcode : UInt16
  started : Instant
  deriving DecidableEq, Repr

structure WorkerState where
  current : Option CurrentRequest := none
  lastError : Option String := none
  lastRestartReason : Option String := none
  deriving DecidableEq, Repr

/-- The fields of `Worker` that change.  A `pid` of 0 is none. -/
structure Worker where
  nextId : UInt32 := 1
  restartCount : UInt32 := 0
  timeoutCount : UInt32 := 0
  waitingCount : UInt32 := 0
  startupFailures : UInt32 := 0
  pid : UInt32 := 0
  proc : Option ProcId := none
  state : WorkerState := {}
  deriving DecidableEq, Repr

namespace Worker

/-- `track_wait`. -/
def trackWait (w : Worker) : Worker := { w with waitingCount := w.waitingCount + 1 }

/-- `WaitTracker::drop`. -/
def dropWaitTracker (w : Worker) : Worker := { w with waitingCount := w.waitingCount - 1 }

/-- `track_request`. -/
def trackRequest (w : Worker) (id : UInt32) (opcode : UInt16) (now : Instant) : Worker :=
  { w with state := { w.state with current := some ⟨id, opcode, now⟩ } }

/-- `RequestTracker::drop`. -/
def dropRequestTracker (w : Worker) (id : UInt32) : Worker :=
  if w.state.current.map CurrentRequest.id = some id then
    { w with state := { w.state with current := none } }
  else w

/-- `record_error`. -/
def recordError (w : Worker) (error : String) : Worker :=
  { w with state := { w.state with lastError := some error } }

/-- The counter of `record_restart`. -/
def countRestart (w : Worker) : Worker := { w with restartCount := w.restartCount + 1 }

/-- The store of `record_restart`. -/
def recordRestart (w : Worker) (reason : String) : Worker :=
  { w with state := { w.state with lastRestartReason := some reason } }

def countTimeout (w : Worker) : Worker := { w with timeoutCount := w.timeoutCount + 1 }

def storePid (w : Worker) (pid : UInt32) : Worker := { w with pid := pid }

def resetFailures (w : Worker) : Worker := { w with startupFailures := 0 }

/-- The request that `recover_stuck_worker_or_exit` finds stale, if any. -/
def stuck (w : Worker) (c : Config) (now : Instant) : Option CurrentRequest :=
  w.state.current.filter fun r => c.requestTimeout ≤ now - r.started

end Worker

/-! ### Worker processes -/

/-- Who sends a request frame: the readiness probe or the request of a call. -/
inductive Asker where
  | probe (t : CallId)
  | request (t : CallId)
  deriving DecidableEq, Repr

/-- The pipes of a worker process. -/
abbrev Pipes := Link UInt8 Asker Frame

/-- A process that was started as a worker. -/
structure Process where
  pid : UInt32
  link : Pipes := {}
  running : Bool := true
  /-- `wait` has returned for it, so that its pid may be used again -/
  reaped : Bool := false
  deriving DecidableEq, Repr

/-- The bytes that `write_frame_timeout` and the worker's `write_frame` write. -/
def frameBytes (f : Frame) : Bytes := frameHeader f ++ f.payload

/-- The frame of the readiness probe. -/
def probeFrame : Frame := requestFrame 0 opHealth []

/-! ### Frame transfer -/

/-- Where a thread is in `write_frame_timeout` or the `read_frame_timeout` after it, and when it
entered `wait_fd`. -/
inductive Transfer where
  /-- `rest` is not written yet -/
  | writing (rest : Bytes) (since : Instant)
  /-- `buf` has been read -/
  | reading (buf : Bytes) (since : Instant)
  deriving DecidableEq, Repr

/-- One outcome of `wait_fd` and the system call after it. -/
inductive IoAct where
  | write (n : Nat)
  | read (n : Nat)
  /-- a signal, or `EAGAIN` -/
  | again
  | timeOut
  /-- the pipe is closed, or the system call fails -/
  | fail (kind : ErrorKind) (message : String)
  deriving DecidableEq, Repr

/-- What a transfer comes to. -/
inductive IoResult where
  | more (x : Transfer)
  | frame (f : Frame)
  | failed (kind : ErrorKind) (message : String)
  deriving DecidableEq, Repr

/-- When the `poll` of a `wait_fd` entered at `since` gives up.  It counts in milliseconds, up to
`i32::MAX` of them. -/
def pollExpiry (deadline since : Instant) : Instant :=
  since + milliseconds (min ((deadline - since) / 1000000) (2 ^ 31 - 1))

/-- How many bytes `read_exact_timeout` still asks for: first the header, then the payload. -/
def wanted (buf : Bytes) : Nat :=
  if buf.length < headerLen then headerLen - buf.length
  else
    match readU32 () buf 16 with
    | .ok payloadLen => headerLen + payloadLen - buf.length
    | .error _ => 0

namespace Transfer

def since : Transfer → Instant
  | writing _ since | reading _ since => since

/-- The loop goes on with a new `wait_fd`. -/
def again (now : Instant) : Transfer → Transfer
  | writing rest _ => writing rest now
  | reading buf _ => reading buf now

/-- One round of the loops in `write_all_timeout` and `read_exact_timeout`; `none` when it cannot
end so. -/
def step (deadline now : Instant) (l : Pipes) : Transfer → IoAct → Option (Pipes × IoResult)
  | writing rest since, .write n =>
    if since < deadline ∧ 0 < n ∧ n ≤ rest.length then
      some (l.send (rest.take n), .more
        (if rest.drop n = [] then reading [] now else writing (rest.drop n) now))
    else none
  | reading buf since, .read n =>
    if since < deadline ∧ 0 < n ∧ n ≤ wanted buf ∧ n ≤ l.available.length then
      let buf := buf ++ l.available.take n
      match readFrame readExact buf with
      | .ok (f, _) => some (l.receive n, .frame f)
      | .error (.err .unexpectedEof _) => some (l.receive n, .more (reading buf now))
      | .error (.err kind message) => some (l.receive n, .failed kind message)
      -- the header is complete when it is looked at
      | .error .panic => none
    else none
  | x, .again => some (l, .more (x.again now))
  | x, .timeOut =>
    if pollExpiry deadline x.since ≤ now then
      some (l, .failed .timedOut "worker ipc response timed out")
    else none
  | _, .fail kind message => if kind = .timedOut then none else some (l, .failed kind message)
  | _, _ => none

end Transfer

end Supervisor

end WrapperPaas
