/-
  The two ends of the WV2I pipes: the loops around `poll`, `read` and `write` of the supervisor
  (`write_all_timeout`, `read_exact_timeout` and `wait_fd` in `src/rust/worker.rs`) and of the
  worker (`read_full` and `write_full` in `src/daemon/ipc.cpp`), and the frame functions over them.

  What the system calls of a loop return is its script (`Lib/Chunked`): a list of `Turn`s for the
  supervisor, whose descriptors do not block, and a list of `Step`s for the worker.
-/
import Mathlib.Data.List.Basic
import WrapperPaas.Daemon.Ipc
import WrapperPaas.Lib.Chunked

namespace WrapperPaas

/-! ### The supervisor -/

namespace Supervisor

/-- What `poll` returns. -/
inductive PollResult where
  /-- more than 0; `closed` if an error, a hangup or an invalid descriptor is reported -/
  | ready (closed : Bool)
  /-- 0: the time until the deadline is over -/
  | expired
  /-- -1 with `EINTR` -/
  | interrupted
  | failed (error : String)
  deriving DecidableEq, Repr

/-- A call of `poll`, with the clock before it and after it. -/
structure PollCall where
  now : Nat
  result : PollResult
  after : Nat
  deriving DecidableEq, Repr

/-- What `read` or `write` returns. -/
inductive TransferResult where
  /-- a positive number of bytes, at most `n + 1` -/
  | moved (n : Nat)
  | zero
  /-- `ErrorKind::Interrupted` -/
  | interrupted
  /-- `ErrorKind::WouldBlock` -/
  | wouldBlock
  | failed (error : String)
  deriving DecidableEq, Repr

/-- An iteration of a loop: the calls of `poll` that `wait_fd` makes and the transfer behind them.
The descriptor is ready when the list of calls is over. -/
structure Turn where
  polls : List PollCall
  transfer : TransferResult
  deriving DecidableEq, Repr

def timedOut {α : Type} : Outcome α := .error (.err .timedOut "worker ipc response timed out")

/-- `wait_fd`. -/
def waitFd (closedMessage : String) (deadline : Nat) : List PollCall → Outcome Unit
  | [] => .ok ()
  | call :: calls =>
    if call.now ≥ deadline then timedOut
    else
      match call.result with
      | .ready closed =>
        if closed then .error (.err .unexpectedEof closedMessage) else .ok ()
      | .expired => timedOut
      | .failed error => .error (.err .other error)
      | .interrupted =>
        if call.after ≥ deadline then timedOut else waitFd closedMessage deadline calls

/-- `wait_readable`. -/
def waitReadable : Nat → List PollCall → Outcome Unit := waitFd "worker stdout closed"

/-- `wait_writable`. -/
def waitWritable : Nat → List PollCall → Outcome Unit := waitFd "worker stdin closed"

/-- An iteration of `write_all_timeout` or `read_exact_timeout`; `zero` is its error for a transfer
of no bytes. -/
def turnProgress (wait : List PollCall → Outcome Unit) (zero : Failure) (turn : Turn) :
    Progress Failure :=
  match wait turn.polls with
  | .error e => .stopped e
  | .ok () =>
    match turn.transfer with
    | .moved n => .moved n
    | .zero => .stopped zero
    | .interrupted => .again
    | .wouldBlock => .again
    | .failed error => .stopped (.err .other error)

/-- `write_all_timeout`: the bytes that are written, and the result. -/
def writeAllTimeout (deadline : Nat) (turns : List Turn) (buf : Bytes) :
    Bytes × Outcome (List Turn) :=
  writeLoop (turnProgress (waitWritable deadline) (.err .writeZero "worker stdin closed")) turns buf

/-- `read_exact_timeout` of `n` bytes. -/
def readExactTimeout (deadline : Nat) (r : List Turn × Bytes) (n : Nat) :
    Outcome (Bytes × List Turn × Bytes) :=
  let closed : Failure := .err .unexpectedEof "worker stdout closed"
  readLoop (turnProgress (waitReadable deadline) closed) closed r.1 r.2 n

/-- `write_frame_timeout`: the bytes that are written, and the result. -/
def writeFrameTimeout (deadline : Nat) (turns : List Turn) (f : Frame) : Bytes × Outcome Unit :=
  match writeFrame f with
  | .error e => ([], .error e)
  | .ok bytes =>
    let (written, result) := writeAllTimeout deadline turns bytes
    (written, result.map fun _ => ())

/-- `read_frame_timeout` off a pipe that holds these bytes. -/
def readFrameTimeout (deadline : Nat) (turns : List Turn) (pipe : Bytes) :
    Outcome (Frame × Bytes) := do
  let (f, _, pipe) ← readFrame (readExactTimeout deadline) (turns, pipe)
  .ok (f, pipe)

end Supervisor

/-! ### The worker -/

namespace Daemon

/-- What `poll` with a timeout of a second returns. -/
inductive PollResult where
  | ready
  | expired
  /-- -1 with `EINTR` -/
  | interrupted
  | failed
  deriving DecidableEq, Repr

/-- An iteration of a loop: what `read` or `write` returns, and what the `poll` after an `EAGAIN`
returns. -/
inductive Step where
  /-- a positive number of bytes, at most `n + 1` -/
  | moved (n : Nat)
  | zero
  /-- -1 with `EINTR` -/
  | interrupted
  /-- -1 with `EAGAIN` or `EWOULDBLOCK` -/
  | wouldBlock (poll : PollResult)
  | failed
  deriving DecidableEq, Repr

/-- An iteration of `read_full` or `write_full`. -/
def stepProgress : Step → Progress Failure
  | .moved n => .moved n
  | .zero => .stopped .failed
  | .interrupted => .again
  | .wouldBlock poll =>
    match poll with
    | .ready => .again
    | .expired => .again
    | .interrupted => .stopped .failed
    | .failed => .stopped .failed
  | .failed => .stopped .failed

/-- `read_full` of `len` bytes. -/
def readFullSteps (r : List Step × Bytes) (len : Nat) : Outcome (Bytes × List Step × Bytes) :=
  readLoop stepProgress .failed r.1 r.2 len

/-- `write_full`: the bytes that are written, and the result. -/
def writeFullSteps (steps : List Step) (buf : Bytes) : Bytes × Outcome (List Step) :=
  writeLoop stepProgress steps buf

/-- `read_frame` off a pipe that holds these bytes. -/
def readFrameSteps (steps : List Step) (pipe : Bytes) : Outcome (Frame × Bytes) := do
  let (f, _, pipe) ← readFrame readFullSteps (steps, pipe)
  .ok (f, pipe)

/-- `write_frame`: the bytes that are written, and the result. -/
def writeFrameSteps (steps : List Step) (f : Frame) : Bytes × Outcome Unit :=
  match writeFullSteps steps (frameHeader f) with
  | (header, .error e) => (header, .error e)
  | (header, .ok steps) =>
    if f.payload = [] then (header, .ok ())
    else
      let (payload, result) := writeFullSteps steps f.payload
      (header ++ payload, result.map fun _ => ())

end Daemon

end WrapperPaas
