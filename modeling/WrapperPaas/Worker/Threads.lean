/-
  The threads that call `Worker`, the worker processes they start, and their interleavings.

  The calls are `ensure_started`, `request`, and `decrypt_batch`, which is a `request` that may be
  followed by `restart_after_delay`.  A program counter stands before each access to shared state:
  an atomic, the `state` mutex, the `proc` mutex or the slot behind it, a system call.  Every order
  of `Act`s that `step` allows is an interleaving of the source.

  A worker process reads frames as `read_frame` does and answers as `run_ipc_worker` does, with one
  frame of any content; it may also answer with bytes that are no frame, be late with any byte, or
  exit.  An operating system call may fail at any time.

  A panic is not modelled.  The mutex may still report that it is poisoned.
-/
import Mathlib.Data.List.Basic
import WrapperPaas.Lib.Machine
import WrapperPaas.Worker.State

namespace WrapperPaas

namespace Supervisor

/-- The arguments and locals of one `request`; `batch` if `decrypt_batch` called it. -/
structure Request where
  id : UInt32
  opcode : UInt16
  payload : Bytes
  batch : Bool
  deadline : Instant
  deriving DecidableEq, Repr

def Request.frame (r : Request) : Frame := requestFrame r.id r.opcode r.payload

/-- Who called `spawn_ready`. -/
inductive SpawnFor where
  | ensure
  /-- `request` found the slot empty -/
  | missing (r : Request)
  /-- `request` found that the worker had exited -/
  | exited (r : Request)
  | restart (r : Request)
  deriving DecidableEq, Repr

/-- Where a thread is in `spawn_ready`. -/
inductive SpawnPc where
  /-- before `Command::spawn` -/
  | launch
  /-- before `self.pid.store(child.id())` -/
  | storePid (p : ProcId)
  /-- in `probe_ready` -/
  | probing (p : ProcId) (deadline : Instant) (x : Transfer)
  /-- before `startup_failures.store(0)` -/
  | ready (p : ProcId)
  /-- before `pid.store(0)` and the exit -/
  | failed
  deriving DecidableEq, Repr

/-- Why a worker is abandoned, and what `request` returns then. -/
structure Abandon where
  reason : String
  error : WorkerError
  deriving DecidableEq, Repr

/-- Where a thread is in `abandon_locked_worker` and the `record_error` after it. -/
inductive AbandonPc where
  | take
  | storePid (old : Option ProcId)
  | cleanup (old : Option ProcId)
  | count
  | reason
  | recordError
  deriving DecidableEq, Repr

/-- Where a thread is in `restart_after_delay`. -/
inductive RestartPc where
  /-- before the block that locks the mutex and takes the worker -/
  | take
  | storePid (old : Option ProcId)
  | cleanup (old : Option ProcId)
  | count
  | reason
  | sleep (wake : Instant)
  /-- before the second lock -/
  | relock
  | unlock
  deriving DecidableEq, Repr

/-- Where a thread is. -/
inductive Pc where
  /-- in `ensure_started`, before its lock -/
  | ensureLock
  /-- before its look at the slot -/
  | ensureCheck
  /-- before `self.pid.store(0)` for a worker that has exited -/
  | ensureStorePid
  | ensureUnlock (result : Except WorkerError Unit)
  | ensureReturned (result : Except WorkerError Unit)
  /-- in `spawn_ready` -/
  | spawn (k : SpawnFor) (pc : SpawnPc)
  /-- before the store of the new worker into the slot -/
  | install (k : SpawnFor) (p : ProcId)
  /-- in `request`, before the load of `waiting_count` -/
  | admission (r : Request)
  /-- before the load of `waiting_count` for the message -/
  | rejected (r : Request)
  | trackWait (r : Request)
  /-- in `lock_worker_timeout`, not to try again before `wake` -/
  | lockWait (r : Request) (lockDeadline wake : Instant)
  | countLockTimeout (r : Request)
  /-- in `recover_stuck_worker_or_exit` -/
  | recover (r : Request)
  | swapPid (r : Request) (stale : CurrentRequest)
  | countKill (r : Request) (stale : CurrentRequest) (pid : UInt32)
  | recordKill (r : Request) (stale : CurrentRequest) (pid : UInt32)
  | recordLockError (r : Request) (e : WorkerError)
  /-- before the drop of the wait tracker of a call that got no lock -/
  | leaveWait (r : Request) (e : WorkerError)
  /-- with the lock, before `drop(wait_tracker)` -/
  | dropWait (r : Request)
  | trackRequest (r : Request)
  /-- before `guard.is_none()` -/
  | inspect (r : Request)
  /-- before `proc.child.try_wait()` -/
  | tryWait (r : Request)
  /-- before `write_frame_timeout` -/
  | begin (r : Request)
  | exchange (r : Request) (p : ProcId) (x : Transfer)
  /-- before the comparison of the response with the request -/
  | compare (r : Request) (resp : Frame)
  | countTimeout (r : Request) (a : Abandon)
  | abandon (r : Request) (a : Abandon) (pc : AbandonPc)
  /-- before `startup_failures.store(0)` -/
  | resetFailures (r : Request) (resp : Frame)
  /-- before the drop of the request tracker -/
  | untrack (r : Request) (result : Except WorkerError Frame)
  /-- before the drop of the guard -/
  | unlock (r : Request) (result : Except WorkerError Frame)
  | returned (r : Request) (result : Except WorkerError Frame)
  | restart (r : Request) (pc : RestartPc)
  /-- the thread of `cleanup_worker`, before `kill` and before `wait` -/
  | cleaner (p : ProcId) (killed : Bool)
  /-- the thread of `recover_stuck_worker_or_exit`, before `libc::kill` -/
  | killer (stale : CurrentRequest) (pid : UInt32)
  | done
  deriving DecidableEq, Repr

/-- The supervisor's worker with all calls and processes. -/
structure System where
  worker : Worker := {}
  /-- the owner of the `proc` mutex -/
  lock : Option CallId := none
  procs : List Process := []
  threads : List Pc := []
  now : Instant := 0
  /-- `std::process::exit` was called -/
  exited : Bool := false
  deriving DecidableEq, Repr

/-- One step of one thread, of a worker process or of time. -/
inductive Act where
  | ensureStarted
  | request (opcode : UInt16) (payload : Bytes)
  | decryptBatch (payload : Bytes)
  /-- the next step of a thread that waits for no answer from outside -/
  | run (t : CallId)
  /-- the lock reports that it is poisoned -/
  | poisoned (t : CallId)
  | tryWaitFails (t : CallId) (message : String)
  | launch (t : CallId) (pid : UInt32)
  | launchFails (t : CallId)
  | io (t : CallId) (a : IoAct)
  /-- a worker reads a frame and has an answer for it -/
  | serve (p : ProcId) (answer : Bytes)
  /-- a worker writes `n` bytes of its answers -/
  | emit (p : ProcId) (n : Nat)
  | exit (p : ProcId)
  | tick (d : Duration)
  deriving DecidableEq, Repr

/-- `b` is at most one frame for the supervisor: nothing follows a frame in it. -/
def isAnswer (b : Bytes) : Bool :=
  match readFrame readExact b with
  | .ok (_, _ :: _) => false
  | _ => true

/-- The message of a request that is not admitted. -/
def busyMessage (waiting : UInt32) : String :=
  "worker busy: " ++ toString waiting ++ " requests already waiting"

def poisonedError : WorkerError := .unavailable "worker mutex poisoned"

namespace System

/-! ### Moves -/

/-- Thread `t` goes on at `pc`. -/
def move (s : System) (t : CallId) (pc : Pc) : System := { s with threads := s.threads.set t pc }

/-- Thread `t` changes the fields of `Worker` and goes on at `pc`. -/
def put (s : System) (t : CallId) (w : Worker) (pc : Pc) : System :=
  { s.move t pc with worker := w }

/-- A new thread. -/
def start (s : System) (pc : Pc) : System := { s with threads := s.threads ++ [pc] }

/-- Thread `t` locks the `proc` mutex. -/
def acquire (s : System) (t : CallId) (pc : Pc) : System := { s.move t pc with lock := some t }

/-- Thread `t` unlocks the `proc` mutex. -/
def release (s : System) (t : CallId) (pc : Pc) : System := { s.move t pc with lock := none }

/-- Thread `t` takes the worker out of the slot. -/
def takeProc (s : System) (t : CallId) (pc : Pc) : System :=
  s.put t { s.worker with proc := none } pc

/-- `Command::spawn` starts a process. -/
def fork (s : System) (pid : UInt32) : System := { s with procs := s.procs ++ [{ pid := pid }] }

/-- Something happens to process `p`. -/
def setProc (s : System) (p : ProcId) (f : Process → Process) : System :=
  { s with procs := s.procs.modify p f }

def setLink (s : System) (p : ProcId) (l : Pipes) : System :=
  s.setProc p fun q => { q with link := l }

/-- `try_wait` on process `p`: an exited process is reaped. -/
def reap (s : System) (p : ProcId) : System := s.setProc p fun q => { q with reaped := true }

/-- `SIGKILL` for process `p`. -/
def killProc (s : System) (p : ProcId) : System := s.setProc p fun q => { q with running := false }

/-- `SIGKILL` for the process that has the pid. -/
def killPid (s : System) (pid : UInt32) : System :=
  match s.procs.findIdx? fun q => q.pid = pid ∧ q.reaped = false with
  | some p => s.killProc p
  | none => s

/-- `cleanup_worker`. -/
def cleanup (s : System) : Option ProcId → System
  | some p => s.start (.cleaner p false)
  | none => s

/-- What the caller of `spawn_ready` does after the new worker is in the slot. -/
def afterInstall : SpawnFor → Pc
  | .ensure => .ensureUnlock (.ok ())
  | .missing r => .tryWait r
  | .exited r => .begin r
  | .restart r => .restart r .unlock

/-! ### Steps -/

/-- `Worker::request` begins. -/
def call (s : System) (c : Config) (opcode : UInt16) (payload : Bytes) (batch : Bool) : System :=
  { s with worker := { s.worker with nextId := s.worker.nextId + 1 } }.start
    (.admission ⟨s.worker.nextId, opcode, payload, batch, s.now + c.requestTimeout⟩)

/-- The next step of thread `t` in `abandon_locked_worker`. -/
def runAbandon (s : System) (t : CallId) (r : Request) (a : Abandon) : AbandonPc → System
  | .take => s.takeProc t (.abandon r a (.storePid s.worker.proc))
  | .storePid old => s.put t (s.worker.storePid 0) (.abandon r a (.cleanup old))
  | .cleanup old => (s.move t (.abandon r a .count)).cleanup old
  | .count => s.put t s.worker.countRestart (.abandon r a .reason)
  | .reason => s.put t (s.worker.recordRestart a.reason) (.abandon r a .recordError)
  | .recordError => s.put t (s.worker.recordError a.error.toText) (.untrack r (.error a.error))

/-- The next step of thread `t` in `restart_after_delay`. -/
def runRestart (s : System) (t : CallId) (r : Request) : RestartPc → Option System
  | .take =>
    if s.lock = none then some (s.takeProc t (.restart r (.storePid s.worker.proc))) else none
  | .storePid old => some (s.put t (s.worker.storePid 0) (.restart r (.cleanup old)))
  | .cleanup old => some ((s.move t (.restart r .count)).cleanup old)
  | .count => some (s.put t s.worker.countRestart (.restart r .reason))
  | .reason =>
    some (s.put t (s.worker.recordRestart "restart requested by worker response")
      (.restart r (.sleep (s.now + seconds 1))))
  | .sleep wake => if wake ≤ s.now then some (s.move t (.restart r .relock)) else none
  | .relock =>
    if s.lock = none then
      some (if s.worker.proc.isSome then s.move t .done
        else s.acquire t (.spawn (.restart r) .launch))
    else none
  | .unlock => some (s.release t .done)

/-- The next step of thread `t` at `pc`. -/
def runPc (s : System) (c : Config) (t : CallId) : Pc → Option System
  | .ensureLock => if s.lock = none then some (s.acquire t .ensureCheck) else none
  | .ensureCheck =>
    match s.worker.proc with
    | none => some (s.move t (.spawn .ensure .launch))
    | some p =>
      match s.procs[p]? with
      | none => none
      | some q =>
        if q.running then some (s.move t (.ensureUnlock (.ok ())))
        else some ((s.reap p).move t .ensureStorePid)
  | .ensureStorePid => some (s.put t (s.worker.storePid 0) (.spawn .ensure .launch))
  | .ensureUnlock result => some (s.release t (.ensureReturned result))
  | .spawn k (.storePid p) =>
    match s.procs[p]? with
    | none => none
    | some q =>
      some ((s.setLink p (q.link.ask (.probe t, probeFrame))).put t (s.worker.storePid q.pid)
        (.spawn k (.probing p (s.now + c.startupTimeout) (.writing (frameBytes probeFrame) s.now))))
  | .spawn k (.ready p) => some (s.put t s.worker.resetFailures (.install k p))
  -- the clean-up is lost in the exit
  | .spawn _ .failed => some { s with worker := s.worker.storePid 0, exited := true }
  | .install k p => some (s.put t { s.worker with proc := some p } (afterInstall k))
  | .admission r =>
    some (s.move t (if c.maxWaiters ≤ s.worker.waitingCount then .rejected r else .trackWait r))
  | .rejected r =>
    some (s.move t (.returned r (.error (.unavailable (busyMessage s.worker.waitingCount)))))
  | .trackWait r =>
    some (s.put t s.worker.trackWait (.lockWait r (s.now + c.busyTimeout) s.now))
  | .lockWait r lockDeadline wake =>
    if s.now < wake then none
    else if s.lock = none then some (s.acquire t (.dropWait r))
    else if lockDeadline ≤ s.now then some (s.move t (.countLockTimeout r))
    else some (s.move t (.lockWait r lockDeadline (s.now + milliseconds 10)))
  | .countLockTimeout r => some (s.put t s.worker.countTimeout (.recover r))
  | .recover r =>
    match s.worker.stuck c s.now with
    | some stale => some (s.move t (.swapPid r stale))
    | none => some (s.move t (.recordLockError r (.unavailable "worker busy timed out")))
  | .swapPid r stale =>
    some (s.put t (s.worker.storePid 0)
      (if s.worker.pid = 0 then .recordLockError r (.unavailable "worker busy timed out")
        else .countKill r stale s.worker.pid))
  | .countKill r stale pid => some (s.put t s.worker.countRestart (.recordKill r stale pid))
  | .recordKill r stale pid =>
    some ((s.put t (s.worker.recordRestart "lock wait timeout")
      (.recordLockError r (.unavailable "worker busy timed out"))).start (.killer stale pid))
  | .recordLockError r e => some (s.put t (s.worker.recordError e.toText) (.leaveWait r e))
  | .leaveWait r e => some (s.put t s.worker.dropWaitTracker (.returned r (.error e)))
  | .dropWait r => some (s.put t s.worker.dropWaitTracker (.trackRequest r))
  | .trackRequest r => some (s.put t (s.worker.trackRequest r.id r.opcode s.now) (.inspect r))
  | .inspect r =>
    some (s.move t (if s.worker.proc.isNone then .spawn (.missing r) .launch else .tryWait r))
  | .tryWait r =>
    match s.worker.proc with
    | none => some (s.move t (.untrack r (.error (.unavailable "worker missing"))))
    | some p =>
      match s.procs[p]? with
      | none => none
      | some q =>
        if q.running then some (s.move t (.begin r))
        else some ((s.reap p).move t (.spawn (.exited r) .launch))
  | .begin r =>
    match s.worker.proc with
    | none => some (s.move t (.untrack r (.error (.unavailable "worker missing"))))
    | some p =>
      match writeFrame r.frame, s.procs[p]? with
      | .ok bytes, some q =>
        some ((s.setLink p (q.link.ask (.request t, r.frame))).move t
          (.exchange r p (.writing bytes s.now)))
      | .error (.err _ message), some _ =>
        some (s.move t (.abandon r ⟨"ipc write error", .io message⟩ .take))
      | _, _ => none
  | .compare r resp =>
    some (s.move t
      (if resp.kind ≠ kindResponse ∨ resp.requestId ≠ r.id ∨ resp.opcode ≠ r.opcode then
        .abandon r ⟨"mismatched ipc response", .protocol "mismatched ipc response"⟩ .take
      else .resetFailures r resp))
  | .countTimeout r a => some (s.put t s.worker.countTimeout (.abandon r a .take))
  | .abandon r a pc => some (s.runAbandon t r a pc)
  | .resetFailures r resp => some (s.put t s.worker.resetFailures (.untrack r (.ok resp)))
  | .untrack r result => some (s.put t (s.worker.dropRequestTracker r.id) (.unlock r result))
  | .unlock r result => some (s.release t (.returned r result))
  | .returned r (.ok resp) =>
    if r.batch = true ∧ resp.flags &&& 1 ≠ 1 ∧ c.restartRequested resp = true then
      some (s.move t (.restart r .take))
    else none
  | .restart r pc => s.runRestart t r pc
  | .cleaner p false => some ((s.killProc p).move t (.cleaner p true))
  | .cleaner p true =>
    match s.procs[p]? with
    | none => none
    | some q => if q.running then none else some ((s.reap p).move t .done)
  | .killer _ pid => some ((s.killPid pid).move t .done)
  | _ => none

/-- What a lock that reports poisoning makes of the thread at `pc`. -/
def poison : Pc → Option Pc
  | .ensureLock => some (.ensureReturned (.error poisonedError))
  | .lockWait r _ _ => some (.recordLockError r poisonedError)
  | .restart _ .take => some .done
  | .restart _ .relock => some .done
  | _ => none

/-- How `request` gives up when a transfer fails at `x`. -/
def abandonFor (r : Request) (x : Transfer) (kind : ErrorKind) (message : String) : Pc :=
  match kind, x with
  | .timedOut, .writing _ _ => .countTimeout r ⟨"write timeout", .io message⟩
  | .timedOut, .reading _ _ => .countTimeout r ⟨"response timeout", .io message⟩
  | _, .writing _ _ => .abandon r ⟨"ipc write error", .io message⟩ .take
  | _, .reading _ _ => .abandon r ⟨"ipc read error", .io message⟩ .take

/-- Where `request` goes on after a round of its transfer with process `p`. -/
def afterExchange (r : Request) (p : ProcId) (x : Transfer) : IoResult → Pc
  | .more x' => .exchange r p x'
  | .frame resp => .compare r resp
  | .failed kind message => abandonFor r x kind message

/-- Where `probe_ready` goes on after a round of its transfer with process `p`. -/
def afterProbe (k : SpawnFor) (p : ProcId) (deadline : Instant) : IoResult → Pc
  | .more x' => .spawn k (.probing p deadline x')
  | .frame resp =>
    .spawn k (if resp.kind ≠ kindResponse ∨ resp.opcode ≠ opHealth then .failed else .ready p)
  | .failed _ _ => .spawn k .failed

/-- A round of the transfer that thread `t` is in. -/
def runIo (s : System) (t : CallId) (a : IoAct) : Pc → Option System
  | .exchange r p x =>
    match s.procs[p]? with
    | none => none
    | some q =>
      match x.step r.deadline s.now q.link a with
      | none => none
      | some (l, result) => some ((s.setLink p l).move t (afterExchange r p x result))
  | .spawn k (.probing p deadline x) =>
    match s.procs[p]? with
    | none => none
    | some q =>
      match x.step deadline s.now q.link a with
      | none => none
      | some (l, result) => some ((s.setLink p l).move t (afterProbe k p deadline result))
  | _ => none

/-- A worker process reads a request frame, or skips a frame of another kind. -/
def serve (l : Pipes) (answer : Bytes) : Option Pipes :=
  match Daemon.readFrame Daemon.readFull l.pending with
  | .ok (req, rest) =>
    some (l.serve rest (if req.kind ≠ Daemon.kKindRequest then [] else [(req, answer)]))
  | .error _ => none

/-- The step that a thread takes, if there is such a thread. -/
def withThread (s : System) (t : CallId) (f : Pc → Option System) : Option System :=
  match s.threads[t]? with
  | some pc => f pc
  | none => none

/-- The step that a running process takes, if there is such a process. -/
def withProc (s : System) (p : ProcId) (f : Process → Option System) : Option System :=
  match s.procs[p]? with
  | some q => if q.running then f q else none
  | none => none

/-- One step; `none` when it is not enabled. -/
def step (c : Config) (s : System) (act : Act) : Option System :=
  if s.exited then none
  else
    match act with
    | .ensureStarted => some (s.start .ensureLock)
    | .request opcode payload => some (s.call c opcode payload false)
    | .decryptBatch payload => some (s.call c opDecryptBatch payload true)
    | .run t => s.withThread t (s.runPc c t)
    | .poisoned t => s.withThread t fun pc => (poison pc).map (s.move t)
    | .tryWaitFails t message => s.withThread t fun pc => match pc with
      | .ensureCheck => some (s.move t (.ensureUnlock (.error (.io message))))
      | .tryWait r => some (s.move t (.untrack r (.error (.io message))))
      | _ => none
    | .launch t pid => s.withThread t fun pc => match pc with
      | .spawn k .launch =>
        -- a pid is free once its process has been waited for
        if pid = 0 ∨ ∃ q ∈ s.procs, q.pid = pid ∧ q.reaped = false then none
        else some ((s.fork pid).move t (.spawn k (.storePid s.procs.length)))
      | _ => none
    | .launchFails t => s.withThread t fun pc => match pc with
      | .spawn _ .launch => some { s with exited := true }
      | _ => none
    | .io t a => s.withThread t (s.runIo t a)
    | .serve p answer =>
      if isAnswer answer then s.withProc p fun q => (serve q.link answer).map (s.setLink p)
      else none
    | .emit p n => s.withProc p fun q =>
      if q.link.emitted + n ≤ q.link.answerBytes.length then some (s.setLink p (q.link.emit n))
      else none
    | .exit p => s.withProc p fun _ => some (s.killProc p)
    | .tick d => some { s with now := s.now + d }

end System

/-- The supervisor at its start and all its interleavings. -/
def workerMachine (c : Config) : Machine System Act where
  init := {}
  step := System.step c

end Supervisor

end WrapperPaas
