/-
  The thread pool for the samples (`DecryptThreadPool` of `src/daemon/apple/decrypt.cpp`): its
  workers, the calls of `run_all`, which may run at the same time, and its destructor, which may run
  when all calls have returned.

  A `PoolAct` is one step of one thread.  The mutex is explicit: a critical section is a sequence of
  steps, one for each access to the shared variables, and the last access is one step with the
  unlock after it.  The body of a task is in progress while its worker is at `WorkerPc.run`; it
  touches no variable of the pool, does not throw and ends at some time.  A thread that waits on a
  condition variable is woken by `notify_all` or spuriously, and then takes the mutex and tests the
  condition again.
-/
import Mathlib.Logic.Function.Basic
import WrapperPaas.Lib.Machine

namespace WrapperPaas.ThreadPool

/-- A pool and the calls of `run_all` on it. -/
structure PoolUse where
  /-- the number of workers, which `get_thread_pool` takes to be positive -/
  n : UInt32
  n_ne_zero : n ≠ 0
  /-- the length of `tasks` for each call -/
  calls : List Nat

/-- The number of tasks of call `c`. -/
def PoolUse.tasks (p : PoolUse) (c : Nat) : Nat := p.calls.getD c 0

/-- A task: the call that submits it, and its index there. -/
abbrev PoolTask := Nat × Nat

/-- Where a worker is. -/
inductive WorkerPc where
  /-- before `mu` is taken, to wait for a task or after a wake-up -/
  | lock
  /-- before the condition `stop || !queue.empty()` -/
  | check
  /-- in `cv.wait` -/
  | asleep
  /-- before `if (stop && queue.empty()) return` -/
  | leave
  /-- before the front of the queue is taken out -/
  | take
  /-- before `++active` and the unlock -/
  | count (task : PoolTask)
  /-- in `task()` -/
  | run (task : PoolTask)
  /-- before `mu` is taken, to count the task off -/
  | relock (task : PoolTask)
  /-- before `--active` and the unlock -/
  | uncount (task : PoolTask)
  /-- before `done_cv.notify_all()` -/
  | notify
  | exited
  deriving DecidableEq, Repr

/-- Where a call of `run_all` is. -/
inductive CallerPc where
  /-- before the call, or before `mu` is taken for the first time -/
  | lock
  /-- in the loop, before the task with the index -/
  | push (k : Nat)
  /-- before `cv.notify_all()` -/
  | notify
  /-- before `mu` is taken, to wait for the end or after a wake-up -/
  | relock
  /-- before the condition `queue.empty() && active == 0` -/
  | check
  /-- in `done_cv.wait` -/
  | asleep
  | returned
  deriving DecidableEq, Repr

/-- Where the destructor is. -/
inductive DestructorPc where
  /-- before the destructor, or before it has taken `mu` -/
  | lock
  /-- before `stop = true` and the unlock -/
  | stop
  /-- before `cv.notify_all()` -/
  | notify
  /-- before the worker with the index is joined -/
  | join (w : Nat)
  deriving DecidableEq, Repr

inductive PoolThread where
  | worker (w : Nat)
  | caller (c : Nat)
  | destructor
  deriving DecidableEq, Repr

/-- The variables of the pool and its threads. -/
structure Pool where
  queue : List PoolTask := []
  mu : Option PoolThread := none
  active : UInt32 := 0
  stop : Bool := false
  worker : Nat → WorkerPc := fun _ => .lock
  caller : Nat → CallerPc := fun _ => .lock
  destructor : DestructorPc := .lock

inductive PoolAct where
  | worker (w : Nat)
  | caller (c : Nat)
  | destructor
  /-- a spurious wake-up -/
  | wakeWorker (w : Nat)
  | wakeCaller (c : Nat)
  deriving DecidableEq, Repr

def WorkerPc.woken : WorkerPc → WorkerPc
  | .asleep => .lock
  | pc => pc

def CallerPc.woken : CallerPc → CallerPc
  | .asleep => .relock
  | pc => pc

namespace Pool

variable (s : Pool)

def setWorker (w : Nat) (pc : WorkerPc) : Pool :=
  { s with worker := Function.update s.worker w pc }

def setCaller (c : Nat) (pc : CallerPc) : Pool :=
  { s with caller := Function.update s.caller c pc }

/-- `cv.notify_all()` -/
def notifyWorkers : Pool := { s with worker := fun w => (s.worker w).woken }

/-- `done_cv.notify_all()` -/
def notifyCallers : Pool := { s with caller := fun c => (s.caller c).woken }

/-- The loop of a worker. -/
def workerStep (w : Nat) : Option Pool :=
  match s.worker w with
  | .lock =>
    if s.mu = none then some { s.setWorker w .check with mu := some (.worker w) } else none
  | .check =>
    if s.stop || !s.queue.isEmpty then some (s.setWorker w .leave)
    else some { s.setWorker w .asleep with mu := none }
  | .asleep => none
  | .leave =>
    if s.stop && s.queue.isEmpty then some { s.setWorker w .exited with mu := none }
    else some (s.setWorker w .take)
  | .take =>
    match s.queue with
    | [] => none  -- `front()` of an empty queue is undefined
    | task :: queue => some { s.setWorker w (.count task) with queue := queue }
  | .count task =>
    some { s.setWorker w (.run task) with active := s.active + 1, mu := none }
  | .run task => some (s.setWorker w (.relock task))
  | .relock task =>
    if s.mu = none then some { s.setWorker w (.uncount task) with mu := some (.worker w) } else none
  | .uncount _ => some { s.setWorker w .notify with active := s.active - 1, mu := none }
  | .notify => some (s.notifyCallers.setWorker w .lock)
  | .exited => none

end Pool

namespace PoolUse

variable (p : PoolUse)

/-- `run_all` -/
def callerStep (s : Pool) (c : Nat) : Option Pool :=
  match s.caller c with
  | .lock =>
    if s.mu = none then some { s.setCaller c (.push 0) with mu := some (.caller c) } else none
  | .push k =>
    if k < p.tasks c then some { s.setCaller c (.push (k + 1)) with queue := s.queue ++ [(c, k)] }
    else some { s.setCaller c .notify with mu := none }
  | .notify => some (s.notifyWorkers.setCaller c .relock)
  | .relock =>
    if s.mu = none then some { s.setCaller c .check with mu := some (.caller c) } else none
  | .check =>
    if s.queue.isEmpty && s.active == 0 then some { s.setCaller c .returned with mu := none }
    else some { s.setCaller c .asleep with mu := none }
  | .asleep => none
  | .returned => none

/-- All calls have returned. -/
def AllReturned (s : Pool) : Prop := ∀ c, c < p.calls.length → s.caller c = .returned

instance (s : Pool) : Decidable (p.AllReturned s) :=
  inferInstanceAs (Decidable (∀ c, c < p.calls.length → s.caller c = .returned))

/-- `~DecryptThreadPool` -/
def destructorStep (s : Pool) : Option Pool :=
  match s.destructor with
  | .lock =>
    if s.mu = none ∧ p.AllReturned s then
      some { s with destructor := .stop, mu := some .destructor }
    else none
  | .stop => some { s with destructor := .notify, stop := true, mu := none }
  | .notify => some { s.notifyWorkers with destructor := .join 0 }
  | .join w =>
    if w < p.n.toNat ∧ s.worker w = .exited then some { s with destructor := .join (w + 1) }
    else none

def step (s : Pool) (a : PoolAct) : Option Pool :=
  match a with
  | .worker w => if w < p.n.toNat then s.workerStep w else none
  | .caller c => if c < p.calls.length then p.callerStep s c else none
  | .destructor => p.destructorStep s
  | .wakeWorker w => if s.worker w = .asleep then some (s.setWorker w .lock) else none
  | .wakeCaller c => if s.caller c = .asleep then some (s.setCaller c .relock) else none

/-- The pool from its constructor on. -/
def machine : Machine Pool PoolAct where
  init := {}
  step := p.step

end PoolUse

def PoolAct.spurious : PoolAct → Bool
  | .wakeWorker _ => true
  | .wakeCaller _ => true
  | _ => false

/-! ### What the threads have done -/

/-- What an observer writes down: the tasks that have come into the queue, those whose body has
begun, those whose body has ended, and those that are counted off. -/
structure PoolLog where
  submitted : List PoolTask := []
  started : List PoolTask := []
  ended : List PoolTask := []
  finished : List PoolTask := []
  deriving DecidableEq, Repr

def PoolUse.note (p : PoolUse) (log : PoolLog) (s : Pool) (a : PoolAct) : PoolLog :=
  match a with
  | .worker w =>
    match s.worker w with
    | .count task => { log with started := task :: log.started }
    | .run task => { log with ended := task :: log.ended }
    | .uncount task => { log with finished := task :: log.finished }
    | _ => log
  | .caller c =>
    match s.caller c with
    | .push k => if k < p.tasks c then { log with submitted := (c, k) :: log.submitted } else log
    | _ => log
  | _ => log

/-- The pool with the observer. -/
def PoolUse.observed (p : PoolUse) : Machine (Pool × PoolLog) PoolAct :=
  p.machine.record {} p.note

/-- The task that a worker has taken out of the queue and not yet counted off. -/
def WorkerPc.task? : WorkerPc → Option PoolTask
  | .count task => some task
  | .run task => some task
  | .relock task => some task
  | .uncount task => some task
  | _ => none

end WrapperPaas.ThreadPool
