/-
  Decrypting the samples of a batch (`decrypt_once` of `src/daemon/apple/decrypt.cpp`): the tasks,
  which share the samples between them, and the attempt when all of them have returned.

  An `Act` is one step of one task: an access to a shared variable, a step on the mutex or a call of
  `fp_sample_decrypt`, which is outside the repository.  A relaxed load may return an old value, so
  the load of `error_occurred` may return false when another task has set it.
-/
import Mathlib.Data.List.Basic
import Mathlib.Logic.Function.Basic
import WrapperPaas.Lib.Bytes
import WrapperPaas.Lib.Machine

namespace WrapperPaas

/-- A batch whose key context is there. -/
structure Job where
  chunks : List Bytes
  /-- the status of a call with this sample in the buffer, and the buffer after it -/
  fpSampleDecrypt : Bytes → Int × Bytes
  /-- `get_thread_pool().workers.size()` -/
  workers : UInt32

/-- Where a task is. -/
inductive TaskPc where
  /-- before the test of the loop and the load of `error_occurred` -/
  | head (i : Nat)
  /-- before `chunks[i].empty()` -/
  | examine (i : Nat)
  /-- before `fp_sample_decrypt` -/
  | decrypt (i : Nat)
  /-- before the lock of `error_mutex`, with the message for the failure -/
  | lock (message : String)
  /-- before `error_occurred.exchange(true)` -/
  | exchange (message : String)
  /-- before `*error` is assigned -/
  | store (message : String)
  | unlock
  | done
  deriving DecidableEq, Repr

/-- The tasks and the variables that they share. -/
structure Tasks where
  pc : Nat → TaskPc
  plaintexts : List Bytes
  errorOccurred : Bool := false
  errorMutex : Option Nat := none
  error : String := ""

def Tasks.move (s : Tasks) (t : Nat) (pc : TaskPc) : Tasks :=
  { s with pc := Function.update s.pc t pc }

/-- A step of a task, and what its load of `error_occurred` returns if it is one. -/
structure TaskAct where
  task : Nat
  seen : Bool
  deriving DecidableEq, Repr

namespace Job

variable (j : Job)

def numThreads : Nat :=
  let n := if j.workers = 0 then 4 else j.workers.toNat
  if n > j.chunks.length then j.chunks.length else n

/-- `chunks[i]` -/
def chunk (i : Nat) : Bytes := j.chunks.getD i []

def step (s : Tasks) (a : TaskAct) : Option Tasks :=
  let t := a.task
  if t < j.numThreads then
    match s.pc t with
    | .head i =>
      if i < j.chunks.length then
        if a.seen then
          if s.errorOccurred then some (s.move t .done) else none
        else some (s.move t (.examine i))
      else some (s.move t .done)
    | .examine i =>
      if j.chunk i = [] then some (s.move t (.lock "empty sample"))
      else some { s.move t (.decrypt i) with plaintexts := s.plaintexts.set i (j.chunk i) }
    | .decrypt i =>
      let (status, buffer) := j.fpSampleDecrypt (s.plaintexts.getD i [])
      let s := { s with plaintexts := s.plaintexts.set i buffer }
      if status < 0 then
        some (s.move t (.lock ("FairPlay sample decrypt failed status=" ++ toString status)))
      else some (s.move t (.head (i + j.numThreads)))
    | .lock message =>
      if s.errorMutex = none then
        some { s.move t (.exchange message) with errorMutex := some t }
      else none
    | .exchange message =>
      some { s.move t (if s.errorOccurred then .unlock else .store message) with
        errorOccurred := true }
    | .store message => some { s.move t .unlock with error := message }
    | .unlock => some { s.move t .done with errorMutex := none }
    | .done => none
  else none

/-- The tasks from their start on. -/
def machine : Machine Tasks TaskAct where
  init := { pc := .head, plaintexts := List.replicate j.chunks.length [] }
  step := j.step

end Job

/-- `run_all` has returned. -/
def Job.Finished (j : Job) (s : Tasks) : Prop := ∀ t, t < j.numThreads → s.pc t = .done

/-- What `decrypt_once` returns. -/
structure Attempt where
  ok : Bool := false
  plaintexts : List Bytes := []
  deriving DecidableEq, Repr

def Tasks.attempt (s : Tasks) : Attempt :=
  if s.errorOccurred then { ok := false, plaintexts := [] }
  else { ok := true, plaintexts := s.plaintexts }

/-! ### What the tasks are to do -/

/-- The message for a sample that cannot be decrypted. -/
def Job.failure (j : Job) (chunk : Bytes) : Option String :=
  if chunk = [] then some "empty sample"
  else if (j.fpSampleDecrypt chunk).1 < 0 then
    some ("FairPlay sample decrypt failed status=" ++ toString (j.fpSampleDecrypt chunk).1)
  else none

/-- What an observer writes down: which task has gone through the body of the loop and which has
called `fp_sample_decrypt`, for which index. -/
structure BatchLog where
  visited : List (Nat × Nat) := []
  decrypted : List (Nat × Nat) := []
  deriving DecidableEq, Repr

def BatchLog.note (log : BatchLog) (s : Tasks) (a : TaskAct) : BatchLog :=
  match s.pc a.task with
  | .examine i => { log with visited := (a.task, i) :: log.visited }
  | .decrypt i => { log with decrypted := (a.task, i) :: log.decrypted }
  | _ => log

/-- The tasks with the observer. -/
def Job.observed (j : Job) : Machine (Tasks × BatchLog) TaskAct :=
  j.machine.record {} BatchLog.note

end WrapperPaas
