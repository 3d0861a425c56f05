/-
  The control flow of a thread.

  `Flow` lists where a thread may go from each program counter.  A step that belongs to a thread
  moves it along one of these edges and leaves the other threads alone (`System.moves_step`); this
  is the one case analysis of the step function behind all that is said about single threads.
-/
import Mathlib.Data.List.Basic
import WrapperPaas.Worker.Equiv.Tracking

namespace WrapperPaas

namespace Supervisor

/-- The thread that a step belongs to. -/
def Act.thread : Act → Option CallId
  | .run t | .poisoned t | .tryWaitFails t _ | .launch t _ | .launchFails t | .io t _ => some t
  | .ensureStarted | .request _ _ | .decryptBatch _ | .serve _ _ | .emit _ _ | .exit _
  | .tick _ => none

/-- What `request` compares. -/
def Matches (r : Request) (resp : Frame) : Prop :=
  resp.kind = kindResponse ∧ resp.requestId = r.id ∧ resp.opcode = r.opcode

/-- A thread at the one place may go on at the other. -/
inductive Flow : Pc → Pc → Prop
  | ensureLock : Flow .ensureLock .ensureCheck
  | ensurePoisoned {result} : Flow .ensureLock (.ensureReturned result)
  | ensureMissing : Flow .ensureCheck (.spawn .ensure .launch)
  | ensureChecked {result} : Flow .ensureCheck (.ensureUnlock result)
  | ensureExited : Flow .ensureCheck .ensureStorePid
  | ensureStorePid : Flow .ensureStorePid (.spawn .ensure .launch)
  | ensureUnlock {result} : Flow (.ensureUnlock result) (.ensureReturned result)
  /-- within `spawn_ready` -/
  | spawn {k spc spc'} : Flow (.spawn k spc) (.spawn k spc')
  | ready {k p} : Flow (.spawn k (.ready p)) (.install k p)
  | install {k p} : Flow (.install k p) (System.afterInstall k)
  | admitted {r} : Flow (.admission r) (.trackWait r)
  | notAdmitted {r} : Flow (.admission r) (.rejected r)
  | rejected {r e} : Flow (.rejected r) (.returned r (.error e))
  | trackWait {r lockDeadline wake} : Flow (.trackWait r) (.lockWait r lockDeadline wake)
  | lockWait {r lockDeadline wake wake'} :
      Flow (.lockWait r lockDeadline wake) (.lockWait r lockDeadline wake')
  | locked {r lockDeadline wake} : Flow (.lockWait r lockDeadline wake) (.dropWait r)
  | lockTimedOut {r lockDeadline wake} : Flow (.lockWait r lockDeadline wake) (.countLockTimeout r)
  | lockPoisoned {r lockDeadline wake e} :
      Flow (.lockWait r lockDeadline wake) (.recordLockError r e)
  | countLockTimeout {r} : Flow (.countLockTimeout r) (.recover r)
  | stuck {r stale} : Flow (.recover r) (.swapPid r stale)
  | notStuck {r e} : Flow (.recover r) (.recordLockError r e)
  | swapPid {r stale pid} : Flow (.swapPid r stale) (.countKill r stale pid)
  | noPid {r stale e} : Flow (.swapPid r stale) (.recordLockError r e)
  | countKill {r stale pid} : Flow (.countKill r stale pid) (.recordKill r stale pid)
  | recordKill {r stale pid e} : Flow (.recordKill r stale pid) (.recordLockError r e)
  | recordLockError {r e} : Flow (.recordLockError r e) (.leaveWait r e)
  | leaveWait {r e} : Flow (.leaveWait r e) (.returned r (.error e))
  | dropWait {r} : Flow (.dropWait r) (.trackRequest r)
  | trackRequest {r} : Flow (.trackRequest r) (.inspect r)
  | missing {r} : Flow (.inspect r) (.spawn (.missing r) .launch)
  | present {r} : Flow (.inspect r) (.tryWait r)
  | running {r} : Flow (.tryWait r) (.begin r)
  | exited {r} : Flow (.tryWait r) (.spawn (.exited r) .launch)
  | tryWaitFailed {r e} : Flow (.tryWait r) (.untrack r (.error e))
  | begin {r p x} : Flow (.begin r) (.exchange r p x)
  | beginMissing {r e} : Flow (.begin r) (.untrack r (.error e))
  | notWritten {r a} : Flow (.begin r) (.abandon r a .take)
  | exchange {r p x result} : Flow (.exchange r p x) (System.afterExchange r p x result)
  | matching {r resp} : Matches r resp → Flow (.compare r resp) (.resetFailures r resp)
  | mismatched {r resp a} : Flow (.compare r resp) (.abandon r a .take)
  | countTimeout {r a} : Flow (.countTimeout r a) (.abandon r a .take)
  /-- within `abandon_locked_worker` -/
  | abandon {r a apc apc'} : Flow (.abandon r a apc) (.abandon r a apc')
  | abandoned {r a} : Flow (.abandon r a .recordError) (.untrack r (.error a.error))
  | resetFailures {r resp} : Flow (.resetFailures r resp) (.untrack r (.ok resp))
  | untrack {r result} : Flow (.untrack r result) (.unlock r result)
  | unlock {r result} : Flow (.unlock r result) (.returned r result)
  | restartWanted {r resp} : Flow (.returned r (.ok resp)) (.restart r .take)
  /-- within `restart_after_delay` -/
  | restart {r rpc rpc'} : Flow (.restart r rpc) (.restart r rpc')
  | respawn {r} : Flow (.restart r .relock) (.spawn (.restart r) .launch)
  | restarted {r rpc} : Flow (.restart r rpc) .done
  | kill {p} : Flow (.cleaner p false) (.cleaner p true)
  | reap {p} : Flow (.cleaner p true) .done
  | killed {stale pid} : Flow (.killer stale pid) .done

/-- A thread that `cleanup_worker` or `recover_stuck_worker_or_exit` starts. -/
inductive Pc.Helper : Pc → Prop
  | cleaner {p} : Helper (.cleaner p false)
  | killer {stale pid} : Helper (.killer stale pid)

/-- Thread `t` goes on from `pc`, in no time; what it starts are helpers. -/
def Moves (s : System) (t : CallId) (pc : Pc) (s' : System) : Prop :=
  s'.now = s.now ∧ ∃ pc' started, s'.threads = s.threads.set t pc' ++ started ∧ Flow pc pc' ∧
    ∀ x ∈ started, x.Helper

namespace System

variable {c : Config} {s s' : System} {t : CallId} {pc pc' : Pc} {act : Act}

theorem moves_of_set (hnow : s'.now = s.now) (h : s'.threads = s.threads.set t pc')
    (hf : Flow pc pc') : Moves s t pc s' :=
  ⟨hnow, pc', [], by rw [h, List.append_nil], hf, fun x hx => (by cases hx)⟩

theorem moves_of_start {x : Pc} (hnow : s'.now = s.now)
    (h : s'.threads = s.threads.set t pc' ++ [x]) (hf : Flow pc pc') (hx : x.Helper) :
    Moves s t pc s' := by
  refine ⟨hnow, pc', [x], h, hf, fun y hy => ?_⟩
  rwa [List.mem_singleton.mp hy]

/-- The supervisor exits in `spawn_ready`. -/
theorem moves_of_exit {k : SpawnFor} {spc : SpawnPc} (ht : s.threads[t]? = some (.spawn k spc))
    (hnow : s'.now = s.now) (h : s'.threads = s.threads) : Moves s t (.spawn k spc) s' := by
  obtain ⟨hlt, hpc⟩ := List.getElem?_eq_some_iff.mp ht
  have hset : s'.threads = s.threads.set t (.spawn k spc) := by
    rw [h, ← hpc, List.set_getElem_self]
  exact moves_of_set hnow hset .spawn

theorem moves_cleanup (old : Option ProcId) (hf : Flow pc pc') :
    Moves s t pc ((s.move t pc').cleanup old) := by
  cases old with
  | none => exact moves_of_set rfl rfl hf
  | some p => exact moves_of_start rfl rfl hf .cleaner

theorem moves_runAbandon {r : Request} {a : Abandon} (apc : AbandonPc) :
    Moves s t (.abandon r a apc) (s.runAbandon t r a apc) := by
  cases apc with
  | cleanup old => exact moves_cleanup old .abandon
  | recordError => exact moves_of_set rfl rfl .abandoned
  | take | storePid | count | reason => exact moves_of_set rfl rfl .abandon

theorem moves_runRestart {r : Request} {rpc : RestartPc} (h : s.runRestart t r rpc = some s') :
    Moves s t (.restart r rpc) s' := by
  cases rpc with
  | take =>
    simp only [runRestart] at h
    split_ifs at h
    obtain rfl := Option.some.inj h
    exact moves_of_set rfl rfl .restart
  | cleanup old =>
    obtain rfl := Option.some.inj h
    exact moves_cleanup old .restart
  | sleep wake =>
    simp only [runRestart] at h
    split_ifs at h
    obtain rfl := Option.some.inj h
    exact moves_of_set rfl rfl .restart
  | relock =>
    simp only [runRestart] at h
    split_ifs at h
    · -- another thread has started a worker
      obtain rfl := Option.some.inj h
      exact moves_of_set rfl rfl .restarted
    · obtain rfl := Option.some.inj h
      exact moves_of_set rfl rfl .respawn
  | unlock =>
    obtain rfl := Option.some.inj h
    exact moves_of_set rfl rfl .restarted
  | storePid | count | reason =>
    obtain rfl := Option.some.inj h
    exact moves_of_set rfl rfl .restart

theorem moves_runPc (ht : s.threads[t]? = some pc) (h : s.runPc c t pc = some s') :
    Moves s t pc s' := by
  cases pc with
  | ensureLock =>
    simp only [runPc] at h
    split_ifs at h
    obtain rfl := Option.some.inj h
    exact moves_of_set rfl rfl .ensureLock
  | ensureCheck =>
    simp only [runPc] at h
    split at h
    · obtain rfl := Option.some.inj h
      exact moves_of_set rfl rfl .ensureMissing
    · split at h
      · cases h
      · split_ifs at h
        · obtain rfl := Option.some.inj h
          exact moves_of_set rfl rfl .ensureChecked
        · obtain rfl := Option.some.inj h
          exact moves_of_set rfl rfl .ensureExited
  | spawn k spc =>
    cases spc with
    | launch | probing => cases h
    | storePid p =>
      simp only [runPc] at h
      split at h
      · cases h
      · obtain rfl := Option.some.inj h
        exact moves_of_set rfl rfl .spawn
    | ready p =>
      obtain rfl := Option.some.inj h
      exact moves_of_set rfl rfl .ready
    | failed =>
      obtain rfl := Option.some.inj h
      exact moves_of_exit ht rfl rfl
  | admission r =>
    simp only [runPc] at h
    split_ifs at h
    · obtain rfl := Option.some.inj h
      exact moves_of_set rfl rfl .notAdmitted
    · obtain rfl := Option.some.inj h
      exact moves_of_set rfl rfl .admitted
  | lockWait r lockDeadline wake =>
    simp only [runPc] at h
    split_ifs at h
    · obtain rfl := Option.some.inj h
      exact moves_of_set rfl rfl .locked
    · obtain rfl := Option.some.inj h
      exact moves_of_set rfl rfl .lockTimedOut
    · obtain rfl := Option.some.inj h
      exact moves_of_set rfl rfl .lockWait
  | recover r =>
    simp only [runPc] at h
    split at h
    · obtain rfl := Option.some.inj h
      exact moves_of_set rfl rfl .stuck
    · obtain rfl := Option.some.inj h
      exact moves_of_set rfl rfl .notStuck
  | swapPid r stale =>
    simp only [runPc] at h
    split_ifs at h
    · obtain rfl := Option.some.inj h
      exact moves_of_set rfl rfl .noPid
    · obtain rfl := Option.some.inj h
      exact moves_of_set rfl rfl .swapPid
  | recordKill r stale pid =>
    obtain rfl := Option.some.inj h
    exact moves_of_start rfl rfl .recordKill .killer
  | inspect r =>
    simp only [runPc] at h
    split_ifs at h
    · obtain rfl := Option.some.inj h
      exact moves_of_set rfl rfl .missing
    · obtain rfl := Option.some.inj h
      exact moves_of_set rfl rfl .present
  | tryWait r =>
    simp only [runPc] at h
    split at h
    · obtain rfl := Option.some.inj h
      exact moves_of_set rfl rfl .tryWaitFailed
    · split at h
      · cases h
      · split_ifs at h
        · obtain rfl := Option.some.inj h
          exact moves_of_set rfl rfl .running
        · obtain rfl := Option.some.inj h
          exact moves_of_set rfl rfl .exited
  | begin r =>
    simp only [runPc] at h
    split at h
    · obtain rfl := Option.some.inj h
      exact moves_of_set rfl rfl .beginMissing
    · split at h
      · obtain rfl := Option.some.inj h
        exact moves_of_set rfl rfl .begin
      · obtain rfl := Option.some.inj h
        exact moves_of_set rfl rfl .notWritten
      · cases h
  | compare r resp =>
    simp only [runPc] at h
    split_ifs at h with hne
    · obtain rfl := Option.some.inj h
      exact moves_of_set rfl rfl .mismatched
    · obtain rfl := Option.some.inj h
      push Not at hne
      exact moves_of_set rfl rfl (.matching hne)
  | abandon r a apc =>
    obtain rfl := Option.some.inj h
    exact moves_runAbandon apc
  | returned r result =>
    cases result with
    | error e => cases h
    | ok resp =>
      simp only [runPc] at h
      split_ifs at h
      obtain rfl := Option.some.inj h
      exact moves_of_set rfl rfl .restartWanted
  | restart r rpc => exact moves_runRestart h
  | cleaner p killed =>
    cases killed with
    | false =>
      obtain rfl := Option.some.inj h
      exact moves_of_set rfl rfl .kill
    | true =>
      simp only [runPc] at h
      split at h
      · cases h
      · split_ifs at h
        obtain rfl := Option.some.inj h
        exact moves_of_set rfl rfl .reap
  | killer stale pid =>
    obtain rfl := Option.some.inj h
    have hset : ((s.killPid pid).move t .done).threads = s.threads.set t .done := by
      rw [move, (threads_killPid pid).1]
    exact moves_of_set (threads_killPid pid).2 hset .killed
  | exchange | ensureReturned | done => cases h
  | _ =>
    -- one edge leads from here
    obtain rfl := Option.some.inj h
    exact moves_of_set rfl rfl (by constructor)

theorem moves_runIo {a : IoAct} (h : s.runIo t a pc = some s') : Moves s t pc s' := by
  unfold runIo at h
  split at h
  · next r p x =>
    split at h
    · cases h
    · split at h
      · cases h
      · obtain rfl := Option.some.inj h
        exact moves_of_set rfl rfl .exchange
  · next k p deadline x =>
    split at h
    · cases h
    · split at h
      · cases h
      · next l result _ =>
        obtain rfl := Option.some.inj h
        cases result with
        | more x' | frame resp | failed kind message => exact moves_of_set rfl rfl .spawn
  · cases h

/-- **A step of a thread goes along an edge of the control flow.** -/
theorem moves_step (h : s.step c act = some s') (hact : act.thread = some t) :
    ∃ pc, s.threads[t]? = some pc ∧ Moves s t pc s' := by
  unfold step at h
  split_ifs at h
  cases act with
  | run u =>
    obtain rfl := Option.some.inj hact
    obtain ⟨pc, ht, hf⟩ := withThread_eq_some h
    exact ⟨pc, ht, moves_runPc ht hf⟩
  | io u a =>
    obtain rfl := Option.some.inj hact
    obtain ⟨pc, ht, hf⟩ := withThread_eq_some h
    exact ⟨pc, ht, moves_runIo hf⟩
  | poisoned u =>
    obtain rfl := Option.some.inj hact
    obtain ⟨pc, ht, hf⟩ := withThread_eq_some h
    obtain ⟨pc', hpc', rfl⟩ := Option.map_eq_some_iff.mp hf
    refine ⟨pc, ht, moves_of_set rfl rfl ?_⟩
    unfold poison at hpc'
    split at hpc' <;> cases hpc' <;> constructor
  | tryWaitFails u message =>
    obtain rfl := Option.some.inj hact
    obtain ⟨pc, ht, hf⟩ := withThread_eq_some h
    refine ⟨pc, ht, ?_⟩
    split at hf
    · obtain rfl := Option.some.inj hf
      exact moves_of_set rfl rfl .ensureChecked
    · obtain rfl := Option.some.inj hf
      exact moves_of_set rfl rfl .tryWaitFailed
    · cases hf
  | launch u pid =>
    obtain rfl := Option.some.inj hact
    obtain ⟨pc, ht, hf⟩ := withThread_eq_some h
    refine ⟨pc, ht, ?_⟩
    split at hf
    · split_ifs at hf
      obtain rfl := Option.some.inj hf
      exact moves_of_set rfl rfl .spawn
    · cases hf
  | launchFails u =>
    obtain rfl := Option.some.inj hact
    obtain ⟨pc, ht, hf⟩ := withThread_eq_some h
    refine ⟨pc, ht, ?_⟩
    split at hf
    · obtain rfl := Option.some.inj hf
      exact moves_of_exit ht rfl rfl
    · cases hf
  | _ => cases hact

end System

end Supervisor

end WrapperPaas
