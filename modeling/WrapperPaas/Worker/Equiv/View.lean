/-
  The worker's threads as the pipes see them.

  Of everything a step does, the pipes see only who holds the `proc` mutex, which process is in the
  slot, what went through the pipes and, of each thread, whether it holds the mutex and what it is
  in the middle of (`Stage`).  `ViewStep` lists what can happen to these, and `view_step` says that
  each step of the source's threads is one of its cases.
-/
import Mathlib.Logic.Function.Basic
import WrapperPaas.Protocol.Equiv.Frames
import WrapperPaas.Worker.Threads

namespace WrapperPaas

namespace Supervisor

/-- What a thread is in the middle of. -/
inductive Stage where
  /-- not holding the mutex; the response that its `request` returned, if any -/
  | free (resp : Option (Request × Frame))
  /-- holding the mutex with nothing outstanding; the response that was read, if any -/
  | locked (resp : Option (Request × Frame))
  /-- transferring its request and the response with the worker in the slot -/
  | exchange (r : Request) (p : ProcId) (x : Transfer)
  /-- starting a worker that nothing is outstanding for -/
  | fresh (p : ProcId)
  /-- probing a new worker -/
  | probing (p : ProcId) (x : Transfer)
  /-- about to give up the worker -/
  | broken
  deriving DecidableEq, Repr

def Pc.stage : Pc → Stage
  | .ensureCheck | .ensureStorePid | .ensureUnlock _ => .locked none
  | .spawn _ .launch => .locked none
  | .spawn _ (.storePid p) | .spawn _ (.ready p) | .install _ p => .fresh p
  | .spawn _ (.probing p _ x) => .probing p x
  | .spawn _ .failed => .broken
  | .dropWait _ | .trackRequest _ | .inspect _ | .tryWait _ | .begin _ => .locked none
  | .exchange r p x => .exchange r p x
  | .compare r resp | .resetFailures r resp => .locked (some (r, resp))
  | .countTimeout _ _ | .abandon _ _ .take => .broken
  | .abandon _ _ _ => .locked none
  | .untrack r (.ok resp) | .unlock r (.ok resp) => .locked (some (r, resp))
  | .untrack _ (.error _) | .unlock _ (.error _) => .locked none
  | .returned r (.ok resp) => .free (some (r, resp))
  | .restart _ .unlock => .locked none
  | _ => .free none

/-- What the pipes see of a system. -/
structure View where
  lock : Option CallId
  slot : Option ProcId
  links : List Pipes
  stage : CallId → Stage

/-- Where a transfer for a request leads. -/
def exchangeStage (r : Request) (p : ProcId) : IoResult → Stage
  | .more x => .exchange r p x
  | .frame resp => .locked (some (r, resp))
  | .failed _ _ => .broken

/-- Where a transfer for the probe leads. -/
def probeStage (p : ProcId) : IoResult → Stage
  | .more x => .probing p x
  | .frame resp => if resp.kind ≠ kindResponse ∨ resp.opcode ≠ opHealth then .broken else .fresh p
  | .failed _ _ => .broken

namespace View

/-- Thread `t` is now in `st`. -/
def setStage (v : View) (t : CallId) (st : Stage) : View :=
  { v with stage := Function.update v.stage t st }

theorem stage_setStage (v : View) (t : CallId) (st : Stage) :
    (v.setStage t st).stage = Function.update v.stage t st := rfl

theorem setStage_same {v : View} {t : CallId} {st : Stage} (h : v.stage t = st) :
    v.setStage t st = v := by
  rw [setStage, ← h, Function.update_eq_self]

end View

/-- What a step does to the view. -/
inductive ViewStep (v : View) : View → Prop
  | quiet : ViewStep v v
  /-- a returned response is no longer held -/
  | forget {t : CallId} {resp} : v.stage t = .free resp → ViewStep v (v.setStage t (.free none))
  | lock {t : CallId} : v.lock = none → v.stage t = .free none →
      ViewStep v { v.setStage t (.locked none) with lock := some t }
  | unlock {t : CallId} {resp} : v.stage t = .locked resp →
      ViewStep v { v.setStage t (.free resp) with lock := none }
  /-- `restart_after_delay` empties the slot -/
  | take : v.lock = none → ViewStep v { v with slot := none }
  | giveUp {t : CallId} {resp} : v.stage t = .locked resp → ViewStep v (v.setStage t .broken)
  /-- `abandon_locked_worker` empties the slot -/
  | drop {t : CallId} : v.stage t = .broken →
      ViewStep v { v.setStage t (.locked none) with slot := none }
  | launch {t : CallId} : v.stage t = .locked none →
      ViewStep v { v.setStage t (.fresh v.links.length) with links := v.links ++ [{}] }
  | probe {t : CallId} {p : ProcId} {l : Pipes} (now : Instant) : v.stage t = .fresh p →
      v.links[p]? = some l →
      ViewStep v { v.setStage t (.probing p (.writing (frameBytes probeFrame) now)) with
        links := v.links.set p (l.ask (.probe t, probeFrame)) }
  | probeIo {t : CallId} {p : ProcId} {x : Transfer} {l l' : Pipes} {a : IoAct} {result : IoResult}
      {deadline now : Instant} : v.stage t = .probing p x → v.links[p]? = some l →
      x.step deadline now l a = some (l', result) →
      ViewStep v { v.setStage t (probeStage p result) with links := v.links.set p l' }
  | install {t : CallId} {p : ProcId} : v.stage t = .fresh p →
      ViewStep v { v.setStage t (.locked none) with slot := some p }
  | begin {t : CallId} {r : Request} {p : ProcId} {l : Pipes} (now : Instant) :
      v.stage t = .locked none → v.slot = some p → v.links[p]? = some l →
      r.payload.length < 2 ^ 32 →
      ViewStep v { v.setStage t (.exchange r p (.writing (frameBytes r.frame) now)) with
        links := v.links.set p (l.ask (.request t, r.frame)) }
  | io {t : CallId} {r : Request} {p : ProcId} {x : Transfer} {l l' : Pipes} {a : IoAct}
      {result : IoResult} {deadline now : Instant} : v.stage t = .exchange r p x →
      v.links[p]? = some l → x.step deadline now l a = some (l', result) →
      ViewStep v { v.setStage t (exchangeStage r p result) with links := v.links.set p l' }
  | serve {p : ProcId} {l l' : Pipes} {answer : Bytes} : v.links[p]? = some l →
      isAnswer answer = true → System.serve l answer = some l' →
      ViewStep v { v with links := v.links.set p l' }
  | emit {p : ProcId} {l : Pipes} {n : Nat} : v.links[p]? = some l →
      l.emitted + n ≤ l.answerBytes.length →
      ViewStep v { v with links := v.links.set p (l.emit n) }

namespace System

def stage (s : System) (t : CallId) : Stage := ((s.threads[t]?).map Pc.stage).getD (.free none)

/-- What the pipes see of `s`. -/
def view (s : System) : View where
  lock := s.lock
  slot := s.worker.proc
  links := s.procs.map Process.link
  stage := s.stage

variable {c : Config} {s s' : System} {t : CallId} {pc pc' : Pc} {w : Worker} {p : ProcId}
  {q : Process}

theorem stage_of_getElem? (h : s.threads[t]? = some pc) : s.stage t = pc.stage := by
  rw [stage, h]
  rfl

theorem stage_move (h : s.threads[t]? = some pc) :
    (s.move t pc').stage = Function.update s.stage t pc'.stage := by
  funext u
  have hlt : t < s.threads.length := (List.getElem?_eq_some_iff.mp h).1
  by_cases hu : u = t
  · subst hu
    simp [stage, move, hlt]
  · have hne : ¬ t = u := fun h => hu h.symm
    simp [stage, move, hu, hne]

theorem stage_start (hpc : pc.stage = .free none) : (s.start pc).stage = s.stage := by
  funext u
  rw [stage, stage, start, List.getElem?_append]
  split_ifs with hu
  · rfl
  · rw [List.getElem?_eq_none (Nat.not_lt.mp hu), List.getElem?_singleton]
    split_ifs
    · exact hpc
    · rfl

theorem view_move (h : s.threads[t]? = some pc) :
    (s.move t pc').view = s.view.setStage t pc'.stage := by
  rw [view, stage_move h]
  rfl

theorem view_put (h : s.threads[t]? = some pc) :
    (s.put t w pc').view = { s.view.setStage t pc'.stage with slot := w.proc } := by
  rw [← view_move h]
  rfl

theorem view_acquire (h : s.threads[t]? = some pc) :
    (s.acquire t pc').view = { s.view.setStage t pc'.stage with lock := some t } := by
  rw [← view_move h]
  rfl

theorem view_release (h : s.threads[t]? = some pc) :
    (s.release t pc').view = { s.view.setStage t pc'.stage with lock := none } := by
  rw [← view_move h]
  rfl

theorem view_start (hpc : pc.stage = .free none) : (s.start pc).view = s.view := by
  rw [view, stage_start hpc]
  rfl

theorem view_setProc {f : Process → Process} (hf : ∀ q, (f q).link = q.link) :
    (s.setProc p f).view = s.view := by
  have hlinks : (s.procs.modify p f).map Process.link = s.procs.map Process.link := by
    refine List.ext_getElem? fun i => ?_
    rw [List.getElem?_map, List.getElem?_map, List.getElem?_modify]
    cases s.procs[i]? with
    | none => rfl
    | some q =>
      by_cases hi : p = i
      · simp [hi, hf]
      · simp [hi]
  rw [view, view, setProc, hlinks]
  rfl

theorem view_setLink (l : Pipes) :
    (s.setLink p l).view = { s.view with links := s.view.links.set p l } := by
  have hlinks : (s.procs.modify p fun q => { q with link := l }).map Process.link =
      (s.procs.map Process.link).set p l := by
    refine List.ext_getElem? fun i => ?_
    rw [List.getElem?_map, List.getElem?_modify, List.getElem?_set, List.getElem?_map,
      List.length_map]
    by_cases hi : p = i
    · subst hi
      by_cases hlt : p < s.procs.length
      · simp [hlt]
      · simp [hlt]
    · simp [hi]
  rw [view, setLink, setProc, hlinks]
  rfl

theorem view_fork (pid : UInt32) :
    (s.fork pid).view = { s.view with links := s.view.links ++ [{}] } := by
  have hlinks : (s.fork pid).procs.map Process.link = s.procs.map Process.link ++ [({} : Pipes)] :=
    List.map_append
  rw [view, hlinks]
  rfl

theorem view_cleanup (old : Option ProcId) : (s.cleanup old).view = s.view := by
  cases old with
  | none => rfl
  | some p => exact view_start rfl

theorem threads_killPid (pid : UInt32) :
    (s.killPid pid).threads = s.threads ∧ (s.killPid pid).now = s.now := by
  unfold killPid
  split
  · exact ⟨rfl, rfl⟩
  · exact ⟨rfl, rfl⟩

theorem view_killPid (pid : UInt32) : (s.killPid pid).view = s.view := by
  unfold killPid
  split
  · exact view_setProc fun _ => rfl
  · rfl

theorem links_getElem? (h : s.procs[p]? = some q) : s.view.links[p]? = some q.link := by
  rw [view, List.getElem?_map, h]
  rfl

/-! ### Steps -/

theorem quiet_move (h : s.threads[t]? = some pc) (hst : pc'.stage = pc.stage) :
    ViewStep s.view (s.move t pc').view := by
  rw [view_move h, hst, View.setStage_same (stage_of_getElem? h)]
  exact .quiet

theorem quiet_put (h : s.threads[t]? = some pc) (hw : w.proc = s.worker.proc)
    (hst : pc'.stage = pc.stage) : ViewStep s.view (s.put t w pc').view := by
  rw [view_put h, hst, View.setStage_same (stage_of_getElem? h), hw]
  exact .quiet

theorem view_runAbandon {r : Request} {a : Abandon} {apc : AbandonPc}
    (ht : s.threads[t]? = some (.abandon r a apc)) :
    ViewStep s.view (s.runAbandon t r a apc).view := by
  cases apc with
  | take =>
    rw [runAbandon, takeProc, view_put ht]
    exact .drop (stage_of_getElem? ht)
  | storePid old => exact quiet_put ht rfl rfl
  | cleanup old =>
    rw [runAbandon, view_cleanup]
    exact quiet_move ht rfl
  | count => exact quiet_put ht rfl rfl
  | reason => exact quiet_put ht rfl rfl
  | recordError => exact quiet_put ht rfl rfl

theorem view_runRestart {r : Request} {rpc : RestartPc}
    (ht : s.threads[t]? = some (.restart r rpc)) (h : s.runRestart t r rpc = some s') :
    ViewStep s.view s'.view := by
  cases rpc with
  | take =>
    simp only [runRestart] at h
    split_ifs at h with hl
    obtain rfl := Option.some.inj h
    rw [takeProc, view_put ht, View.setStage_same (stage_of_getElem? ht)]
    exact .take hl
  | storePid old =>
    obtain rfl := Option.some.inj h
    exact quiet_put ht rfl rfl
  | cleanup old =>
    obtain rfl := Option.some.inj h
    rw [view_cleanup]
    exact quiet_move ht rfl
  | count =>
    obtain rfl := Option.some.inj h
    exact quiet_put ht rfl rfl
  | reason =>
    obtain rfl := Option.some.inj h
    exact quiet_put ht rfl rfl
  | sleep wake =>
    simp only [runRestart] at h
    split_ifs at h
    obtain rfl := Option.some.inj h
    exact quiet_move ht rfl
  | relock =>
    simp only [runRestart] at h
    split_ifs at h with hl hslot
    · obtain rfl := Option.some.inj h
      exact quiet_move ht rfl
    · obtain rfl := Option.some.inj h
      rw [view_acquire ht]
      exact .lock hl (stage_of_getElem? ht)
  | unlock =>
    obtain rfl := Option.some.inj h
    rw [view_release ht]
    exact .unlock (stage_of_getElem? ht)

theorem view_runPc (ht : s.threads[t]? = some pc) (h : s.runPc c t pc = some s') :
    ViewStep s.view s'.view := by
  cases pc with
  | ensureLock =>
    simp only [runPc] at h
    split_ifs at h with hl
    obtain rfl := Option.some.inj h
    rw [view_acquire ht]
    exact .lock hl (stage_of_getElem? ht)
  | ensureCheck =>
    simp only [runPc] at h
    split at h
    · obtain rfl := Option.some.inj h
      exact quiet_move ht rfl
    · split at h
      · cases h
      · split_ifs at h
        · obtain rfl := Option.some.inj h
          exact quiet_move ht rfl
        · obtain rfl := Option.some.inj h
          have hv : ∀ p, (s.reap p).view = s.view := fun p => view_setProc fun _ => rfl
          rw [← hv]
          exact quiet_move ht rfl
  | ensureStorePid =>
    obtain rfl := Option.some.inj h
    exact quiet_put ht rfl rfl
  | ensureUnlock result =>
    obtain rfl := Option.some.inj h
    rw [view_release ht]
    exact .unlock (stage_of_getElem? ht)
  | ensureReturned result => cases h
  | spawn k spc =>
    cases spc with
    | launch => cases h
    | storePid p =>
      simp only [runPc] at h
      split at h
      · cases h
      · obtain rfl := Option.some.inj h
        rename_i q hq
        have hset := view_setLink (s := s) (p := p) (q.link.ask (.probe t, probeFrame))
        rw [view_put (s := s.setLink p _) ht, hset]
        exact .probe s.now (stage_of_getElem? ht) (links_getElem? hq)
    | probing p deadline x => cases h
    | ready p =>
      obtain rfl := Option.some.inj h
      exact quiet_put ht rfl rfl
    | failed =>
      obtain rfl := Option.some.inj h
      exact .quiet
  | install k p =>
    obtain rfl := Option.some.inj h
    rw [view_put ht]
    have hafter : (afterInstall k).stage = .locked none := by cases k <;> rfl
    rw [hafter]
    exact .install (stage_of_getElem? ht)
  | admission r =>
    obtain rfl := Option.some.inj h
    exact quiet_move ht (by split_ifs <;> rfl)
  | rejected r =>
    obtain rfl := Option.some.inj h
    exact quiet_move ht rfl
  | trackWait r =>
    obtain rfl := Option.some.inj h
    exact quiet_put ht rfl rfl
  | lockWait r lockDeadline wake =>
    simp only [runPc] at h
    split_ifs at h with hw hl hd
    · obtain rfl := Option.some.inj h
      rw [view_acquire ht]
      exact .lock hl (stage_of_getElem? ht)
    · obtain rfl := Option.some.inj h
      exact quiet_move ht rfl
    · obtain rfl := Option.some.inj h
      exact quiet_move ht rfl
  | countLockTimeout r =>
    obtain rfl := Option.some.inj h
    exact quiet_put ht rfl rfl
  | recover r =>
    simp only [runPc] at h
    split at h
    · obtain rfl := Option.some.inj h
      exact quiet_move ht rfl
    · obtain rfl := Option.some.inj h
      exact quiet_move ht rfl
  | swapPid r stale =>
    obtain rfl := Option.some.inj h
    exact quiet_put ht rfl (by split_ifs <;> rfl)
  | countKill r stale pid =>
    obtain rfl := Option.some.inj h
    exact quiet_put ht rfl rfl
  | recordKill r stale pid =>
    obtain rfl := Option.some.inj h
    rw [view_start rfl]
    exact quiet_put ht rfl rfl
  | recordLockError r e =>
    obtain rfl := Option.some.inj h
    exact quiet_put ht rfl rfl
  | leaveWait r e =>
    obtain rfl := Option.some.inj h
    exact quiet_put ht rfl rfl
  | dropWait r =>
    obtain rfl := Option.some.inj h
    exact quiet_put ht rfl rfl
  | trackRequest r =>
    obtain rfl := Option.some.inj h
    exact quiet_put ht rfl rfl
  | inspect r =>
    obtain rfl := Option.some.inj h
    exact quiet_move ht (by split_ifs <;> rfl)
  | tryWait r =>
    simp only [runPc] at h
    split at h
    · obtain rfl := Option.some.inj h
      exact quiet_move ht rfl
    · split at h
      · cases h
      · split_ifs at h
        · obtain rfl := Option.some.inj h
          exact quiet_move ht rfl
        · obtain rfl := Option.some.inj h
          have hv : ∀ p, (s.reap p).view = s.view := fun p => view_setProc fun _ => rfl
          rw [← hv]
          exact quiet_move ht rfl
  | begin r =>
    simp only [runPc] at h
    split at h
    · obtain rfl := Option.some.inj h
      exact quiet_move ht rfl
    · rename_i p hslot
      split at h
      · rename_i bytes q hbytes hq
        obtain rfl := Option.some.inj h
        have hlt : r.payload.length < 2 ^ 32 := lt_of_writeFrame hbytes
        obtain rfl : frameBytes r.frame = bytes :=
          Except.ok.inj ((writeFrame_eq hlt).symm.trans hbytes)
        have hset := view_setLink (s := s) (p := p) (q.link.ask (.request t, r.frame))
        rw [view_move (s := s.setLink p _) ht, hset]
        exact .begin s.now (stage_of_getElem? ht) hslot (links_getElem? hq) hlt
      · obtain rfl := Option.some.inj h
        rw [view_move ht]
        exact .giveUp (stage_of_getElem? ht)
      · cases h
  | exchange r p x => cases h
  | compare r resp =>
    obtain rfl := Option.some.inj h
    by_cases hm : resp.kind ≠ kindResponse ∨ resp.requestId ≠ r.id ∨ resp.opcode ≠ r.opcode
    · rw [if_pos hm, view_move ht]
      exact .giveUp (stage_of_getElem? ht)
    · rw [if_neg hm]
      exact quiet_move ht rfl
  | countTimeout r a =>
    obtain rfl := Option.some.inj h
    exact quiet_put ht rfl rfl
  | abandon r a apc =>
    obtain rfl := Option.some.inj h
    exact view_runAbandon ht
  | resetFailures r resp =>
    obtain rfl := Option.some.inj h
    exact quiet_put ht rfl rfl
  | untrack r result =>
    obtain rfl := Option.some.inj h
    refine quiet_put ht ?_ (by cases result <;> rfl)
    unfold Worker.dropRequestTracker
    split_ifs <;> rfl
  | unlock r result =>
    obtain rfl := Option.some.inj h
    rw [view_release ht]
    cases result with
    | error e => exact .unlock (stage_of_getElem? ht)
    | ok resp => exact .unlock (stage_of_getElem? ht)
  | returned r result =>
    cases result with
    | error e => cases h
    | ok resp =>
      simp only [runPc] at h
      split_ifs at h
      obtain rfl := Option.some.inj h
      rw [view_move ht]
      exact .forget (stage_of_getElem? ht)
  | restart r rpc => exact view_runRestart ht h
  | cleaner p killed =>
    cases killed with
    | false =>
      obtain rfl := Option.some.inj h
      have hv : (s.killProc p).view = s.view := view_setProc fun _ => rfl
      rw [← hv]
      exact quiet_move ht rfl
    | true =>
      simp only [runPc] at h
      split at h
      · cases h
      · split_ifs at h
        obtain rfl := Option.some.inj h
        have hv : (s.reap p).view = s.view := view_setProc fun _ => rfl
        rw [← hv]
        exact quiet_move ht rfl
  | killer stale pid =>
    obtain rfl := Option.some.inj h
    have ht' : (s.killPid pid).threads[t]? = some (.killer stale pid) := by
      rw [(threads_killPid pid).1, ht]
    rw [← view_killPid pid]
    exact quiet_move ht' rfl
  | done => cases h

theorem view_runIo {a : IoAct} (ht : s.threads[t]? = some pc) (h : s.runIo t a pc = some s') :
    ViewStep s.view s'.view := by
  unfold runIo at h
  split at h
  · rename_i r p x
    split at h
    · cases h
    · rename_i q hq
      split at h
      · cases h
      · rename_i l result hstep
        obtain rfl := Option.some.inj h
        have hset := view_setLink (s := s) (p := p) l
        have hst : (afterExchange r p x result).stage = exchangeStage r p result := by
          cases result with
          | more x' => rfl
          | frame resp => rfl
          | failed kind message => cases kind <;> cases x <;> rfl
        rw [view_move (s := s.setLink p _) ht, hset, hst]
        exact .io (stage_of_getElem? ht) (links_getElem? hq) hstep
  · rename_i k p deadline x
    split at h
    · cases h
    · rename_i q hq
      split at h
      · cases h
      · rename_i l result hstep
        obtain rfl := Option.some.inj h
        have hset := view_setLink (s := s) (p := p) l
        have hst : (afterProbe k p deadline result).stage = probeStage p result := by
          cases result with
          | more x' => rfl
          | frame resp =>
            rw [afterProbe, probeStage]
            split_ifs <;> rfl
          | failed kind message => rfl
        rw [view_move (s := s.setLink p _) ht, hset, hst]
        exact .probeIo (stage_of_getElem? ht) (links_getElem? hq) hstep
  · cases h

theorem stage_poison (h : poison pc = some pc') : pc'.stage = pc.stage := by
  unfold poison at h
  split at h <;> cases h <;> rfl

theorem withThread_eq_some {f : Pc → Option System} (h : s.withThread t f = some s') :
    ∃ pc, s.threads[t]? = some pc ∧ f pc = some s' := by
  unfold withThread at h
  split at h
  · exact ⟨_, ‹_›, h⟩
  · cases h

theorem withProc_eq_some {f : Process → Option System} (h : s.withProc p f = some s') :
    ∃ q, s.procs[p]? = some q ∧ f q = some s' := by
  unfold withProc at h
  split at h
  · split_ifs at h
    exact ⟨_, ‹_›, h⟩
  · cases h

/-- Nothing happens after the exit. -/
theorem running_of_step {act : Act} (h : s.step c act = some s') : s.exited = false := by
  unfold step at h
  split_ifs at h with hexited
  exact eq_false_of_ne_true hexited

/-- Every step is one of the cases of `ViewStep`. -/
theorem view_step {act : Act} (h : s.step c act = some s') : ViewStep s.view s'.view := by
  unfold step at h
  split_ifs at h
  cases act with
  | ensureStarted =>
    obtain rfl := Option.some.inj h
    rw [view_start rfl]
    exact .quiet
  | request opcode payload =>
    obtain rfl := Option.some.inj h
    rw [call, view_start rfl]
    exact .quiet
  | decryptBatch payload =>
    obtain rfl := Option.some.inj h
    rw [call, view_start rfl]
    exact .quiet
  | run t =>
    obtain ⟨pc, ht, hf⟩ := withThread_eq_some h
    exact view_runPc ht hf
  | poisoned t =>
    obtain ⟨pc, ht, hf⟩ := withThread_eq_some h
    obtain ⟨pc', hpc', rfl⟩ := Option.map_eq_some_iff.mp hf
    exact quiet_move ht (stage_poison hpc')
  | tryWaitFails t message =>
    obtain ⟨pc, ht, hf⟩ := withThread_eq_some h
    split at hf
    · obtain rfl := Option.some.inj hf
      exact quiet_move ht rfl
    · obtain rfl := Option.some.inj hf
      exact quiet_move ht rfl
    · cases hf
  | launch t pid =>
    obtain ⟨pc, ht, hf⟩ := withThread_eq_some h
    split at hf
    · split_ifs at hf
      obtain rfl := Option.some.inj hf
      have hlen : s.view.links.length = s.procs.length := List.length_map ..
      rw [view_move (s := s.fork pid) ht, view_fork, ← hlen]
      exact .launch (stage_of_getElem? ht)
    · cases hf
  | launchFails t =>
    obtain ⟨pc, ht, hf⟩ := withThread_eq_some h
    split at hf
    · obtain rfl := Option.some.inj hf
      exact .quiet
    · cases hf
  | io t a =>
    obtain ⟨pc, ht, hf⟩ := withThread_eq_some h
    exact view_runIo ht hf
  | serve p answer =>
    dsimp only at h
    split_ifs at h with ha
    obtain ⟨q, hq, hf⟩ := withProc_eq_some h
    obtain ⟨l, hl, rfl⟩ := Option.map_eq_some_iff.mp hf
    rw [view_setLink]
    exact .serve (links_getElem? hq) ha hl
  | emit p n =>
    obtain ⟨q, hq, hf⟩ := withProc_eq_some h
    split_ifs at hf with hn
    obtain rfl := Option.some.inj hf
    rw [view_setLink]
    exact .emit (links_getElem? hq) hn
  | exit p =>
    obtain ⟨q, hq, hf⟩ := withProc_eq_some h
    obtain rfl := Option.some.inj hf
    have hv : (s.killProc p).view = s.view := view_setProc fun _ => rfl
    rw [hv]
    exact .quiet
  | tick d =>
    obtain rfl := Option.some.inj h
    exact .quiet

/-! ### Single steps -/

variable {l : Pipes}

theorem threads_move (ht : s.threads[t]? = some pc) (pc' : Pc) :
    (s.move t pc').threads[t]? = some pc' :=
  List.getElem?_set_self (List.getElem?_eq_some_iff.mp ht).1

theorem step_run (hexited : s.exited = false) (ht : s.threads[t]? = some pc) :
    s.step c (.run t) = s.runPc c t pc := by
  simp only [step, hexited, withThread, ht]
  rfl

theorem step_io {r : Request} {y : Transfer} {a : IoAct} {result : IoResult}
    (hexited : s.exited = false) (ht : s.threads[t]? = some (.exchange r p y))
    (hq : s.procs[p]? = some q) (hround : y.step r.deadline s.now q.link a = some (l, result)) :
    s.step c (.io t a) = some ((s.setLink p l).move t (afterExchange r p y result)) := by
  simp only [step, hexited, withThread, ht, runIo, hq, hround]
  rfl

theorem step_serve {answer : Bytes} (hexited : s.exited = false) (ha : isAnswer answer = true)
    (hq : s.procs[p]? = some q) (hrunning : q.running = true) (hl : serve q.link answer = some l) :
    s.step c (.serve p answer) = some (s.setLink p l) := by
  simp only [step, hexited, ha, withProc, hq, hrunning, hl]
  rfl

theorem step_emit {n : Nat} (hexited : s.exited = false) (hq : s.procs[p]? = some q)
    (hrunning : q.running = true) (hn : q.link.emitted + n ≤ q.link.answerBytes.length) :
    s.step c (.emit p n) = some (s.setLink p (q.link.emit n)) := by
  simp only [step, hexited, withProc, hq, hrunning, if_pos hn]
  rfl

theorem procs_setLink (hq : s.procs[p]? = some q) :
    (s.setLink p l).procs[p]? = some { q with link := l } := by
  unfold setLink setProc
  rw [List.getElem?_modify, hq]
  simp

end System

end Supervisor

end WrapperPaas
