/-
  The bookkeeping of the worker's threads.

  `Books` is what the bookkeeping of `Worker` is about: the two mutexes' contents, `waiting_count`,
  `startup_failures`, `pid`, the processes' ids and, of each thread, its `Desk`: whether the thread
  is counted as waiting, whether it holds the `proc` mutex and with which tracker, and what it is
  about to do to the slot and the pid.  `BookStep` lists what can happen to the books, and
  `book_step` says that each step of the source's threads is one of its cases.
-/
import Mathlib.Data.List.Basic
import WrapperPaas.Worker.Equiv.View

namespace WrapperPaas

namespace Supervisor

/-- What the owner of the mutex is about to do. -/
inductive Task where
  | idle
  /-- its request is handed to the worker in the slot -/
  | asked
  /-- the response to its request was read -/
  | answered (r : Request) (resp : Frame)
  /-- start a worker -/
  | launching
  /-- store the pid of the new worker -/
  | forked (p : ProcId)
  /-- put the new worker into the slot -/
  | starting (p : ProcId)
  /-- clear the pid of the worker that was taken out of the slot -/
  | emptied
  /-- exit, as the new worker failed -/
  | failing
  deriving DecidableEq, Repr

/-- What the books say about a thread. -/
inductive Desk where
  /-- neither counted nor holding the mutex; the response that its `request` returned, if any -/
  | out (resp : Option (Request × Frame))
  /-- admitted and not counted yet -/
  | admitted
  /-- counted by `waiting_count` -/
  | waiting
  /-- counted, and about to swap out the pid for a stale request -/
  | checked (stale : CurrentRequest)
  /-- counted, with the pid that was swapped out for a stale request -/
  | aiming (stale : CurrentRequest) (pid : UInt32)
  /-- about to send `SIGKILL` -/
  | killer (stale : CurrentRequest) (pid : UInt32)
  /-- counted and holding the mutex -/
  | entering
  /-- holding the mutex, with the request whose tracker it has -/
  | held (tracker : Option Request) (task : Task)
  /-- about to take the worker out of the slot, without the mutex so far -/
  | due (r : Request)
  /-- about to clear the pid of the worker it took, without the mutex -/
  | taken
  deriving DecidableEq, Repr

namespace Desk

/-- `waiting_count` counts the thread. -/
def counted : Desk → Bool
  | waiting | checked _ | aiming _ _ | entering => true
  | _ => false

def isAdmitted : Desk → Bool
  | admitted => true
  | _ => false

/-- The thread holds the `proc` mutex. -/
def holds : Desk → Bool
  | entering | held _ _ => true
  | _ => false

end Desk

/-- The request whose tracker the caller of `spawn_ready` has. -/
def SpawnFor.tracker : SpawnFor → Option Request
  | .missing r | .exited r => some r
  | .ensure | .restart _ => none

def Pc.desk : Pc → Desk
  | .ensureCheck | .ensureUnlock _ => .held none .idle
  | .ensureStorePid => .held none .launching
  | .spawn k .launch => .held k.tracker .launching
  | .spawn k (.storePid p) => .held k.tracker (.forked p)
  | .spawn k (.probing p _ _) | .spawn k (.ready p) | .install k p => .held k.tracker (.starting p)
  | .spawn k .failed => .held k.tracker .failing
  | .trackWait _ => .admitted
  | .lockWait _ _ _ | .countLockTimeout _ | .recover _ | .recordLockError _ _
  | .leaveWait _ _ => .waiting
  | .swapPid _ stale => .checked stale
  | .countKill _ stale pid | .recordKill _ stale pid => .aiming stale pid
  | .dropWait _ => .entering
  | .trackRequest _ => .held none .idle
  | .inspect r | .tryWait r | .begin r => .held (some r) .idle
  | .exchange r _ _ | .countTimeout r _ | .abandon r _ .take => .held (some r) .asked
  | .compare r resp | .resetFailures r resp => .held (some r) (.answered r resp)
  | .abandon r _ (.storePid _) => .held (some r) .emptied
  | .abandon r _ _ => .held (some r) .idle
  | .untrack r (.ok resp) => .held (some r) (.answered r resp)
  | .untrack r (.error _) => .held (some r) .idle
  | .unlock r (.ok resp) => .held none (.answered r resp)
  | .unlock _ (.error _) => .held none .idle
  | .returned r (.ok resp) => .out (some (r, resp))
  | .restart r .take => .due r
  | .restart _ (.storePid _) => .taken
  | .restart _ .unlock => .held none .idle
  | .killer stale pid => .killer stale pid
  | _ => .out none

/-- What the bookkeeping is about. -/
structure Books where
  lock : Option CallId
  waitingCount : UInt32
  startupFailures : UInt32
  exited : Bool
  current : Option CurrentRequest
  pid : UInt32
  slot : Option ProcId
  /-- the id of each process, and whether it was waited for -/
  procs : List (UInt32 × Bool)
  desks : List Desk

namespace Books

/-- Thread `t` is now at the desk `d`. -/
def setDesk (b : Books) (t : CallId) (d : Desk) : Books := { b with desks := b.desks.set t d }

/-- Process `p` was waited for. -/
def reap (b : Books) (p : ProcId) : Books :=
  { b with procs := b.procs.modify p fun q => (q.1, true) }

theorem setDesk_same {b : Books} {t : CallId} {d : Desk} (h : b.desks[t]? = some d) :
    b.setDesk t d = b := by
  have hset : b.desks.set t d = b.desks := by
    refine List.ext_getElem? fun u => ?_
    rw [List.getElem?_set]
    split_ifs with htu hlt
    · rw [← htu, h]
    · rw [← htu, List.getElem?_eq_none (Nat.not_lt.mp hlt)]
    · rfl
  rw [setDesk, hset]

end Books

namespace System

def books (s : System) : Books where
  lock := s.lock
  waitingCount := s.worker.waitingCount
  startupFailures := s.worker.startupFailures
  exited := s.exited
  current := s.worker.state.current
  pid := s.worker.pid
  slot := s.worker.proc
  procs := s.procs.map fun q => (q.pid, q.reaped)
  desks := s.threads.map Pc.desk

end System

/-- `decrypt_batch` calls `restart_after_delay` after the response `resp` to `r`. -/
def Config.wantsRestart (c : Config) (r : Request) (resp : Frame) : Bool :=
  r.batch && resp.flags &&& 1 != 1 && c.restartRequested resp

/-- From where the mutex can be locked, and what for. -/
inductive Locks : Desk → Desk → Prop
  | ensure : Locks (.out none) (.held none .idle)
  | restart : Locks (.out none) (.held none .launching)
  | request : Locks .waiting .entering

/-- What a step does to the books. -/
inductive BookStep (c : Config) (s : System) : Act → Books → Prop
  | quiet {act} : BookStep c s act s.books
  | start {act} : BookStep c s act { s.books with desks := s.books.desks ++ [.out none] }
  | pass {t r} : s.threads[t]? = some (.admission r) → s.worker.waitingCount < c.maxWaiters →
      BookStep c s (.run t) (s.books.setDesk t .admitted)
  | enter {t} : s.books.desks[t]? = some .admitted → BookStep c s (.run t)
      { s.books.setDesk t .waiting with waitingCount := s.books.waitingCount + 1 }
  | leave {t} : s.books.desks[t]? = some .waiting → BookStep c s (.run t)
      { s.books.setDesk t (.out none) with waitingCount := s.books.waitingCount - 1 }
  | dropWait {t} : s.books.desks[t]? = some .entering → BookStep c s (.run t)
      { s.books.setDesk t (.held none .idle) with waitingCount := s.books.waitingCount - 1 }
  | lock {t d d'} : s.books.lock = none → s.books.desks[t]? = some d → Locks d d' →
      BookStep c s (.run t) { s.books.setDesk t d' with lock := some t }
  | unlock {t} : s.books.desks[t]? = some (.held none .idle) →
      BookStep c s (.run t) { s.books.setDesk t (.out none) with lock := none }
  | unlockAnswered {t r resp} : s.books.desks[t]? = some (.held none (.answered r resp)) →
      BookStep c s (.run t) { s.books.setDesk t (.out (some (r, resp))) with lock := none }
  | track {t r} : s.books.desks[t]? = some (.held none .idle) → BookStep c s (.run t)
      { s.books.setDesk t (.held (some r) .idle) with current := some ⟨r.id, r.opcode, s.now⟩ }
  | untrack {t r task} : s.books.desks[t]? = some (.held (some r) task) → BookStep c s (.run t)
      { s.books.setDesk t (.held none task) with
        current := if s.books.current.map CurrentRequest.id = some r.id then none
          else s.books.current }
  | vacant {t tr} : s.books.desks[t]? = some (.held tr .idle) → s.books.slot = none →
      BookStep c s (.run t) (s.books.setDesk t (.held tr .launching))
  | exited {t tr p} : s.books.desks[t]? = some (.held tr .idle) → s.books.slot = some p →
      BookStep c s (.run t) ((s.books.setDesk t (.held tr .launching)).reap p)
  | clear {t tr} : s.books.desks[t]? = some (.held tr .launching) →
      BookStep c s (.run t) { s.books with pid := 0 }
  | launch {t tr pid} : s.books.desks[t]? = some (.held tr .launching) → pid ≠ 0 →
      (∀ q ∈ s.books.procs, q.1 = pid → q.2 = true) → BookStep c s (.launch t pid)
        { s.books.setDesk t (.held tr (.forked s.books.procs.length)) with
          procs := s.books.procs ++ [(pid, false)] }
  | store {t k p q} : s.threads[t]? = some (.spawn k (.storePid p)) →
      s.books.desks[t]? = some (.held k.tracker (.forked p)) → s.books.procs[p]? = some q →
      BookStep c s (.run t) { s.books.setDesk t (.held k.tracker (.starting p)) with pid := q.1 }
  | fail {act t tr p} : s.books.desks[t]? = some (.held tr (.starting p)) →
      BookStep c s act (s.books.setDesk t (.held tr .failing))
  | exit {t tr} : s.books.desks[t]? = some (.held tr .failing) →
      BookStep c s (.run t) { s.books with pid := 0, exited := true }
  | abort {t tr} : s.books.desks[t]? = some (.held tr .launching) →
      BookStep c s (.launchFails t) { s.books with exited := true }
  | reset {t} : BookStep c s (.run t) { s.books with startupFailures := 0 }
  | install {t k p} : s.threads[t]? = some (.install k p) →
      s.books.desks[t]? = some (.held k.tracker (.starting p)) →
      BookStep c s (.run t) { s.books.setDesk t (.held k.tracker .idle) with slot := some p }
  | ask {t r} : s.threads[t]? = some (.begin r) →
      s.books.desks[t]? = some (.held (some r) .idle) →
      BookStep c s (.run t) (s.books.setDesk t (.held (some r) .asked))
  | answer {t a r p x q l resp} : s.threads[t]? = some (.exchange r p x) →
      s.books.desks[t]? = some (.held (some r) .asked) → s.procs[p]? = some q →
      x.step r.deadline s.now q.link a = some (l, .frame resp) →
      BookStep c s (.io t a) (s.books.setDesk t (.held (some r) (.answered r resp)))
  | discard {t r resp} : s.books.desks[t]? = some (.held (some r) (.answered r resp)) →
      BookStep c s (.run t) (s.books.setDesk t (.held (some r) .asked))
  | empty {t r a} : s.threads[t]? = some (.abandon r a .take) →
      s.books.desks[t]? = some (.held (some r) .asked) →
      BookStep c s (.run t) { s.books.setDesk t (.held (some r) .emptied) with slot := none }
  | clearEmptied {t tr} : s.books.desks[t]? = some (.held tr .emptied) →
      BookStep c s (.run t) { s.books.setDesk t (.held tr .idle) with pid := 0 }
  | due {t r resp} : s.books.desks[t]? = some (.out (some (r, resp))) →
      c.wantsRestart r resp = true → BookStep c s (.run t) (s.books.setDesk t (.due r))
  | dismiss {act t r} : s.books.desks[t]? = some (.due r) →
      BookStep c s act (s.books.setDesk t (.out none))
  | take {t r} : s.threads[t]? = some (.restart r .take) →
      s.books.desks[t]? = some (.due r) → s.books.lock = none →
      BookStep c s (.run t) { s.books.setDesk t .taken with slot := none }
  | clearTaken {t r old} : s.threads[t]? = some (.restart r (.storePid old)) →
      s.books.desks[t]? = some .taken →
      BookStep c s (.run t) { s.books.setDesk t (.out none) with pid := 0 }
  | check {t r stale} : s.threads[t]? = some (.recover r) →
      s.worker.stuck c s.now = some stale → s.books.desks[t]? = some .waiting →
      BookStep c s (.run t) (s.books.setDesk t (.checked stale))
  | miss {t stale} : s.books.desks[t]? = some (.checked stale) →
      BookStep c s (.run t) (s.books.setDesk t .waiting)
  | aim {t r stale} : s.threads[t]? = some (.swapPid r stale) →
      s.books.desks[t]? = some (.checked stale) → s.books.pid ≠ 0 → BookStep c s (.run t)
        { s.books.setDesk t (.aiming stale s.books.pid) with pid := 0 }
  | dispatch {t stale pid} : s.books.desks[t]? = some (.aiming stale pid) → BookStep c s (.run t)
      { s.books with desks := s.books.desks.set t .waiting ++ [.killer stale pid] }
  | killed {t stale pid} : s.books.desks[t]? = some (.killer stale pid) →
      BookStep c s (.run t) (s.books.setDesk t (.out none))
  | reaped {t p} : BookStep c s (.run t) (s.books.reap p)

namespace System

variable {c : Config} {s s' : System} {t : CallId} {pc pc' : Pc} {w : Worker} {p : ProcId}
  {q : Process}

theorem desk_of_getElem? (h : s.threads[t]? = some pc) : s.books.desks[t]? = some pc.desk := by
  rw [books, List.getElem?_map, h]
  rfl

theorem proc_of_getElem? (h : s.procs[p]? = some q) :
    s.books.procs[p]? = some (q.pid, q.reaped) := by
  rw [books, List.getElem?_map, h]
  rfl

theorem books_move : (s.move t pc').books = s.books.setDesk t pc'.desk := by
  simp [books, move, Books.setDesk, List.map_set]

theorem books_put : (s.put t w pc').books = { s.books.setDesk t pc'.desk with
    waitingCount := w.waitingCount, startupFailures := w.startupFailures,
    current := w.state.current, pid := w.pid, slot := w.proc } := by
  simp [books, put, move, Books.setDesk, List.map_set]

theorem books_untrack (id : UInt32) : (s.put t (s.worker.dropRequestTracker id) pc').books =
    { s.books.setDesk t pc'.desk with
      current := if s.books.current.map CurrentRequest.id = some id then none
        else s.books.current } := by
  rw [books_put]
  unfold Worker.dropRequestTracker
  by_cases hid : s.worker.state.current.map CurrentRequest.id = some id
  · rw [if_pos hid, if_pos (show s.books.current.map CurrentRequest.id = some id from hid)]
    rfl
  · rw [if_neg hid, if_neg (show ¬ s.books.current.map CurrentRequest.id = some id from hid)]
    rfl

theorem books_acquire :
    (s.acquire t pc').books = { s.books.setDesk t pc'.desk with lock := some t } := by
  simp [books, acquire, move, Books.setDesk, List.map_set]

theorem books_release :
    (s.release t pc').books = { s.books.setDesk t pc'.desk with lock := none } := by
  simp [books, release, move, Books.setDesk, List.map_set]

theorem books_start :
    (s.start pc').books = { s.books with desks := s.books.desks ++ [pc'.desk] } := by
  simp [books, start]

theorem books_setProc {f : Process → Process} (hpid : ∀ q, (f q).pid = q.pid)
    (hreaped : ∀ q, (f q).reaped = q.reaped) : (s.setProc p f).books = s.books := by
  have hprocs : (s.procs.modify p f).map (fun q => (q.pid, q.reaped)) =
      s.procs.map fun q => (q.pid, q.reaped) := by
    refine List.ext_getElem? fun i => ?_
    rw [List.getElem?_map, List.getElem?_map, List.getElem?_modify]
    cases s.procs[i]? with
    | none => rfl
    | some q =>
      by_cases hi : p = i
      · simp [hi, hpid, hreaped]
      · simp [hi]
  rw [books, books, setProc, hprocs]

theorem books_reap : (s.reap p).books = s.books.reap p := by
  have hprocs : (s.procs.modify p fun q => { q with reaped := true }).map
      (fun q => (q.pid, q.reaped)) =
      (s.procs.map fun q => (q.pid, q.reaped)).modify p fun q => (q.1, true) := by
    refine List.ext_getElem? fun i => ?_
    rw [List.getElem?_map, List.getElem?_modify, List.getElem?_modify, List.getElem?_map]
    cases s.procs[i]? with
    | none => rfl
    | some q => by_cases hi : p = i <;> simp [hi]
  rw [books, reap, setProc, hprocs]
  rfl

theorem books_setLink (l : Pipes) : (s.setLink p l).books = s.books :=
  books_setProc (fun _ => rfl) fun _ => rfl

theorem books_killProc : (s.killProc p).books = s.books :=
  books_setProc (fun _ => rfl) fun _ => rfl

theorem books_killPid (pid : UInt32) : (s.killPid pid).books = s.books := by
  unfold killPid
  split
  · exact books_killProc
  · rfl

theorem books_fork (pid : UInt32) :
    (s.fork pid).books = { s.books with procs := s.books.procs ++ [(pid, false)] } := by
  simp [books, fork]

/-! ### Steps -/

/-- The thread stays at its desk. -/
theorem book_move {act : Act} (h : s.threads[t]? = some pc) (hd : pc'.desk = pc.desk) :
    BookStep c s act (s.move t pc').books := by
  rw [books_move, hd, Books.setDesk_same (desk_of_getElem? h)]
  exact .quiet

/-- The thread stays at its desk and changes nothing that is in the books. -/
theorem book_put {act : Act} (h : s.threads[t]? = some pc) (hd : pc'.desk = pc.desk)
    (hcount : w.waitingCount = s.worker.waitingCount)
    (hfailures : w.startupFailures = s.worker.startupFailures)
    (hcurrent : w.state.current = s.worker.state.current) (hpid : w.pid = s.worker.pid)
    (hproc : w.proc = s.worker.proc) : BookStep c s act (s.put t w pc').books := by
  rw [books_put, hd, Books.setDesk_same (desk_of_getElem? h), hcount, hfailures,
    hcurrent, hpid, hproc]
  exact .quiet

theorem book_reset (h : s.threads[t]? = some pc) (hd : pc'.desk = pc.desk) :
    BookStep c s (.run t) (s.put t s.worker.resetFailures pc').books := by
  rw [books_put, hd, Books.setDesk_same (desk_of_getElem? h)]
  exact .reset

/-- The same in a system whose processes have come further. -/
theorem book_move_of_books {act : Act} {s₁ : System} (hs : s₁.books = s.books)
    (h : s.threads[t]? = some pc) (hd : pc'.desk = pc.desk) :
    BookStep c s act (s₁.move t pc').books := by
  rw [books_move, hd, hs, Books.setDesk_same (desk_of_getElem? h)]
  exact .quiet

theorem book_cleanup {act : Act} {old : Option ProcId} (h : s.threads[t]? = some pc)
    (hd : pc'.desk = pc.desk) : BookStep c s act ((s.move t pc').cleanup old).books := by
  cases old with
  | none => exact book_move h hd
  | some p =>
    rw [cleanup, books_start, books_move, hd, Books.setDesk_same (desk_of_getElem? h)]
    exact .start

theorem book_runAbandon {r : Request} {a : Abandon} {apc : AbandonPc}
    (ht : s.threads[t]? = some (.abandon r a apc)) :
    BookStep c s (.run t) (s.runAbandon t r a apc).books := by
  have hd := desk_of_getElem? ht
  cases apc with
  | take =>
    rw [runAbandon, takeProc, books_put]
    exact .empty ht hd
  | storePid old =>
    rw [runAbandon, books_put]
    exact .clearEmptied hd
  | cleanup old =>
    rw [runAbandon]
    exact book_cleanup ht rfl
  | count =>
    exact book_put ht rfl rfl rfl rfl rfl rfl
  | reason =>
    exact book_put ht rfl rfl rfl rfl rfl rfl
  | recordError =>
    exact book_put ht rfl rfl rfl rfl rfl rfl

theorem book_runRestart {r : Request} {rpc : RestartPc}
    (ht : s.threads[t]? = some (.restart r rpc)) (h : s.runRestart t r rpc = some s') :
    BookStep c s (.run t) s'.books := by
  have hd := desk_of_getElem? ht
  cases rpc with
  | take =>
    simp only [runRestart] at h
    split_ifs at h with hl
    obtain rfl := Option.some.inj h
    rw [takeProc, books_put]
    exact .take ht hd hl
  | storePid old =>
    obtain rfl := Option.some.inj h
    rw [books_put]
    exact .clearTaken ht hd
  | cleanup old =>
    obtain rfl := Option.some.inj h
    exact book_cleanup ht rfl
  | count =>
    obtain rfl := Option.some.inj h
    exact book_put ht rfl rfl rfl rfl rfl rfl
  | reason =>
    obtain rfl := Option.some.inj h
    exact book_put ht rfl rfl rfl rfl rfl rfl
  | sleep wake =>
    simp only [runRestart] at h
    split_ifs at h
    obtain rfl := Option.some.inj h
    exact book_move ht rfl
  | relock =>
    simp only [runRestart] at h
    split_ifs at h with hl hslot
    · obtain rfl := Option.some.inj h
      exact book_move ht rfl
    · obtain rfl := Option.some.inj h
      rw [books_acquire]
      exact .lock hl hd .restart
  | unlock =>
    obtain rfl := Option.some.inj h
    rw [books_release]
    exact .unlock hd

theorem book_runPc (ht : s.threads[t]? = some pc) (h : s.runPc c t pc = some s') :
    BookStep c s (.run t) s'.books := by
  have hd := desk_of_getElem? ht
  cases pc with
  | ensureLock =>
    simp only [runPc] at h
    split_ifs at h with hl
    obtain rfl := Option.some.inj h
    rw [books_acquire]
    exact .lock hl hd .ensure
  | ensureCheck =>
    simp only [runPc] at h
    split at h
    · rename_i hslot
      obtain rfl := Option.some.inj h
      rw [books_move]
      exact .vacant hd hslot
    · rename_i p hslot
      split at h
      · cases h
      · split_ifs at h
        · obtain rfl := Option.some.inj h
          exact book_move ht rfl
        · obtain rfl := Option.some.inj h
          rw [books_move, books_reap]
          exact .exited hd hslot
  | ensureStorePid =>
    obtain rfl := Option.some.inj h
    have hsame := Books.setDesk_same hd
    rw [books_put]
    exact hsame.symm ▸ .clear hd
  | ensureUnlock result =>
    obtain rfl := Option.some.inj h
    rw [books_release]
    exact .unlock hd
  | ensureReturned result => cases h
  | spawn k spc =>
    cases spc with
    | launch => cases h
    | storePid p =>
      simp only [runPc] at h
      split at h
      · cases h
      · rename_i q hq
        obtain rfl := Option.some.inj h
        rw [books_put, books_setLink]
        exact .store ht hd (proc_of_getElem? hq)
    | probing p deadline x => cases h
    | ready p =>
      obtain rfl := Option.some.inj h
      exact book_reset ht rfl
    | failed =>
      obtain rfl := Option.some.inj h
      exact .exit hd
  | install k p =>
    obtain rfl := Option.some.inj h
    have hafter : (afterInstall k).desk = .held k.tracker .idle := by cases k <;> rfl
    rw [books_put, hafter]
    exact .install ht hd
  | admission r =>
    obtain rfl := Option.some.inj h
    by_cases hw : c.maxWaiters ≤ s.worker.waitingCount
    · rw [if_pos hw]
      exact book_move ht rfl
    · rw [if_neg hw, books_move]
      exact .pass ht (UInt32.not_le.mp hw)
  | rejected r =>
    obtain rfl := Option.some.inj h
    exact book_move ht rfl
  | trackWait r =>
    obtain rfl := Option.some.inj h
    rw [books_put]
    exact .enter hd
  | lockWait r lockDeadline wake =>
    simp only [runPc] at h
    split_ifs at h with hw hl hdl
    · obtain rfl := Option.some.inj h
      rw [books_acquire]
      exact .lock hl hd .request
    · obtain rfl := Option.some.inj h
      exact book_move ht rfl
    · obtain rfl := Option.some.inj h
      exact book_move ht rfl
  | countLockTimeout r =>
    obtain rfl := Option.some.inj h
    exact book_put ht rfl rfl rfl rfl rfl rfl
  | recover r =>
    simp only [runPc] at h
    split at h
    · rename_i stale hstuck
      obtain rfl := Option.some.inj h
      rw [books_move]
      exact .check ht hstuck hd
    · obtain rfl := Option.some.inj h
      exact book_move ht rfl
  | swapPid r stale =>
    obtain rfl := Option.some.inj h
    by_cases hpid : s.worker.pid = 0
    · have hsame : s.worker.storePid 0 = s.worker := by
        rw [Worker.storePid, ← hpid]
      rw [if_pos hpid, hsame, books_put]
      exact .miss hd
    · rw [if_neg hpid, books_put]
      exact .aim ht hd hpid
  | countKill r stale pid =>
    obtain rfl := Option.some.inj h
    exact book_put ht rfl rfl rfl rfl rfl rfl
  | recordKill r stale pid =>
    obtain rfl := Option.some.inj h
    rw [books_start, books_put]
    exact .dispatch hd
  | recordLockError r e =>
    obtain rfl := Option.some.inj h
    exact book_put ht rfl rfl rfl rfl rfl rfl
  | leaveWait r e =>
    obtain rfl := Option.some.inj h
    rw [books_put]
    exact .leave hd
  | dropWait r =>
    obtain rfl := Option.some.inj h
    rw [books_put]
    exact .dropWait hd
  | trackRequest r =>
    obtain rfl := Option.some.inj h
    rw [books_put]
    exact .track hd
  | inspect r =>
    obtain rfl := Option.some.inj h
    by_cases hslot : s.worker.proc = none
    · rw [if_pos (by rw [hslot]; rfl), books_move]
      exact .vacant hd hslot
    · rw [if_neg (by simpa using hslot)]
      exact book_move ht rfl
  | tryWait r =>
    simp only [runPc] at h
    split at h
    · obtain rfl := Option.some.inj h
      exact book_move ht rfl
    · rename_i p hslot
      split at h
      · cases h
      · split_ifs at h
        · obtain rfl := Option.some.inj h
          exact book_move ht rfl
        · obtain rfl := Option.some.inj h
          rw [books_move, books_reap]
          exact .exited hd hslot
  | begin r =>
    simp only [runPc] at h
    split at h
    · obtain rfl := Option.some.inj h
      exact book_move ht rfl
    · rename_i p hslot
      split at h
      · obtain rfl := Option.some.inj h
        rw [books_move, books_setLink]
        exact .ask ht hd
      · obtain rfl := Option.some.inj h
        rw [books_move]
        exact .ask ht hd
      · cases h
  | exchange r p x => cases h
  | compare r resp =>
    obtain rfl := Option.some.inj h
    by_cases hm : resp.kind ≠ kindResponse ∨ resp.requestId ≠ r.id ∨ resp.opcode ≠ r.opcode
    · rw [if_pos hm, books_move]
      exact .discard hd
    · rw [if_neg hm]
      exact book_move ht rfl
  | countTimeout r a =>
    obtain rfl := Option.some.inj h
    exact book_put ht rfl rfl rfl rfl rfl rfl
  | abandon r a apc =>
    obtain rfl := Option.some.inj h
    exact book_runAbandon ht
  | resetFailures r resp =>
    obtain rfl := Option.some.inj h
    exact book_reset ht rfl
  | untrack r result =>
    obtain rfl := Option.some.inj h
    rw [books_untrack]
    cases result with
    | error e => exact .untrack hd
    | ok resp => exact .untrack hd
  | unlock r result =>
    obtain rfl := Option.some.inj h
    rw [books_release]
    cases result with
    | error e => exact .unlock hd
    | ok resp => exact .unlockAnswered hd
  | returned r result =>
    cases result with
    | error e => cases h
    | ok resp =>
      simp only [runPc] at h
      split_ifs at h with hr
      obtain rfl := Option.some.inj h
      rw [books_move]
      have hwants : c.wantsRestart r resp = true := by
        simp [Config.wantsRestart, hr.1, hr.2.1, hr.2.2]
      exact .due hd hwants
  | restart r rpc => exact book_runRestart ht h
  | cleaner p killed =>
    cases killed with
    | false =>
      obtain rfl := Option.some.inj h
      exact book_move_of_books books_killProc ht rfl
    | true =>
      simp only [runPc] at h
      split at h
      · cases h
      · split_ifs at h
        obtain rfl := Option.some.inj h
        rw [books_move, books_reap, show Pc.desk .done = Pc.desk (.cleaner p true) from rfl,
          Books.setDesk_same (b := s.books.reap p) hd]
        exact .reaped
  | killer stale pid =>
    obtain rfl := Option.some.inj h
    rw [books_move, books_killPid]
    exact .killed hd
  | done => cases h

theorem book_runIo {a : IoAct} (ht : s.threads[t]? = some pc) (h : s.runIo t a pc = some s') :
    BookStep c s (.io t a) s'.books := by
  have hd := desk_of_getElem? ht
  unfold runIo at h
  split at h
  · rename_i r p x
    split at h
    · cases h
    · split at h
      · cases h
      · rename_i l result hstep
        obtain rfl := Option.some.inj h
        have hb := books_setLink (s := s) (p := p) l
        cases result with
        | more x' =>
          exact book_move_of_books hb ht rfl
        | frame resp =>
          rw [books_move, hb]
          exact .answer ht hd ‹_› hstep
        | failed kind message =>
          have hfail : (afterExchange r p x (.failed kind message)).desk =
              (Pc.exchange r p x).desk := by cases kind <;> cases x <;> rfl
          exact book_move_of_books hb ht hfail
  · rename_i k p deadline x
    split at h
    · cases h
    · split at h
      · cases h
      · rename_i l result hstep
        obtain rfl := Option.some.inj h
        have hb := books_setLink (s := s) (p := p) l
        cases result with
        | more x' =>
          exact book_move_of_books hb ht rfl
        | frame resp =>
          rw [afterProbe]
          split_ifs
          · rw [books_move, hb]
            exact .fail hd
          · exact book_move_of_books hb ht rfl
        | failed kind message =>
          rw [books_move, hb]
          exact .fail hd
  · cases h

/-- Every step is one of the cases of `BookStep`. -/
theorem book_step {act : Act} (h : s.step c act = some s') : BookStep c s act s'.books := by
  unfold step at h
  split_ifs at h
  cases act with
  | ensureStarted =>
    obtain rfl := Option.some.inj h
    rw [books_start]
    exact .start
  | request opcode payload =>
    obtain rfl := Option.some.inj h
    rw [call, books_start]
    exact .start
  | decryptBatch payload =>
    obtain rfl := Option.some.inj h
    rw [call, books_start]
    exact .start
  | run t =>
    obtain ⟨pc, ht, hf⟩ := withThread_eq_some h
    exact book_runPc ht hf
  | poisoned t =>
    obtain ⟨pc, ht, hf⟩ := withThread_eq_some h
    obtain ⟨pc', hpc', rfl⟩ := Option.map_eq_some_iff.mp hf
    have hd := desk_of_getElem? ht
    unfold poison at hpc'
    split at hpc'
    · cases hpc'
      exact book_move ht rfl
    · cases hpc'
      exact book_move ht rfl
    · cases hpc'
      rw [books_move]
      exact .dismiss hd
    · cases hpc'
      exact book_move ht rfl
    · cases hpc'
  | tryWaitFails t message =>
    obtain ⟨pc, ht, hf⟩ := withThread_eq_some h
    split at hf
    · obtain rfl := Option.some.inj hf
      exact book_move ht rfl
    · obtain rfl := Option.some.inj hf
      exact book_move ht rfl
    · cases hf
  | launch t pid =>
    obtain ⟨pc, ht, hf⟩ := withThread_eq_some h
    split at hf
    · split_ifs at hf with hpid
      obtain rfl := Option.some.inj hf
      have hlen : s.books.procs.length = s.procs.length := List.length_map ..
      obtain ⟨hne, hfree⟩ := not_or.mp hpid
      rw [books_move, books_fork, ← hlen]
      refine .launch (desk_of_getElem? ht) hne fun q hq hqpid => ?_
      obtain ⟨q', hq', rfl⟩ := List.mem_map.mp hq
      exact eq_true_of_ne_false fun hr => hfree ⟨q', hq', hqpid, hr⟩
    · cases hf
  | launchFails t =>
    obtain ⟨pc, ht, hf⟩ := withThread_eq_some h
    split at hf
    · obtain rfl := Option.some.inj hf
      exact .abort (desk_of_getElem? ht)
    · cases hf
  | io t a =>
    obtain ⟨pc, ht, hf⟩ := withThread_eq_some h
    exact book_runIo ht hf
  | serve p answer =>
    dsimp only at h
    split_ifs at h
    obtain ⟨q, hq, hf⟩ := withProc_eq_some h
    obtain ⟨l, hl, rfl⟩ := Option.map_eq_some_iff.mp hf
    rw [books_setLink]
    exact .quiet
  | emit p n =>
    obtain ⟨q, hq, hf⟩ := withProc_eq_some h
    split_ifs at hf
    obtain rfl := Option.some.inj hf
    rw [books_setLink]
    exact .quiet
  | exit p =>
    obtain ⟨q, hq, hf⟩ := withProc_eq_some h
    obtain rfl := Option.some.inj hf
    rw [books_killProc]
    exact .quiet
  | tick d =>
    obtain rfl := Option.some.inj h
    exact .quiet

end System

end Supervisor

end WrapperPaas
