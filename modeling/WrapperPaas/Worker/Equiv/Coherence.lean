/-
  The cached pid and the worker in the slot.

  `Selected` is the history of the processes that `recover_stuck_worker_or_exit` has chosen to kill.
  The pid names the worker in the slot whenever the mutex is free (`PidCoherent`), as long as
  `restart_after_delay`, which writes slot and pid apart and the pid without the mutex, finds no pid
  to erase (`RestartQuiet`).
-/
import Mathlib.Data.List.Basic
import WrapperPaas.Worker.Equiv.Places
import WrapperPaas.Worker.Equiv.Synchrony

namespace WrapperPaas

namespace Supervisor

/-! ### The history -/

/-- The processes that were selected for killing. -/
abbrev Selected := List ProcId

/-- The processes that have the pid that is stored. -/
def System.named (s : System) : List ProcId :=
  (List.range s.procs.length).filter fun p => s.procs[p]?.map Process.pid = some s.worker.pid

/-- `recover_stuck_worker_or_exit` selects the processes whose pid it swaps out. -/
def noteSelected (selected : Selected) (s : System) : Act → Selected
  | .run t =>
    match s.threads[t]? with
    | some (.swapPid _ _) => selected ++ s.named
    | _ => selected
  | _ => selected

theorem mem_named {s : System} {p : ProcId} (h : s.books.ids[p]? = some s.worker.pid) :
    p ∈ s.named := by
  obtain ⟨q, hq, hpid⟩ := System.exists_proc h
  have hlt := (List.getElem?_eq_some_iff.mp hq).1
  apply List.mem_filter.mpr
  simp only [List.mem_range, hq]
  simp [hlt, hpid]

theorem subset_noteSelected (selected : Selected) (s : System) (act : Act) :
    selected ⊆ noteSelected selected s act := by
  cases act with
  | run t =>
    simp only [noteSelected]
    split
    · exact List.subset_append_left ..
    · exact List.Subset.refl _
  | _ => exact List.Subset.refl _

/-- `workerMachine` with the history of the selected processes. -/
def selectingMachine (c : Config) : Machine (System × Selected) Act :=
  (workerMachine c).record [] noteSelected

/-! ### The claim -/

/-- The pid is 0 while the slot is empty, and else that of the worker in the slot, unless this was
selected. -/
def namedUnless (selected : Selected) : PidClaim where
  empty pid := pid = 0
  full pid ids p := p ∉ selected → ids[p]? = some pid

/-- The thread is in `restart_after_delay`, before it takes the worker out of the slot. -/
def Pc.takesWorker : Pc → Bool
  | .restart _ .take => true
  | _ => false

/-- The thread is in `restart_after_delay`, before `pid.store(0)`. -/
def Pc.erasesPid : Pc → Bool
  | .restart _ (.storePid _) => true
  | _ => false

/-- `restart_after_delay` takes a worker out of the slot only if its pid was swapped out before, and
erases no pid of a worker that has been started since. -/
def RestartQuiet (s : System) : Act → Prop
  | .run t => (s.threads[t]?.any Pc.takesWorker = true → s.worker.pid = 0) ∧
      (s.threads[t]?.any Pc.erasesPid = true → s.worker.pid = 0 ∨ s.books.launching = true)
  | _ => True

instance : DecidableRel RestartQuiet := fun s act => by
  apply act.casesOn (motive := (Decidable <| RestartQuiet s ·)) <;> intros <;>
    dsimp only [RestartQuiet] <;> infer_instance

/-- A quiet step keeps the claim. -/
theorem named_moves {s : System} {act : Act} {selected : Selected} (h : RestartQuiet s act) :
    (namedUnless selected).Moves (namedUnless (noteSelected selected s act)) s act := by
  have hsel := subset_noteSelected selected s act
  refine ⟨id, fun p hp hn => hp fun hmem => hn (hsel hmem), fun pid p hid _ _ => hid, rfl, ?_, ?_,
    ?_⟩
  · rintro t r stale rfl hpc p hp hn
    -- the worker whose pid is swapped out is selected from now on
    have hnamed : s.named ⊆ noteSelected selected s (.run t) := by
      simp [noteSelected, hpc]
    have hid := hp fun hmem => hn (hsel hmem)
    exact absurd (hnamed (mem_named hid)) hn
  · rintro t r rfl hpc
    exact h.1 (by simp [hpc, Pc.takesWorker])
  · rintro t r old rfl hpc
    rcases h.2 (by simp [hpc, Pc.erasesPid]) with hzero | hlaunching
    · refine .inr fun p hp hn => ?_
      have hid := hp fun hmem => hn (hsel hmem)
      rw [hid]
      exact congrArg some hzero
    · exact .inl hlaunching

/-- While the mutex is free, the pid is 0 if the slot is empty, and else that of the worker in the
slot unless it has been selected for killing. -/
def PidCoherent (s : System) (selected : Selected) : Prop :=
  s.lock = none → (s.worker.proc = none → s.worker.pid = 0) ∧
    ∀ p, s.worker.proc = some p → p ∉ selected → ∃ q, s.procs[p]? = some q ∧ s.worker.pid = q.pid

/-- The condition of a run with its history. -/
def recordedRestartQuiet (x : System × Selected) (act : Act) : Prop := RestartQuiet x.1 act

instance : DecidableRel recordedRestartQuiet := fun x act =>
  inferInstanceAs (Decidable (RestartQuiet x.1 act))

/-- **The pid names the worker in the slot.**  It does in every state of a run in which
`restart_after_delay` finds no pid that it would erase. -/
theorem pid_coherent {c : Config} {s : System} {selected : Selected}
    (h : (selectingMachine c).Reach recordedRestartQuiet (s, selected)) :
    PidCoherent s selected := by
  have hplaced : s.books.Placed (namedUnless selected) := by
    have hinit := Books.placed_init (namedUnless []) rfl
    refine h.invariant (P := fun x => x.1.books.Placed (namedUnless x.2)) hinit ?_
    intro x act x' hr hG hst hx
    obtain ⟨hstep, hnote⟩ := Machine.step_record.mp hst
    have htracked := Tracked.reach (Machine.Reach.of_record (G := RestartQuiet) hr)
    rw [hnote]
    exact hx.step htracked (named_moves hG) (System.book_step hstep)
  intro hfree
  have hmeets := hplaced.free hfree
  refine ⟨hmeets.empty, fun p hp hn => ?_⟩
  obtain ⟨q, hq, hpid⟩ := System.exists_proc (hmeets.full p hp hn)
  exact ⟨q, hq, hpid.symm⟩

theorem pid_coherent_firstRequest :
    ∃ x, (selectingMachine defaultConfig).exec recordedRestartQuiet ({}, []) firstRequest = some x ∧
      x.1.worker.pid = 42 ∧ PidCoherent x.1 x.2 := by
  have hend : ((selectingMachine defaultConfig).exec recordedRestartQuiet ({}, [])
      firstRequest).map (fun x => x.1.worker.pid) = some 42 := by
    decide +kernel
  obtain ⟨x, hx, hpid⟩ := Option.map_eq_some_iff.mp hend
  exact ⟨x, hx, hpid, pid_coherent (Machine.reach_of_exec hx)⟩

/-- A supervisor whose worker wants to be restarted after each failed batch. -/
def restartingConfig : Config := { defaultConfig with restartRequested := fun _ => true }

/-- The worker answers a batch with an error and wants to be restarted. -/
def restartWanted : List Act :=
  [.decryptBatch [], .run 0, .run 0, .run 0, .run 0, .run 0, .run 0, .launch 0 42, .run 0,
   .io 0 (.write 20), .serve 0 (frameBytes ⟨2, 0, 1, 0, []⟩), .emit 0 20, .io 0 (.read 20), .run 0,
   .run 0, .run 0, .run 0, .io 0 (.write 20), .serve 0 (frameBytes ⟨2, 1, 7, 0, []⟩), .emit 0 20,
   .io 0 (.read 20), .run 0, .run 0, .run 0, .run 0, .run 0]

/-- `restart_after_delay` takes the worker out of the slot; before it erases the pid, another thread
starts a new worker. -/
def erasedPid : List Act :=
  restartWanted ++
  [.run 0, .ensureStarted, .run 1, .run 1, .launch 1 43, .run 1, .io 1 (.write 20),
   .serve 1 (frameBytes ⟨2, 0, 1, 0, []⟩), .emit 1 20, .io 1 (.read 20), .run 1, .run 1, .run 1,
   .run 0]

/-- The new worker is in the slot and nobody has selected it, but the pid is 0. -/
theorem pid_coherent_fails :
    ¬ ∀ x, (selectingMachine restartingConfig).Reach Machine.anyStep x → PidCoherent x.1 x.2 := by
  intro hall
  have hend : ((selectingMachine restartingConfig).exec Machine.anyStep ({}, []) erasedPid).map
      (fun x => (x.1.lock, x.1.worker.pid, x.1.worker.proc, x.1.procs[1]?.map Process.pid, x.2)) =
      some (none, 0, some 1, some 43, []) := by
    decide +kernel
  obtain ⟨x, hx, hend⟩ := Option.map_eq_some_iff.mp hend
  simp only [Prod.mk.injEq, Option.map_eq_some_iff] at hend
  obtain ⟨hlock, hpid, hslot, ⟨q, hq, hqpid⟩, hsel⟩ := hend
  obtain ⟨-, hfull⟩ := hall x (Machine.reach_of_exec hx) hlock
  obtain ⟨q', hq', hcoherent⟩ := hfull 1 hslot (by simp [hsel])
  rw [hq] at hq'
  obtain rfl := Option.some.inj hq'
  rw [hpid, hqpid] at hcoherent
  exact absurd hcoherent (by decide)

end Supervisor

end WrapperPaas
