/-
  `worker_main` calls through `loader_` and `runtime_` without a lock.

  Both failure exits of a restore reset the two pointers, and nothing else does.  A restore that is
  still harvesting when `logout` makes the account idle can therefore pull them from under the
  worker of the next login (`restoreUnderLogin`).  The pointers are set for as long as a worker uses
  them exactly in the runs in which restores fail only beside no worker (`worker_pointers_set_iff`).
-/
import Mathlib.Data.List.Basic
import WrapperPaas.Account.Equiv.Step

namespace WrapperPaas

open Sys

/-- The thread is in `worker_main`, before its `finish_*` call. -/
def Thread.inWorkerMain : Thread → Bool
  | .worker _ (.failing _ _) => false
  | .worker _ (.publish _) => false
  | .worker _ .done => false
  | .worker _ _ => true
  | _ => false

/-- The condition on a run: a restore takes a failure exit only while no thread is in
`worker_main`. -/
def PointersQuiet (s : Sys) : Act → Prop
  | .restoreFail _ => ∀ th ∈ s.threads, th.inWorkerMain = false
  | _ => True

instance : DecidableRel PointersQuiet := fun s act => by
  apply act.casesOn (motive := (Decidable <| PointersQuiet s ·)) <;> intros <;>
    dsimp only [PointersQuiet] <;> infer_instance

/-- `loader_` and `runtime_` are non-null while a thread is in `worker_main`, and no member of a
null pointer has been called. -/
def PointersSet (s : Sys) : Prop :=
  (∀ th ∈ s.threads, th.inWorkerMain → s.acct.loader.isSome ∧ s.acct.runtime.isSome) ∧
  s.nullDeref = false

theorem mem_of_mem_move {s : Sys} {t : ThreadId} {th x : Thread}
    (h : x ∈ (s.move t th).threads) : x = th ∨ x ∈ s.threads :=
  (List.mem_or_eq_of_mem_set h).symm

theorem mem_of_mem_spawn {s : Sys} {th x : Thread} (h : x ∈ (s.spawn th).threads) :
    x = th ∨ x ∈ s.threads := by
  rcases List.mem_append.mp h with h | h
  · exact .inr h
  · exact .inl (List.mem_singleton.mp h)

/-- A thread that is elsewhere stays where it is when another one moves on. -/
theorem mem_move_of_ne {s : Sys} {t : ThreadId} {th th' x : Thread}
    (ht : s.threads[t]? = some th) (hx : x ∈ s.threads) (hne : x ≠ th) :
    x ∈ (s.move t th').threads := by
  obtain ⟨u, hu⟩ := List.mem_iff_getElem?.mp hx
  refine List.mem_of_getElem? (i := u) ?_
  rw [move, List.getElem?_set_ne, hu]
  rintro rfl
  exact hne (Option.some.inj (hu.symm.trans ht))

/-- A local move does not enter `worker_main`. -/
theorem LocalMove.inWorkerMain {s : Sys} {t : ThreadId} {th th' : Thread} {m : Option ThreadId}
    (h : LocalMove s t th th' m) (hm : th'.inWorkerMain) : th.inWorkerMain := by
  cases h with
  | worker hw => cases hw <;> rfl
  | restore hr => cases hm
  | detach => cases hm

namespace PointersSet

variable {s s' : Sys} {t : ThreadId} {th th' : Thread}

/-- The pointers a worker calls through are set. -/
theorem derefs {a : AttemptId} {pc : WorkerPc} (hs : PointersSet s)
    (hm : Thread.worker a pc ∈ s.threads) : derefs s pc = true := by
  cases pc <;> try rfl
  all_goals
    obtain ⟨hl, hr⟩ := hs.1 _ hm rfl
    simp [WrapperPaas.derefs, hl, hr]

/-- One thread moves on, and the pointers stay. -/
theorem moved (hs : PointersSet s) (ht : s.threads[t]? = some th)
    (hthreads : s'.threads = (s.move t th').threads) (hloader : s'.acct.loader = s.acct.loader)
    (hruntime : s'.acct.runtime = s.acct.runtime) (hnull : s'.nullDeref = s.nullDeref)
    (hmain : th'.inWorkerMain → th.inWorkerMain) : PointersSet s' := by
  refine ⟨fun x hx hxm => ?_, hnull.trans hs.2⟩
  rw [hloader, hruntime]
  rcases mem_of_mem_move (hthreads ▸ hx) with rfl | hx
  · exact hs.1 th (List.mem_of_getElem? ht) (hmain hxm)
  · exact hs.1 x hx hxm

/-- A call creates a thread that is not in `worker_main`. -/
theorem spawned {acct : Account} (hs : PointersSet s) (hloader : acct.loader = s.acct.loader)
    (hruntime : acct.runtime = s.acct.runtime) (hmain : th.inWorkerMain = false) :
    PointersSet ({ s with acct := acct }.spawn th) := by
  refine ⟨fun x hx hxm => ?_, hs.2⟩
  rcases mem_of_mem_spawn hx with rfl | hx
  · rw [hmain] at hxm
    cases hxm
  · change acct.loader.isSome ∧ acct.runtime.isSome
    rw [hloader, hruntime]
    exact hs.1 x hx hxm

theorem step {act : Act} (hG : PointersQuiet s act) (h : s.step act = some s')
    (hs : PointersSet s) : PointersSet s' := by
  cases step_trans h with
  | refused _ => exact hs
  | login hacct =>
    obtain ⟨-, rfl⟩ := Account.startLogin_eq_some hacct
    exact ⟨fun _ _ _ => ⟨rfl, rfl⟩, hs.2⟩
  | submit hacct =>
    obtain ⟨-, rfl⟩ := Account.submit2fa_eq_some hacct
    exact hs
  | raise => exact hs.spawned rfl rfl rfl
  | call _ => exact hs.spawned rfl rfl rfl
  | loc _ ht hm => exact hs.moved ht rfl rfl rfl rfl hm.inWorkerMain
  | nullDeref _ ht hd =>
    rw [hs.derefs (List.mem_of_getElem? ht)] at hd
    cases hd
  | reset ht => exact hs.moved ht rfl rfl rfl rfl fun h => h
  | begin _ hacct =>
    obtain ⟨-, rfl⟩ := Account.restoreBegin_eq_some hacct
    exact ⟨fun _ _ _ => ⟨rfl, rfl⟩, hs.2⟩
  | giveUp _ =>
    -- the exit resets the pointers, so no worker may be there to need them
    refine ⟨fun x hx hxm => ?_, hs.2⟩
    rcases mem_of_mem_move hx with rfl | hx
    · cases hxm
    · exact absurd hxm (Bool.eq_false_iff.mp (hG x hx))
  | restored ht _ _ => exact hs.moved ht rfl rfl rfl rfl fun h => h
  | restorePublish ht => exact hs.moved ht rfl rfl rfl rfl fun h => h
  | park ht _ => exact hs.moved ht rfl rfl rfl rfl fun _ => rfl
  | promptThrough ht _ => exact hs.moved ht rfl rfl rfl rfl fun _ => rfl
  | wake ht _ => exact hs.moved ht rfl rfl rfl rfl fun _ => rfl
  | timeout ht => exact hs.moved ht rfl rfl rfl rfl fun _ => rfl
  | harvested ht _ _ _ => exact hs.moved ht rfl rfl rfl rfl fun _ => rfl
  | fail ht => exact hs.moved ht rfl rfl rfl rfl fun h => by cases h
  | publish ht => exact hs.moved ht rfl rfl rfl rfl fun h => by cases h

theorem init : PointersSet accountMachine.init := ⟨fun _ hm => (by cases hm), rfl⟩

/-- After a failure exit the pointers are set only if no worker needs them. -/
theorem quiet_of_restoreFail (h : s.step (.restoreFail t) = some s') (hs' : PointersSet s') :
    ∀ x ∈ s.threads, x.inWorkerMain = false := by
  obtain ⟨l, r, tr, pc, ht, hf⟩ := restore_eq_some h
  cases pc <;> simp only [Option.some.injEq, reduceCtorEq] at hf
  subst hf
  refine fun x hx => Bool.eq_false_iff.mpr fun hxm => ?_
  -- the thread that takes the exit is none of them
  obtain ⟨hloader, -⟩ := hs'.1 x (mem_move_of_ne ht hx (by rintro rfl; cases hxm)) hxm
  cases hloader

end PointersSet

/-- **No null dereference.**  In all states of a run `loader_` and `runtime_` are non-null while a
thread is in `worker_main`, and none of them has been called through null, if and only if the run
takes the failure exits of restores only while no thread is in `worker_main`. -/
theorem worker_pointers_set_iff {as : List Act} {s : Sys}
    (h : accountMachine.Path Machine.anyStep accountMachine.init as s) :
    (∀ bs t, bs <+: as → accountMachine.Path Machine.anyStep accountMachine.init bs t →
      PointersSet t) ↔ accountMachine.Path PointersQuiet accountMachine.init as s := by
  constructor
  · intro hall
    refine h.restrict fun bs act cs u v has hst hv => ?_
    cases act with
    | restoreFail t =>
      have hpre : bs ++ [Act.restoreFail t] <+: as := ⟨cs, by rw [has]; simp⟩
      exact PointersSet.quiet_of_restoreFail hst (hall _ v hpre hv)
    | _ => trivial
  · rintro hquiet bs t ⟨cs, rfl⟩ ht
    obtain ⟨u, hu, -⟩ := hquiet.split
    obtain rfl := hu.unique ht
    exact hu.preserves (fun _ _ _ hG hst hs => hs.step hG hst) .init

/-- A login whose worker is halfway while another one follows a failed restore. -/
def loginAfterRestore : List Act :=
  [.restoreCall 1 1, .restoreTryLock 0, .restoreChecks 0 true, .restoreGate 0,
   .restoreReqCtx 0 false, .restoreFail 0, .startLogin 1 1 "new@example.com" "secret",
   .workerCheck 1 true true, .workerReqCtx 1 true, .workerBaseDir 1]

theorem worker_pointers_set_iff_loginAfterRestore :
    ∃ s, accountMachine.Path Machine.anyStep accountMachine.init loginAfterRestore s ∧
      PointersSet s := by
  obtain ⟨s, hs⟩ : ∃ s, accountMachine.exec PointersQuiet accountMachine.init loginAfterRestore =
      some s := ⟨_, rfl⟩
  have hany : accountMachine.Path Machine.anyStep accountMachine.init loginAfterRestore s :=
    (Machine.path_of_exec hs).restrict fun _ _ _ _ _ _ _ _ => trivial
  exact ⟨s, hany,
    (worker_pointers_set_iff hany).mpr (Machine.path_of_exec hs) _ s List.prefix_rfl hany⟩

/-- A restore that fails after `logout` has let a login start. -/
def restoreUnderLogin : List Act :=
  [.restoreCall 1 1, .restoreTryLock 0, .restoreChecks 0 true, .restoreGate 0,
   .restoreReqCtx 0 true, .logoutCall, .logoutDetach 1, .logoutReset 1,
   .startLogin 1 1 "new@example.com" "secret", .workerCheck 2 true true,
   .restoreHarvest 0 ⟨"", "", "", "", none⟩ none, .restoreFail 0, .workerReqCtx 2 true]

/-- The worker calls through a null `loader_`. -/
theorem worker_pointers_fail :
    ¬ ∀ s, accountMachine.Reach Machine.anyStep s → PointersSet s := by
  intro hall
  obtain ⟨s, hs⟩ : ∃ s, accountMachine.exec Machine.anyStep accountMachine.init restoreUnderLogin =
      some s := ⟨_, rfl⟩
  obtain ⟨-, hnull⟩ := hall s (Machine.reach_of_exec hs)
  obtain rfl := Option.some.inj hs
  cases hnull

end WrapperPaas
