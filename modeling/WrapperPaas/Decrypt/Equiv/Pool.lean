/-
  `run_all` is a barrier.

  A task is in the queue, or with one worker, or counted off, and `active` is the number of workers
  whose task is started and not counted off (`Counts`).  Between the `pop_front` and the `++active`
  of a worker this does not make `active` the number of tasks that are with a worker, but then the
  worker has the mutex (`Locks`), so that no call tests its condition there.  `Waits` says why a
  thread that sleeps is woken: as long as its condition holds, another thread is on its way to a
  `notify_all`.  `run_all_barrier` is the result.
-/
import WrapperPaas.Decrypt.Pool
import WrapperPaas.Lib.Threads

namespace WrapperPaas.ThreadPool

/-! ### What a step does -/

/-- A step of worker `w`. -/
inductive WorkerMove (s : Pool) (w : Nat) : Pool → Prop
  | lock (hpc : s.worker w = .lock) (hmu : s.mu = none) :
      WorkerMove s w { s.setWorker w .check with mu := some (.worker w) }
  | ready (hpc : s.worker w = .check) (h : s.stop = true ∨ s.queue ≠ []) :
      WorkerMove s w (s.setWorker w .leave)
  | sleep (hpc : s.worker w = .check) (hstop : s.stop = false) (hqueue : s.queue = []) :
      WorkerMove s w { s.setWorker w .asleep with mu := none }
  | exit (hpc : s.worker w = .leave) (hstop : s.stop = true) :
      WorkerMove s w { s.setWorker w .exited with mu := none }
  | stay (hpc : s.worker w = .leave) (h : s.stop = false ∨ s.queue ≠ []) :
      WorkerMove s w (s.setWorker w .take)
  | take {task : PoolTask} {queue : List PoolTask} (hpc : s.worker w = .take)
      (hqueue : s.queue = task :: queue) :
      WorkerMove s w { s.setWorker w (.count task) with queue := queue }
  | count {task : PoolTask} (hpc : s.worker w = .count task) :
      WorkerMove s w { s.setWorker w (.run task) with active := s.active + 1, mu := none }
  | run {task : PoolTask} (hpc : s.worker w = .run task) :
      WorkerMove s w (s.setWorker w (.relock task))
  | relock {task : PoolTask} (hpc : s.worker w = .relock task) (hmu : s.mu = none) :
      WorkerMove s w { s.setWorker w (.uncount task) with mu := some (.worker w) }
  | uncount {task : PoolTask} (hpc : s.worker w = .uncount task) :
      WorkerMove s w { s.setWorker w .notify with active := s.active - 1, mu := none }
  | notify (hpc : s.worker w = .notify) : WorkerMove s w (s.notifyCallers.setWorker w .lock)

/-- A step of call `c`. -/
inductive CallerMove (p : PoolUse) (s : Pool) (c : Nat) : Pool → Prop
  | lock (hpc : s.caller c = .lock) (hmu : s.mu = none) :
      CallerMove p s c { s.setCaller c (.push 0) with mu := some (.caller c) }
  | push {k : Nat} (hpc : s.caller c = .push k) (hk : k < p.tasks c) :
      CallerMove p s c { s.setCaller c (.push (k + 1)) with queue := s.queue ++ [(c, k)] }
  | pushed {k : Nat} (hpc : s.caller c = .push k) (hk : p.tasks c ≤ k) :
      CallerMove p s c { s.setCaller c .notify with mu := none }
  | notify (hpc : s.caller c = .notify) : CallerMove p s c (s.notifyWorkers.setCaller c .relock)
  | relock (hpc : s.caller c = .relock) (hmu : s.mu = none) :
      CallerMove p s c { s.setCaller c .check with mu := some (.caller c) }
  | ret (hpc : s.caller c = .check) (hqueue : s.queue = []) (hactive : s.active = 0) :
      CallerMove p s c { s.setCaller c .returned with mu := none }
  | sleep (hpc : s.caller c = .check) (h : s.queue ≠ [] ∨ s.active ≠ 0) :
      CallerMove p s c { s.setCaller c .asleep with mu := none }

/-- A step of the destructor. -/
inductive DestructorMove (p : PoolUse) (s : Pool) : Pool → Prop
  | lock (hpc : s.destructor = .lock) (hmu : s.mu = none) (h : p.AllReturned s) :
      DestructorMove p s { s with destructor := .stop, mu := some .destructor }
  | stop (hpc : s.destructor = .stop) :
      DestructorMove p s { s with destructor := .notify, stop := true, mu := none }
  | notify (hpc : s.destructor = .notify) :
      DestructorMove p s { s.notifyWorkers with destructor := .join 0 }
  | join {w : Nat} (hpc : s.destructor = .join w) (hw : w < p.n.toNat)
      (h : s.worker w = .exited) : DestructorMove p s { s with destructor := .join (w + 1) }

/-- A step of the pool. -/
inductive Move (p : PoolUse) (s : Pool) : PoolAct → Pool → Prop
  | worker {w : Nat} {s' : Pool} (hw : w < p.n.toNat) (h : WorkerMove s w s') :
      Move p s (.worker w) s'
  | caller {c : Nat} {s' : Pool} (hc : c < p.calls.length) (h : CallerMove p s c s') :
      Move p s (.caller c) s'
  | destructor {s' : Pool} (h : DestructorMove p s s') : Move p s .destructor s'
  | wakeWorker {w : Nat} (hpc : s.worker w = .asleep) :
      Move p s (.wakeWorker w) (s.setWorker w .lock)
  | wakeCaller {c : Nat} (hpc : s.caller c = .asleep) :
      Move p s (.wakeCaller c) (s.setCaller c .relock)

section Moves

variable {p : PoolUse} {s s' : Pool}

theorem workerMove_of_step {w : Nat} (h : s.workerStep w = some s') : WorkerMove s w s' := by
  unfold Pool.workerStep at h
  cases hpc : s.worker w with
  | lock =>
    simp only [hpc] at h
    split_ifs at h with hmu
    obtain rfl := Option.some.inj h
    exact .lock hpc hmu
  | check =>
    simp only [hpc] at h
    split_ifs at h with hcond
    · obtain rfl := Option.some.inj h
      exact .ready hpc (by simpa using hcond)
    · obtain rfl := Option.some.inj h
      simp only [Bool.or_eq_true, Bool.not_eq_true', not_or, Bool.not_eq_true,
        Bool.not_eq_false, List.isEmpty_iff] at hcond
      exact .sleep hpc hcond.1 hcond.2
  | asleep =>
    simp only [hpc] at h
    cases h
  | leave =>
    simp only [hpc] at h
    split_ifs at h with hcond
    · obtain rfl := Option.some.inj h
      rw [Bool.and_eq_true] at hcond
      exact .exit hpc hcond.1
    · obtain rfl := Option.some.inj h
      refine .stay hpc ?_
      rwa [Bool.and_eq_true, not_and_or, Bool.not_eq_true, List.isEmpty_iff] at hcond
  | take =>
    simp only [hpc] at h
    split at h
    · cases h
    · rename_i task queue hqueue
      obtain rfl := Option.some.inj h
      exact .take hpc hqueue
  | count task =>
    simp only [hpc] at h
    obtain rfl := Option.some.inj h
    exact .count hpc
  | run task =>
    simp only [hpc] at h
    obtain rfl := Option.some.inj h
    exact .run hpc
  | relock task =>
    simp only [hpc] at h
    split_ifs at h with hmu
    obtain rfl := Option.some.inj h
    exact .relock hpc hmu
  | uncount task =>
    simp only [hpc] at h
    obtain rfl := Option.some.inj h
    exact .uncount hpc
  | notify =>
    simp only [hpc] at h
    obtain rfl := Option.some.inj h
    exact .notify hpc
  | exited =>
    simp only [hpc] at h
    cases h

theorem callerMove_of_step {c : Nat} (h : p.callerStep s c = some s') : CallerMove p s c s' := by
  unfold PoolUse.callerStep at h
  cases hpc : s.caller c with
  | lock =>
    simp only [hpc] at h
    split_ifs at h with hmu
    obtain rfl := Option.some.inj h
    exact .lock hpc hmu
  | push k =>
    simp only [hpc] at h
    split_ifs at h with hk
    · obtain rfl := Option.some.inj h
      exact .push hpc hk
    · obtain rfl := Option.some.inj h
      exact .pushed hpc (Nat.not_lt.mp hk)
  | notify =>
    simp only [hpc] at h
    obtain rfl := Option.some.inj h
    exact .notify hpc
  | relock =>
    simp only [hpc] at h
    split_ifs at h with hmu
    obtain rfl := Option.some.inj h
    exact .relock hpc hmu
  | check =>
    simp only [hpc] at h
    split_ifs at h with hcond
    · obtain rfl := Option.some.inj h
      rw [Bool.and_eq_true, List.isEmpty_iff, beq_iff_eq] at hcond
      exact .ret hpc hcond.1 hcond.2
    · obtain rfl := Option.some.inj h
      refine .sleep hpc ?_
      rwa [Bool.and_eq_true, not_and_or, List.isEmpty_iff, beq_iff_eq] at hcond
  | asleep =>
    simp only [hpc] at h
    cases h
  | returned =>
    simp only [hpc] at h
    cases h

theorem destructorMove_of_step (h : p.destructorStep s = some s') : DestructorMove p s s' := by
  unfold PoolUse.destructorStep at h
  cases hpc : s.destructor with
  | lock =>
    simp only [hpc] at h
    split_ifs at h with hcond
    obtain rfl := Option.some.inj h
    exact .lock hpc hcond.1 hcond.2
  | stop =>
    simp only [hpc] at h
    obtain rfl := Option.some.inj h
    exact .stop hpc
  | notify =>
    simp only [hpc] at h
    obtain rfl := Option.some.inj h
    exact .notify hpc
  | join w =>
    simp only [hpc] at h
    split_ifs at h with hcond
    obtain rfl := Option.some.inj h
    exact .join hpc hcond.1 hcond.2

theorem move_of_step {a : PoolAct} (h : p.step s a = some s') : Move p s a s' := by
  unfold PoolUse.step at h
  cases a with
  | worker w =>
    dsimp only at h
    split_ifs at h with hw
    exact .worker hw (workerMove_of_step h)
  | caller c =>
    dsimp only at h
    split_ifs at h with hc
    exact .caller hc (callerMove_of_step h)
  | destructor => exact .destructor (destructorMove_of_step h)
  | wakeWorker w =>
    dsimp only at h
    split_ifs at h with hpc
    obtain rfl := Option.some.inj h
    exact .wakeWorker hpc
  | wakeCaller c =>
    dsimp only at h
    split_ifs at h with hpc
    obtain rfl := Option.some.inj h
    exact .wakeCaller hpc

end Moves

/-! ### What a step leaves alone -/

/-- The worker is where it was, or woken. -/
def WorkerPc.Wakes (pc pc' : WorkerPc) : Prop := pc' = pc ∨ pc = .asleep ∧ pc' = .lock

/-- The call is where it was, or woken. -/
def CallerPc.Wakes (pc pc' : CallerPc) : Prop := pc' = pc ∨ pc = .asleep ∧ pc' = .relock

theorem WorkerPc.wakes_woken (pc : WorkerPc) : pc.Wakes pc.woken := by
  cases pc
  case asleep => exact .inr ⟨rfl, rfl⟩
  all_goals exact .inl rfl

theorem CallerPc.wakes_woken (pc : CallerPc) : pc.Wakes pc.woken := by
  cases pc
  case asleep => exact .inr ⟨rfl, rfl⟩
  all_goals exact .inl rfl

theorem WorkerPc.woken_ne_asleep (pc : WorkerPc) : pc.woken ≠ .asleep := by
  cases pc
  all_goals simp [WorkerPc.woken]

theorem CallerPc.woken_ne_asleep (pc : CallerPc) : pc.woken ≠ .asleep := by
  cases pc
  all_goals simp [CallerPc.woken]

section Frames

variable {p : PoolUse} {s s' : Pool} {w c v : Nat}

theorem WorkerMove.worker_ne (h : WorkerMove s w s') (hv : v ≠ w) : s'.worker v = s.worker v := by
  cases h
  all_goals exact Function.update_of_ne hv ..

theorem WorkerMove.caller (h : WorkerMove s w s') (c : Nat) :
    (s.caller c).Wakes (s'.caller c) := by
  cases h
  case notify => exact (s.caller c).wakes_woken
  all_goals exact .inl rfl

theorem WorkerMove.stop (h : WorkerMove s w s') : s'.stop = s.stop := by
  cases h
  all_goals rfl

theorem WorkerMove.destructor (h : WorkerMove s w s') : s'.destructor = s.destructor := by
  cases h
  all_goals rfl

/-- A worker changes the queue by taking its front. -/
theorem WorkerMove.queue (h : WorkerMove s w s') : s'.queue = s.queue ∨
    ∃ task, s.worker w = .take ∧ s'.worker w = .count task ∧ s.queue = task :: s'.queue := by
  cases h
  case take task queue hpc hqueue => exact .inr ⟨task, hpc, Function.update_self .., hqueue⟩
  all_goals exact .inl rfl

theorem CallerMove.caller_ne (h : CallerMove p s c s') (hv : v ≠ c) :
    s'.caller v = s.caller v := by
  cases h
  all_goals exact Function.update_of_ne hv ..

theorem CallerMove.worker (h : CallerMove p s c s') (w : Nat) :
    (s.worker w).Wakes (s'.worker w) := by
  cases h
  case notify => exact (s.worker w).wakes_woken
  all_goals exact .inl rfl

theorem CallerMove.stop (h : CallerMove p s c s') : s'.stop = s.stop := by
  cases h
  all_goals rfl

theorem CallerMove.active (h : CallerMove p s c s') : s'.active = s.active := by
  cases h
  all_goals rfl

theorem CallerMove.destructor (h : CallerMove p s c s') : s'.destructor = s.destructor := by
  cases h
  all_goals rfl

/-- A call changes the queue by its next task. -/
theorem CallerMove.queue (h : CallerMove p s c s') : s'.queue = s.queue ∨
    ∃ k, s.caller c = .push k ∧ s'.caller c = .push (k + 1) ∧ k < p.tasks c ∧
      s'.queue = s.queue ++ [(c, k)] := by
  cases h
  case push k hpc hk => exact .inr ⟨k, hpc, Function.update_self .., hk, rfl⟩
  all_goals exact .inl rfl

theorem DestructorMove.worker (h : DestructorMove p s s') (w : Nat) :
    (s.worker w).Wakes (s'.worker w) := by
  cases h
  case notify => exact (s.worker w).wakes_woken
  all_goals exact .inl rfl

theorem DestructorMove.caller (h : DestructorMove p s s') : s'.caller = s.caller := by
  cases h
  all_goals rfl

theorem DestructorMove.queue (h : DestructorMove p s s') : s'.queue = s.queue := by
  cases h
  all_goals rfl

theorem DestructorMove.active (h : DestructorMove p s s') : s'.active = s.active := by
  cases h
  all_goals rfl

theorem DestructorMove.stop_of (h : DestructorMove p s s') (hstop : s.stop = true) :
    s'.stop = true := by
  cases h
  case stop => rfl
  all_goals exact hstop

theorem wakes_setWorker (hpc : s.worker w = .asleep) (v : Nat) :
    (s.worker v).Wakes ((s.setWorker w .lock).worker v) := by
  by_cases hv : v = w
  · subst hv
    exact .inr ⟨hpc, Function.update_self ..⟩
  · exact .inl (Function.update_of_ne hv ..)

theorem wakes_setCaller (hpc : s.caller c = .asleep) (v : Nat) :
    (s.caller v).Wakes ((s.setCaller c .relock).caller v) := by
  by_cases hv : v = c
  · subst hv
    exact .inr ⟨hpc, Function.update_self ..⟩
  · exact .inl (Function.update_of_ne hv ..)

end Frames

/-! ### The mutex -/

def WorkerPc.locked : WorkerPc → Bool
  | .check | .leave | .take | .count _ | .uncount _ => true
  | _ => false

def CallerPc.locked : CallerPc → Bool
  | .push _ | .check => true
  | _ => false

def DestructorPc.locked : DestructorPc → Bool
  | .stop => true
  | _ => false

/-- The thread is in a critical section. -/
def Pool.locked (s : Pool) : PoolThread → Bool
  | .worker w => (s.worker w).locked
  | .caller c => (s.caller c).locked
  | .destructor => s.destructor.locked

/-- The owner of the mutex is the thread in a critical section. -/
def Locks (s : Pool) : Prop := ∀ u, s.locked u = true ↔ s.mu = some u

/-- A step takes the mutex, gives it back or does neither. -/
inductive LockMove (s s' : Pool) (u : PoolThread) : Prop
  | acquire (hmu : s.mu = none) (hmu' : s'.mu = some u) (hlocked : s'.locked u = true)
  | release (hlocked : s.locked u = true) (hmu' : s'.mu = none) (hlocked' : s'.locked u = false)
  | none (hmu' : s'.mu = s.mu) (hlocked : s'.locked u = s.locked u)

section Locks

variable {p : PoolUse} {s s' : Pool} {u : PoolThread} {w c : Nat}

theorem Locks.move (h : Locks s) (hmove : LockMove s s' u)
    (hne : ∀ v, v ≠ u → s'.locked v = s.locked v) : Locks s' := by
  intro v
  by_cases hv : v = u
  · subst hv
    cases hmove with
    | acquire _ hmu' hlocked => simp [hmu', hlocked]
    | release _ hmu' hlocked' => simp [hmu', hlocked']
    | none hmu' hlocked => rw [hmu', hlocked, h v]
  · -- another thread neither has the mutex nor loses it
    rw [hne v hv, h v]
    cases hmove with
    | acquire hmu hmu' _ => simp [hmu, hmu', Ne.symm hv]
    | release hlocked hmu' _ => simp [(h u).mp hlocked, hmu', Ne.symm hv]
    | none hmu' _ => rw [hmu']

theorem WorkerPc.Wakes.locked {pc pc' : WorkerPc} (h : pc.Wakes pc') : pc'.locked = pc.locked := by
  rcases h with rfl | ⟨rfl, rfl⟩
  · rfl
  · rfl

theorem CallerPc.Wakes.locked {pc pc' : CallerPc} (h : pc.Wakes pc') : pc'.locked = pc.locked := by
  rcases h with rfl | ⟨rfl, rfl⟩
  · rfl
  · rfl

theorem WorkerMove.lockMove (h : WorkerMove s w s') : LockMove s s' (.worker w) := by
  cases h with
  | lock _ hmu => exact .acquire hmu rfl (by simp [Pool.locked, Pool.setWorker, WorkerPc.locked])
  | relock _ hmu => exact .acquire hmu rfl (by simp [Pool.locked, Pool.setWorker, WorkerPc.locked])
  | ready hpc _ => exact .none rfl (by simp [Pool.locked, Pool.setWorker, WorkerPc.locked, hpc])
  | stay hpc _ => exact .none rfl (by simp [Pool.locked, Pool.setWorker, WorkerPc.locked, hpc])
  | take hpc _ => exact .none rfl (by simp [Pool.locked, Pool.setWorker, WorkerPc.locked, hpc])
  | run hpc => exact .none rfl (by simp [Pool.locked, Pool.setWorker, WorkerPc.locked, hpc])
  | notify hpc => exact .none rfl (by simp [Pool.locked, Pool.setWorker, WorkerPc.locked, hpc])
  | sleep hpc _ _ =>
    refine .release ?_ rfl ?_
    all_goals simp [Pool.locked, Pool.setWorker, WorkerPc.locked, hpc]
  | exit hpc _ =>
    refine .release ?_ rfl ?_
    all_goals simp [Pool.locked, Pool.setWorker, WorkerPc.locked, hpc]
  | count hpc =>
    refine .release ?_ rfl ?_
    all_goals simp [Pool.locked, Pool.setWorker, WorkerPc.locked, hpc]
  | uncount hpc =>
    refine .release ?_ rfl ?_
    all_goals simp [Pool.locked, Pool.setWorker, WorkerPc.locked, hpc]

theorem CallerMove.lockMove (h : CallerMove p s c s') : LockMove s s' (.caller c) := by
  cases h with
  | lock _ hmu => exact .acquire hmu rfl (by simp [Pool.locked, Pool.setCaller, CallerPc.locked])
  | relock _ hmu => exact .acquire hmu rfl (by simp [Pool.locked, Pool.setCaller, CallerPc.locked])
  | push hpc _ => exact .none rfl (by simp [Pool.locked, Pool.setCaller, CallerPc.locked, hpc])
  | notify hpc => exact .none rfl (by simp [Pool.locked, Pool.setCaller, CallerPc.locked, hpc])
  | pushed hpc _ =>
    refine .release ?_ rfl ?_
    all_goals simp [Pool.locked, Pool.setCaller, CallerPc.locked, hpc]
  | ret hpc _ _ =>
    refine .release ?_ rfl ?_
    all_goals simp [Pool.locked, Pool.setCaller, CallerPc.locked, hpc]
  | sleep hpc _ =>
    refine .release ?_ rfl ?_
    all_goals simp [Pool.locked, Pool.setCaller, CallerPc.locked, hpc]

theorem DestructorMove.lockMove (h : DestructorMove p s s') : LockMove s s' .destructor := by
  cases h with
  | lock _ hmu _ => exact .acquire hmu rfl rfl
  | stop hpc => exact .release (by simp [Pool.locked, DestructorPc.locked, hpc]) rfl rfl
  | notify hpc => exact .none rfl (by simp [Pool.locked, DestructorPc.locked, hpc])
  | join hpc _ _ => exact .none rfl (by simp [Pool.locked, DestructorPc.locked, hpc])

theorem Locks.step {a : PoolAct} (h : Locks s) (hmove : Move p s a s') : Locks s' := by
  cases hmove with
  | worker _ hmove =>
    refine h.move hmove.lockMove fun v hv => ?_
    cases v with
    | worker v => exact congrArg WorkerPc.locked (hmove.worker_ne fun heq => hv (heq ▸ rfl))
    | caller c => exact (hmove.caller c).locked
    | destructor => exact congrArg DestructorPc.locked hmove.destructor
  | caller _ hmove =>
    refine h.move hmove.lockMove fun v hv => ?_
    cases v with
    | worker w => exact (hmove.worker w).locked
    | caller v => exact congrArg CallerPc.locked (hmove.caller_ne fun heq => hv (heq ▸ rfl))
    | destructor => exact congrArg DestructorPc.locked hmove.destructor
  | destructor hmove =>
    refine h.move hmove.lockMove fun v hv => ?_
    cases v with
    | worker w => exact (hmove.worker w).locked
    | caller c => exact congrArg (fun f => CallerPc.locked (f c)) hmove.caller
    | destructor => exact absurd rfl hv
  | @wakeWorker w hpc =>
    intro u
    rw [← show s.locked u = (s.setWorker w .lock).locked u from ?_]
    · exact h u
    cases u with
    | worker v => exact (wakes_setWorker hpc v).locked.symm
    | caller c => rfl
    | destructor => rfl
  | @wakeCaller c hpc =>
    intro u
    rw [← show s.locked u = (s.setCaller c .relock).locked u from ?_]
    · exact h u
    cases u with
    | worker w => rfl
    | caller v => exact (wakes_setCaller hpc v).locked.symm
    | destructor => rfl

/-- Two workers are not in critical sections at the same time. -/
theorem Locks.worker_eq (h : Locks s) {v : Nat} (hv : (s.worker v).locked = true)
    (hw : (s.worker w).locked = true) : v = w := by
  have heq := ((h (.worker v)).mp hv).symm.trans ((h (.worker w)).mp hw)
  exact PoolThread.worker.inj (Option.some.inj heq)

end Locks

/-! ### Where the tasks are -/

/-- The task whose body has begun, until it is counted off. -/
def WorkerPc.started? : WorkerPc → Option PoolTask
  | .run task => some task
  | .relock task => some task
  | .uncount task => some task
  | _ => none

/-- The task whose body has ended, until it is counted off. -/
def WorkerPc.ended? : WorkerPc → Option PoolTask
  | .relock task => some task
  | .uncount task => some task
  | _ => none

/-- The number of workers whose task, if `task?` gives one, is in `P`. -/
def PoolUse.count (p : PoolUse) (task? : WorkerPc → Option PoolTask) (P : PoolTask → Bool)
    (s : Pool) : Nat :=
  ∑ w ∈ Finset.range p.n.toNat, (task? (s.worker w)).toList.countP P

/-- Every task that was submitted is in the queue, with a worker, or counted off. -/
structure Counts (p : PoolUse) (s : Pool) (log : PoolLog) : Prop where
  active : s.active.toNat = p.count WorkerPc.started? (fun _ => true) s
  submitted : ∀ P, log.submitted.countP P =
    s.queue.countP P + p.count WorkerPc.task? P s + log.finished.countP P
  started : ∀ P, log.started.countP P = p.count WorkerPc.started? P s + log.finished.countP P
  ended : ∀ P, log.ended.countP P = p.count WorkerPc.ended? P s + log.finished.countP P

section Counts

variable {p : PoolUse} {s s' : Pool} {log : PoolLog} {w c : Nat}
  {task? : WorkerPc → Option PoolTask} {P : PoolTask → Bool}

theorem WorkerMove.count_move (h : WorkerMove s w s') (task? : WorkerPc → Option PoolTask)
    (P : PoolTask → Bool) (hw : w < p.n.toNat) :
    p.count task? P s' + (task? (s.worker w)).toList.countP P =
      p.count task? P s + (task? (s'.worker w)).toList.countP P :=
  sum_move (f := fun w => (task? (s.worker w)).toList.countP P)
    (g := fun w => (task? (s'.worker w)).toList.countP P) hw
    fun v hv => by rw [h.worker_ne hv]

theorem WorkerMove.count_eq (h : WorkerMove s w s') (hw : w < p.n.toNat)
    (htask : task? (s'.worker w) = task? (s.worker w)) :
    p.count task? P s' = p.count task? P s := by
  have hcount := h.count_move (p := p) task? P hw
  rw [htask] at hcount
  omega

/-- A worker that is woken has no task. -/
theorem PoolUse.count_wakes (h : ∀ w, (s.worker w).Wakes (s'.worker w))
    (htask : task? .lock = task? .asleep) : p.count task? P s' = p.count task? P s := by
  refine Finset.sum_congr rfl fun w _ => ?_
  rcases h w with heq | ⟨hold, hnew⟩
  · rw [heq]
  · rw [hold, hnew, htask]

/-- A step that moves no task. -/
theorem Counts.quiet (h : Counts p s log) (hactive : s'.active = s.active)
    (hqueue : s'.queue = s.queue)
    (hcount : ∀ P, p.count WorkerPc.task? P s' = p.count WorkerPc.task? P s ∧
      p.count WorkerPc.started? P s' = p.count WorkerPc.started? P s ∧
      p.count WorkerPc.ended? P s' = p.count WorkerPc.ended? P s) : Counts p s' log where
  active := by rw [hactive, (hcount _).2.1, h.active]
  submitted P := by rw [hqueue, (hcount P).1, h.submitted]
  started P := by rw [(hcount P).2.1, h.started]
  ended P := by rw [(hcount P).2.2, h.ended]

theorem Counts.wakes (h : Counts p s log) (hactive : s'.active = s.active)
    (hqueue : s'.queue = s.queue) (hwakes : ∀ w, (s.worker w).Wakes (s'.worker w)) :
    Counts p s' log :=
  h.quiet hactive hqueue fun _ =>
    ⟨PoolUse.count_wakes hwakes rfl, PoolUse.count_wakes hwakes rfl, PoolUse.count_wakes hwakes rfl⟩

/-- A step of a worker that moves no task. -/
theorem Counts.workerQuiet (h : Counts p s log) (hmove : WorkerMove s w s') (hw : w < p.n.toNat)
    (hactive : s'.active = s.active) (hqueue : s'.queue = s.queue)
    (htask : (s'.worker w).task? = (s.worker w).task?)
    (hstarted : (s'.worker w).started? = (s.worker w).started?)
    (hended : (s'.worker w).ended? = (s.worker w).ended?) : Counts p s' log :=
  h.quiet hactive hqueue fun _ =>
    ⟨hmove.count_eq hw htask, hmove.count_eq hw hstarted, hmove.count_eq hw hended⟩

/-- There are fewer than `2^32` workers. -/
theorem PoolUse.count_le (p : PoolUse) (task? : WorkerPc → Option PoolTask)
    (P : PoolTask → Bool) (s : Pool) : p.count task? P s ≤ p.n.toNat := by
  calc p.count task? P s
      ≤ ∑ w ∈ Finset.range p.n.toNat, 1 := Finset.sum_le_sum fun w _ => by
        refine List.countP_le_length.trans ?_
        cases task? (s.worker w)
        all_goals simp
    _ = p.n.toNat := by rw [Finset.sum_const_nat fun _ _ => rfl, Finset.card_range, Nat.mul_one]

theorem Counts.take (h : Counts p s log) (hmove : WorkerMove s w s') (hw : w < p.n.toNat)
    {task : PoolTask} (hpc : s.worker w = .take) (hnew : s'.worker w = .count task)
    (hqueue : s.queue = task :: s'.queue) (hactive : s'.active = s.active) : Counts p s' log := by
  have hstarted := fun P => hmove.count_move (p := p) WorkerPc.started? P hw
  have hended := fun P => hmove.count_move (p := p) WorkerPc.ended? P hw
  have htask := fun P => hmove.count_move (p := p) WorkerPc.task? P hw
  simp only [hpc, hnew, WorkerPc.task?, WorkerPc.started?, WorkerPc.ended?, Option.toList,
    List.countP_nil, List.countP_singleton, Nat.add_zero] at hstarted hended htask
  refine ⟨?_, fun P => ?_, fun P => ?_, fun P => ?_⟩
  · rw [hstarted, ← h.active, hactive]
  · -- from the queue to this worker
    have hold := h.submitted P
    rw [hqueue, List.countP_cons] at hold
    rw [htask]
    omega
  · rw [hstarted, h.started]
  · rw [hended, h.ended]

theorem Counts.count (h : Counts p s log) (hmove : WorkerMove s w s') (hw : w < p.n.toNat)
    {task : PoolTask} (hpc : s.worker w = .count task) (hnew : s'.worker w = .run task)
    (hqueue : s'.queue = s.queue) (hactive : s'.active = s.active + 1) :
    Counts p s' { log with started := task :: log.started } := by
  have hstarted := fun P => hmove.count_move (p := p) WorkerPc.started? P hw
  have hended := fun P => hmove.count_move (p := p) WorkerPc.ended? P hw
  have htask := fun P => hmove.count_move (p := p) WorkerPc.task? P hw
  simp only [hpc, hnew, WorkerPc.task?, WorkerPc.started?, WorkerPc.ended?, Option.toList,
    List.countP_nil, List.countP_singleton, Nat.add_zero, Nat.add_right_cancel_iff]
    at hstarted hended htask
  refine ⟨?_, fun P => ?_, fun P => ?_, fun P => ?_⟩
  · -- no overflow: `active` counts workers
    have hle := p.count_le WorkerPc.started? (fun _ => true) s'
    have hlt := p.n.toNat_lt
    have hold := h.active
    rw [hstarted, if_pos rfl] at hle ⊢
    rw [hactive, UInt32.toNat_add, UInt32.toNat_one]
    omega
  · rw [hqueue, htask, h.submitted]
  · rw [hstarted, List.countP_cons, h.started]
    exact Nat.add_right_comm ..
  · rw [hended, h.ended]

theorem Counts.run (h : Counts p s log) (hmove : WorkerMove s w s') (hw : w < p.n.toNat)
    {task : PoolTask} (hpc : s.worker w = .run task) (hnew : s'.worker w = .relock task)
    (hqueue : s'.queue = s.queue) (hactive : s'.active = s.active) :
    Counts p s' { log with ended := task :: log.ended } := by
  have hstarted := fun P => hmove.count_move (p := p) WorkerPc.started? P hw
  have hended := fun P => hmove.count_move (p := p) WorkerPc.ended? P hw
  have htask := fun P => hmove.count_move (p := p) WorkerPc.task? P hw
  simp only [hpc, hnew, WorkerPc.task?, WorkerPc.started?, WorkerPc.ended?, Option.toList,
    List.countP_nil, List.countP_singleton, Nat.add_zero, Nat.add_right_cancel_iff]
    at hstarted hended htask
  refine ⟨?_, fun P => ?_, fun P => ?_, fun P => ?_⟩
  · rw [hstarted, ← h.active, hactive]
  · rw [hqueue, htask, h.submitted]
  · rw [hstarted, h.started]
  · rw [hended, List.countP_cons, h.ended]
    exact Nat.add_right_comm ..

theorem Counts.uncount (h : Counts p s log) (hmove : WorkerMove s w s') (hw : w < p.n.toNat)
    {task : PoolTask} (hpc : s.worker w = .uncount task) (hnew : s'.worker w = .notify)
    (hqueue : s'.queue = s.queue) (hactive : s'.active = s.active - 1) :
    Counts p s' { log with finished := task :: log.finished } := by
  have hstarted := fun P => hmove.count_move (p := p) WorkerPc.started? P hw
  have hended := fun P => hmove.count_move (p := p) WorkerPc.ended? P hw
  have htask := fun P => hmove.count_move (p := p) WorkerPc.task? P hw
  simp only [hpc, hnew, WorkerPc.task?, WorkerPc.started?, WorkerPc.ended?, Option.toList,
    List.countP_nil, List.countP_singleton, Nat.add_zero] at hstarted hended htask
  refine ⟨?_, fun P => ?_, fun P => ?_, fun P => ?_⟩
  · -- no underflow: this worker is counted
    have hcount := hstarted fun _ => true
    have hold := h.active
    rw [if_pos rfl] at hcount
    have hle : (1 : UInt32) ≤ s.active := by
      rw [UInt32.le_iff_toNat_le, UInt32.toNat_one]
      omega
    rw [hactive, UInt32.toNat_sub_of_le _ _ hle, UInt32.toNat_one]
    omega
  · -- from this worker to the tasks counted off
    have hcount := htask P
    rw [hqueue, List.countP_cons, h.submitted]
    omega
  · have hcount := hstarted P
    rw [List.countP_cons, h.started]
    omega
  · have hcount := hended P
    rw [List.countP_cons, h.ended]
    omega

theorem Counts.push (h : Counts p s log) {k : Nat} :
    Counts p { s.setCaller c (.push (k + 1)) with queue := s.queue ++ [(c, k)] }
      { log with submitted := (c, k) :: log.submitted } := by
  refine ⟨h.active, fun P => ?_, h.started, h.ended⟩
  have hold := h.submitted P
  rw [List.countP_cons, List.countP_append, List.countP_singleton, hold]
  show _ = _ + p.count WorkerPc.task? P s + log.finished.countP P
  omega

theorem Counts.worker (h : Counts p s log) (hw : w < p.n.toNat) (hmove : WorkerMove s w s') :
    Counts p s' (p.note log s (.worker w)) := by
  have hquiet := h.workerQuiet hmove hw
  have hmove' := hmove
  -- four steps move a task on; the others leave the counts alone
  cases hmove with
  | take hpc hqueue =>
    simp only [PoolUse.note, hpc]
    exact h.take hmove' hw hpc (Function.update_self ..) hqueue rfl
  | count hpc =>
    simp only [PoolUse.note, hpc]
    exact h.count hmove' hw hpc (Function.update_self ..) rfl rfl
  | run hpc =>
    simp only [PoolUse.note, hpc]
    exact h.run hmove' hw hpc (Function.update_self ..) rfl rfl
  | uncount hpc =>
    simp only [PoolUse.note, hpc]
    exact h.uncount hmove' hw hpc (Function.update_self ..) rfl rfl
  | lock hpc _ =>
    simp only [PoolUse.note, hpc]
    apply hquiet rfl rfl
    all_goals simp [Pool.setWorker, hpc, WorkerPc.task?, WorkerPc.started?, WorkerPc.ended?]
  | ready hpc _ =>
    simp only [PoolUse.note, hpc]
    apply hquiet rfl rfl
    all_goals simp [Pool.setWorker, hpc, WorkerPc.task?, WorkerPc.started?, WorkerPc.ended?]
  | sleep hpc _ _ =>
    simp only [PoolUse.note, hpc]
    apply hquiet rfl rfl
    all_goals simp [Pool.setWorker, hpc, WorkerPc.task?, WorkerPc.started?, WorkerPc.ended?]
  | exit hpc _ =>
    simp only [PoolUse.note, hpc]
    apply hquiet rfl rfl
    all_goals simp [Pool.setWorker, hpc, WorkerPc.task?, WorkerPc.started?, WorkerPc.ended?]
  | stay hpc _ =>
    simp only [PoolUse.note, hpc]
    apply hquiet rfl rfl
    all_goals simp [Pool.setWorker, hpc, WorkerPc.task?, WorkerPc.started?, WorkerPc.ended?]
  | relock hpc _ =>
    simp only [PoolUse.note, hpc]
    apply hquiet rfl rfl
    all_goals simp [Pool.setWorker, hpc, WorkerPc.task?, WorkerPc.started?, WorkerPc.ended?]
  | notify hpc =>
    simp only [PoolUse.note, hpc]
    apply hquiet rfl rfl
    all_goals simp [Pool.setWorker, hpc, WorkerPc.task?, WorkerPc.started?, WorkerPc.ended?]

theorem Counts.caller (h : Counts p s log) (hmove : CallerMove p s c s') :
    Counts p s' (p.note log s (.caller c)) := by
  have hwakes := hmove.worker
  cases hmove with
  | push hpc hk =>
    simp only [PoolUse.note, hpc, if_pos hk]
    exact h.push
  | pushed hpc hk =>
    simp only [PoolUse.note, hpc, if_neg (Nat.not_lt.mpr hk)]
    exact h.wakes rfl rfl hwakes
  | lock hpc _ =>
    simp only [PoolUse.note, hpc]
    exact h.wakes rfl rfl hwakes
  | notify hpc =>
    simp only [PoolUse.note, hpc]
    exact h.wakes rfl rfl hwakes
  | relock hpc _ =>
    simp only [PoolUse.note, hpc]
    exact h.wakes rfl rfl hwakes
  | ret hpc _ _ =>
    simp only [PoolUse.note, hpc]
    exact h.wakes rfl rfl hwakes
  | sleep hpc _ =>
    simp only [PoolUse.note, hpc]
    exact h.wakes rfl rfl hwakes

theorem Counts.step {a : PoolAct} (h : Counts p s log) (hmove : Move p s a s') :
    Counts p s' (p.note log s a) := by
  cases hmove with
  | worker hw hmove => exact h.worker hw hmove
  | caller _ hmove => exact h.caller hmove
  | destructor hmove => exact h.wakes hmove.active hmove.queue hmove.worker
  | wakeWorker hpc => exact h.wakes rfl rfl (wakes_setWorker hpc)
  | wakeCaller _ => exact h.wakes rfl rfl fun _ => .inl rfl

theorem Counts.init (p : PoolUse) : Counts p {} {} := by
  have hzero : ∀ task? P, task? .lock = none → p.count task? P {} = 0 := by
    intro task? P htask
    refine Finset.sum_eq_zero fun w _ => ?_
    show (task? .lock).toList.countP P = 0
    rw [htask]
    rfl
  refine ⟨?_, fun P => ?_, fun P => ?_, fun P => ?_⟩
  all_goals
    rw [hzero _ _ rfl]
    rfl

end Counts

end WrapperPaas.ThreadPool
