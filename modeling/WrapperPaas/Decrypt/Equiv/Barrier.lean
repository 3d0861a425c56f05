/-
  `run_all` is a barrier.

  When a call finds the queue empty and `active` zero, no worker has a task: one that has taken a
  task and not yet counted it is in its critical section, but there the call is.  `Waits` says why a
  thread that sleeps is woken: as long as its condition holds, another thread is on its way to a
  `notify_all`.  So some thread can always move until all have ended (`exists_step`), and every run
  ends, spurious wake-ups apart (`PoolUse.rank_lt`).  `run_all_barrier` is the result.
-/
import WrapperPaas.Decrypt.Equiv.Pool

namespace WrapperPaas.ThreadPool

/-! ### The calls -/

/-- The number of tasks that a call has put into the queue. -/
def PoolUse.pushed (p : PoolUse) (c : Nat) : CallerPc → Nat
  | .lock => 0
  | .push k => min k (p.tasks c)
  | _ => p.tasks c

/-- The tasks of a call come into the queue once and in order, and when it has returned they are
counted off. -/
structure Calls (p : PoolUse) (s : Pool) (log : PoolLog) : Prop where
  submitted : ∀ c k, log.submitted.count (c, k) = if k < p.pushed c (s.caller c) then 1 else 0
  finished : ∀ c, s.caller c = .returned → ∀ k, k < p.tasks c → log.finished.count (c, k) = 1

section Wakes

/-- A thread that is not woken stays where it is. -/
theorem WorkerPc.Wakes.keep {pc pc' x : WorkerPc} (h : pc.Wakes pc') (hpc : pc = x)
    (hne : x ≠ .asleep) : pc' = x := by
  rcases h with rfl | ⟨rfl, -⟩
  · exact hpc
  · exact absurd hpc.symm hne

theorem CallerPc.Wakes.keep {pc pc' x : CallerPc} (h : pc.Wakes pc') (hpc : pc = x)
    (hne : x ≠ .asleep) : pc' = x := by
  rcases h with rfl | ⟨rfl, -⟩
  · exact hpc
  · exact absurd hpc.symm hne

/-- A thread that is not before the lock was not woken. -/
theorem WorkerPc.Wakes.old {pc pc' x : WorkerPc} (h : pc.Wakes pc') (hpc : pc' = x)
    (hne : x ≠ .lock) : pc = x := by
  rcases h with rfl | ⟨-, rfl⟩
  · exact hpc
  · exact absurd hpc.symm hne

theorem CallerPc.Wakes.old {pc pc' x : CallerPc} (h : pc.Wakes pc') (hpc : pc' = x)
    (hne : x ≠ .relock) : pc = x := by
  rcases h with rfl | ⟨-, rfl⟩
  · exact hpc
  · exact absurd hpc.symm hne

end Wakes

section Calls

variable {p : PoolUse} {s s' : Pool} {log log' : PoolLog} {w c : Nat}

theorem PoolUse.pushed_wakes {pc pc' : CallerPc} (h : pc.Wakes pc') :
    p.pushed c pc' = p.pushed c pc := by
  rcases h with rfl | ⟨rfl, rfl⟩
  · rfl
  · rfl

theorem PoolUse.count_eq_zero {task? : WorkerPc → Option PoolTask} {P : PoolTask → Bool}
    (h : ∀ w, w < p.n.toNat → ∀ task, task? (s.worker w) = some task → P task = false) :
    p.count task? P s = 0 := by
  refine Finset.sum_eq_zero fun w hw => ?_
  cases htask : task? (s.worker w) with
  | none => rfl
  | some task => simp [Option.toList, h w (Finset.mem_range.mp hw) task htask]

theorem PoolUse.of_count_eq_zero {task? : WorkerPc → Option PoolTask} {P : PoolTask → Bool}
    (h : p.count task? P s = 0) (hw : w < p.n.toNat) {task : PoolTask}
    (htask : task? (s.worker w) = some task) : P task = false := by
  have hzero := Finset.sum_eq_zero_iff.mp h w (Finset.mem_range.mpr hw)
  rw [htask, Option.toList, List.countP_singleton] at hzero
  simpa using hzero

/-- The tasks are counted one by one. -/
theorem Counts.count_eq (h : Counts p s log) (task : PoolTask) : log.submitted.count task =
    s.queue.count task + p.count WorkerPc.task? (· == task) s + log.finished.count task :=
  h.submitted (· == task)

theorem Calls.count_le (h : Calls p s log) (hcounts : Counts p s log) (task : PoolTask) :
    log.finished.count task ≤ 1 := by
  have hcount := hcounts.count_eq task
  have hle : log.submitted.count task ≤ 1 := by
    rw [h.submitted task.1 task.2]
    split_ifs
    all_goals omega
  omega

theorem Counts.active_ne_zero (h : Counts p s log) (hw : w < p.n.toNat) {task : PoolTask}
    (hstarted : (s.worker w).started? = some task) : s.active ≠ 0 := by
  intro hactive
  have hzero : p.count WorkerPc.started? (fun _ => true) s = 0 := by
    rw [← h.active, hactive]
    rfl
  exact absurd (PoolUse.of_count_eq_zero hzero hw hstarted) Bool.noConfusion

/-- **The barrier**: when a call sees that the queue is empty and no worker is active, its tasks are
counted off. -/
theorem Calls.finished_of_check (h : Calls p s log) (hcounts : Counts p s log) (hlocks : Locks s)
    (hpc : s.caller c = .check) (hqueue : s.queue = []) (hactive : s.active = 0) {k : Nat}
    (hk : k < p.tasks c) : log.finished.count (c, k) = 1 := by
  have hmu : s.mu = some (.caller c) := (hlocks (.caller c)).mp (by simp [Pool.locked, hpc,
    CallerPc.locked])
  have htask : p.count WorkerPc.task? (· == (c, k)) s = 0 := by
    refine PoolUse.count_eq_zero fun w hw task htask => ?_
    have hnone : ∀ task, (s.worker w).started? ≠ some task :=
      fun task hsome => hcounts.active_ne_zero hw hsome hactive
    cases hworker : s.worker w with
    | count task =>
      -- this worker has the mutex, and the call has it
      have howner := (hlocks (.worker w)).mp (by simp [Pool.locked, hworker, WorkerPc.locked])
      rw [hmu] at howner
      cases howner
    | run task => exact absurd (by rw [hworker]; rfl) (hnone task)
    | relock task => exact absurd (by rw [hworker]; rfl) (hnone task)
    | uncount task => exact absurd (by rw [hworker]; rfl) (hnone task)
    | _ =>
      rw [hworker] at htask
      cases htask
  have hcount := hcounts.count_eq (c, k)
  rw [h.submitted, hpc, htask, hqueue] at hcount
  rw [if_pos (show k < p.pushed c .check from hk)] at hcount
  simpa using hcount.symm

theorem note_worker_submitted : (p.note log s (.worker w)).submitted = log.submitted := by
  simp only [PoolUse.note]
  cases s.worker w
  all_goals rfl

theorem le_count_note_worker (p : PoolUse) (log : PoolLog) (s : Pool) (w : Nat) (task : PoolTask) :
    log.finished.count task ≤ (p.note log s (.worker w)).finished.count task := by
  simp only [PoolUse.note]
  cases s.worker w
  case uncount => exact List.count_le_count_cons
  all_goals exact Nat.le_refl _

theorem note_caller_finished : (p.note log s (.caller c)).finished = log.finished := by
  simp only [PoolUse.note]
  split
  · split_ifs
    all_goals rfl
  · rfl

theorem note_caller_of_ne (hne : ∀ k, s.caller c ≠ .push k) : p.note log s (.caller c) = log := by
  simp only [PoolUse.note]

theorem count_note_caller_of_ne {d : Nat} (hd : d ≠ c) (k : Nat) :
    (p.note log s (.caller c)).submitted.count (d, k) = log.submitted.count (d, k) := by
  simp only [PoolUse.note]
  split
  · split_ifs
    · exact List.count_cons_of_ne fun heq => hd (Prod.mk.inj heq).1.symm
    · rfl
  · rfl

theorem Calls.worker (h : Calls p s log) (hcounts : Counts p s' (p.note log s (.worker w)))
    (hmove : WorkerMove s w s') : Calls p s' (p.note log s (.worker w)) where
  submitted c k := by
    rw [note_worker_submitted, PoolUse.pushed_wakes (hmove.caller c), h.submitted]
  finished c hpc k hk := by
    have hsub : (p.note log s (.worker w)).submitted.count (c, k) ≤ 1 := by
      rw [note_worker_submitted, h.submitted]
      split_ifs
      all_goals omega
    have hcount := hcounts.count_eq (c, k)
    have hle := le_count_note_worker p log s w (c, k)
    rw [h.finished c ((hmove.caller c).old hpc (by simp)) k hk] at hle
    omega

theorem Calls.caller (h : Calls p s log) (hcounts : Counts p s log) (hlocks : Locks s)
    (hmove : CallerMove p s c s') : Calls p s' (p.note log s (.caller c)) where
  submitted d k := by
    by_cases hd : d = c
    swap
    · rw [count_note_caller_of_ne hd, hmove.caller_ne hd, h.submitted]
    subst hd
    have hold := h.submitted d k
    -- only the two steps in the loop change what the call has pushed
    have hquiet : ∀ {pc}, p.pushed d pc = p.pushed d (s.caller d) →
        (if k < p.pushed d (s.caller d) then 1 else 0) =
          if k < p.pushed d (Function.update s.caller d pc d) then 1 else 0 := by
      intro pc heq
      rw [Function.update_self, heq]
    cases hmove with
    | @push k' hpc hk' =>
      have hnew : (s.setCaller d (.push (k' + 1))).caller d = .push (k' + 1) :=
        Function.update_self ..
      rw [hpc] at hold
      simp only [PoolUse.note, hpc, if_pos hk', hnew, List.count_cons, hold, PoolUse.pushed,
        beq_iff_eq, Prod.mk.injEq, true_and, Nat.min_eq_left hk'.le, Nat.min_eq_left hk']
      rcases Nat.lt_trichotomy k k' with hlt | rfl | hgt
      · rw [if_pos hlt, if_neg hlt.ne', if_pos (by omega)]
      · rw [if_neg (Nat.lt_irrefl k), if_pos rfl, if_pos (Nat.lt_succ_self k)]
      · rw [if_neg (by omega), if_neg hgt.ne, if_neg (by omega)]
    | @pushed k' hpc hk' =>
      rw [hpc] at hold
      simp only [PoolUse.note, hpc, if_neg (Nat.not_lt.mpr hk'), Pool.setCaller,
        Function.update_self, hold, PoolUse.pushed, Nat.min_eq_right hk']
    | lock hpc _ =>
      rw [note_caller_of_ne (by simp [hpc]), hold]
      exact hquiet (by rw [hpc]; rfl)
    | notify hpc =>
      rw [note_caller_of_ne (by simp [hpc]), hold]
      exact hquiet (by rw [hpc]; rfl)
    | relock hpc _ =>
      rw [note_caller_of_ne (by simp [hpc]), hold]
      exact hquiet (by rw [hpc]; rfl)
    | ret hpc _ _ =>
      rw [note_caller_of_ne (by simp [hpc]), hold]
      exact hquiet (by rw [hpc]; rfl)
    | sleep hpc _ =>
      rw [note_caller_of_ne (by simp [hpc]), hold]
      exact hquiet (by rw [hpc]; rfl)
  finished d hpc k hk := by
    rw [note_caller_finished]
    by_cases hd : d = c
    swap
    · rw [hmove.caller_ne hd] at hpc
      exact h.finished d hpc k hk
    subst hd
    cases hmove with
    | ret hold hqueue hactive => exact h.finished_of_check hcounts hlocks hold hqueue hactive hk
    | _ => simp [Pool.setCaller] at hpc

theorem Calls.of_caller (h : Calls p s log) (hcaller : ∀ c, (s.caller c).Wakes (s'.caller c)) :
    Calls p s' log where
  submitted c k := by rw [PoolUse.pushed_wakes (hcaller c), h.submitted]
  finished c hpc := h.finished c ((hcaller c).old hpc (by simp))

theorem Calls.step {a : PoolAct} (h : Calls p s log) (hcounts : Counts p s log)
    (hlocks : Locks s) (hmove : Move p s a s') : Calls p s' (p.note log s a) := by
  have hcounts' := hcounts.step hmove
  cases hmove with
  | worker _ hmove => exact h.worker hcounts' hmove
  | caller _ hmove => exact h.caller hcounts hlocks hmove
  | destructor hmove => exact h.of_caller fun c => .inl (congrFun hmove.caller c)
  | wakeWorker _ => exact h.of_caller fun _ => .inl rfl
  | wakeCaller hpc => exact h.of_caller (wakes_setCaller hpc)

theorem Calls.init (p : PoolUse) : Calls p {} {} where
  submitted c k := (if_neg (Nat.not_lt_zero k)).symm
  finished c hpc := by cases hpc

end Calls

/-! ### Who waits for whom -/

/-- The worker is on its way to `done_cv.notify_all()`, and does not wait before it. -/
def WorkerPc.signals : WorkerPc → Bool
  | .count _ | .notify => true
  | _ => false

/-- The call is on its way to `cv.notify_all()`, and does not wait before it. -/
def CallerPc.signals : CallerPc → Bool
  | .push _ | .notify => true
  | _ => false

/-- The destructor has told the workers to stop. -/
def DestructorPc.stopped : DestructorPc → Bool
  | .notify | .join _ => true
  | _ => false

/-- A worker goes on only when it may. -/
structure Ready (p : PoolUse) (s : Pool) : Prop where
  workers : ∀ w, p.n.toNat ≤ w → s.worker w = .lock
  leave : ∀ w, s.worker w = .leave → s.stop = true ∨ s.queue ≠ []
  take : ∀ w, s.worker w = .take → s.queue ≠ []
  exited : ∀ w, s.worker w = .exited → s.stop = true

/-- What a thread waits for comes. -/
structure Waits (p : PoolUse) (s : Pool) : Prop extends Ready p s where
  callers : ∀ c, p.calls.length ≤ c → s.caller c = .lock
  stop : s.stop = s.destructor.stopped
  closed : s.destructor ≠ .lock → p.AllReturned s
  joined : ∀ k, s.destructor = .join k → k ≤ p.n.toNat ∧ ∀ w, w < k → s.worker w = .exited
  /-- a worker that sleeps is woken if there is a task -/
  cv : ∀ w, s.worker w = .asleep → s.queue ≠ [] →
    ∃ c, c < p.calls.length ∧ (s.caller c).signals = true
  /-- and if it is to stop -/
  cvStop : ∀ w, s.worker w = .asleep → s.stop = true → s.destructor = .notify
  /-- a call that sleeps is woken if there is no task -/
  doneCv : ∀ c, s.caller c = .asleep →
    s.queue ≠ [] ∨ s.active ≠ 0 ∨ ∃ w, w < p.n.toNat ∧ (s.worker w).signals = true

section Waits

variable {p : PoolUse} {s s' : Pool} {log : PoolLog} {w c v : Nat}

theorem WorkerPc.Wakes.signals {pc pc' : WorkerPc} (h : pc.Wakes pc') :
    pc'.signals = pc.signals := by
  rcases h with rfl | ⟨rfl, rfl⟩
  · rfl
  · rfl

theorem CallerPc.Wakes.signals {pc pc' : CallerPc} (h : pc.Wakes pc') :
    pc'.signals = pc.signals := by
  rcases h with rfl | ⟨rfl, rfl⟩
  · rfl
  · rfl

/-- A step of another thread, which wakes workers at most. -/
theorem Ready.wakes (h : Ready p s) (hworker : ∀ w, (s.worker w).Wakes (s'.worker w))
    (hqueue : s.queue ≠ [] → s'.queue ≠ []) (hstop : s.stop = true → s'.stop = true) :
    Ready p s' where
  workers w hw := (hworker w).keep (h.workers w hw) (by simp)
  leave w hw := (h.leave w ((hworker w).old hw (by simp))).imp hstop hqueue
  take w hw := hqueue (h.take w ((hworker w).old hw (by simp)))
  exited w hw := hstop (h.exited w ((hworker w).old hw (by simp)))

theorem joined_wakes (hworker : ∀ w, (s.worker w).Wakes (s'.worker w)) {k : Nat}
    (h : k ≤ p.n.toNat ∧ ∀ w, w < k → s.worker w = .exited) :
    k ≤ p.n.toNat ∧ ∀ w, w < k → s'.worker w = .exited :=
  h.imp_right fun hexited w hw => (hworker w).keep (hexited w hw) (by simp)

/-- A worker that is on its way to a notification is still on it when others are woken. -/
theorem signals_wakes (hworker : ∀ w, (s.worker w).Wakes (s'.worker w))
    (h : ∃ w, w < p.n.toNat ∧ (s.worker w).signals = true) :
    ∃ w, w < p.n.toNat ∧ (s'.worker w).signals = true := by
  obtain ⟨w, hw, hsignals⟩ := h
  exact ⟨w, hw, by rw [(hworker w).signals, hsignals]⟩

/-! #### Steps of a worker -/

theorem WorkerMove.ne_exited (h : WorkerMove s w s') : s.worker w ≠ .exited := by
  cases h
  all_goals simp [*]

/-- The queue stays for another worker in its critical section. -/
theorem WorkerMove.queue_of_locked (h : WorkerMove s w s') (hlocks : Locks s) (hv : v ≠ w)
    (hlocked : (s.worker v).locked = true) : s'.queue = s.queue := by
  rcases h.queue with hqueue | ⟨task, hpc, -, -⟩
  · exact hqueue
  · -- both would be in critical sections
    exact absurd (hlocks.worker_eq hlocked (by rw [hpc]; rfl)) hv

theorem WorkerMove.queue_ne_nil (h : WorkerMove s w s') (hqueue : s'.queue ≠ []) :
    s.queue ≠ [] := by
  rcases h.queue with heq | ⟨task, -, -, heq⟩
  · rwa [← heq]
  · rw [heq]
    exact List.cons_ne_nil _ _

/-- Where the worker is after its step. -/
theorem WorkerMove.leave_of (h : WorkerMove s w s') (hpc : s'.worker w = .leave) :
    (s'.stop = true ∨ s'.queue ≠ []) := by
  cases h with
  | ready _ h => exact h
  | _ => simp [Pool.setWorker] at hpc

theorem WorkerMove.take_of (h : WorkerMove s w s') (hpc : s'.worker w = .take)
    (hleave : s.worker w = .leave → s.stop = true ∨ s.queue ≠ []) : s'.queue ≠ [] := by
  cases h with
  | stay hold h =>
    rcases hleave hold with hstop | hqueue
    · exact h.resolve_left (by rw [hstop]; exact Bool.noConfusion)
    · exact hqueue
  | _ => simp [Pool.setWorker] at hpc

theorem WorkerMove.exited_of (h : WorkerMove s w s') (hpc : s'.worker w = .exited) :
    s'.stop = true := by
  cases h with
  | exit _ hstop => exact hstop
  | _ => simp [Pool.setWorker] at hpc

theorem WorkerMove.asleep_of (h : WorkerMove s w s') (hpc : s'.worker w = .asleep) :
    s'.stop = false ∧ s'.queue = [] := by
  cases h with
  | sleep _ hstop hqueue => exact ⟨hstop, hqueue⟩
  | _ => simp [Pool.setWorker] at hpc

theorem Waits.worker_doneCv (h : Waits p s) {log' : PoolLog} (hcounts : Counts p s' log')
    (hmove : WorkerMove s w s') (hw : w < p.n.toNat) (hc : s'.caller c = .asleep) :
    s'.queue ≠ [] ∨ s'.active ≠ 0 ∨ ∃ w, w < p.n.toNat ∧ (s'.worker w).signals = true := by
  have hold := h.doneCv c ((hmove.caller c).old hc (by simp))
  -- a step that changes neither the queue nor `active`, of a worker that was on no way
  have hquiet : (s.worker w).signals = false → s'.queue = s.queue → s'.active = s.active →
      s'.queue ≠ [] ∨ s'.active ≠ 0 ∨ ∃ w, w < p.n.toNat ∧ (s'.worker w).signals = true := by
    intro hfalse hqueue hactive
    rw [hqueue, hactive]
    refine hold.imp_right (Or.imp_right ?_)
    rintro ⟨v, hv, hsignals⟩
    refine ⟨v, hv, ?_⟩
    rwa [hmove.worker_ne]
    rintro rfl
    rw [hfalse] at hsignals
    cases hsignals
  cases hmove with
  | take hpc _ => exact .inr (.inr ⟨w, hw, by simp [Pool.setWorker, WorkerPc.signals]⟩)
  | uncount hpc => exact .inr (.inr ⟨w, hw, by simp [Pool.setWorker, WorkerPc.signals]⟩)
  | @count task hpc =>
    -- `active` does not wrap to 0
    have hstarted : ((s.setWorker w (.run task)).worker w).started? = some task := by
      simp [Pool.setWorker, WorkerPc.started?]
    exact .inr (.inl (hcounts.active_ne_zero hw hstarted))
  | notify _ => exact absurd hc (CallerPc.woken_ne_asleep _)
  | lock hpc _ => exact hquiet (by rw [hpc]; rfl) rfl rfl
  | ready hpc _ => exact hquiet (by rw [hpc]; rfl) rfl rfl
  | sleep hpc _ _ => exact hquiet (by rw [hpc]; rfl) rfl rfl
  | exit hpc _ => exact hquiet (by rw [hpc]; rfl) rfl rfl
  | stay hpc _ => exact hquiet (by rw [hpc]; rfl) rfl rfl
  | run hpc => exact hquiet (by rw [hpc]; rfl) rfl rfl
  | relock hpc _ => exact hquiet (by rw [hpc]; rfl) rfl rfl

theorem Ready.worker (h : Ready p s) (hlocks : Locks s) (hmove : WorkerMove s w s')
    (hw : w < p.n.toNat) : Ready p s' where
  workers v hv := by
    rw [hmove.worker_ne (by omega)]
    exact h.workers v hv
  leave v hv := by
    by_cases hvw : v = w
    · exact hmove.leave_of (hvw ▸ hv)
    · rw [hmove.worker_ne hvw] at hv
      rw [hmove.stop, hmove.queue_of_locked hlocks hvw (by rw [hv]; rfl)]
      exact h.leave v hv
  take v hv := by
    by_cases hvw : v = w
    · exact hmove.take_of (hvw ▸ hv) (h.leave w)
    · rw [hmove.worker_ne hvw] at hv
      rw [hmove.queue_of_locked hlocks hvw (by rw [hv]; rfl)]
      exact h.take v hv
  exited v hv := by
    by_cases hvw : v = w
    · exact hmove.exited_of (hvw ▸ hv)
    · rw [hmove.worker_ne hvw] at hv
      rw [hmove.stop]
      exact h.exited v hv

theorem Waits.worker (h : Waits p s) {log' : PoolLog} (hcounts : Counts p s' log')
    (hlocks : Locks s) (hmove : WorkerMove s w s') (hw : w < p.n.toNat) : Waits p s' where
  toReady := h.toReady.worker hlocks hmove hw
  callers c hc := (hmove.caller c).keep (h.callers c hc) (by simp)
  stop := by rw [hmove.stop, hmove.destructor, h.stop]
  closed hne c hc := (hmove.caller c).keep (h.closed (hmove.destructor ▸ hne) c hc) (by simp)
  joined k hk := by
    obtain ⟨hle, hexited⟩ := h.joined k (hmove.destructor ▸ hk)
    refine ⟨hle, fun v hv => ?_⟩
    rw [hmove.worker_ne]
    · exact hexited v hv
    · rintro rfl
      exact hmove.ne_exited (hexited v hv)
  cv v hv hqueue := by
    by_cases hvw : v = w
    · exact absurd (hmove.asleep_of (hvw ▸ hv)).2 hqueue
    · rw [hmove.worker_ne hvw] at hv
      obtain ⟨c, hc, hsignals⟩ := h.cv v hv (hmove.queue_ne_nil hqueue)
      exact ⟨c, hc, by rw [(hmove.caller c).signals, hsignals]⟩
  cvStop v hv hstop := by
    by_cases hvw : v = w
    · rw [(hmove.asleep_of (hvw ▸ hv)).1] at hstop
      cases hstop
    · rw [hmove.worker_ne hvw] at hv
      rw [hmove.destructor]
      exact h.cvStop v hv (hmove.stop ▸ hstop)
  doneCv c hc := h.worker_doneCv hcounts hmove hw hc

/-! #### Steps of a call -/

theorem CallerMove.ne_returned (h : CallerMove p s c s') : s.caller c ≠ .returned := by
  cases h
  all_goals simp [*]

theorem CallerMove.queue_ne_nil (h : CallerMove p s c s') (hqueue : s.queue ≠ []) :
    s'.queue ≠ [] := by
  rcases h.queue with heq | ⟨k, -, -, -, heq⟩
  · rwa [heq]
  · rw [heq]
    exact List.append_ne_nil_of_left_ne_nil hqueue _

theorem CallerMove.asleep_of (h : CallerMove p s c s') (hpc : s'.caller c = .asleep) :
    s'.queue ≠ [] ∨ s'.active ≠ 0 := by
  cases h with
  | sleep _ h => exact h
  | _ => simp [Pool.setCaller] at hpc

theorem Waits.caller_cv (h : Waits p s) (hmove : CallerMove p s c s') (hc : c < p.calls.length)
    (hw : s'.worker w = .asleep) (hqueue : s'.queue ≠ []) :
    ∃ c, c < p.calls.length ∧ (s'.caller c).signals = true := by
  have hold := h.cv w ((hmove.worker w).old hw (by simp))
  have hquiet : (s.caller c).signals = false → s'.queue = s.queue →
      ∃ c, c < p.calls.length ∧ (s'.caller c).signals = true := by
    intro hfalse heq
    obtain ⟨d, hd, hsignals⟩ := hold (heq ▸ hqueue)
    refine ⟨d, hd, ?_⟩
    rwa [hmove.caller_ne]
    rintro rfl
    rw [hfalse] at hsignals
    cases hsignals
  cases hmove with
  | push hpc _ => exact ⟨c, hc, by simp [Pool.setCaller, CallerPc.signals]⟩
  | pushed hpc _ => exact ⟨c, hc, by simp [Pool.setCaller, CallerPc.signals]⟩
  | notify _ => exact absurd hw (WorkerPc.woken_ne_asleep _)
  | lock hpc _ => exact hquiet (by rw [hpc]; rfl) rfl
  | relock hpc _ => exact hquiet (by rw [hpc]; rfl) rfl
  | ret hpc _ _ => exact hquiet (by rw [hpc]; rfl) rfl
  | sleep hpc _ => exact hquiet (by rw [hpc]; rfl) rfl

theorem Waits.caller (h : Waits p s) (hmove : CallerMove p s c s') (hc : c < p.calls.length) :
    Waits p s' where
  toReady := h.toReady.wakes hmove.worker hmove.queue_ne_nil (by rw [hmove.stop]; exact id)
  callers d hd := by
    rw [hmove.caller_ne (by omega)]
    exact h.callers d hd
  stop := by rw [hmove.stop, hmove.destructor, h.stop]
  closed hne := absurd (h.closed (hmove.destructor ▸ hne) c hc) hmove.ne_returned
  joined k hk := joined_wakes hmove.worker (h.joined k (hmove.destructor ▸ hk))
  cv w hw hqueue := h.caller_cv hmove hc hw hqueue
  cvStop w hw hstop := by
    rw [hmove.destructor]
    exact h.cvStop w ((hmove.worker w).old hw (by simp)) (hmove.stop ▸ hstop)
  doneCv d hd := by
    by_cases hdc : d = c
    · rcases hmove.asleep_of (hdc ▸ hd) with hqueue | hactive
      · exact .inl hqueue
      · exact .inr (.inl hactive)
    · rw [hmove.caller_ne hdc] at hd
      rw [hmove.active]
      exact (h.doneCv d hd).imp hmove.queue_ne_nil (Or.imp_right (signals_wakes hmove.worker))

/-! #### Steps of the destructor, and spurious wake-ups -/

theorem Waits.destructor_stop (h : Waits p s) (hmove : DestructorMove p s s') :
    s'.stop = s'.destructor.stopped := by
  have hold := h.stop
  cases hmove with
  | lock hpc _ _ => rwa [hpc] at hold
  | stop _ => rfl
  | notify hpc => rwa [hpc] at hold
  | join hpc _ _ => rwa [hpc] at hold

theorem Waits.destructor_closed (h : Waits p s) (hmove : DestructorMove p s s') :
    p.AllReturned s := by
  cases hmove with
  | lock _ _ hall => exact hall
  | stop hpc => exact h.closed (by simp [hpc])
  | notify hpc => exact h.closed (by simp [hpc])
  | join hpc _ _ => exact h.closed (by simp [hpc])

theorem Waits.destructor_joined (h : Waits p s) (hmove : DestructorMove p s s') {k : Nat}
    (hk : s'.destructor = .join k) : k ≤ p.n.toNat ∧ ∀ w, w < k → s.worker w = .exited := by
  cases hmove with
  | lock _ _ _ => cases hk
  | stop _ => cases hk
  | notify _ =>
    obtain rfl := DestructorPc.join.inj hk
    exact ⟨Nat.zero_le _, fun w hw => absurd hw (Nat.not_lt_zero w)⟩
  | @join v hpc hv hexited =>
    obtain rfl := DestructorPc.join.inj hk
    refine ⟨hv, fun w hw => ?_⟩
    rcases Nat.lt_succ_iff_lt_or_eq.mp hw with hlt | rfl
    · exact (h.joined v hpc).2 w hlt
    · exact hexited

theorem Waits.destructor_cvStop (h : Waits p s) (hmove : DestructorMove p s s')
    (hw : s'.worker w = .asleep) (hstop : s'.stop = true) : s'.destructor = .notify := by
  cases hmove with
  | lock hpc _ _ =>
    have hold := h.stop
    rw [hpc] at hold
    exact absurd (hold.symm.trans hstop) Bool.noConfusion
  | stop _ => rfl
  | notify _ => exact absurd hw (WorkerPc.woken_ne_asleep _)
  | join hpc _ _ =>
    have hold := h.cvStop w hw hstop
    rw [hpc] at hold
    cases hold

theorem Waits.destructor (h : Waits p s) (hmove : DestructorMove p s s') : Waits p s' where
  toReady := h.toReady.wakes hmove.worker (by rw [hmove.queue]; exact id) hmove.stop_of
  callers c hc := by
    rw [hmove.caller]
    exact h.callers c hc
  stop := h.destructor_stop hmove
  closed _ c hc := by
    rw [hmove.caller]
    exact h.destructor_closed hmove c hc
  joined k hk := joined_wakes hmove.worker (h.destructor_joined hmove hk)
  cv w hw hqueue := by
    rw [hmove.caller]
    rw [hmove.queue] at hqueue
    exact h.cv w ((hmove.worker w).old hw (by simp)) hqueue
  cvStop _ hw hstop := h.destructor_cvStop hmove hw hstop
  doneCv c hc := by
    rw [hmove.caller] at hc
    rw [hmove.queue, hmove.active]
    exact (h.doneCv c hc).imp_right (Or.imp_right (signals_wakes hmove.worker))

/-- Some threads that slept are awake. -/
theorem Waits.wakes (h : Waits p s) (hqueue : s'.queue = s.queue) (hactive : s'.active = s.active)
    (hstop : s'.stop = s.stop) (hdestructor : s'.destructor = s.destructor)
    (hworker : ∀ w, (s.worker w).Wakes (s'.worker w))
    (hcaller : ∀ c, (s.caller c).Wakes (s'.caller c)) : Waits p s' where
  toReady := h.toReady.wakes hworker (by rw [hqueue]; exact id) (by rw [hstop]; exact id)
  callers c hc := (hcaller c).keep (h.callers c hc) (by simp)
  stop := by rw [hstop, hdestructor, h.stop]
  closed hne c hc := (hcaller c).keep (h.closed (hdestructor ▸ hne) c hc) (by simp)
  joined k hk := joined_wakes hworker (h.joined k (hdestructor ▸ hk))
  cv w hw hne := by
    obtain ⟨c, hc, hsignals⟩ :=
      h.cv w ((hworker w).old hw (by simp)) (hqueue ▸ hne)
    exact ⟨c, hc, by rw [(hcaller c).signals, hsignals]⟩
  cvStop w hw htrue := by
    rw [hdestructor]
    exact h.cvStop w ((hworker w).old hw (by simp)) (hstop ▸ htrue)
  doneCv c hc := by
    rw [hqueue, hactive]
    have hold := h.doneCv c ((hcaller c).old hc (by simp))
    exact hold.imp_right (Or.imp_right (signals_wakes hworker))

theorem Waits.step {a : PoolAct} {log' : PoolLog} (h : Waits p s) (hcounts : Counts p s' log')
    (hlocks : Locks s) (hmove : Move p s a s') : Waits p s' := by
  cases hmove with
  | worker hw hmove => exact h.worker hcounts hlocks hmove hw
  | caller hc hmove => exact h.caller hmove hc
  | destructor hmove => exact h.destructor hmove
  | wakeWorker hpc => exact h.wakes rfl rfl rfl rfl (wakes_setWorker hpc) fun _ => .inl rfl
  | wakeCaller hpc => exact h.wakes rfl rfl rfl rfl (fun _ => .inl rfl) (wakes_setCaller hpc)

theorem Waits.init (p : PoolUse) : Waits p {} where
  workers _ _ := rfl
  callers _ _ := rfl
  leave w hw := by cases hw
  take w hw := by cases hw
  exited w hw := by cases hw
  stop := rfl
  closed hne := absurd rfl hne
  joined k hk := by cases hk
  cv w hw := by cases hw
  cvStop w hw := by cases hw
  doneCv c hc := by cases hc

end Waits

/-! ### Every run -/

/-- What holds after every step. -/
structure Invariant (p : PoolUse) (s : Pool) (log : PoolLog) : Prop where
  locks : Locks s
  counts : Counts p s log
  calls : Calls p s log
  waits : Waits p s

theorem Locks.init : Locks {} := by
  intro u
  cases u
  all_goals simp [Pool.locked, WorkerPc.locked, CallerPc.locked, DestructorPc.locked]

theorem Invariant.reach {p : PoolUse} {q : Pool × PoolLog}
    (h : p.observed.Reach Machine.anyStep q) : Invariant p q.1 q.2 := by
  refine h.invariant (P := fun q => Invariant p q.1 q.2)
    ⟨Locks.init, Counts.init p, Calls.init p, Waits.init p⟩ fun q a r _ _ hstep hq => ?_
  obtain ⟨hstep, hlog⟩ := Machine.step_record.mp hstep
  have hmove := move_of_step hstep
  rw [hlog]
  have hcounts := hq.counts.step hmove
  exact ⟨hq.locks.step hmove, hcounts, hq.calls.step hq.counts hq.locks hmove,
    hq.waits.step hcounts hq.locks hmove⟩

/-! ### No thread waits for ever -/

/-- All calls have returned and the pool is destroyed. -/
def PoolUse.Finished (p : PoolUse) (s : Pool) : Prop :=
  p.AllReturned s ∧ s.destructor = .join p.n.toNat

section Progress

variable {p : PoolUse} {s : Pool} {log : PoolLog} {w c : Nat}

/-- The owner of the mutex can move. -/
theorem Waits.exists_step_locked (h : Waits p s) {u : PoolThread} (hlocked : s.locked u = true) :
    ∃ a, a.spurious = false ∧ p.step s a ≠ none := by
  cases u with
  | worker w =>
    have hw : w < p.n.toNat := by
      by_contra hle
      rw [Pool.locked, h.workers w (Nat.not_lt.mp hle)] at hlocked
      cases hlocked
    refine ⟨.worker w, rfl, ?_⟩
    simp only [PoolUse.step, if_pos hw, Pool.workerStep]
    simp only [Pool.locked] at hlocked
    cases hpc : s.worker w with
    | check =>
      dsimp only
      split_ifs
      all_goals simp
    | leave =>
      dsimp only
      split_ifs
      all_goals simp
    | take =>
      obtain ⟨task, queue, hqueue⟩ := List.exists_cons_of_ne_nil (h.take w hpc)
      simp [hqueue]
    | count task => simp
    | uncount task => simp
    | _ =>
      rw [hpc] at hlocked
      cases hlocked
  | caller c =>
    have hc : c < p.calls.length := by
      by_contra hle
      rw [Pool.locked, h.callers c (Nat.not_lt.mp hle)] at hlocked
      cases hlocked
    refine ⟨.caller c, rfl, ?_⟩
    simp only [PoolUse.step, if_pos hc, PoolUse.callerStep]
    simp only [Pool.locked] at hlocked
    cases hpc : s.caller c with
    | push k =>
      dsimp only
      split_ifs
      all_goals simp
    | check =>
      dsimp only
      split_ifs
      all_goals simp
    | _ =>
      rw [hpc] at hlocked
      cases hlocked
  | destructor =>
    refine ⟨.destructor, rfl, ?_⟩
    simp only [PoolUse.step, PoolUse.destructorStep]
    simp only [Pool.locked] at hlocked
    cases hpc : s.destructor with
    | stop => simp
    | _ =>
      rw [hpc] at hlocked
      cases hlocked

/-- While the mutex is free, every worker can move that does not sleep and has not ended. -/
theorem Locks.exists_step_worker (h : Locks s) (hmu : s.mu = none) (hw : w < p.n.toNat)
    (hasleep : s.worker w ≠ .asleep) (hexited : s.worker w ≠ .exited) :
    ∃ a, a.spurious = false ∧ p.step s a ≠ none := by
  have hfree : (s.worker w).locked ≠ true := by
    intro hlocked
    have howner := (h (.worker w)).mp hlocked
    rw [hmu] at howner
    cases howner
  refine ⟨.worker w, rfl, ?_⟩
  simp only [PoolUse.step, if_pos hw, Pool.workerStep]
  cases hpc : s.worker w with
  | lock => simp [hmu]
  | run task => simp
  | relock task => simp [hmu]
  | notify => simp
  | asleep => exact absurd hpc hasleep
  | exited => exact absurd hpc hexited
  | _ => exact absurd (by rw [hpc]; rfl) hfree

theorem Locks.exists_step_caller (h : Locks s) (hmu : s.mu = none) (hc : c < p.calls.length)
    (hasleep : s.caller c ≠ .asleep) (hreturned : s.caller c ≠ .returned) :
    ∃ a, a.spurious = false ∧ p.step s a ≠ none := by
  have hfree : (s.caller c).locked ≠ true := by
    intro hlocked
    have howner := (h (.caller c)).mp hlocked
    rw [hmu] at howner
    cases howner
  refine ⟨.caller c, rfl, ?_⟩
  simp only [PoolUse.step, if_pos hc, PoolUse.callerStep]
  cases hpc : s.caller c with
  | lock => simp [hmu]
  | notify => simp
  | relock => simp [hmu]
  | asleep => exact absurd hpc hasleep
  | returned => exact absurd hpc hreturned
  | _ => exact absurd (by rw [hpc]; rfl) hfree

/-- Not all threads sleep while a call waits. -/
theorem Invariant.allReturned (h : Invariant p s log)
    (hworkers : ∀ w, w < p.n.toNat → s.worker w = .asleep ∨ s.worker w = .exited)
    (hcallers : ∀ c, c < p.calls.length → s.caller c = .asleep ∨ s.caller c = .returned) :
    p.AllReturned s := by
  by_contra hnot
  have hclosed : s.destructor = .lock := by
    by_contra hne
    exact hnot (h.waits.closed hne)
  have hpos : 0 < p.n.toNat :=
    Nat.pos_of_ne_zero fun hzero => p.n_ne_zero (UInt32.toNat_inj.mp hzero)
  obtain ⟨c, hc⟩ := not_forall.mp hnot
  obtain ⟨hc, hreturned⟩ := Classical.not_imp.mp hc
  rcases h.waits.doneCv c ((hcallers c hc).resolve_right hreturned) with hqueue | hactive | hsignal
  · -- a worker sleeps although there is a task
    rcases hworkers 0 hpos with hasleep | hexited
    · obtain ⟨d, hd, hsignals⟩ := h.waits.cv 0 hasleep hqueue
      rcases hcallers d hd with hpc | hpc
      all_goals
        rw [hpc] at hsignals
        cases hsignals
    · have hstop := h.waits.exited 0 hexited
      rw [h.waits.stop, hclosed] at hstop
      cases hstop
  · -- a task is active, but no worker has one
    refine hactive (UInt32.toNat_inj.mp ?_)
    rw [h.counts.active]
    refine PoolUse.count_eq_zero fun w hw task htask => ?_
    rcases hworkers w hw with hpc | hpc
    all_goals
      rw [hpc] at htask
      cases htask
  · obtain ⟨w, hw, hsignals⟩ := hsignal
    rcases hworkers w hw with hpc | hpc
    all_goals
      rw [hpc] at hsignals
      cases hsignals

/-- When all calls have returned and no worker can move, the destructor can. -/
theorem Waits.exists_step_destructor (h : Waits p s) (hlocks : Locks s) (hmu : s.mu = none)
    (hall : p.AllReturned s) (hnot : ¬ p.Finished s)
    (hworkers : ∀ w, w < p.n.toNat → s.worker w = .asleep ∨ s.worker w = .exited) :
    ∃ a, a.spurious = false ∧ p.step s a ≠ none := by
  refine ⟨.destructor, rfl, ?_⟩
  simp only [PoolUse.step, PoolUse.destructorStep]
  cases hpc : s.destructor with
  | lock => simp [hmu, hall]
  | stop =>
    have howner := (hlocks .destructor).mp (by rw [Pool.locked, hpc]; rfl)
    rw [hmu] at howner
    cases howner
  | notify => simp
  | join w =>
    -- the next worker has ended, as it was told to stop before
    have hlt : w < p.n.toNat := by
      refine Nat.lt_of_le_of_ne (h.joined w hpc).1 fun heq => hnot ⟨hall, ?_⟩
      rw [hpc, heq]
    have hexited : s.worker w = .exited := by
      refine (hworkers w hlt).resolve_left fun hasleep => ?_
      have hnotify := h.cvStop w hasleep (by rw [h.stop, hpc]; rfl)
      rw [hpc] at hnotify
      cases hnotify
    simp [hlt, hexited]

theorem Invariant.exists_step (h : Invariant p s log) (hnot : ¬ p.Finished s) :
    ∃ a, a.spurious = false ∧ p.step s a ≠ none := by
  -- the owner of the mutex, or else a worker or a call that does not sleep, or else the destructor
  cases hmu : s.mu with
  | some u => exact h.waits.exists_step_locked ((h.locks u).mpr hmu)
  | none =>
    by_cases hworkers : ∀ w, w < p.n.toNat → s.worker w = .asleep ∨ s.worker w = .exited
    swap
    · push Not at hworkers
      obtain ⟨w, hw, hasleep, hexited⟩ := hworkers
      exact h.locks.exists_step_worker hmu hw hasleep hexited
    by_cases hcallers : ∀ c, c < p.calls.length → s.caller c = .asleep ∨ s.caller c = .returned
    swap
    · push Not at hcallers
      obtain ⟨c, hc, hasleep, hreturned⟩ := hcallers
      exact h.locks.exists_step_caller hmu hc hasleep hreturned
    exact h.waits.exists_step_destructor h.locks hmu (h.allReturned hworkers hcallers) hnot hworkers

end Progress

/-! ### Every run ends -/

/-- What a task in the queue is worth: the steps of the worker that takes it, and of the calls that
the worker wakes. -/
def PoolUse.taskRank (p : PoolUse) : Nat := 3 * p.calls.length + 9

/-- The number of steps that a worker causes at most, until it needs another task or a wake-up. -/
def PoolUse.workerRank (p : PoolUse) : WorkerPc → Nat
  | .asleep => 0
  | .exited => 0
  | .take => 1
  | .leave => 2
  | .check => 3
  | .lock => 4
  | .notify => 3 * p.calls.length + 5
  | .uncount _ => 3 * p.calls.length + 6
  | .relock _ => 3 * p.calls.length + 7
  | .run _ => 3 * p.calls.length + 8
  | .count _ => 3 * p.calls.length + 9

def PoolUse.callerRank (p : PoolUse) (c : Nat) : CallerPc → Nat
  | .returned => 0
  | .asleep => 0
  | .check => 1
  | .relock => 2
  | .notify => 4 * p.n.toNat + 3
  | .push k => (p.tasks c - k) * (p.taskRank + 1) + (4 * p.n.toNat + 4)
  | .lock => p.tasks c * (p.taskRank + 1) + (4 * p.n.toNat + 5)

def PoolUse.destructorRank (p : PoolUse) : DestructorPc → Nat
  | .join w => p.n.toNat - w
  | .notify => 5 * p.n.toNat + 1
  | .stop => 5 * p.n.toNat + 2
  | .lock => 5 * p.n.toNat + 3

def PoolUse.workersRank (p : PoolUse) (s : Pool) : Nat :=
  ∑ w ∈ Finset.range p.n.toNat, p.workerRank (s.worker w)

def PoolUse.callersRank (p : PoolUse) (s : Pool) : Nat :=
  ∑ c ∈ Finset.range p.calls.length, p.callerRank c (s.caller c)

def PoolUse.rank (p : PoolUse) (s : Pool) : Nat :=
  p.workersRank s + p.callersRank s + s.queue.length * p.taskRank + p.destructorRank s.destructor

section Rank

variable {p : PoolUse} {s s' : Pool} {log : PoolLog} {w c : Nat}

theorem PoolUse.workersRank_move (hw : w < p.n.toNat)
    (hne : ∀ v, v ≠ w → s'.worker v = s.worker v) :
    p.workersRank s' + p.workerRank (s.worker w) =
      p.workersRank s + p.workerRank (s'.worker w) :=
  sum_move (f := fun v => p.workerRank (s.worker v)) (g := fun v => p.workerRank (s'.worker v)) hw
    fun v hv => by rw [hne v hv]

theorem PoolUse.callersRank_move (hc : c < p.calls.length)
    (hne : ∀ d, d ≠ c → s'.caller d = s.caller d) :
    p.callersRank s' + p.callerRank c (s.caller c) =
      p.callersRank s + p.callerRank c (s'.caller c) :=
  sum_move (f := fun d => p.callerRank d (s.caller d)) (g := fun d => p.callerRank d (s'.caller d))
    hc fun d hd => by rw [hne d hd]

/-- What a `notify_all` costs. -/
theorem PoolUse.workersRank_wakes (h : ∀ w, (s.worker w).Wakes (s'.worker w)) :
    p.workersRank s' ≤ p.workersRank s + p.n.toNat * 4 := by
  refine sum_le_add fun w => ?_
  rcases h w with heq | ⟨hold, hnew⟩
  · rw [heq]
    exact Nat.le_add_right _ _
  · rw [hold, hnew]
    exact Nat.le_refl _

theorem PoolUse.callersRank_wakes (h : ∀ c, (s.caller c).Wakes (s'.caller c)) :
    p.callersRank s' ≤ p.callersRank s + p.calls.length * 2 := by
  refine sum_le_add fun c => ?_
  rcases h c with heq | ⟨hold, hnew⟩
  · rw [heq]
    exact Nat.le_add_right _ _
  · rw [hold, hnew]
    exact Nat.le_refl _

theorem WorkerMove.rankAt_lt (h : WorkerMove s w s') :
    p.workerRank (s'.worker w) + p.callersRank s' + s'.queue.length * p.taskRank <
      p.workerRank (s.worker w) + p.callersRank s + s.queue.length * p.taskRank := by
  have hcallers := PoolUse.callersRank_wakes (p := p) h.caller
  -- a step that leaves the queue and the calls alone
  have hquiet : ∀ {pc}, p.workerRank pc < p.workerRank (s.worker w) →
      p.workerRank (Function.update s.worker w pc w) + p.callersRank s +
          s.queue.length * p.taskRank <
        p.workerRank (s.worker w) + p.callersRank s + s.queue.length * p.taskRank := by
    intro pc hlt
    rw [Function.update_self]
    omega
  cases h with
  | take hpc hqueue =>
    rw [hpc, hqueue, List.length_cons, Nat.add_mul]
    simp only [PoolUse.callersRank, PoolUse.taskRank, Pool.setWorker, Function.update_self,
      PoolUse.workerRank]
    omega
  | notify hpc =>
    rw [hpc]
    simp only [Pool.setWorker, Function.update_self, PoolUse.workerRank, Pool.notifyCallers] at *
    omega
  | lock hpc _ => exact hquiet (by simp [hpc, PoolUse.workerRank])
  | ready hpc _ => exact hquiet (by simp [hpc, PoolUse.workerRank])
  | sleep hpc _ _ => exact hquiet (by simp [hpc, PoolUse.workerRank])
  | exit hpc _ => exact hquiet (by simp [hpc, PoolUse.workerRank])
  | stay hpc _ => exact hquiet (by simp [hpc, PoolUse.workerRank])
  | count hpc => exact hquiet (by simp [hpc, PoolUse.workerRank])
  | run hpc => exact hquiet (by simp [hpc, PoolUse.workerRank])
  | relock hpc _ => exact hquiet (by simp [hpc, PoolUse.workerRank])
  | uncount hpc => exact hquiet (by simp [hpc, PoolUse.workerRank])

theorem CallerMove.rankAt_lt (h : CallerMove p s c s') :
    p.callerRank c (s'.caller c) + p.workersRank s' + s'.queue.length * p.taskRank <
      p.callerRank c (s.caller c) + p.workersRank s + s.queue.length * p.taskRank := by
  have hworkers := PoolUse.workersRank_wakes (p := p) h.worker
  have hquiet : ∀ {pc}, p.callerRank c pc < p.callerRank c (s.caller c) →
      p.callerRank c (Function.update s.caller c pc c) + p.workersRank s +
          s.queue.length * p.taskRank <
        p.callerRank c (s.caller c) + p.workersRank s + s.queue.length * p.taskRank := by
    intro pc hlt
    rw [Function.update_self]
    omega
  cases h with
  | @push k hpc hk =>
    -- a task goes from the call into the queue
    have hsub : p.tasks c - k = p.tasks c - (k + 1) + 1 := by omega
    rw [hpc, List.length_append, Nat.add_mul]
    simp only [PoolUse.workersRank, Pool.setCaller, Function.update_self, PoolUse.callerRank,
      List.length_singleton, Nat.one_mul]
    rw [hsub, Nat.add_mul]
    omega
  | notify hpc =>
    rw [hpc]
    simp only [Pool.setCaller, Function.update_self, PoolUse.callerRank, Pool.notifyWorkers] at *
    omega
  | lock hpc _ => exact hquiet (by simp [hpc, PoolUse.callerRank])
  | pushed hpc _ =>
    refine hquiet ?_
    rw [hpc]
    simp only [PoolUse.callerRank]
    omega
  | relock hpc _ => exact hquiet (by simp [hpc, PoolUse.callerRank])
  | ret hpc _ _ => exact hquiet (by simp [hpc, PoolUse.callerRank])
  | sleep hpc _ => exact hquiet (by simp [hpc, PoolUse.callerRank])

theorem DestructorMove.rankAt_lt (h : DestructorMove p s s') :
    p.workersRank s' + p.destructorRank s'.destructor <
      p.workersRank s + p.destructorRank s.destructor := by
  have hworkers := PoolUse.workersRank_wakes (p := p) h.worker
  cases h with
  | lock hpc _ _ =>
    rw [hpc]
    simp only [PoolUse.workersRank, PoolUse.destructorRank]
    omega
  | stop hpc =>
    rw [hpc]
    simp only [PoolUse.workersRank, PoolUse.destructorRank]
    omega
  | notify hpc =>
    rw [hpc]
    simp only [PoolUse.destructorRank, Nat.sub_zero, Pool.notifyWorkers] at *
    omega
  | join hpc hw _ =>
    rw [hpc]
    simp only [PoolUse.workersRank, PoolUse.destructorRank]
    omega

/-- Every step but a spurious wake-up lowers the rank. -/
theorem Waits.rank_lt {a : PoolAct} (h : Waits p s) (hmove : Move p s a s') :
    p.rank s' < p.rank s + if a.spurious = true then 5 else 0 := by
  unfold PoolUse.rank
  cases hmove with
  | @worker w _ hw hmove =>
    have hrank := PoolUse.workersRank_move (p := p) hw fun v hv => hmove.worker_ne hv
    have hlt := hmove.rankAt_lt (p := p)
    rw [hmove.destructor]
    simp only [PoolAct.spurious]
    omega
  | @caller c _ hc hmove =>
    have hrank := PoolUse.callersRank_move hc fun d hd => hmove.caller_ne hd
    have hlt := hmove.rankAt_lt
    rw [hmove.destructor]
    simp only [PoolAct.spurious]
    omega
  | destructor hmove =>
    have hlt := hmove.rankAt_lt
    rw [PoolUse.callersRank, hmove.caller, hmove.queue]
    simp only [PoolAct.spurious, PoolUse.callersRank]
    omega
  | @wakeWorker w hpc =>
    -- a thread beyond the last one never sleeps
    have hw : w < p.n.toNat := by
      by_contra hle
      rw [h.workers w (Nat.not_lt.mp hle)] at hpc
      cases hpc
    have hrank : p.workersRank (s.setWorker w .lock) + _ = p.workersRank s + _ :=
      PoolUse.workersRank_move hw fun v hv => Function.update_of_ne hv ..
    rw [hpc] at hrank
    simp only [PoolUse.callersRank, PoolAct.spurious, Pool.setWorker, Function.update_self,
      PoolUse.workerRank, if_true] at *
    omega
  | @wakeCaller c hpc =>
    have hc : c < p.calls.length := by
      by_contra hle
      rw [h.callers c (Nat.not_lt.mp hle)] at hpc
      cases hpc
    have hrank : p.callersRank (s.setCaller c .relock) + _ = p.callersRank s + _ :=
      PoolUse.callersRank_move hc fun d hd => Function.update_of_ne hd ..
    rw [hpc] at hrank
    simp only [PoolUse.workersRank, PoolAct.spurious, Pool.setCaller, Function.update_self,
      PoolUse.callerRank, if_true] at *
    omega

end Rank

/-! ### The barrier -/

section Barrier

variable {p : PoolUse} {s : Pool} {log : PoolLog} {c k : Nat}

/-- While no thread has the mutex, the tasks are those counted off, the active ones and the queue.
-/
theorem Invariant.length_submitted (h : Invariant p s log) (hmu : s.mu = none) :
    log.submitted.length = log.finished.length + s.active.toNat + s.queue.length := by
  have hsubmitted := h.counts.submitted fun _ => true
  have hcount : p.count WorkerPc.task? (fun _ => true) s =
      p.count WorkerPc.started? (fun _ => true) s := by
    refine Finset.sum_congr rfl fun w _ => ?_
    cases hpc : s.worker w with
    | count task =>
      -- a worker with a task that is not active has the mutex
      have howner := (h.locks (.worker w)).mp (by rw [Pool.locked, hpc]; rfl)
      rw [hmu] at howner
      cases howner
    | _ => rfl
  rw [hcount, ← h.counts.active] at hsubmitted
  simp only [List.countP_true] at hsubmitted
  omega

/-- A task is started after it is taken out of the queue. -/
theorem Invariant.count_started_le (h : Invariant p s log) (task : PoolTask) :
    log.started.count task ≤ 1 := by
  have hstarted : log.started.count task =
    p.count WorkerPc.started? (· == task) s + log.finished.count task := h.counts.started _
  have hle : p.count WorkerPc.started? (· == task) s ≤ p.count WorkerPc.task? (· == task) s := by
    refine Finset.sum_le_sum fun w _ => ?_
    cases s.worker w
    all_goals simp [WorkerPc.started?, WorkerPc.task?]
  have hcount := h.counts.count_eq task
  have hone : log.submitted.count task ≤ 1 := by
    rw [h.calls.submitted task.1 task.2]
    split_ifs
    all_goals omega
  omega

/-- When a call has returned, its tasks are nowhere any more. -/
theorem Invariant.returned (h : Invariant p s log) (hpc : s.caller c = .returned)
    (hk : k < p.tasks c) :
    log.started.count (c, k) = 1 ∧ log.ended.count (c, k) = 1 ∧ (c, k) ∉ s.queue ∧
      ∀ w, w < p.n.toNat → (s.worker w).task? ≠ some (c, k) := by
  have hfinished := h.calls.finished c hpc k hk
  have hcount := h.counts.count_eq (c, k)
  have hsubmitted := h.calls.submitted c k
  rw [hpc, if_pos (show k < p.pushed c .returned from hk)] at hsubmitted
  -- it is submitted once and counted off once, so that it is neither in the queue nor with a worker
  have hqueue : s.queue.count (c, k) = 0 := by omega
  have htask : p.count WorkerPc.task? (· == (c, k)) s = 0 := by omega
  have hnone : ∀ w, w < p.n.toNat → (s.worker w).task? ≠ some (c, k) := by
    intro w hw hsome
    have hfalse := PoolUse.of_count_eq_zero htask hw hsome
    simp at hfalse
  have hzero : ∀ task? : WorkerPc → Option PoolTask,
      (∀ pc task, task? pc = some task → pc.task? = some task) →
        p.count task? (· == (c, k)) s = 0 := by
    intro task? htask?
    refine PoolUse.count_eq_zero fun w hw task hsome => ?_
    by_contra htrue
    rw [Bool.not_eq_false, beq_iff_eq] at htrue
    exact hnone w hw (htrue ▸ htask? _ _ hsome)
  refine ⟨?_, ?_, List.count_eq_zero.mp hqueue, hnone⟩
  · have hstarted : log.started.count (c, k) =
      p.count WorkerPc.started? (· == (c, k)) s + log.finished.count (c, k) := h.counts.started _
    rw [hstarted, hfinished, hzero]
    intro pc task hsome
    cases pc
    all_goals first | exact hsome | cases hsome
  · have hended : log.ended.count (c, k) =
      p.count WorkerPc.ended? (· == (c, k)) s + log.finished.count (c, k) := h.counts.ended _
    rw [hended, hfinished, hzero]
    intro pc task hsome
    cases pc
    all_goals first | exact hsome | cases hsome

/-- When all calls have returned, every task that was submitted has run once. -/
theorem Invariant.finished (h : Invariant p s log) (hall : p.AllReturned s) {task : PoolTask}
    (htask : task ∈ log.submitted) : log.started.count task = 1 ∧ log.ended.count task = 1 := by
  obtain ⟨c, k⟩ := task
  have hpos := List.count_pos_iff.mpr htask
  rw [h.calls.submitted] at hpos
  have hk : k < p.pushed c (s.caller c) := by
    by_contra hnot
    rw [if_neg hnot] at hpos
    exact absurd hpos (Nat.lt_irrefl 0)
  have hc : c < p.calls.length := by
    by_contra hle
    rw [h.waits.callers c (Nat.not_lt.mp hle)] at hk
    exact absurd hk (Nat.not_lt_zero k)
  rw [hall c hc] at hk
  obtain ⟨hstarted, hended, -⟩ := h.returned (hall c hc) hk
  exact ⟨hstarted, hended⟩

end Barrier

/-- `run_all` is a barrier, for every pool, all calls on it and every order of the steps: every task
is started at most once; at every unlock the submitted tasks are those counted off, the active ones
and those in the queue; when a call has returned, each of its tasks has run once and to its end, and
no worker and no queue has it; and every run ends, spurious wake-ups apart, with all calls returned,
whatever the order. -/
theorem run_all_barrier (p : PoolUse) :
    (∃ bound, ∀ as q, p.observed.Path Machine.anyStep p.observed.init as q →
      as.length ≤ bound + 5 * as.countP PoolAct.spurious) ∧
    ∀ s log, p.observed.Reach Machine.anyStep (s, log) →
      (∀ task, log.started.count task ≤ 1) ∧
      (s.mu = none →
        log.submitted.length = log.finished.length + s.active.toNat + s.queue.length) ∧
      (∀ c, s.caller c = .returned → ∀ k, k < p.tasks c →
        log.started.count (c, k) = 1 ∧ log.ended.count (c, k) = 1 ∧ (c, k) ∉ s.queue ∧
          ∀ w, w < p.n.toNat → (s.worker w).task? ≠ some (c, k)) ∧
      (¬ p.Finished s → ∃ a q, a.spurious = false ∧ p.observed.step (s, log) a = some q) ∧
      (p.Finished s →
        ∀ task ∈ log.submitted, log.started.count task = 1 ∧ log.ended.count task = 1) := by
  constructor
  · refine ⟨p.rank p.observed.init.1, fun as q h => ?_⟩
    refine h.length_le_countP (fun q : Pool × PoolLog => p.rank q.1) PoolAct.spurious 5 ?_
    intro q a r hreach _ hstep
    exact (Invariant.reach hreach).waits.rank_lt (move_of_step (Machine.step_record.mp hstep).1)
  · intro s log hreach
    have h : Invariant p s log := Invariant.reach hreach
    refine ⟨h.count_started_le, h.length_submitted, fun c hpc k hk => h.returned hpc hk,
      fun hnot => ?_, fun hfinished task htask => h.finished hfinished.1 htask⟩
    obtain ⟨a, hspurious, hstep⟩ := h.exists_step hnot
    obtain ⟨s', hstep⟩ := Option.ne_none_iff_exists'.mp hstep
    obtain ⟨q, hq⟩ := Machine.exists_step_record (M := p.machine) (p := (s, log)) hstep
    exact ⟨a, q, hspurious, hq⟩

end WrapperPaas.ThreadPool
