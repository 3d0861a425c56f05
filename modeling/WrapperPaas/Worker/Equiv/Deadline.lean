/-
  When a worker is timed out.

  `request` sets its deadline before it queues for the mutex and before it starts a worker, so the
  request timeout also pays for the queue and for the startup.  A worker is handed the request in
  time for the response exactly if the timeout covers both and the response, with a millisecond to
  spare for the rounding of `poll` (`answered_in_time_iff`).

  As long as there is time, a thread is on its way to the response (`OnWay`), whatever the others do
  (`OnWay.step`), and can go on to the end (`OnWay.delivers`).  If the time is too short the thread
  may give up at any point of the last millisecond, and a thread that has given up never returns
  the response (`Pc.gaveUp`).
-/
import Mathlib.Data.List.Basic
import Mathlib.Order.Lattice
import WrapperPaas.Worker.Equiv.Calls
import WrapperPaas.Worker.Equiv.Response
import WrapperPaas.Worker.Equiv.Startup
import WrapperPaas.Worker.Equiv.Synchrony

namespace WrapperPaas

namespace Supervisor

/-! ### The hand-over -/

/-- A request that the worker accepts, the process that serves it, and a response to it. -/
structure Service where
  call : CallId
  request : Request
  proc : ProcId
  response : Frame
  payload_le : request.payload.length ≤ Daemon.kMaxPayload
  kind : response.kind = kindResponse
  requestId : response.requestId = request.id
  opcode : response.opcode = request.opcode
  response_lt : response.payload.length < 2 ^ 32

/-- The process runs, and it has answered the call with nothing but the response. -/
def System.Healthy (s : System) (x : Service) : Prop :=
  ∃ q, s.procs[x.proc]? = some q ∧ q.running = true ∧ RepliesWith q.link x.call x.response

instance (s : System) (x : Service) : Decidable (s.Healthy x) :=
  decidable_of_iff ((s.procs[x.proc]?).any (fun q =>
    decide (q.running = true ∧ RepliesWith q.link x.call x.response)) = true) (by
      rw [Option.any_eq_true]
      simp only [decide_eq_true_eq]
      rfl)

/-- The call is about to hand its request to the worker in the slot, which is ready. -/
structure HandOver (s : System) (x : Service) : Prop where
  exited : s.exited = false
  thread : s.threads[x.call]? = some (.begin x.request)
  slot : s.worker.proc = some x.proc
  healthy : s.Healthy x

instance (s : System) (x : Service) : Decidable (HandOver s x) :=
  decidable_of_iff (s.exited = false ∧ s.threads[x.call]? = some (.begin x.request) ∧
    s.worker.proc = some x.proc ∧ s.Healthy x)
    ⟨fun ⟨h₁, h₂, h₃, h₄⟩ => ⟨h₁, h₂, h₃, h₄⟩, fun ⟨h₁, h₂, h₃, h₄⟩ => ⟨h₁, h₂, h₃, h₄⟩⟩

/-- Time stays within the limit, and no system call of the call fails. -/
def Act.InTime (s : System) (t : CallId) (limit : Instant) : Act → Prop
  | .tick d => s.now + d ≤ limit
  | .io u (.fail _ _) => u ≠ t
  | _ => True

/-- A step until the call returns, while the worker serves it: the process runs on, and all that it
answers to the call is the response.  Everything is over by the limit. -/
structure Serving (c : Config) (x : Service) (limit : Instant) (s : System) (act : Act) : Prop where
  waiting : ∀ r result, s.threads[x.call]? ≠ some (.returned r result)
  inTime : act.InTime s x.call limit
  healthy : ∀ s', s.step c act = some s' → s'.Healthy x

/-- The call can still return the response, with the worker in the slot. -/
def Delivers (c : Config) (x : Service) (limit : Instant) (s : System) : Prop :=
  ∃ as s', (workerMachine c).Path (Serving c x limit) s as s' ∧
    s'.threads[x.call]? = some (.returned x.request (.ok x.response)) ∧
    s'.worker.proc = some x.proc

/-- However the threads run and the worker serves the call until the limit, the call returns the
response: it never gives up the worker, and nothing keeps it from returning. -/
def AnsweredBy (c : Config) (x : Service) (limit : Instant) (s : System) : Prop :=
  ∀ as s', (workerMachine c).Path (Serving c x limit) s as s' → Delivers c x limit s'

/-! ### On the way -/

/-- Where the thread of a request is that will return the response; it entered no `wait_fd` before
the hand-over. -/
inductive Stop (x : Service) (start now : Instant) : Pc → Prop
  | begin : Stop x start now (.begin x.request)
  | exchange {y : Transfer} (start_le : start ≤ y.since) (le_now : y.since ≤ now)
      (incomplete : y.Incomplete) : Stop x start now (.exchange x.request x.proc y)
  | compare : Stop x start now (.compare x.request x.response)
  | resetFailures : Stop x start now (.resetFailures x.request x.response)
  | untrack : Stop x start now (.untrack x.request (.ok x.response))
  | unlock : Stop x start now (.unlock x.request (.ok x.response))
  | returned : Stop x start now (.returned x.request (.ok x.response))

/-- The call is on its way to the response. -/
structure OnWay (c : Config) (x : Service) (start limit : Instant) (s : System) : Prop where
  reach : (workerMachine c).Reach Machine.anyStep s
  exited : s.exited = false
  now_le : s.now ≤ limit
  start_le : start ≤ s.now
  slot : s.worker.proc = some x.proc
  healthy : s.Healthy x
  stop : ∃ pc, s.threads[x.call]? = some pc ∧ Stop x start s.now pc

/-- The limit leaves a millisecond before the deadline, and `poll` can wait until then. -/
structure InBudget (x : Service) (start limit : Instant) : Prop where
  deadline : limit + milliseconds 1 ≤ x.request.deadline
  poll : limit < start + milliseconds (2 ^ 31 - 1)

section Time

variable {x : Service} {start limit since now : Nat}

theorem InBudget.lt_pollExpiry (h : InBudget x start limit) (hstart : start ≤ since)
    (hnow : now ≤ limit) : now < pollExpiry x.request.deadline since := by
  have hdeadline : limit + 1 * 1000000 ≤ x.request.deadline := h.deadline
  have hpoll : limit < start + (2 ^ 31 - 1) * 1000000 := h.poll
  unfold pollExpiry milliseconds
  obtain hmin | hmin := min_choice ((x.request.deadline - since) / 1000000) (2 ^ 31 - 1)
  · -- less than a millisecond is rounded off
    rw [hmin]
    omega
  · rw [hmin]
    omega

theorem InBudget.lt_deadline (h : InBudget x start limit) (hsince : since ≤ now)
    (hnow : now ≤ limit) : since < x.request.deadline := by
  have hdeadline : limit + 1 * 1000000 ≤ x.request.deadline := h.deadline
  omega

theorem inBudget_iff {called start ρ timeout : Nat}
    (hdeadline : x.request.deadline = called + timeout) (hcalled : called ≤ start) :
    InBudget x start (start + ρ) ↔
      start - called + ρ + milliseconds 1 ≤ timeout ∧ ρ < milliseconds (2 ^ 31 - 1) := by
  have hms : start + ρ + milliseconds 1 ≤ called + timeout ↔
      start - called + ρ + milliseconds 1 ≤ timeout := by omega
  constructor
  · rintro ⟨hle, hpoll⟩
    rw [hdeadline] at hle
    exact ⟨hms.mp hle, Nat.lt_of_add_lt_add_left hpoll⟩
  · rintro ⟨hle, hpoll⟩
    refine ⟨?_, Nat.add_lt_add_left hpoll start⟩
    rw [hdeadline]
    exact hms.mpr hle

/-- In the last millisecond `poll` does not wait. -/
theorem pollExpiry_of_late {deadline limit : Nat} (h : ¬ limit + milliseconds 1 ≤ deadline) :
    pollExpiry deadline limit = limit := by
  have hlate : deadline < limit + 1 * 1000000 := Nat.not_le.mp h
  have hzero : (deadline - limit) / 1000000 = 0 := by omega
  rw [pollExpiry, hzero]
  rfl

theorem pollExpiry_le (deadline since : Nat) :
    pollExpiry deadline since ≤ since + milliseconds (2 ^ 31 - 1) :=
  Nat.add_le_add_left (Nat.mul_le_mul_right _ (Nat.min_le_right ..)) since

end Time

/-! ### The owner of the mutex -/

/-- Nothing can happen to the thread but the next step of its function or a round of a transfer. -/
def Pc.plain : Pc → Bool
  | .begin _ | .exchange _ _ _ | .compare _ _ | .countTimeout _ _ | .abandon _ _ _
  | .resetFailures _ _ | .untrack _ _ | .unlock _ _ | .returned _ _ => true
  | _ => false

/-- While a thread owns the mutex, only itself fills or empties the slot. -/
theorem InStep.slot_eq {v v' : View} {t : CallId} (h : InStep v) (hs : ViewStep v v')
    (hlock : v.lock = some t) (hfresh : ∀ p, v.stage t ≠ .fresh p) (hbroken : v.stage t ≠ .broken) :
    v'.slot = v.slot := by
  have hother : ∀ u st, v.stage u = st → (∀ resp, st ≠ .free resp) → v.stage t = st := by
    intro u st hst hfree
    obtain rfl := Option.some.inj (hlock.symm.trans (h.owns hst hfree))
    exact hst
  cases hs with
  | take hl =>
    rw [hlock] at hl
    cases hl
  | drop hst => exact absurd (hother _ _ hst fun _ hn => by cases hn) hbroken
  | install hst => exact absurd (hother _ _ hst fun _ hn => by cases hn) (hfresh _)
  | _ => rfl

namespace System

variable {c : Config} {s s' : System} {t : CallId} {pc : Pc} {act : Act}

/-- While a thread owns the mutex, the supervisor exits only if that thread fails to start a
worker. -/
theorem running_step (h : InStep s.view) (hst : s.step c act = some s') (hlock : s.lock = some t)
    (ht : s.threads[t]? = some pc) (hpc : ∀ k spc, pc ≠ .spawn k spc) : s'.exited = false := by
  have hrunning := running_of_step hst
  -- the thread that spawns is the owner
  have hspawn : ∀ (u : CallId) k spc, s.threads[u]? = some (Pc.spawn k spc) →
      (∀ resp, Pc.stage (.spawn k spc) ≠ .free resp) → False := by
    intro u k spc hu hstage
    have howner := h.owns (stage_of_getElem? hu) hstage
    obtain rfl := Option.some.inj (hlock.symm.trans howner)
    exact hpc k spc (Option.some.inj (ht.symm.trans hu))
  rcases exited_step (book_step hst) with he | ⟨u, rfl⟩ | ⟨u, tr, rfl, hd⟩
  · exact Eq.trans he hrunning
  · simp only [step, hrunning] at hst
    obtain ⟨pc', hu, hf⟩ := withThread_eq_some hst
    split at hf
    · exact (hspawn u _ _ hu fun _ hn => by cases hn).elim
    · cases hf
  · simp only [step, hrunning] at hst
    obtain ⟨pc', hu, hf⟩ := withThread_eq_some hst
    have hdesk := Option.some.inj ((desk_of_getElem? hu).symm.trans hd)
    obtain ⟨k, rfl⟩ := Pc.eq_failed hdesk
    exact (hspawn u _ _ hu fun _ hn => by cases hn).elim

theorem step_of_plain (h : s.step c act = some s') (hact : act.thread = some t)
    (ht : s.threads[t]? = some pc) (hpc : pc.plain = true) :
    act = .run t ∧ s.runPc c t pc = some s' ∨ ∃ a, act = .io t a ∧ s.runIo t a pc = some s' := by
  -- the step is one of thread `t` at `pc`
  have hat : ∀ {f : Pc → Option System}, s.withThread t f = some s' → f pc = some s' := by
    intro f hf
    obtain ⟨pc', ht', hf⟩ := withThread_eq_some hf
    rwa [Option.some.inj (ht.symm.trans ht')]
  unfold step at h
  split_ifs at h
  cases act with
  | run u =>
    obtain rfl := Option.some.inj hact
    exact .inl ⟨rfl, hat h⟩
  | io u a =>
    obtain rfl := Option.some.inj hact
    exact .inr ⟨a, rfl, hat h⟩
  | poisoned u =>
    obtain rfl := Option.some.inj hact
    obtain ⟨pc', hpc', -⟩ := Option.map_eq_some_iff.mp (hat h)
    unfold poison at hpc'
    split at hpc'
    · cases hpc
    · cases hpc
    · cases hpc
    · cases hpc
    · cases hpc'
  | tryWaitFails u message =>
    obtain rfl := Option.some.inj hact
    have hf := hat h
    split at hf
    · cases hpc
    · cases hpc
    · cases hf
  | launch u pid | launchFails u =>
    obtain rfl := Option.some.inj hact
    have hf := hat h
    split at hf
    · cases hpc
    · cases hf
  | _ => cases hact

end System

/-! ### Steps on the way -/

namespace Stop

variable {x : Service} {start now : Instant} {pc : Pc}

theorem plain (h : Stop x start now pc) : pc.plain = true := by
  cases h <;> rfl

theorem stage_ne_fresh (h : Stop x start now pc) (p : ProcId) : pc.stage ≠ .fresh p := by
  intro hfresh
  cases h <;> cases hfresh

theorem stage_ne_broken (h : Stop x start now pc) : pc.stage ≠ .broken := by
  intro hbroken
  cases h <;> cases hbroken

/-- The thread holds the mutex until it returns. -/
theorem stage_ne_free (h : Stop x start now pc) (hpc : ∀ r result, pc ≠ .returned r result)
    (resp : Option (Request × Frame)) : pc.stage ≠ .free resp := by
  intro hfree
  cases h with
  | returned => exact hpc _ _ rfl
  | _ => cases hfree

/-- Time passes. -/
theorem mono (h : Stop x start now pc) {now' : Instant} (hnow : now ≤ now') :
    Stop x start now' pc := by
  cases h with
  | begin => exact .begin
  | exchange start_le le_now incomplete =>
    exact .exchange start_le (Nat.le_trans le_now hnow) incomplete
  | compare => exact .compare
  | resetFailures => exact .resetFailures
  | untrack => exact .untrack
  | unlock => exact .unlock
  | returned => exact .returned

end Stop

/-- The call writes its request to the worker in the slot. -/
theorem System.runPc_begin {c : Config} {s : System} {x : Service} {q : Process}
    (hslot : s.worker.proc = some x.proc) (hq : s.procs[x.proc]? = some q) :
    s.runPc c x.call (.begin x.request) =
      some ((s.setLink x.proc (q.link.ask (.request x.call, x.request.frame))).move x.call
        (.exchange x.request x.proc (.writing (frameBytes x.request.frame) s.now))) := by
  have hmax : Daemon.kMaxPayload = 2 ^ 28 := by decide
  have hle : x.request.frame.payload.length ≤ Daemon.kMaxPayload := x.payload_le
  simp only [runPc, hslot, hq]
  rw [writeFrame_eq (by omega)]
  rfl

namespace OnWay

variable {c : Config} {x : Service} {start limit : Instant} {s s' : System} {act : Act}

theorem inStep (h : OnWay c x start limit s) : InStep s.view := InStep.reach h.reach

theorem entered (h : OnWay c x start limit s) {y : Transfer}
    (ht : s.threads[x.call]? = some (.exchange x.request x.proc y)) :
    start ≤ y.since ∧ y.since ≤ s.now ∧ y.Incomplete := by
  obtain ⟨pc, ht', hstop⟩ := h.stop
  obtain rfl := Option.some.inj (ht.symm.trans ht')
  cases hstop with
  | exchange start_le le_now incomplete => exact ⟨start_le, le_now, incomplete⟩

/-- The transfer of the call's request is one to a worker that answers with the response. -/
theorem arriving (h : OnWay c x start limit s) {y : Transfer}
    (ht : s.threads[x.call]? = some (.exchange x.request x.proc y)) :
    ∃ q, s.procs[x.proc]? = some q ∧ q.running = true ∧
      Arriving q.link x.call x.request.frame x.response y := by
  have hy := (h.entered ht).2.2
  obtain ⟨q, hq, hrunning, hreplies⟩ := h.healthy
  obtain ⟨-, l, hl, hexchange⟩ := h.inStep.ok_of (System.stage_of_getElem? ht)
  have hlink := System.links_getElem? hq
  obtain rfl := Option.some.inj (hl.symm.trans hlink)
  have hflows := h.inStep.flows _ (List.mem_of_getElem? hl)
  exact ⟨q, hq, hrunning, hexchange, hflows, hreplies, x.response_lt, hy⟩

/-- The call's own step. -/
theorem stop_step (h : OnWay c x start limit s) (hbudget : InBudget x start limit)
    (hG : Serving c x limit s act) (hst : s.step c act = some s')
    (hact : act.thread = some x.call) :
    ∃ pc, s'.threads[x.call]? = some pc ∧ Stop x start s'.now pc := by
  obtain ⟨pc, ht, hstop⟩ := h.stop
  obtain ⟨rfl, hrun⟩ | ⟨a, rfl, hio⟩ := System.step_of_plain hst hact ht hstop.plain
  · cases hstop with
    | begin =>
      obtain ⟨q, hq, -, -⟩ := h.healthy
      rw [System.runPc_begin h.slot hq] at hrun
      obtain rfl := Option.some.inj hrun
      exact ⟨_, System.threads_move ht _, .exchange h.start_le (Nat.le_refl _) trivial⟩
    | exchange => cases hrun
    | compare =>
      have hmatch : ¬ (x.response.kind ≠ kindResponse ∨ x.response.requestId ≠ x.request.id ∨
          x.response.opcode ≠ x.request.opcode) := by
        simp [x.kind, x.requestId, x.opcode]
      simp only [System.runPc] at hrun
      rw [if_neg hmatch] at hrun
      obtain rfl := Option.some.inj hrun
      exact ⟨_, System.threads_move ht _, .resetFailures⟩
    | resetFailures =>
      obtain rfl := Option.some.inj hrun
      exact ⟨_, System.threads_move ht _, .untrack⟩
    | untrack =>
      obtain rfl := Option.some.inj hrun
      exact ⟨_, System.threads_move ht _, .unlock⟩
    | unlock =>
      obtain rfl := Option.some.inj hrun
      exact ⟨_, System.threads_move ht _, .returned⟩
    | returned => exact absurd ht (hG.waiting _ _)
  · cases hstop with
    | @exchange y start_le le_now incomplete =>
      obtain ⟨q, hq, -, harriving⟩ := h.arriving ht
      have hfail : ∀ kind message, a ≠ .fail kind message := by
        rintro kind message rfl
        exact hG.inTime rfl
      simp only [System.runIo, hq] at hio
      split at hio
      · cases hio
      · rename_i l result hround
        obtain rfl := Option.some.inj hio
        have htime := hbudget.lt_pollExpiry start_le h.now_le
        obtain rfl | ⟨y', rfl, hsince, hincomplete⟩ := harriving.round hround hfail htime
        · exact ⟨_, System.threads_move ht _, .compare⟩
        · refine ⟨_, System.threads_move ht _, .exchange ?_ ?_ hincomplete⟩
          · rw [hsince]
            exact h.start_le
          · exact Nat.le_of_eq hsince
    | _ => cases hio

/-- **Every step** of the threads, the processes and the clock keeps the call on its way. -/
theorem step (h : OnWay c x start limit s) (hbudget : InBudget x start limit)
    (hG : Serving c x limit s act) (hst : s.step c act = some s') : OnWay c x start limit s' := by
  have hnow := System.now_le_step hst
  obtain ⟨pc, ht, hstop⟩ := h.stop
  have hstage : s.view.stage x.call = pc.stage := System.stage_of_getElem? ht
  have hwaiting : ∀ r result, pc ≠ .returned r result := fun r result hpc =>
    hG.waiting r result (ht.trans (congrArg some hpc))
  have hlock : s.lock = some x.call := h.inStep.owns hstage (hstop.stage_ne_free hwaiting)
  have hslot : s'.worker.proc = s.worker.proc := by
    apply h.inStep.slot_eq (System.view_step hst) hlock
    · intro p
      rw [hstage]
      exact hstop.stage_ne_fresh p
    · rw [hstage]
      exact hstop.stage_ne_broken
  refine ⟨h.reach.next trivial hst, ?_, ?_, Nat.le_trans h.start_le hnow, hslot.trans h.slot,
    hG.healthy s' hst, ?_⟩
  · apply System.running_step h.inStep hst hlock ht
    rintro k spc rfl
    cases hstop
  · rcases System.now_step hst with he | ⟨d, rfl, rfl⟩
    · rw [he]
      exact h.now_le
    · exact hG.inTime
  · by_cases hact : act.thread = some x.call
    · exact h.stop_step hbudget hG hst hact
    · exact ⟨pc, System.threads_step hst hact ht, hstop.mono hnow⟩

end OnWay

/-! ### To the end -/

theorem Serving.of_step {c : Config} {x : Service} {limit : Instant} {s s' : System} {act : Act}
    {pc : Pc} (ht : s.threads[x.call]? = some pc) (hpc : ∀ r result, pc ≠ .returned r result)
    (hst : s.step c act = some s') (hact : act.InTime s x.call limit) (hhealthy : s'.Healthy x) :
    Serving c x limit s act := by
  refine ⟨fun r result hn => ?_, hact, fun s'' hs'' => ?_⟩
  · exact hpc r result (Option.some.inj (ht.symm.trans hn))
  · rwa [← Option.some.inj (hst.symm.trans hs'')]

theorem System.healthy_setLink {s : System} {x : Service} {q : Process} {l : Pipes}
    (hq : s.procs[x.proc]? = some q) (hrunning : q.running = true)
    (hr : RepliesWith l x.call x.response) : (s.setLink x.proc l).Healthy x :=
  ⟨_, System.procs_setLink hq, hrunning, hr⟩

/-- The request is handed over. -/
theorem HandOver.begin_step {s : System} {x : Service} (hx : HandOver s x) (c : Config)
    (h : InStep s.view) : ∃ s', s.step c (.run x.call) = some s' ∧ s'.exited = false ∧
      s'.Healthy x ∧ s'.now = s.now ∧ s'.threads[x.call]? =
        some (.exchange x.request x.proc (.writing (frameBytes x.request.frame) s.now)) := by
  obtain ⟨q, hq, hrunning, hreplies⟩ := hx.healthy
  -- nothing is outstanding for the worker in the slot
  obtain ⟨l, hl, hsynced⟩ := (h.ok_of (System.stage_of_getElem? hx.thread)).1 x.proc hx.slot
  obtain rfl := Option.some.inj (hl.symm.trans (System.links_getElem? hq))
  have hlen : q.link.answers.length = q.link.asked.length := by
    simpa using congrArg List.length hsynced.answered
  have hst : s.step c (.run x.call) = some _ :=
    (System.step_run hx.exited hx.thread).trans (System.runPc_begin hx.slot hq)
  have hhealthy := System.healthy_setLink hq hrunning
    (hreplies.ask (Nat.le_of_eq hlen) (.request x.call, x.request.frame))
  exact ⟨_, hst, hx.exited, hhealthy, rfl, System.threads_move hx.thread _⟩

namespace OnWay

variable {c : Config} {x : Service} {start limit : Instant} {s s' : System} {act : Act}

/-- A step towards the response. -/
theorem delivers_of_step (h : OnWay c x start limit s) (hbudget : InBudget x start limit)
    {pc : Pc} (ht : s.threads[x.call]? = some pc) (hpc : ∀ r result, pc ≠ .returned r result)
    (hst : s.step c act = some s') (hact : act.InTime s x.call limit) (hhealthy : s'.Healthy x)
    (hrest : OnWay c x start limit s' → Delivers c x limit s') : Delivers c x limit s := by
  have hG := Serving.of_step ht hpc hst hact hhealthy
  obtain ⟨as, u, hpath, hend⟩ := hrest (h.step hbudget hG hst)
  exact ⟨act :: as, u, .cons hG hst hpath, hend⟩

variable (hbudget : InBudget x start limit)

include hbudget

theorem delivers_unlock (h : OnWay c x start limit s)
    (ht : s.threads[x.call]? = some (.unlock x.request (.ok x.response))) :
    Delivers c x limit s := by
  apply h.delivers_of_step hbudget ht (fun _ _ hn => by cases hn) (System.step_run h.exited ht)
    trivial h.healthy
  intro h'
  exact ⟨[], _, .nil _, System.threads_move ht _, h'.slot⟩

theorem delivers_untrack (h : OnWay c x start limit s)
    (ht : s.threads[x.call]? = some (.untrack x.request (.ok x.response))) :
    Delivers c x limit s := by
  apply h.delivers_of_step hbudget ht (fun _ _ hn => by cases hn) (System.step_run h.exited ht)
    trivial h.healthy
  exact fun h' => h'.delivers_unlock hbudget (System.threads_move ht _)

theorem delivers_resetFailures (h : OnWay c x start limit s)
    (ht : s.threads[x.call]? = some (.resetFailures x.request x.response)) :
    Delivers c x limit s := by
  apply h.delivers_of_step hbudget ht (fun _ _ hn => by cases hn) (System.step_run h.exited ht)
    trivial h.healthy
  exact fun h' => h'.delivers_untrack hbudget (System.threads_move ht _)

theorem delivers_compare (h : OnWay c x start limit s)
    (ht : s.threads[x.call]? = some (.compare x.request x.response)) : Delivers c x limit s := by
  apply h.delivers_of_step hbudget ht (fun _ _ hn => by cases hn) (System.step_run h.exited ht)
    trivial h.healthy
  intro h'
  apply h'.delivers_resetFailures hbudget
  rw [if_neg (by simp [x.kind, x.requestId, x.opcode])]
  exact System.threads_move ht _

/-- The worker has written its answer, and the call reads it byte by byte. -/
theorem delivers_emitted {n : Nat} (h : OnWay c x start limit s) {q : Process}
    (hq : s.procs[x.proc]? = some q) (hlen : q.link.answers.length = q.link.asked.length)
    (hemitted : q.link.emitted = q.link.answerBytes.length) {buf : Bytes} {since : Instant}
    (ht : s.threads[x.call]? = some (.exchange x.request x.proc (.reading buf since)))
    (hn : (frameBytes x.response).length ≤ buf.length + n) : Delivers c x limit s := by
  induction n generalizing s q buf since with
  | zero =>
    obtain ⟨q', hq', -, harriving⟩ := h.arriving ht
    obtain rfl := Option.some.inj (hq.symm.trans hq')
    obtain ⟨-, -, hlt⟩ | ⟨-, tail, htail, hprefix, -⟩ := harriving.unread_or_missing
    · omega
    · -- the last byte cannot have been read
      have hpos : 0 < tail.length := List.length_pos_of_ne_nil htail
      rw [← hprefix, List.length_append] at hn
      omega
  | succ n ih =>
    obtain ⟨q', hq', hrunning, harriving⟩ := h.arriving ht
    obtain rfl := Option.some.inj (hq.symm.trans hq')
    have hsince := hbudget.lt_deadline (h.entered ht).2.1 h.now_le
    have havailable := harriving.available_pos hlen hemitted
    obtain hround | hround := harriving.step_read_one s.now hsince hlen hemitted
    · apply h.delivers_of_step hbudget ht (fun _ _ hn => by cases hn)
        (System.step_io h.exited ht hq hround) trivial
        (System.healthy_setLink hq hrunning harriving.replies)
      exact fun h' => h'.delivers_compare hbudget (System.threads_move ht _)
    · apply h.delivers_of_step hbudget ht (fun _ _ hn => by cases hn)
        (System.step_io h.exited ht hq hround) trivial
        (System.healthy_setLink hq hrunning harriving.replies)
      intro h'
      apply ih h' (System.procs_setLink hq) hlen hemitted (System.threads_move ht _)
      rw [List.length_append, List.length_take_of_le havailable]
      omega

/-- The worker has an answer. -/
theorem delivers_answered (h : OnWay c x start limit s) {q : Process}
    (hq : s.procs[x.proc]? = some q) (hlen : q.link.answers.length = q.link.asked.length)
    {buf : Bytes} {since : Instant}
    (ht : s.threads[x.call]? = some (.exchange x.request x.proc (.reading buf since))) :
    Delivers c x limit s := by
  obtain ⟨q', hq', hrunning, harriving⟩ := h.arriving ht
  obtain rfl := Option.some.inj (hq.symm.trans hq')
  have hle := harriving.flows.emitted_le
  have hemit : q.link.emitted + (q.link.answerBytes.length - q.link.emitted) =
      q.link.answerBytes.length := by omega
  have hst := System.step_emit (c := c) h.exited hq hrunning (Nat.le_of_eq hemit)
  apply h.delivers_of_step hbudget ht (fun _ _ hn => by cases hn) hst trivial
    (System.healthy_setLink hq hrunning harriving.replies)
  intro h'
  exact h'.delivers_emitted hbudget (System.procs_setLink hq) hlen hemit ht (Nat.le_add_left ..)

/-- The request is written. -/
theorem delivers_reading (h : OnWay c x start limit s) {buf : Bytes} {since : Instant}
    (ht : s.threads[x.call]? = some (.exchange x.request x.proc (.reading buf since))) :
    Delivers c x limit s := by
  obtain ⟨q, hq, hrunning, harriving⟩ := h.arriving ht
  obtain ⟨-, hpending, hlen⟩ | ⟨hlen, -⟩ := harriving.unread_or_missing
  · -- the worker reads the request and answers
    obtain ⟨kind, -, qs, hphase⟩ := harriving.exchange
    have hserve : System.serve q.link (frameBytes x.response) = some _ :=
      System.serve_of_pending hpending kind x.payload_le
    have hst := System.step_serve (c := c) h.exited (isAnswer_frameBytes x.response_lt) hq hrunning
      hserve
    apply h.delivers_of_step hbudget ht (fun _ _ hn => by cases hn) hst trivial
      (System.healthy_setLink hq hrunning (harriving.replies.serve [] _))
    intro h'
    apply h'.delivers_answered hbudget (System.procs_setLink hq) _ ht
    show (q.link.answers ++ [(x.request.frame, frameBytes x.response)]).length = _
    rw [List.length_append]
    exact hlen
  · exact h.delivers_answered hbudget hq hlen ht

theorem delivers_writing (h : OnWay c x start limit s) {rest : Bytes} {since : Instant}
    (ht : s.threads[x.call]? = some (.exchange x.request x.proc (.writing rest since))) :
    Delivers c x limit s := by
  obtain ⟨q, hq, hrunning, harriving⟩ := h.arriving ht
  obtain ⟨-, -, qs, hrest, -⟩ := harriving.exchange
  have hsince := hbudget.lt_deadline (h.entered ht).2.1 h.now_le
  have hround : (Transfer.writing rest since).step x.request.deadline s.now q.link
      (.write rest.length) = some _ := Transfer.step_write_all hsince hrest
  apply h.delivers_of_step hbudget ht (fun _ _ hn => by cases hn)
    (System.step_io h.exited ht hq hround) trivial
    (System.healthy_setLink hq hrunning harriving.replies)
  exact fun h' => h'.delivers_reading hbudget (System.threads_move ht _)

theorem delivers_begin (h : OnWay c x start limit s)
    (ht : s.threads[x.call]? = some (.begin x.request)) : Delivers c x limit s := by
  have hx : HandOver s x := ⟨h.exited, ht, h.slot, h.healthy⟩
  obtain ⟨s', hst, -, hhealthy, -, ht'⟩ := hx.begin_step c h.inStep
  apply h.delivers_of_step hbudget ht (fun _ _ hn => by cases hn) hst trivial hhealthy
  exact fun h' => h'.delivers_writing hbudget ht'

/-- A call on its way can get to the end. -/
theorem delivers (h : OnWay c x start limit s) : Delivers c x limit s := by
  obtain ⟨pc, ht, hstop⟩ := h.stop
  cases hstop with
  | begin => exact h.delivers_begin hbudget ht
  | @exchange y =>
    cases y with
    | writing rest since => exact h.delivers_writing hbudget ht
    | reading buf since => exact h.delivers_reading hbudget ht
  | compare => exact h.delivers_compare hbudget ht
  | resetFailures => exact h.delivers_resetFailures hbudget ht
  | untrack => exact h.delivers_untrack hbudget ht
  | unlock => exact h.delivers_unlock hbudget ht
  | returned => exact ⟨[], s, .nil s, ht, h.slot⟩

end OnWay

/-! ### Too late -/

/-- The call will return an error. -/
def Pc.gaveUp : Pc → Bool
  | .countTimeout _ _ | .abandon _ _ _ | .untrack _ (.error _) | .unlock _ (.error _)
  | .returned _ (.error _) => true
  | _ => false

theorem Pc.plain_of_gaveUp {pc : Pc} (h : pc.gaveUp = true) : pc.plain = true := by
  unfold gaveUp at h
  split at h <;> first | rfl | cases h

namespace System

variable {c : Config} {s s' : System} {t : CallId} {pc pc' : Pc} {act : Act}

theorem threads_cleanup (ht : s.threads[t]? = some pc) (old : Option ProcId) :
    (s.cleanup old).threads[t]? = some pc := by
  cases old with
  | none => exact ht
  | some p => exact Link.getElem?_of_prefix (List.prefix_append ..) ht

/-- A call that has given up goes on to its error. -/
theorem gaveUp_step (h : s.step c act = some s') (ht : s.threads[t]? = some pc)
    (hpc : pc.gaveUp = true) : ∃ pc', s'.threads[t]? = some pc' ∧ pc'.gaveUp = true := by
  by_cases hact : act.thread = some t
  · obtain ⟨rfl, hrun⟩ | ⟨a, rfl, hio⟩ := step_of_plain h hact ht (Pc.plain_of_gaveUp hpc)
    · cases pc with
      | countTimeout r a =>
        obtain rfl := Option.some.inj hrun
        exact ⟨_, threads_move ht _, rfl⟩
      | abandon r a apc =>
        obtain rfl := Option.some.inj hrun
        cases apc with
        | cleanup old => exact ⟨_, threads_cleanup (threads_move ht _) old, rfl⟩
        | _ => exact ⟨_, threads_move ht _, rfl⟩
      | untrack r result =>
        obtain rfl := Option.some.inj hrun
        exact ⟨_, threads_move ht _, by cases result <;> exact hpc⟩
      | unlock r result =>
        obtain rfl := Option.some.inj hrun
        exact ⟨_, threads_move ht _, by cases result <;> exact hpc⟩
      | returned r result =>
        cases result with
        | error e => cases hrun
        | ok resp => cases hpc
      | _ => cases hpc
    · unfold runIo at hio
      split at hio
      · cases hpc
      · cases hpc
      · cases hio
  · exact ⟨pc, threads_step h hact ht, hpc⟩

end System

/-- A call that has given up does not return the response. -/
theorem not_delivers_of_gaveUp {c : Config} {x : Service} {limit : Instant} {s : System} {pc : Pc}
    (ht : s.threads[x.call]? = some pc) (hpc : pc.gaveUp = true) : ¬ Delivers c x limit s := by
  rintro ⟨as, s', hpath, hend, -⟩
  have hgone : ∃ pc', s'.threads[x.call]? = some pc' ∧ pc'.gaveUp = true := by
    refine hpath.preserves (P := fun s => ∃ pc, s.threads[x.call]? = some pc ∧ pc.gaveUp = true) ?_
      ⟨pc, ht, hpc⟩
    rintro s act s' - hst ⟨pc, ht, hpc⟩
    exact System.gaveUp_step hst ht hpc
  obtain ⟨pc', ht', hpc'⟩ := hgone
  obtain rfl := Option.some.inj (hend.symm.trans ht')
  cases hpc'

section Late

variable {c : Config} {x : Service} {limit : Instant} {s : System} {y : Transfer}

/-- A `poll` that has expired ends the exchange. -/
theorem path_timeOut (hexited : s.exited = false) (hhealthy : s.Healthy x)
    (ht : s.threads[x.call]? = some (.exchange x.request x.proc y))
    (hexpired : pollExpiry x.request.deadline y.since ≤ s.now) :
    ∃ s', (workerMachine c).Path (Serving c x limit) s [.io x.call .timeOut] s' ∧
      ¬ Delivers c x limit s' := by
  obtain ⟨q, hq, hrunning, hreplies⟩ := hhealthy
  have hround : y.step x.request.deadline s.now q.link .timeOut =
      some (q.link, .failed .timedOut "worker ipc response timed out") := by
    cases y with
    | writing rest since | reading buf since =>
      simp only [Transfer.step]
      exact if_pos hexpired
  have hst := System.step_io (c := c) hexited ht hq hround
  have hG : Serving c x limit s _ := .of_step ht (fun _ _ hn => by cases hn) hst trivial
    (System.healthy_setLink hq hrunning hreplies)
  refine ⟨_, .single hG hst, not_delivers_of_gaveUp (System.threads_move ht _) ?_⟩
  cases y <;> rfl

/-- A signal makes `wait_fd` call `poll` anew. -/
theorem path_again (hexited : s.exited = false) (hhealthy : s.Healthy x)
    (ht : s.threads[x.call]? = some (.exchange x.request x.proc y)) :
    ∃ s', (workerMachine c).Path (Serving c x limit) s [.io x.call .again] s' ∧
      s'.exited = false ∧ s'.Healthy x ∧ s'.now = s.now ∧
      s'.threads[x.call]? = some (.exchange x.request x.proc (y.again s.now)) := by
  obtain ⟨q, hq, hrunning, hreplies⟩ := hhealthy
  have hround : y.step x.request.deadline s.now q.link .again =
      some (q.link, .more (y.again s.now)) := by
    cases y <;> rfl
  have hst := System.step_io (c := c) hexited ht hq hround
  have hhealthy' := System.healthy_setLink hq hrunning hreplies
  have hG : Serving c x limit s _ :=
    .of_step ht (fun _ _ hn => by cases hn) hst trivial hhealthy'
  exact ⟨_, .single hG hst, hexited, hhealthy', rfl, System.threads_move ht _⟩

theorem path_tick (hexited : s.exited = false) (hhealthy : s.Healthy x)
    (ht : s.threads[x.call]? = some (.exchange x.request x.proc y)) {d : Duration}
    (hd : s.now + d ≤ limit) :
    (workerMachine c).Path (Serving c x limit) s [.tick d] { s with now := s.now + d } := by
  have hst : s.step c (.tick d) = some { s with now := s.now + d } := by
    simp only [System.step, hexited]
    rfl
  exact .single (Serving.of_step ht (fun _ _ hn => by cases hn) hst hd hhealthy) hst

/-- **Too late**: out of budget, the call may give up although the worker serves it. -/
theorem exists_path_not_delivers {c : Config} {s : System} {x : Service} {limit : Nat}
    (hx : HandOver s x) (h : InStep s.view) (hlimit : s.now ≤ limit)
    (hbudget : ¬ InBudget x s.now limit) :
    ∃ as s', (workerMachine c).Path (Serving c x limit) s as s' ∧ ¬ Delivers c x limit s' := by
  obtain ⟨s₁, hst, hexited, hhealthy, hnow, ht⟩ := hx.begin_step c h
  have hbegin : (workerMachine c).Path (Serving c x limit) s [.run x.call] s₁ :=
    .single (Serving.of_step hx.thread (fun _ _ hn => by cases hn) hst trivial hhealthy) hst
  by_cases hdeadline : limit + milliseconds 1 ≤ x.request.deadline
  · -- `poll` gives up at its own limit
    have hpoll : s.now + milliseconds (2 ^ 31 - 1) ≤ limit :=
      Nat.not_lt.mp fun hlt => hbudget ⟨hdeadline, hlt⟩
    obtain ⟨d, hd⟩ : ∃ d, pollExpiry x.request.deadline s.now = s₁.now + d :=
      ⟨milliseconds (min ((x.request.deadline - s.now) / 1000000) (2 ^ 31 - 1)), by
        rw [hnow]
        rfl⟩
    have hle : s₁.now + d ≤ limit := by
      rw [← hd]
      exact Nat.le_trans (pollExpiry_le ..) hpoll
    have htick := path_tick (c := c) hexited hhealthy ht hle
    obtain ⟨s', hend, hnot⟩ := path_timeOut (c := c) (s := { s₁ with now := s₁.now + d })
      hexited hhealthy ht (Nat.le_of_eq hd)
    exact ⟨_, s', hbegin.append (htick.append hend), hnot⟩
  · -- a signal comes in the last millisecond, when the time left is rounded down to nothing
    obtain ⟨d, hd⟩ : ∃ d, limit = s₁.now + d := by
      rw [hnow]
      exact Nat.exists_eq_add_of_le hlimit
    have htick := path_tick (c := c) hexited hhealthy ht (Nat.le_of_eq hd.symm)
    obtain ⟨s₂, hagain, hexited₂, hhealthy₂, hnow₂, ht₂⟩ := path_again (c := c)
      (s := { s₁ with now := s₁.now + d }) hexited hhealthy ht
    obtain ⟨s', hend, hnot⟩ := path_timeOut (c := c) hexited₂ hhealthy₂ ht₂ (by
      rw [hnow₂, show s₁.now + d = limit from hd.symm]
      exact Nat.le_of_eq (pollExpiry_of_late hdeadline))
    exact ⟨_, s', hbegin.append (htick.append (hagain.append hend)), hnot⟩

end Late

/-! ### The request timeout -/

variable {c : Config} {s : System} {x : Service}

/-- A request that is handed over is answered by a limit exactly if the limit is in its budget. -/
theorem answeredBy_iff {limit : Instant} (hr : (workerMachine c).Reach Machine.anyStep s)
    (hx : HandOver s x) (hlimit : s.now ≤ limit) :
    AnsweredBy c x limit s ↔ InBudget x s.now limit := by
  constructor
  · intro hanswered
    by_contra hbudget
    obtain ⟨as, s', hpath, hnot⟩ :=
      exists_path_not_delivers hx (InStep.reach hr) hlimit hbudget
    exact hnot (hanswered as s' hpath)
  · intro hbudget as s' hpath
    have hstart : OnWay c x s.now limit s :=
      ⟨hr, hx.exited, hlimit, Nat.le_refl _, hx.slot, hx.healthy, _, hx.thread, .begin⟩
    have hend : OnWay c x s.now limit s' :=
      hpath.preserves (fun _ _ _ hG hst h => h.step hbudget hG hst) hstart
    exact hend.delivers hbudget

/-- **What the request timeout pays for.**  A worker that is handed a request, and is ready, has
`ρ` for its response exactly if the time since the call, in the queue and for a startup, together
with `ρ` and a millisecond is within the request timeout, and `poll` can wait for `ρ`. -/
theorem answered_in_time_iff {called : CallId → Instant} (ρ : Duration)
    (h : (callMachine c).Reach Machine.anyStep (s, called)) (hx : HandOver s x) :
    AnsweredBy c x (s.now + ρ) s ↔
      s.now - called x.call + ρ + milliseconds 1 ≤ c.requestTimeout ∧
        ρ < milliseconds (2 ^ 31 - 1) := by
  have hr : (workerMachine c).Reach Machine.anyStep s :=
    Machine.Reach.of_record (G := Machine.anyStep) h
  obtain ⟨hdeadline, hcalled⟩ := Timely.reach h x.call _ x.request hx.thread rfl
  exact (answeredBy_iff hr hx (Nat.le_add_right ..)).trans (inBudget_iff hdeadline hcalled)

/-- A call that finds no worker in the slot: the new worker takes `d` to answer the probe. -/
def startAfter (d : Duration) : List Act :=
  [.request opHealth [5], .run 0, .run 0, .run 0, .run 0, .run 0, .run 0, .launch 0 42, .run 0,
   .io 0 (.write 20), .tick d, .serve 0 (frameBytes ⟨2, 0, 1, 0, []⟩), .emit 0 20,
   .io 0 (.read 20), .run 0, .run 0, .run 0]

/-- The request of `startAfter`. -/
def firstService : Service where
  call := 0
  request := ⟨1, opHealth, [5], false, seconds 25⟩
  proc := 0
  response := ⟨2, 1, 1, 0, [7, 8]⟩
  payload_le := by decide
  kind := rfl
  requestId := rfl
  opcode := rfl
  response_lt := by decide

theorem handOver_startAfter {d : Duration}
    (h : ((callMachine defaultConfig).exec Machine.anyStep (callMachine defaultConfig).init
      (startAfter d)).map (fun y => (decide (HandOver y.1 firstService), y.1.now, y.2 0)) =
        some (true, d, 0)) :
    ∃ s called, (callMachine defaultConfig).exec Machine.anyStep (callMachine defaultConfig).init
        (startAfter d) = some (s, called) ∧
      HandOver s firstService ∧ s.now = d ∧ called firstService.call = 0 := by
  obtain ⟨⟨s, called⟩, hs, hend⟩ := Option.map_eq_some_iff.mp h
  obtain ⟨hx, hend⟩ := Prod.mk.inj hend
  obtain ⟨hnow, hcalled⟩ := Prod.mk.inj hend
  exact ⟨s, called, hs, of_decide_eq_true hx, hnow, hcalled⟩

/-- The worker starts in 2 seconds, so that 22 seconds are left for the response. -/
theorem answered_in_time_promptStart : ∃ s called, (callMachine defaultConfig).exec
      Machine.anyStep (callMachine defaultConfig).init (startAfter (seconds 2)) = some (s, called) ∧
    HandOver s firstService ∧
    AnsweredBy defaultConfig firstService (s.now + seconds 22) s := by
  obtain ⟨s, called, hs, hx, hnow, hcalled⟩ :=
    handOver_startAfter (show _ = some (true, seconds 2, 0) by decide +kernel)
  refine ⟨s, called, hs, hx, ?_⟩
  apply (answered_in_time_iff (seconds 22) (Machine.reach_of_exec hs) hx).mpr
  rw [hnow, hcalled]
  decide

/-- The call gets the mutex at once and the worker starts in 20 of the 30 seconds that it may take.
Then it needs 10 of the 25 seconds for a request, and may be given up. -/
theorem not_answered_slowStart :
    (∃ s, (workerMachine defaultConfig).exec Machine.anyStep {}
      ((startAfter (seconds 20)).take 4) = some s ∧ s.lock = some 0 ∧ s.now = 0) ∧
    seconds 20 ≤ defaultConfig.startupTimeout ∧ seconds 10 < defaultConfig.requestTimeout ∧
    ∃ s called, (callMachine defaultConfig).exec Machine.anyStep (callMachine defaultConfig).init
        (startAfter (seconds 20)) = some (s, called) ∧
      HandOver s firstService ∧ s.now = called firstService.call + seconds 20 ∧
      ¬ AnsweredBy defaultConfig firstService (s.now + seconds 10) s := by
  have hlock : ((workerMachine defaultConfig).exec Machine.anyStep {}
      ((startAfter (seconds 20)).take 4)).map (fun s => (s.lock, s.now)) = some (some 0, 0) := by
    decide +kernel
  obtain ⟨s₀, hs₀, hlock⟩ := Option.map_eq_some_iff.mp hlock
  obtain ⟨hlock, hnow₀⟩ := Prod.mk.inj hlock
  obtain ⟨s, called, hs, hx, hnow, hcalled⟩ :=
    handOver_startAfter (show _ = some (true, seconds 20, 0) by decide +kernel)
  refine ⟨⟨s₀, hs₀, hlock, hnow₀⟩, by decide, by decide, s, called, hs, hx, ?_, ?_⟩
  · rw [hnow, hcalled]
    rfl
  · have hreach : (workerMachine defaultConfig).Reach Machine.anyStep s :=
      Machine.Reach.of_record (G := Machine.anyStep) (Machine.reach_of_exec hs)
    rw [answeredBy_iff hreach hx (Nat.le_add_right ..)]
    rintro ⟨hdeadline, -⟩
    rw [hnow] at hdeadline
    revert hdeadline
    decide

end Supervisor

end WrapperPaas
