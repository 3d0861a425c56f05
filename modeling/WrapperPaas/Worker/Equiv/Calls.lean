/-
  A step belongs to one call.

  A step moves the thread that it belongs to and may start others; all other threads stay where they
  are (`threads_step`), and a thread keeps the request that it was started with.  `callMachine`
  notes when each request began; its deadline is the request timeout later (`Timely.reach`).
-/
import Mathlib.Data.List.Basic
import Mathlib.Logic.Function.Basic
import WrapperPaas.Worker.Equiv.Flow

namespace WrapperPaas

namespace Supervisor

/-- Thread `t` at `pc` goes on, in no time; the threads that it starts have no request. -/
def GoesOn (s : System) (t : CallId) (pc : Pc) (s' : System) : Prop :=
  s'.now = s.now ∧ ∃ pc' started, s'.threads = s.threads.set t pc' ++ started ∧
    (∀ r, pc'.request = some r → pc.request = some r) ∧ ∀ x ∈ started, x.request = none

/-- A thread keeps its request until it returns. -/
theorem Flow.request {pc pc' : Pc} {r : Request} (h : Flow pc pc') (hr : pc'.request = some r) :
    pc.request = some r := by
  cases h with
  | @spawn k | @ready k | @install k => cases k <;> exact hr
  | @exchange r' p x result =>
    cases result with
    | more x' | frame resp => exact hr
    | failed kind message => cases kind <;> cases x <;> exact hr
  | ensureChecked | ensureUnlock | rejected | leaveWait | unlock | restartWanted | restart
  | respawn | restarted | kill | reap | killed => cases hr
  | _ => exact hr

namespace System

variable {c : Config} {s s' : System} {t : CallId} {pc : Pc}

/-- A step of thread `t` is one that it takes where it is. -/
theorem goesOn_step {act : Act} (h : s.step c act = some s') (hact : act.thread = some t) :
    ∃ pc, s.threads[t]? = some pc ∧ GoesOn s t pc s' := by
  obtain ⟨pc, ht, hnow, pc', started, hs, hflow, hstarted⟩ := moves_step h hact
  refine ⟨pc, ht, hnow, pc', started, hs, fun r hr => hflow.request hr, fun x hx => ?_⟩
  cases hstarted x hx with
  | cleaner | killer => rfl

/-- A step that belongs to no thread leaves all threads where they are, and a call starts one. -/
theorem threads_of_thread_eq_none {act : Act} (h : s.step c act = some s')
    (hact : act.thread = none) :
    s'.threads = s.threads ∨ (act = .ensureStarted ∧ s'.threads = s.threads ++ [.ensureLock]) ∨
      ∃ opcode payload batch,
        (act = .request opcode payload ∨ act = .decryptBatch payload) ∧
          s' = s.call c opcode payload batch := by
  unfold step at h
  split_ifs at h
  cases act with
  | ensureStarted =>
    obtain rfl := Option.some.inj h
    exact .inr (.inl ⟨rfl, rfl⟩)
  | request opcode payload =>
    obtain rfl := Option.some.inj h
    exact .inr (.inr ⟨opcode, payload, false, .inl rfl, rfl⟩)
  | decryptBatch payload =>
    obtain rfl := Option.some.inj h
    exact .inr (.inr ⟨opDecryptBatch, payload, true, .inr rfl, rfl⟩)
  | serve p answer =>
    dsimp only at h
    split_ifs at h
    obtain ⟨q, hq, hf⟩ := withProc_eq_some h
    obtain ⟨l, hl, rfl⟩ := Option.map_eq_some_iff.mp hf
    exact .inl rfl
  | emit p n =>
    obtain ⟨q, hq, hf⟩ := withProc_eq_some h
    split_ifs at hf
    obtain rfl := Option.some.inj hf
    exact .inl rfl
  | exit p =>
    obtain ⟨q, hq, hf⟩ := withProc_eq_some h
    obtain rfl := Option.some.inj hf
    exact .inl rfl
  | tick d =>
    obtain rfl := Option.some.inj h
    exact .inl rfl
  | _ => cases hact

/-- **A step belongs to one thread**, and the others stay where they are. -/
theorem threads_step {act : Act} (h : s.step c act = some s') (hact : act.thread ≠ some t)
    (ht : s.threads[t]? = some pc) : s'.threads[t]? = some pc := by
  have hlt := (List.getElem?_eq_some_iff.mp ht).1
  cases hthread : act.thread with
  | none =>
    rcases threads_of_thread_eq_none h hthread with hs | ⟨-, hs⟩ | ⟨opcode, payload, batch, -, rfl⟩
    · rw [hs, ht]
    · rw [hs]
      exact Link.getElem?_of_prefix (List.prefix_append ..) ht
    · exact Link.getElem?_of_prefix (List.prefix_append ..) ht
  | some u =>
    obtain ⟨pc₀, hu, -, pc', started, hs, -, -⟩ := goesOn_step h hthread
    have hne : u ≠ t := fun hut => hact (hthread.trans (congrArg some hut))
    rw [hs, List.getElem?_append_left (by rwa [List.length_set]), List.getElem?_set_ne hne, ht]

/-- Only a tick takes time. -/
theorem now_step {act : Act} (h : s.step c act = some s') :
    s'.now = s.now ∨ ∃ d, act = .tick d ∧ s' = { s with now := s.now + d } := by
  cases hthread : act.thread with
  | some u =>
    obtain ⟨pc₀, hu, hnow, -⟩ := goesOn_step h hthread
    exact .inl hnow
  | none =>
    unfold step at h
    split_ifs at h
    cases act with
    | tick d => exact .inr ⟨d, rfl, (Option.some.inj h).symm⟩
    | ensureStarted | request opcode payload | decryptBatch payload =>
      obtain rfl := Option.some.inj h
      exact .inl rfl
    | serve p answer =>
      dsimp only at h
      split_ifs at h
      obtain ⟨q, hq, hf⟩ := withProc_eq_some h
      obtain ⟨l, hl, rfl⟩ := Option.map_eq_some_iff.mp hf
      exact .inl rfl
    | emit p n =>
      obtain ⟨q, hq, hf⟩ := withProc_eq_some h
      split_ifs at hf
      obtain rfl := Option.some.inj hf
      exact .inl rfl
    | exit p =>
      obtain ⟨q, hq, hf⟩ := withProc_eq_some h
      obtain rfl := Option.some.inj hf
      exact .inl rfl
    | _ => cases hthread

theorem now_le_step {act : Act} (h : s.step c act = some s') : s.now ≤ s'.now := by
  rcases now_step h with hnow | ⟨d, -, rfl⟩
  · exact Nat.le_of_eq hnow.symm
  · exact Nat.le_add_right ..

end System

/-! ### The deadlines -/

/-- When each call began. -/
def noteCall (called : CallId → Instant) (s : System) : Act → CallId → Instant
  | .request _ _ | .decryptBatch _ => Function.update called s.threads.length s.now
  | _ => called

/-- `workerMachine` with the history of the calls. -/
def callMachine (c : Config) : Machine (System × (CallId → Instant)) Act :=
  (workerMachine c).record (fun _ => 0) noteCall

/-- The deadline of a request is the request timeout after its call. -/
def Timely (c : Config) (s : System) (called : CallId → Instant) : Prop :=
  ∀ (t : CallId) pc r, s.threads[t]? = some pc → pc.request = some r →
    r.deadline = called t + c.requestTimeout ∧ called t ≤ s.now

namespace Timely

variable {c : Config} {s s' : System} {called : CallId → Instant} {act : Act}

theorem noteCall_of_lt {t : Nat} (h : t < s.threads.length) :
    noteCall called s act t = called t := by
  unfold noteCall
  split
  · exact Function.update_of_ne (Nat.ne_of_lt h) ..
  · exact Function.update_of_ne (Nat.ne_of_lt h) ..
  · rfl

theorem step (h : Timely c s called) (hst : s.step c act = some s') :
    Timely c s' (noteCall called s act) := by
  have hnow := System.now_le_step hst
  -- a thread that was there before has the deadline that it had
  have hold : ∀ (t : CallId) pc r, s.threads[t]? = some pc → pc.request = some r →
      r.deadline = noteCall called s act t + c.requestTimeout ∧
        noteCall called s act t ≤ s'.now := by
    intro t pc r ht hr
    rw [noteCall_of_lt (List.getElem?_eq_some_iff.mp ht).1]
    obtain ⟨hdeadline, hle⟩ := h t pc r ht hr
    exact ⟨hdeadline, Nat.le_trans hle hnow⟩
  intro (t : Nat) pc r ht hr
  cases hthread : act.thread with
  | none =>
    rcases System.threads_of_thread_eq_none hst hthread with
      hs | ⟨-, hs⟩ | ⟨opcode, payload, batch, hact, rfl⟩
    · exact hold t pc r (hs ▸ ht) hr
    · rw [hs, List.getElem?_append] at ht
      split_ifs at ht with hlt
      · exact hold t pc r ht hr
      · rw [List.mem_singleton.mp (List.mem_of_getElem? ht)] at hr
        cases hr
    · rw [System.call, System.start, List.getElem?_append] at ht
      split_ifs at ht with hlt
      · exact hold t pc r ht hr
      · -- the call begins now
        have hlen : t = s.threads.length := by
          have hle : t - s.threads.length < 1 := (List.getElem?_eq_some_iff.mp ht).1
          have hge : s.threads.length ≤ t := Nat.not_lt.mp hlt
          omega
        have hcalled : noteCall called s act t = s.now := by
          rw [hlen]
          rcases hact with rfl | rfl
          · exact Function.update_self ..
          · exact Function.update_self ..
        rw [List.mem_singleton.mp (List.mem_of_getElem? ht)] at hr
        rw [← Option.some.inj hr, hcalled]
        exact ⟨rfl, hnow⟩
  | some u =>
    obtain ⟨pc₀, hu, -, pc', started, hs, hrequest, hstarted⟩ := System.goesOn_step hst hthread
    rw [hs, List.getElem?_append] at ht
    split_ifs at ht with hlt
    · rw [List.getElem?_set] at ht
      split_ifs at ht with hut
      · obtain rfl := Option.some.inj ht
        exact hold t pc₀ r (hut ▸ hu) (hrequest r hr)
      · exact hold t pc r ht hr
    · rw [hstarted pc (List.mem_of_getElem? ht)] at hr
      cases hr

theorem reach (h : (callMachine c).Reach Machine.anyStep (s, called)) : Timely c s called := by
  refine h.invariant (P := fun x => Timely c x.1 x.2) (fun t pc r ht => by cases ht) ?_
  rintro ⟨s, called⟩ act ⟨s', called'⟩ - - hst hs
  obtain ⟨hst, hcalled⟩ := Machine.step_record.mp hst
  obtain rfl := hcalled
  exact hs.step hst

end Timely

end Supervisor

end WrapperPaas
