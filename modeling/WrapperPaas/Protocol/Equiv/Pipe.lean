/-
  Frames survive every segmentation of the pipe, unless a signal interrupts the worker.

  A frame function is a loop that reads or writes exactly the bytes of the frame, if no iteration
  gives up (`Lib/Chunked`).  On a pipe that stays open, before the deadline, no iteration of the
  supervisor's loops does (`continues_of_open`), and of the worker's only one whose `poll` is
  interrupted (`continues_iff`): `read_full` and `write_full` retry an interrupted `read` and
  `write` but not an interrupted `poll`, which `wait_fd` does.
-/
import Mathlib.Data.List.Basic
import WrapperPaas.Daemon.Equiv.Ipc
import WrapperPaas.Protocol.Equiv.Frames
import WrapperPaas.Protocol.Pipe

namespace WrapperPaas

/-! ### The supervisor's loops -/

namespace Supervisor

/-- The pipe stays open during the call of `poll`, and the deadline is not reached. -/
def PollCall.Open (deadline : Nat) (call : PollCall) : Prop :=
  call.now < deadline ∧
    (call.result = .ready false ∨ call.result = .interrupted ∧ call.after < deadline)

/-- The pipe stays open during the iteration, and the deadline is not reached. -/
def Turn.Open (deadline : Nat) (turn : Turn) : Prop :=
  (∀ call ∈ turn.polls, call.Open deadline) ∧
    (turn.transfer = .interrupted ∨ turn.transfer = .wouldBlock ∨ ∃ n, turn.transfer = .moved n)

variable {deadline : Nat}

theorem waitFd_of_open {closedMessage : String} {calls : List PollCall}
    (h : ∀ call ∈ calls, call.Open deadline) : waitFd closedMessage deadline calls = .ok () := by
  induction calls with
  | nil => rfl
  | cons call calls ih =>
    obtain ⟨hnow, hresult⟩ := h call List.mem_cons_self
    rw [waitFd, if_neg (by omega)]
    obtain hready | ⟨hinterrupted, hafter⟩ := hresult
    · rw [hready]
      rfl
    · rw [hinterrupted]
      dsimp only
      rw [if_neg (by omega)]
      exact ih fun call hcall => h call (List.mem_cons_of_mem _ hcall)

/-- An iteration before the deadline does not give up. -/
theorem continues_of_open {closedMessage : String} {zero : Failure} {turn : Turn}
    (h : turn.Open deadline) :
    (turnProgress (waitFd closedMessage deadline) zero turn).Continues := by
  unfold turnProgress
  rw [waitFd_of_open h.1]
  obtain ht | ht | ⟨n, ht⟩ := h.2
  · rw [ht]
    exact trivial
  · rw [ht]
    exact trivial
  · rw [ht]
    exact trivial

/-- Before the deadline `write_all_timeout` writes everything. -/
theorem writeAllTimeout_eq {turns : List Turn} (h : ∀ t ∈ turns, t.Open deadline) (buf : Bytes) :
    ∃ rest, writeAllTimeout deadline turns buf = (buf, .ok rest) := by
  have hcontinues : ∀ t ∈ turns, (turnProgress (waitWritable deadline)
      (.err .writeZero "worker stdin closed") t).Continues := fun t ht => continues_of_open (h t ht)
  obtain ⟨rest, heq, -⟩ := writeLoop_eq hcontinues buf
  exact ⟨rest, heq⟩

/-- Before the deadline `read_exact_timeout` reads exactly the bytes it is asked for. -/
theorem readExactTimeout_append {turns : List Turn} (h : ∀ t ∈ turns, t.Open deadline)
    (b rest : Bytes) : ∃ turns', turns' <:+ turns ∧
      readExactTimeout deadline (turns, b ++ rest) b.length = .ok (b, turns', rest) :=
  readLoop_eq (fun t ht => continues_of_open (h t ht)) b rest

theorem writeFrameTimeout_eq {turns : List Turn} (h : ∀ t ∈ turns, t.Open deadline) {f : Frame}
    (hlen : f.payload.length < 2 ^ 32) :
    writeFrameTimeout deadline turns f = (frameHeader f ++ f.payload, .ok ()) := by
  obtain ⟨rest, heq⟩ := writeAllTimeout_eq h (frameHeader f ++ f.payload)
  rw [writeFrameTimeout, writeFrame_eq hlen]
  dsimp only
  rw [heq]
  rfl

theorem readFrameTimeout_append {turns : List Turn} (h : ∀ t ∈ turns, t.Open deadline) {f : Frame}
    (hlen : f.payload.length < 2 ^ 32) (rest : Bytes) :
    readFrameTimeout deadline turns (frameHeader f ++ f.payload ++ rest) = .ok (f, rest) := by
  obtain ⟨turns₁, hsuffix, hheader⟩ :=
    readExactTimeout_append h (frameHeader f) (f.payload ++ rest)
  obtain ⟨turns₂, -, hpayload⟩ :=
    readExactTimeout_append (fun t ht => h t (hsuffix.subset ht)) f.payload rest
  rw [← List.append_assoc] at hheader
  exact bind_eq_ok.mpr ⟨(f, turns₂, rest), readFrame_eq hlen hheader hpayload, rfl⟩

end Supervisor

/-! ### The worker's loops -/

namespace Daemon

/-- The pipe stays open during the iteration. -/
def Step.Open (step : Step) : Prop :=
  step ≠ .zero ∧ step ≠ .failed ∧ step ≠ .wouldBlock .failed

/-- On an open pipe an iteration gives up exactly if its `poll` is interrupted. -/
theorem continues_iff {step : Step} (h : step.Open) :
    (stepProgress step).Continues ↔ step ≠ .wouldBlock .interrupted := by
  obtain ⟨hzero, hfailed, hpoll⟩ := h
  cases step with
  | moved n => simp [stepProgress, Progress.Continues]
  | zero => exact absurd rfl hzero
  | interrupted => simp [stepProgress, Progress.Continues]
  | wouldBlock poll =>
    cases poll with
    | ready => simp [stepProgress, Progress.Continues]
    | expired => simp [stepProgress, Progress.Continues]
    | interrupted => simp [stepProgress, Progress.Continues]
    | failed => exact absurd rfl hpoll
  | failed => exact absurd rfl hfailed

variable {steps : List Step} {f : Frame}

/-- What `read_frame` reads in two calls of `read_full`. -/
theorem readFrame_eq {σ : Type} {rd : σ → Nat → Outcome (Bytes × σ)} {r r₁ r₂ : σ}
    (hle : f.payload.length ≤ kMaxPayload) (hh : rd r 20 = .ok (frameHeader f, r₁))
    (hp : rd r₁ f.payload.length = .ok (f.payload, r₂)) (hnil : f.payload = [] → r₂ = r₁) :
    readFrame rd r = .ok (f, r₂) := by
  have hmax : kMaxPayload = 2 ^ 28 := by decide
  rw [readFrame, hh, ok_bind]
  dsimp only
  rw [frameHeader_eq, Supervisor.frameHeader_magic, ok_bind, Supervisor.frameHeader_version,
    ok_bind, if_neg (fun h => h.elim (fun h => h rfl) fun h => h rfl),
    Supervisor.frameHeader_kind, ok_bind, Supervisor.frameHeader_requestId, ok_bind,
    Supervisor.frameHeader_opcode, ok_bind, Supervisor.frameHeader_flags, ok_bind,
    Supervisor.frameHeader_payloadLen, ok_bind, Nat.mod_eq_of_lt (by omega),
    Supervisor.uint16_ofNat_mod, Supervisor.uint16_ofNat_mod, Supervisor.uint16_ofNat_mod,
    Supervisor.uint32_ofNat_mod, if_neg (by omega)]
  split_ifs with hzero
  · have hempty := List.length_eq_zero_iff.mp hzero
    rw [hnil hempty]
    obtain ⟨kind, id, opcode, flags, payload⟩ := f
    obtain rfl : payload = [] := hempty
    rfl
  · rw [hp, ok_bind]

theorem readFullSteps_append (h : ∀ s ∈ steps, (stepProgress s).Continues) (b rest : Bytes) :
    ∃ steps', steps' <:+ steps ∧
      readFullSteps (steps, b ++ rest) b.length = .ok (b, steps', rest) :=
  readLoop_eq h b rest

/-- A worker whose loops do not give up reads a frame that it is sent. -/
theorem readFrameSteps_append (h : ∀ s ∈ steps, (stepProgress s).Continues)
    (hle : f.payload.length ≤ kMaxPayload) (rest : Bytes) :
    readFrameSteps steps (frameHeader f ++ f.payload ++ rest) = .ok (f, rest) := by
  obtain ⟨steps₁, hsuffix, hheader⟩ := readFullSteps_append h (frameHeader f) (f.payload ++ rest)
  obtain ⟨steps₂, -, hpayload⟩ :=
    readFullSteps_append (fun s hs => h s (hsuffix.subset hs)) f.payload rest
  rw [← List.append_assoc] at hheader
  by_cases hnil : f.payload = []
  · -- the worker does not call `read_full` for an empty payload
    have hpayload' : readFullSteps (steps₁, f.payload ++ rest) f.payload.length =
        .ok (f.payload, steps₁, f.payload ++ rest) := by
      rw [hnil]
      exact readLoop_zero ..
    refine bind_eq_ok.mpr ⟨_, readFrame_eq hle hheader hpayload' fun _ => rfl, ?_⟩
    rw [hnil]
    rfl
  · exact bind_eq_ok.mpr ⟨(f, steps₂, rest),
      readFrame_eq hle hheader hpayload fun h => absurd h hnil, rfl⟩

/-- A worker whose loops do not give up writes the whole frame. -/
theorem writeFrameSteps_eq (h : ∀ s ∈ steps, (stepProgress s).Continues) (f : Frame) :
    writeFrameSteps steps f = (frameHeader f ++ f.payload, .ok ()) := by
  obtain ⟨steps₁, hheader, hsuffix⟩ := writeLoop_eq h (frameHeader f)
  obtain ⟨steps₂, hpayload, -⟩ := writeLoop_eq (fun s hs => h s (hsuffix.subset hs)) f.payload
  rw [writeFrameSteps, writeFullSteps, hheader]
  dsimp only
  split_ifs with hnil
  · rw [hnil, List.append_nil]
  · rw [writeFullSteps, hpayload]
    rfl

end Daemon

/-! ### Both directions -/

open Supervisor Daemon

/-- A request frame on its way: what the system calls of the supervisor return while it writes the
frame, and those of the worker while it reads it. -/
structure ToWorker where
  frame : Frame
  payload_le : frame.payload.length ≤ 256 * 1024 * 1024
  deadline : Nat
  turns : List Turn
  steps : List Step

/-- A response frame on its way. -/
structure FromWorker where
  frame : Frame
  payload_lt : frame.payload.length < 2 ^ 32
  steps : List Step
  deadline : Nat
  turns : List Turn

/-- The supervisor's writes succeed, and the worker reads from the pipe exactly these frames. -/
def ToWorker.Arrive (calls : List ToWorker) : Prop :=
  (∀ c ∈ calls, (writeFrameTimeout c.deadline c.turns c.frame).2 = .ok ()) ∧
    readEach (calls.map fun c => readFrameSteps c.steps)
      (calls.flatMap fun c => (writeFrameTimeout c.deadline c.turns c.frame).1) =
        .ok (calls.map ToWorker.frame, [])

/-- The worker's writes succeed, and the supervisor reads from the pipe exactly these frames. -/
def FromWorker.Arrive (calls : List FromWorker) : Prop :=
  (∀ c ∈ calls, (writeFrameSteps c.steps c.frame).2 = .ok ()) ∧
    readEach (calls.map fun c => readFrameTimeout c.deadline c.turns)
      (calls.flatMap fun c => (writeFrameSteps c.steps c.frame).1) =
        .ok (calls.map FromWorker.frame, [])

/-- The pipe stays open and the deadline is not reached; of the worker's iterations only some
`occur`. -/
def Passes (occurs : Step → Prop) (deadline : Nat) (turns : List Turn) (steps : List Step) :
    Prop :=
  (∀ t ∈ turns, t.Open deadline) ∧ ∀ s ∈ steps, s.Open ∧ occurs s

theorem Passes.continues {occurs : Step → Prop} {deadline : Nat} {turns : List Turn}
    {steps : List Step} (h : Passes occurs deadline turns steps)
    (hoccurs : ¬ occurs (.wouldBlock .interrupted)) : ∀ s ∈ steps, (stepProgress s).Continues := by
  intro s hs
  obtain ⟨hopen, hs⟩ := h.2 s hs
  refine (continues_iff hopen).mpr ?_
  rintro rfl
  exact hoccurs hs

theorem ToWorker.arrive {occurs : Step → Prop} (hoccurs : ¬ occurs (.wouldBlock .interrupted))
    {calls : List ToWorker} (h : ∀ c ∈ calls, Passes occurs c.deadline c.turns c.steps) :
    ToWorker.Arrive calls := by
  have hwrite : ∀ c ∈ calls, writeFrameTimeout c.deadline c.turns c.frame =
      (Supervisor.frameHeader c.frame ++ c.frame.payload, .ok ()) := fun c hc =>
    writeFrameTimeout_eq (h c hc).1 (by have := c.payload_le; omega)
  refine ⟨fun c hc => by rw [hwrite c hc], ?_⟩
  rw [← List.append_nil (calls.flatMap _)]
  refine readEach_flatMap (fun c hc rest => ?_) []
  rw [hwrite c hc]
  exact readFrameSteps_append ((h c hc).continues hoccurs) c.payload_le rest

theorem FromWorker.arrive {occurs : Step → Prop} (hoccurs : ¬ occurs (.wouldBlock .interrupted))
    {calls : List FromWorker} (h : ∀ c ∈ calls, Passes occurs c.deadline c.turns c.steps) :
    FromWorker.Arrive calls := by
  have hwrite : ∀ c ∈ calls, writeFrameSteps c.steps c.frame =
      (Daemon.frameHeader c.frame ++ c.frame.payload, .ok ()) := fun c hc =>
    writeFrameSteps_eq ((h c hc).continues hoccurs) c.frame
  refine ⟨fun c hc => by rw [hwrite c hc], ?_⟩
  rw [← List.append_nil (calls.flatMap _)]
  refine readEach_flatMap (fun c hc rest => ?_) []
  rw [hwrite c hc]
  exact readFrameTimeout_append (h c hc).1 c.payload_lt rest

/-- A health request that the worker is reading when a signal arrives: there is nothing to read yet,
and the `poll` is interrupted. -/
def interruptedHealth : ToWorker where
  frame := requestFrame 1 opHealth []
  payload_le := by decide
  deadline := 1
  turns := []
  steps := [.wouldBlock .interrupted]

theorem interruptedHealth_not_arrive : ¬ ToWorker.Arrive [interruptedHealth] := by
  rintro ⟨-, h⟩
  cases h

theorem interruptedHealth_passes {occurs : Step → Prop}
    (hoccurs : occurs (.wouldBlock .interrupted)) :
    Passes occurs interruptedHealth.deadline interruptedHealth.turns interruptedHealth.steps := by
  refine ⟨fun t ht => (nomatch ht), fun s hs => ?_⟩
  obtain rfl := List.mem_singleton.mp hs
  exact ⟨by unfold Step.Open; decide, hoccurs⟩

/-- **Framing over the pipes.**  On pipes that stay open, before the deadlines, every list of frames
arrives in both directions for every segmentation, if and only if no `poll` of the worker is
interrupted. -/
theorem frames_arrive_iff (occurs : Step → Prop) :
    ((∀ calls : List ToWorker, (∀ c ∈ calls, Passes occurs c.deadline c.turns c.steps) →
        ToWorker.Arrive calls) ∧
      ∀ calls : List FromWorker, (∀ c ∈ calls, Passes occurs c.deadline c.turns c.steps) →
        FromWorker.Arrive calls) ↔ ¬ occurs (.wouldBlock .interrupted) := by
  constructor
  · rintro ⟨hto, -⟩ hoccurs
    refine interruptedHealth_not_arrive (hto [interruptedHealth] fun c hc => ?_)
    obtain rfl := List.mem_singleton.mp hc
    exact interruptedHealth_passes hoccurs
  · intro hoccurs
    exact ⟨fun calls h => ToWorker.arrive hoccurs h, fun calls h => FromWorker.arrive hoccurs h⟩

/-- With every result of the worker's system calls on an open pipe, frames do not always arrive. -/
theorem frames_not_arrive :
    ¬ ((∀ calls : List ToWorker,
        (∀ c ∈ calls, Passes (fun _ => True) c.deadline c.turns c.steps) →
          ToWorker.Arrive calls) ∧
      ∀ calls : List FromWorker,
        (∀ c ∈ calls, Passes (fun _ => True) c.deadline c.turns c.steps) →
          FromWorker.Arrive calls) := by
  rintro ⟨hto, -⟩
  refine interruptedHealth_not_arrive (hto [interruptedHealth] fun c hc => ?_)
  obtain rfl := List.mem_singleton.mp hc
  exact interruptedHealth_passes trivial

end WrapperPaas
