/-
  The control flow of one `request`.

  A thread does not come back to the begin of its exchange, and it takes a response only after the
  comparison with its request (`Pc.Next`).  Each step of a thread obeys this (`System.next_step`),
  so a response that a call has taken is one to its id and opcode (`TakenMatch.reach`).
-/
import Mathlib.Data.List.Basic
import WrapperPaas.Worker.Equiv.Calls

namespace WrapperPaas

namespace Supervisor

/-- The thread has begun its exchange, or will not do so. -/
def Pc.begun : Pc → Bool
  | .exchange _ _ _ | .compare _ _ | .countTimeout _ _ | .abandon _ _ _ | .resetFailures _ _
  | .untrack _ _ | .unlock _ _ | .returned _ _ | .restart _ _ | .spawn (.restart _) _
  | .install (.restart _) _ | .done => true
  | _ => false

/-- The response that `request` has taken. -/
def Pc.taken : Pc → Option (Request × Frame)
  | .resetFailures r resp | .untrack r (.ok resp) | .unlock r (.ok resp)
  | .returned r (.ok resp) => some (r, resp)
  | _ => none

/-- A thread at `pc` may go on at `pc'`. -/
structure Pc.Next (pc pc' : Pc) : Prop where
  begun : pc.begun = true → pc'.begun = true
  begin : ∀ r, pc = .begin r → pc'.begun = true
  taken : ∀ r resp, pc'.taken = some (r, resp) → pc.taken = some (r, resp) ∨ Matches r resp

namespace Pc.Next

variable {pc pc' : Pc}

/-- The thread is still before its exchange. -/
theorem before (hpc : pc.begun = false) (hne : ∀ r, pc ≠ .begin r) (h : pc'.taken = none) :
    pc.Next pc' where
  begun hb := by
    rw [hpc] at hb
    cases hb
  begin r hr := absurd hr (hne r)
  taken r resp ht := by
    rw [h] at ht
    cases ht

/-- The thread is behind the begin of its exchange, without a new response. -/
theorem after (hpc' : pc'.begun = true) (h : ∀ x, pc'.taken = some x → pc.taken = some x) :
    pc.Next pc' where
  begun _ := hpc'
  begin _ _ := hpc'
  taken _ _ ht := .inl (h _ ht)

/-- The thread is behind the begin of its exchange and has no response. -/
theorem without (hpc' : pc'.begun = true) (h : pc'.taken = none) : pc.Next pc' :=
  .after hpc' fun x hx => by
    rw [h] at hx
    cases hx

end Pc.Next

/-- The control flow is as `Pc.Next` says. -/
theorem Flow.next {pc pc' : Pc} (h : Flow pc pc') : pc.Next pc' := by
  cases h with
  | @spawn k | @ready k | @install k =>
    cases k with
    | restart r => exact .without rfl rfl
    | ensure | missing r | exited r => exact .before rfl (fun _ hr => (by cases hr)) rfl
  | @exchange r p x result =>
    cases result with
    | more x' | frame resp => exact .without rfl rfl
    | failed kind message => cases kind <;> cases x <;> exact .without rfl rfl
  | @matching r resp hmatch =>
    refine ⟨fun _ => rfl, fun _ hr => (by cases hr), fun r' resp' hx => ?_⟩
    obtain ⟨rfl, rfl⟩ := Prod.mk.inj (Option.some.inj hx)
    exact .inr hmatch
  | resetFailures => exact .after rfl fun _ hx => hx
  | @untrack r result | @unlock r result =>
    exact .after rfl fun _ hx => by cases result <;> exact hx
  | begin | beginMissing | notWritten | mismatched | countTimeout | abandon | abandoned
  | restartWanted | restart | respawn | restarted => exact .without rfl rfl
  | _ => exact .before rfl (fun _ hr => (by cases hr)) rfl

/-- Thread `t` goes on from `pc` as the control flow allows; the threads that it starts have taken
no response. -/
def NextAt (s s' : System) (t : CallId) (pc : Pc) : Prop :=
  ∃ pc' started, s'.threads = s.threads.set t pc' ++ started ∧ pc.Next pc' ∧
    ∀ x ∈ started, x.taken = none

namespace System

variable {c : Config} {s s' : System} {t : CallId} {pc : Pc} {act : Act}

/-- **Each step of a thread obeys the control flow.** -/
theorem next_step (h : s.step c act = some s') (hact : act.thread = some t) :
    ∃ pc, s.threads[t]? = some pc ∧ NextAt s s' t pc := by
  obtain ⟨pc, ht, -, pc', started, hs, hflow, hstarted⟩ := moves_step h hact
  refine ⟨pc, ht, pc', started, hs, hflow.next, fun x hx => ?_⟩
  cases hstarted x hx with
  | cleaner | killer => rfl

/-- A thread that has begun its exchange does not come back. -/
theorem begun_step (h : s.step c act = some s') (ht : s.threads[t]? = some pc)
    (hpc : pc.begun = true) : ∃ pc', s'.threads[t]? = some pc' ∧ pc'.begun = true := by
  by_cases hact : act.thread = some t
  · obtain ⟨pc₀, ht₀, pc', started, hs, hnext, -⟩ := next_step h hact
    obtain rfl := Option.some.inj (ht.symm.trans ht₀)
    refine ⟨pc', ?_, hnext.begun hpc⟩
    rw [hs]
    exact Link.getElem?_of_prefix (List.prefix_append ..) (threads_move ht pc')
  · exact ⟨pc, threads_step h hact ht, hpc⟩

/-- A thread that begins its exchange has begun it. -/
theorem begun_of_begin {r : Request} (h : s.step c act = some s') (hact : act.thread = some t)
    (ht : s.threads[t]? = some (.begin r)) :
    ∃ pc', s'.threads[t]? = some pc' ∧ pc'.begun = true := by
  obtain ⟨pc₀, ht₀, pc', started, hs, hnext, -⟩ := next_step h hact
  obtain rfl := Option.some.inj (ht.symm.trans ht₀)
  refine ⟨pc', ?_, hnext.begin r rfl⟩
  rw [hs]
  exact Link.getElem?_of_prefix (List.prefix_append ..) (threads_move ht pc')

end System

/-! ### Responses that are taken -/

/-- Every response that a call has taken belongs to its request. -/
def TakenMatch (s : System) : Prop :=
  ∀ (t : CallId) pc r resp, s.threads[t]? = some pc → pc.taken = some (r, resp) → Matches r resp

theorem TakenMatch.step {c : Config} {s s' : System} {act : Act} (h : TakenMatch s)
    (hst : s.step c act = some s') : TakenMatch s' := by
  intro t pc r resp ht htaken
  cases hthread : act.thread with
  | some u =>
    obtain ⟨pc₀, hu, pc', started, hs, hnext, hstarted⟩ := System.next_step hst hthread
    rw [hs, List.getElem?_append] at ht
    split_ifs at ht
    · rw [List.getElem?_set] at ht
      split_ifs at ht
      · obtain rfl := Option.some.inj ht
        obtain hold | hmatch := hnext.taken r resp htaken
        · exact h u pc₀ r resp hu hold
        · exact hmatch
      · exact h t pc r resp ht htaken
    · rw [hstarted pc (List.mem_of_getElem? ht)] at htaken
      cases htaken
  | none =>
    -- a call starts with no response
    have hstart : ∀ x : Pc, x.taken = none → s'.threads = s.threads ++ [x] → Matches r resp := by
      intro x hx hs
      rw [hs, List.getElem?_append] at ht
      split_ifs at ht
      · exact h t pc r resp ht htaken
      · rw [List.mem_singleton.mp (List.mem_of_getElem? ht), hx] at htaken
        cases htaken
    obtain hs | ⟨-, hs⟩ | ⟨opcode, payload, batch, -, rfl⟩ :=
      System.threads_of_thread_eq_none hst hthread
    · rw [hs] at ht
      exact h t pc r resp ht htaken
    · exact hstart _ rfl hs
    · exact hstart _ rfl rfl

theorem TakenMatch.reach {c : Config} {s : System} {G : System → Act → Prop}
    (h : (workerMachine c).Reach G s) : TakenMatch s := by
  refine h.invariant (fun t pc r resp ht => by cases ht) ?_
  exact fun s act s' _ _ hst hs => hs.step hst

end Supervisor

end WrapperPaas
