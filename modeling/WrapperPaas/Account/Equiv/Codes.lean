/-
  Which prompt gets which 2FA code.

  `twofa_submitted_` is set by `submit_2fa` and cleared by the next attempt, the next `logout` or
  the end of the flow, but not by the prompt that consumes the code.  A second prompt of the same
  flow therefore finds the flag set and returns the old code at once (`repeatedPrompt`).  A flow
  that `logout` left running can also hide the prompt of the next one, or take its code.  Under
  `CodesQuiet` no prompt is raised while a consumed code is still there, and `logout` resets only a
  quiet account; then one handler at most is parked (`Sole`), every code goes to one prompt, raised
  before it was submitted, and the prompt is observable until then.
-/
import Mathlib.Data.List.Basic
import WrapperPaas.Account.Equiv.Wait

namespace WrapperPaas

open Sys

/-- The condition on a run: a prompt is raised only when no code is left over (or the flow is being
aborted), and `logout` resets the account only when no attempt is in flight. -/
def CodesQuiet (s : Sys) : Act → Prop
  | .workerPrompt _ => s.acct.twofaSubmitted = true → s.acct.aborted = true
  | .logoutReset _ => ∀ th ∈ s.threads, th.inFlight = false
  | _ => True

instance : DecidableRel CodesQuiet := fun s act => by
  apply act.casesOn (motive := (Decidable <| CodesQuiet s ·)) <;> intros <;>
    dsimp only [CodesQuiet] <;> infer_instance

theorem CodesQuiet.logoutQuiet {s : Sys} {act : Act} (h : CodesQuiet s act) :
    LogoutQuiet s act := by
  cases act <;> first | exact h | trivial

/-- Thread `t` waits in prompt `k`, and `/me` shows it. -/
def Awaiting (t : ThreadId) (k : Nat) (s : Sys) : Prop :=
  s.promptOf t = some k ∧ s.acct.state = .awaiting2fa

/-- What ends the wait of thread `t`: a code for it, a `logout` that is under way, or the five
minutes. -/
inductive EndsAwaiting (s : Sys) (t : ThreadId) : Act → Prop
  | code (c) : EndsAwaiting s t (.submit2fa c)
  | aborted : s.acct.aborted = true → EndsAwaiting s t (.workerWake t)
  | timeout : EndsAwaiting s t (.workerTimeout t)

/-- Codes are delivered as promised; `G` is the condition on the steps of the run. -/
structure CodesDelivered (G : Sys → Act → Prop) (s : Sys) : Prop where
  /-- A prompt that returned true returned the password with a code submitted after it was
  raised. -/
  fresh : ∀ r ∈ s.hist.codes.returns, r.ok = true → ∃ c,
    (r.submission, c) ∈ s.hist.codes.submissions ∧ r.prompt < r.submission ∧
      r.password = r.base ++ c
  /-- No submission was returned to two prompts. -/
  once : ((s.hist.codes.returns.filter (·.ok)).map (·.submission)).Nodup
  /-- The next prompt becomes observable, unless the flow is being aborted. -/
  observable : ∀ t s', G s (.workerPrompt t) → s.step (.workerPrompt t) = some s' →
    s.acct.aborted = false → Awaiting t s.hist.codes.clock s'
  /-- An observable prompt stays so until a code, an abort or its timeout ends it. -/
  lasting : ∀ t k act s', G s act → Awaiting t k s → s.step act = some s' →
    Awaiting t k s' ∨ EndsAwaiting s t act

/-! ### Observable prompts -/

theorem getElem?_of_promptOf {s : Sys} {t : ThreadId} {k : Nat} (h : s.promptOf t = some k) :
    ∃ a, s.threads[t]? = some (.worker a (.parked k)) := by
  obtain ⟨th, ht, hk⟩ := Option.bind_eq_some_iff.mp h
  cases th with
  | worker a pc =>
    cases pc <;> simp only [Thread.prompt, Option.some.injEq, reduceCtorEq] at hk
    subst hk
    exact ⟨a, ht⟩
  | restore l r tr pc => cases hk
  | logout pc => cases hk

/-- At most one handler is parked, as it is in flight. -/
theorem Sole.promptOf_unique {s : Sys} {t u : ThreadId} {k j : Nat} (hs : Sole s)
    (ht : s.promptOf t = some k) (hu : s.promptOf u = some j) : t = u := by
  obtain ⟨a, ht⟩ := getElem?_of_promptOf ht
  obtain ⟨b, hu⟩ := getElem?_of_promptOf hu
  exact hs.unique t u _ _ ht hu rfl rfl

namespace Awaiting

variable {s s' : Sys} {t u : ThreadId} {k : Nat}

theorem same (h : Awaiting t k s) (prompts : s'.promptOf = s.promptOf)
    (state : s'.acct.state = s.acct.state) : Awaiting t k s' :=
  ⟨by rw [prompts, h.1], state.trans h.2⟩

/-- The waiting thread is the one in flight. -/
theorem eq_of_inFlight {th : Thread} (hs : Sole s) (h : Awaiting t k s)
    (hu : s.threads[u]? = some th) (hf : th.inFlight) : u = t := by
  obtain ⟨a, ht⟩ := getElem?_of_promptOf h.1
  exact hs.unique u t th _ hu ht hf rfl

/-- A thread in flight that is not parked would be a second one. -/
theorem false_of_inFlight {th : Thread} {P : Prop} (hs : Sole s) (h : Awaiting t k s)
    (hu : s.threads[u]? = some th) (hf : th.inFlight) (hp : th.prompt = none) : P := by
  obtain rfl := h.eq_of_inFlight hs hu hf
  have hk := h.1
  rw [promptOf_of_getElem? hu, hp] at hk
  cases hk

theorem step {act : Act} (hs : Sole s) (hw : s.acct.state = .awaiting2fa →
    s.acct.twofaSubmitted = false) (hG : CodesQuiet s act) (h : Awaiting t k s)
    (hst : s.step act = some s') : Awaiting t k s' ∨ EndsAwaiting s t act := by
  cases step_trans hst with
  | refused _ => exact .inl h
  | login hacct =>
    rw [Account.startLogin, if_pos (.inr h.2)] at hacct
    cases hacct
  | submit _ => exact .inr (.code _)
  | raise => exact .inl (h.same (promptOf_spawn rfl) rfl)
  | call _ => exact .inl (h.same (promptOf_spawn rfl) rfl)
  | loc _ hu hm => exact .inl (h.same (promptOf_move_same hu hm.prompt) rfl)
  | nullDeref _ _ _ => exact .inl h
  | reset _ =>
    obtain ⟨a, ht⟩ := getElem?_of_promptOf h.1
    cases hG _ (List.mem_of_getElem? ht)
  | begin _ hacct =>
    rw [Account.restoreBegin, if_pos (by rw [h.2]; decide)] at hacct
    cases hacct
  | giveUp hu => exact h.false_of_inFlight hs hu rfl rfl
  | restored hu _ _ => exact h.false_of_inFlight hs hu rfl rfl
  | restorePublish hu => exact h.false_of_inFlight hs hu rfl rfl
  | park hu _ => exact h.false_of_inFlight hs hu rfl rfl
  | promptThrough hu _ => exact h.false_of_inFlight hs hu rfl rfl
  | wake hu hr =>
    obtain rfl := h.eq_of_inFlight hs hu rfl
    -- no code is there while the prompt is shown, so the flow is being aborted
    rw [Account.codeReady, hw h.2, Bool.false_or] at hr
    exact .inr (.aborted hr)
  | timeout hu =>
    obtain rfl := h.eq_of_inFlight hs hu rfl
    exact .inr .timeout
  | harvested hu _ _ _ => exact h.false_of_inFlight hs hu rfl rfl
  | fail hu => exact h.false_of_inFlight hs hu rfl rfl
  | publish hu => exact h.false_of_inFlight hs hu rfl rfl

end Awaiting

/-- While a prompt is shown no submitted code is there: `submit_2fa` hides the prompt. -/
theorem twofaSubmitted_of_awaiting {G : Sys → Act → Prop} {s : Sys} (h : accountMachine.Reach G s) :
    s.acct.state = .awaiting2fa → s.acct.twofaSubmitted = false := by
  refine h.invariant (P := fun s => s.acct.state = .awaiting2fa → s.acct.twofaSubmitted = false)
    (fun _ => rfl) fun s act s' _ _ hst hw => ?_
  cases step_trans hst with
  | refused _ => exact hw
  | login hacct =>
    obtain ⟨-, rfl⟩ := Account.startLogin_eq_some hacct
    exact fun _ => rfl
  | submit hacct =>
    obtain ⟨-, rfl⟩ := Account.submit2fa_eq_some hacct
    exact fun hs => by cases hs
  | raise => exact hw
  | call _ => exact hw
  | loc _ _ _ => exact hw
  | nullDeref _ _ _ => exact hw
  | reset _ => exact fun _ => rfl
  | begin _ hacct =>
    obtain ⟨-, rfl⟩ := Account.restoreBegin_eq_some hacct
    exact fun _ => rfl
  | giveUp _ => exact fun hs => by cases hs
  | restored _ _ _ => exact hw
  | restorePublish _ => exact fun _ => rfl
  | park _ hr => exact fun _ => (Bool.or_eq_false_iff.mp hr).1
  | promptThrough _ _ => exact fun hs => by cases hs
  | wake _ _ => exact fun hs => by cases hs
  | timeout _ => exact fun hs => by cases hs
  | harvested _ _ _ _ => exact hw
  | fail _ => exact fun _ => rfl
  | publish _ => exact fun _ => rfl

/-- A prompt that finds neither flag set parks. -/
theorem awaiting_of_prompt {s s' : Sys} {t : ThreadId} (hst : s.step (.workerPrompt t) = some s')
    (hr : s.acct.codeReady = false) : Awaiting t s.hist.codes.clock s' := by
  obtain ⟨a, pc, ht, hf⟩ := worker_eq_some hst
  cases pc <;> simp only [hr, Bool.false_eq_true, if_false, Option.some.injEq, reduceCtorEq] at hf
  subst hf
  refine ⟨?_, rfl⟩
  have hn : s.notePrompt.threads[t]? = some (.worker a (.run _)) := ht
  exact (congrFun (promptOf_move hn) t).trans (Function.update_self ..)

/-! ### Codes go to the prompts they were submitted for -/

/-- The invariant behind `CodesDelivered`. -/
structure Codes (s : Sys) : Prop where
  prompts : Prompts s
  numbered : ∀ p ∈ s.hist.codes.submissions, p.1 < s.hist.codes.clock
  held : s.acct.twofaSubmitted = true →
    (s.hist.codes.codeFrom, s.acct.twofaCode) ∈ s.hist.codes.submissions
  /-- the code was submitted after every open prompt was raised -/
  before : s.acct.twofaSubmitted = true → ∀ t k, s.promptOf t = some k → k < s.hist.codes.codeFrom
  /-- no handler is parked once the code is taken -/
  spent : s.acct.twofaSubmitted = true → s.acct.aborted = false →
    ∀ r ∈ s.hist.codes.returns, r.ok = true → r.submission = s.hist.codes.codeFrom →
      ∀ t, s.promptOf t = none
  fresh : ∀ r ∈ s.hist.codes.returns, r.ok = true → ∃ c,
    (r.submission, c) ∈ s.hist.codes.submissions ∧ r.prompt < r.submission ∧
      r.password = r.base ++ c
  once : ((s.hist.codes.returns.filter (·.ok)).map (·.submission)).Nodup

/-- A handler returns true exactly when it takes the code. -/
theorem promptReturn_ok {s : Sys} {k : Nat} : (s.promptReturn k).ok = true ↔
    s.acct.twofaSubmitted = true ∧ s.acct.aborted = false := by
  simp only [promptReturn, Account.codeCredentials]
  cases s.acct.aborted <;> cases s.acct.twofaSubmitted <;> simp

theorem promptReturn_password {s : Sys} {k : Nat} (h : (s.promptReturn k).ok = true) :
    (s.promptReturn k).password = (s.promptReturn k).base ++ s.acct.twofaCode := by
  obtain ⟨hs, ha⟩ := promptReturn_ok.mp h
  simp [promptReturn, Account.codeCredentials, hs, ha]

namespace Codes

variable {s s' : Sys}

/-- A step that neither parks nor releases a handler, submits no code and lowers the abort flag only
with the submitted flag. -/
theorem same (hc : Codes s) (hp : Prompts s') (prompts : s'.promptOf = s.promptOf)
    (codes : s'.hist.codes = s.hist.codes)
    (flags : s'.acct.twofaSubmitted = true → s.acct.twofaSubmitted = true ∧
      s'.acct.twofaCode = s.acct.twofaCode ∧ (s'.acct.aborted = false → s.acct.aborted = false)) :
    Codes s' := by
  refine ⟨hp, ?_, fun hs => ?_, fun hs => ?_, fun hs ha => ?_, ?_, ?_⟩
  · rw [codes]
    exact hc.numbered
  · rw [codes, (flags hs).2.1]
    exact hc.held (flags hs).1
  · rw [codes, prompts]
    exact hc.before (flags hs).1
  · rw [codes, prompts]
    exact hc.spent (flags hs).1 ((flags hs).2.2 ha)
  · rw [codes]
    exact hc.fresh
  · rw [codes]
    exact hc.once

/-- A code is accepted: it has a new number. -/
theorem submit {c : String} (hc : Codes s) (hp : Prompts s') (prompts : s'.promptOf = s.promptOf)
    (codes : s'.hist.codes = (s.noteSubmit c).hist.codes) (code : s'.acct.twofaCode = c) :
    Codes s' := by
  refine ⟨hp, ?_, fun _ => ?_, fun _ => ?_, fun _ _ r hr hok hrs => ?_, ?_, ?_⟩
  · rw [codes]
    intro p hpm
    rcases List.mem_cons.mp hpm with rfl | hpm
    · exact Nat.lt_succ_self _
    · exact Nat.lt_succ_of_lt (hc.numbered p hpm)
  · rw [codes, code]
    exact List.mem_cons_self
  · rw [codes, prompts]
    exact hc.prompts.lt
  · -- no handler can have taken a code that is submitted only now
    rw [codes] at hr hrs
    obtain ⟨c', hmem, -⟩ := hc.fresh r hr hok
    exact absurd hrs (Nat.ne_of_lt (hc.numbered _ hmem))
  · rw [codes]
    intro r hr hok
    obtain ⟨c', hmem, hrest⟩ := hc.fresh r hr hok
    exact ⟨c', List.mem_cons_of_mem _ hmem, hrest⟩
  · rw [codes]
    exact hc.once

/-- A step that leaves the submitted flag down, where everything about a held code is vacuous. -/
theorem unsubmitted (hc : Codes s) (hp : Prompts s') (hs : s'.acct.twofaSubmitted = false)
    (clock : s.hist.codes.clock ≤ s'.hist.codes.clock)
    (submissions : s'.hist.codes.submissions = s.hist.codes.submissions)
    (returns : s'.hist.codes.returns = s.hist.codes.returns) : Codes s' := by
  have vacuous : ∀ {P : Prop}, s'.acct.twofaSubmitted = true → P := by
    intro P h
    rw [hs] at h
    cases h
  refine ⟨hp, ?_, vacuous, vacuous, vacuous, ?_, ?_⟩
  · rw [submissions]
    exact fun p hpm => Nat.lt_of_lt_of_le (hc.numbered p hpm) clock
  · rw [submissions, returns]
    exact hc.fresh
  · rw [returns]
    exact hc.once

/-- A prompt returns. -/
theorem returned {k : Nat} {r : PromptReturn} (hc : Codes s) (hp : Prompts s')
    (hr : r = s.promptReturn k)
    (before : s.acct.twofaSubmitted = true → s.acct.aborted = false → k < s.hist.codes.codeFrom)
    (unspent : s.acct.twofaSubmitted = true → s.acct.aborted = false →
      ∀ r ∈ s.hist.codes.returns, r.ok = true → r.submission ≠ s.hist.codes.codeFrom)
    (clock : s.hist.codes.clock ≤ s'.hist.codes.clock)
    (codeFrom : s'.hist.codes.codeFrom = s.hist.codes.codeFrom)
    (submissions : s'.hist.codes.submissions = s.hist.codes.submissions)
    (returns : s'.hist.codes.returns = r :: s.hist.codes.returns)
    (acct : s'.acct = s.acct.leaveWait)
    (fewer : ∀ t k, s'.promptOf t = some k → s.promptOf t = some k)
    (nobody : s.acct.twofaSubmitted = true → s.acct.aborted = false → ∀ t, s'.promptOf t = none) :
    Codes s' := by
  have submitted : s'.acct.twofaSubmitted = s.acct.twofaSubmitted := by rw [acct]; rfl
  have aborted : s'.acct.aborted = s.acct.aborted := by rw [acct]; rfl
  refine ⟨hp, ?_, fun hs => ?_, fun hs t j hj => ?_,
    fun hs ha _ _ _ _ => nobody (submitted ▸ hs) (aborted ▸ ha), ?_, ?_⟩
  · rw [submissions]
    exact fun p hpm => Nat.lt_of_lt_of_le (hc.numbered p hpm) clock
  · rw [codeFrom, submissions, acct]
    exact hc.held (submitted ▸ hs)
  · rw [codeFrom]
    exact hc.before (submitted ▸ hs) t j (fewer t j hj)
  · rw [submissions, returns]
    intro x hx hok
    rcases List.mem_cons.mp hx with rfl | hx
    · -- the new return took the held code
      subst hr
      obtain ⟨hs, ha⟩ := promptReturn_ok.mp hok
      exact ⟨s.acct.twofaCode, hc.held hs, before hs ha, promptReturn_password hok⟩
    · exact hc.fresh x hx hok
  · rw [returns, List.filter_cons]
    split_ifs with hok
    · subst hr
      obtain ⟨hs, ha⟩ := promptReturn_ok.mp hok
      refine List.nodup_cons.mpr ⟨fun hmem => ?_, hc.once⟩
      obtain ⟨x, hx, hxs⟩ := List.mem_map.mp hmem
      obtain ⟨hx, hxok⟩ := List.mem_filter.mp hx
      exact unspent hs ha x hx hxok hxs
    · exact hc.once

theorem step {act : Act} (hs : Sole s) (hG : CodesQuiet s act) (h : s.step act = some s')
    (hc : Codes s) : Codes s' := by
  have hp := hc.prompts.step h
  cases wait_cases h with
  | quiet prompts codes submitted code aborted =>
    exact hc.same hp prompts codes fun hs => ⟨submitted ▸ hs, code, fun ha => aborted ▸ ha⟩
  | clear prompts codes submitted _ =>
    exact hc.unsubmitted hp submitted (Nat.le_of_eq (by rw [codes])) (by rw [codes])
      (by rw [codes])
  | drop prompts codes submitted _ =>
    exact hc.unsubmitted hp submitted (Nat.le_of_eq (by rw [codes])) (by rw [codes])
      (by rw [codes])
  | raise prompts codes submitted code aborted =>
    refine hc.same hp prompts codes fun hs => ⟨submitted ▸ hs, code, fun ha => ?_⟩
    rw [aborted] at ha
    cases ha
  | submit c isSubmit state prompts codes code aborted =>
    exact hc.submit hp prompts codes code
  | park t ready _ _ codes acct =>
    have hsub : s'.acct.twofaSubmitted = false := by
      rw [acct]
      exact (Bool.or_eq_false_iff.mp ready).1
    exact hc.unsubmitted hp hsub (by rw [codes]; exact Nat.le_succ _) (by rw [codes]; rfl)
      (by rw [codes]; rfl)
  | through t isPrompt ready prompts codes acct =>
    subst isPrompt
    -- the flag can only be set beside the abort flag
    have contra : ∀ {P : Prop}, s.acct.twofaSubmitted = true → s.acct.aborted = false → P := by
      intro P hsub ha
      rw [hG hsub] at ha
      cases ha
    exact hc.returned hp (k := s.hist.codes.clock) rfl contra contra
      (by rw [codes]; exact Nat.le_succ _) (by rw [codes]; rfl) (by rw [codes]; rfl)
      (by rw [codes]; rfl) acct (fun u j hj => prompts ▸ hj) contra
  | leave t k parked prompts codes acct =>
    have hothers : ∀ u j, s'.promptOf u = some j → u ≠ t ∧ s.promptOf u = some j := by
      intro u j hu
      rw [prompts, Function.update_apply] at hu
      split_ifs at hu with hut
      exact ⟨hut, hu⟩
    refine hc.returned hp (k := k) rfl (fun hsub _ => hc.before hsub t k parked)
      (fun hsub ha r hr hok hrs => ?_) (by rw [codes]; exact Nat.le_refl _) (by rw [codes]; rfl)
      (by rw [codes]; rfl) (by rw [codes]; rfl) acct (fun u j hj => (hothers u j hj).2)
      fun _ _ u => ?_
    · rw [hc.spent hsub ha r hr hok hrs t] at parked
      cases parked
    · refine Option.eq_none_iff_forall_ne_some.mpr fun j hj => ?_
      obtain ⟨hne, hj⟩ := hothers u j hj
      exact hne (hs.promptOf_unique hj parked)

theorem reach (h : accountMachine.Reach CodesQuiet s) : Codes s := by
  refine h.invariant ?_ fun _ _ _ hr hG hst hc =>
    hc.step (.reach (hr.mono fun _ _ => CodesQuiet.logoutQuiet)) hG hst
  have hs : ({} : Sys).acct.twofaSubmitted ≠ true := by decide
  exact ⟨Prompts.reach (G := CodesQuiet) .start, fun _ h => (nomatch h), fun h => absurd h hs,
    fun h => absurd h hs, fun h => absurd h hs, fun _ h => (nomatch h), .nil⟩

end Codes

/-- **2FA code delivery.**  In a run that raises no prompt over a left-over code and in which
`logout` resets the account only while no attempt is in flight, every prompt that returned true
returned a code submitted after it was raised, no code went to two prompts, and every prompt is
observable until a code, an abort or its timeout ends it. -/
theorem codes_delivered {s : Sys} (h : accountMachine.Reach CodesQuiet s) :
    CodesDelivered CodesQuiet s := by
  have hc := Codes.reach h
  have hs : Sole s := .reach (h.mono fun _ _ => CodesQuiet.logoutQuiet)
  refine ⟨hc.fresh, hc.once, fun t s' hG hst ha => ?_,
    fun t k act s' hG haw hst => haw.step hs (twofaSubmitted_of_awaiting h) hG hst⟩
  refine awaiting_of_prompt hst
    (Bool.or_eq_false_iff.mpr ⟨Bool.eq_false_iff.mpr fun hsub => ?_, ha⟩)
  rw [hG hsub] at ha
  cases ha

/-- Two logins, each with a prompt and its own code. -/
def codePerLogin : List Act :=
  [.startLogin 1 1 "user@example.com" "secret", .workerCheck 0 true true, .workerReqCtx 0 true,
   .workerBaseDir 0, .workerMakeFlow 0 true, .workerPrompt 0, .submit2fa "111111", .workerWake 0,
   .workerFlowReturns 0 none, .workerFail 0,
   .startLogin 1 1 "user@example.com" "secret", .workerCheck 1 true true, .workerReqCtx 1 true,
   .workerBaseDir 1, .workerMakeFlow 1 true, .workerPrompt 1, .submit2fa "222222", .workerWake 1]

theorem codes_delivered_codePerLogin :
    ∃ s, accountMachine.exec CodesQuiet accountMachine.init codePerLogin = some s ∧
      CodesDelivered CodesQuiet s :=
  ⟨_, rfl, codes_delivered (Machine.reach_of_exec (l := codePerLogin) rfl)⟩

/-- A flow that prompts again after a wrong code. -/
def repeatedPrompt : List Act :=
  [.startLogin 1 1 "user@example.com" "secret", .workerCheck 0 true true, .workerReqCtx 0 true,
   .workerBaseDir 0, .workerMakeFlow 0 true, .workerPrompt 0, .submit2fa "111111", .workerWake 0,
   .workerPrompt 0]

/-- The second prompt returns the code of the first. -/
theorem codes_delivered_fails :
    ¬ ∀ s, accountMachine.Reach Machine.anyStep s → CodesDelivered Machine.anyStep s := by
  intro hall
  have h := (hall _ (Machine.reach_of_exec (l := repeatedPrompt) rfl)).once
  exact absurd h (by decide)

end WrapperPaas
