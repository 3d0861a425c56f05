/-
  The 2FA wait on its own.

  Of everything a step does, the wait sees only the two flags of its predicate, the stored code and
  the handlers that are parked.  `WaitStep` lists what can happen to these, and `wait_cases` says
  that each step of the account is one of its cases.  `Prompts` collects what holds of the parked
  handlers in every run: they wait in different prompts, each raised before now and not returned.
-/
import Mathlib.Data.List.Basic
import WrapperPaas.Account.Equiv.Sole

namespace WrapperPaas

open Sys

/-- The prompt thread `t` is parked in. -/
def Sys.promptOf (s : Sys) (t : ThreadId) : Option Nat := (s.threads[t]?).bind Thread.prompt

theorem promptOf_of_getElem? {s : Sys} {t : ThreadId} {th : Thread} (h : s.threads[t]? = some th) :
    s.promptOf t = th.prompt := by
  rw [promptOf, h, Option.bind_some]

theorem promptOf_move {s : Sys} {t : ThreadId} {th th' : Thread} (h : s.threads[t]? = some th) :
    (s.move t th').promptOf = Function.update s.promptOf t th'.prompt := by
  funext u
  have hlt : t < s.threads.length := (List.getElem?_eq_some_iff.mp h).1
  by_cases hu : u = t
  · subst hu
    simp [promptOf, move, hlt]
  · have hne : ¬ t = u := fun h => hu h.symm
    simp [promptOf, move, hu, hne]

theorem promptOf_move_same {s : Sys} {t : ThreadId} {th th' : Thread} (h : s.threads[t]? = some th)
    (hp : th'.prompt = th.prompt) : (s.move t th').promptOf = s.promptOf := by
  rw [promptOf_move h, hp, ← promptOf_of_getElem? h, Function.update_eq_self]

theorem promptOf_spawn {s : Sys} {th : Thread} (hp : th.prompt = none) :
    (s.spawn th).promptOf = s.promptOf := by
  funext u
  rw [promptOf, promptOf, spawn, List.getElem?_append]
  split_ifs with hu
  · rfl
  · rw [List.getElem?_eq_none (Nat.not_lt.mp hu), List.getElem?_singleton]
    split_ifs
    · exact hp
    · rfl

/-- The step lowers the abort flag (and clears the submitted flag with it). -/
def Act.lowersAbort (s : Sys) : Act → Prop
  | .startLogin _ _ _ _ => ¬ s.acct.busy
  | .restoreGate _ => s.acct.state = .loggedOut
  | .logoutReset _ => True
  | _ => False

instance (s : Sys) (act : Act) : Decidable (act.lowersAbort s) := by
  apply act.casesOn (motive := (Decidable <| ·.lowersAbort s)) <;> intros <;>
    dsimp only [Act.lowersAbort] <;> infer_instance

/-- What a step does to the 2FA wait. -/
inductive WaitStep (s : Sys) (act : Act) (s' : Sys) : Prop
  /-- nothing the wait can see -/
  | quiet (prompts : s'.promptOf = s.promptOf) (codes : s'.hist.codes = s.hist.codes)
      (submitted : s'.acct.twofaSubmitted = s.acct.twofaSubmitted)
      (code : s'.acct.twofaCode = s.acct.twofaCode) (aborted : s'.acct.aborted = s.acct.aborted)
  /-- a new attempt or the reset of `logout` clears both flags -/
  | clear (prompts : s'.promptOf = s.promptOf) (codes : s'.hist.codes = s.hist.codes)
      (submitted : s'.acct.twofaSubmitted = false) (lowers : act.lowersAbort s)
  /-- a flow finishes and drops the code -/
  | drop (prompts : s'.promptOf = s.promptOf) (codes : s'.hist.codes = s.hist.codes)
      (submitted : s'.acct.twofaSubmitted = false) (aborted : s'.acct.aborted = s.acct.aborted)
  /-- `logout` raises the abort flag -/
  | raise (prompts : s'.promptOf = s.promptOf) (codes : s'.hist.codes = s.hist.codes)
      (submitted : s'.acct.twofaSubmitted = s.acct.twofaSubmitted)
      (code : s'.acct.twofaCode = s.acct.twofaCode) (aborted : s'.acct.aborted = true)
  | submit (c : String) (isSubmit : act = .submit2fa c) (state : s.acct.state = .awaiting2fa)
      (prompts : s'.promptOf = s.promptOf) (codes : s'.hist.codes = (s.noteSubmit c).hist.codes)
      (code : s'.acct.twofaCode = c) (aborted : s'.acct.aborted = s.acct.aborted)
  /-- a prompt whose predicate does not hold yet parks its thread -/
  | park (t : ThreadId) (ready : s.acct.codeReady = false) (free : s.promptOf t = none)
      (prompts : s'.promptOf = Function.update s.promptOf t (some s.hist.codes.clock))
      (codes : s'.hist.codes = s.notePrompt.hist.codes) (acct : s'.acct = s.acct.awaitCode)
  /-- a prompt whose predicate already holds returns at once -/
  | through (t : ThreadId) (isPrompt : act = .workerPrompt t) (ready : s.acct.codeReady = true)
      (prompts : s'.promptOf = s.promptOf)
      (codes : s'.hist.codes = (s.notePrompt.noteReturn s.hist.codes.clock).hist.codes)
      (acct : s'.acct = s.acct.leaveWait)
  /-- a parked thread leaves, woken or timed out -/
  | leave (t : ThreadId) (k : Nat) (parked : s.promptOf t = some k)
      (prompts : s'.promptOf = Function.update s.promptOf t none)
      (codes : s'.hist.codes = (s.noteReturn k).hist.codes) (acct : s'.acct = s.acct.leaveWait)

/-- Neither end of a local move is parked. -/
theorem LocalMove.prompt {s : Sys} {t : ThreadId} {th th' : Thread} {m : Option ThreadId}
    (h : LocalMove s t th th' m) : th'.prompt = th.prompt := by
  cases h with
  | worker hw => cases hw <;> rfl
  | restore hr => rfl
  | detach => rfl

theorem wait_cases {s s' : Sys} {act : Act} (h : s.step act = some s') : WaitStep s act s' := by
  cases step_trans h with
  | refused _ => exact .quiet rfl rfl rfl rfl rfl
  | login hacct =>
    obtain ⟨hb, rfl⟩ := Account.startLogin_eq_some hacct
    exact .clear (promptOf_spawn rfl) rfl rfl hb
  | submit hacct =>
    obtain ⟨hb, rfl⟩ := Account.submit2fa_eq_some hacct
    exact .submit _ rfl hb rfl rfl rfl rfl
  | raise => exact .raise (promptOf_spawn rfl) rfl rfl rfl rfl
  | call _ => exact .quiet (promptOf_spawn rfl) rfl rfl rfl rfl
  | loc _ ht hm => exact .quiet (promptOf_move_same ht hm.prompt) rfl rfl rfl rfl
  | nullDeref _ _ _ => exact .quiet rfl rfl rfl rfl rfl
  | reset ht => exact .clear (promptOf_move_same ht rfl) rfl rfl trivial
  | begin ht hacct =>
    obtain ⟨hb, rfl⟩ := Account.restoreBegin_eq_some hacct
    exact .clear (promptOf_move_same ht rfl) rfl rfl hb
  | giveUp ht => exact .quiet (promptOf_move_same ht rfl) rfl rfl rfl rfl
  | restored ht _ _ => exact .quiet (promptOf_move_same ht rfl) rfl rfl rfl rfl
  | restorePublish ht => exact .drop (promptOf_move_same ht rfl) rfl rfl rfl
  | park ht hr => exact .park _ hr (promptOf_of_getElem? ht) (promptOf_move ht) rfl rfl
  | promptThrough ht hr => exact .through _ rfl hr (promptOf_move_same ht rfl) rfl rfl
  | wake ht _ => exact .leave _ _ (promptOf_of_getElem? ht) (promptOf_move ht) rfl rfl
  | timeout ht => exact .leave _ _ (promptOf_of_getElem? ht) (promptOf_move ht) rfl rfl
  | harvested ht _ _ _ => exact .quiet (promptOf_move_same ht rfl) rfl rfl rfl rfl
  | fail ht => exact .drop (promptOf_move_same ht rfl) rfl rfl rfl
  | publish ht => exact .drop (promptOf_move_same ht rfl) rfl rfl rfl

/-! ### Prompts are told apart -/

/-- Parked handlers wait in different prompts, all raised before now and not yet returned. -/
structure Prompts (s : Sys) : Prop where
  lt : ∀ t k, s.promptOf t = some k → k < s.hist.codes.clock
  open_ : ∀ t k, s.promptOf t = some k → ∀ r ∈ s.hist.codes.returns, r.prompt ≠ k
  distinct : ∀ t u k, s.promptOf t = some k → s.promptOf u = some k → t = u
  returned : ∀ r ∈ s.hist.codes.returns, r.prompt < s.hist.codes.clock

namespace Prompts

variable {s s' : Sys}

/-- A step that leaves the parked handlers and the returns alone. -/
theorem same (hp : Prompts s) (prompts : s'.promptOf = s.promptOf)
    (clock : s.hist.codes.clock ≤ s'.hist.codes.clock)
    (returns : s'.hist.codes.returns = s.hist.codes.returns) : Prompts s' where
  lt t k h := Nat.lt_of_lt_of_le (hp.lt t k (prompts ▸ h)) clock
  open_ t k h r hr := hp.open_ t k (prompts ▸ h) r (returns ▸ hr)
  distinct t u k ht hu := hp.distinct t u k (prompts ▸ ht) (prompts ▸ hu)
  returned r hr := Nat.lt_of_lt_of_le (hp.returned r (returns ▸ hr)) clock

theorem step {act : Act} (h : s.step act = some s') (hp : Prompts s) : Prompts s' := by
  cases wait_cases h with
  | quiet prompts codes _ _ _ =>
    exact hp.same prompts (Nat.le_of_eq (by rw [codes])) (by rw [codes])
  | clear prompts codes _ _ => exact hp.same prompts (Nat.le_of_eq (by rw [codes])) (by rw [codes])
  | drop prompts codes _ _ => exact hp.same prompts (Nat.le_of_eq (by rw [codes])) (by rw [codes])
  | raise prompts codes _ _ _ =>
    exact hp.same prompts (Nat.le_of_eq (by rw [codes])) (by rw [codes])
  | submit c _ _ prompts codes _ _ =>
    exact hp.same prompts (by rw [codes]; exact Nat.le_succ _) (by rw [codes]; rfl)
  | park t _ _ prompts codes _ =>
    -- the new prompt is numbered by the clock, above every earlier one
    have hclock : s'.hist.codes.clock = s.hist.codes.clock + 1 := by rw [codes]; rfl
    have hret : s'.hist.codes.returns = s.hist.codes.returns := by rw [codes]; rfl
    have hcases : ∀ u k, s'.promptOf u = some k →
        u = t ∧ k = s.hist.codes.clock ∨ u ≠ t ∧ s.promptOf u = some k := by
      intro u k hu
      rw [prompts, Function.update_apply] at hu
      split_ifs at hu with hut
      · exact .inl ⟨hut, (Option.some.inj hu).symm⟩
      · exact .inr ⟨hut, hu⟩
    refine ⟨fun u k hu => ?_, fun u k hu r hr => ?_, fun u v k hu hv => ?_, fun r hr => ?_⟩
    · rw [hclock]
      obtain ⟨-, rfl⟩ | ⟨-, hu⟩ := hcases u k hu
      · exact Nat.lt_succ_self _
      · exact Nat.lt_succ_of_lt (hp.lt u k hu)
    · rw [hret] at hr
      obtain ⟨-, rfl⟩ | ⟨-, hu⟩ := hcases u k hu
      · exact Nat.ne_of_lt (hp.returned r hr)
      · exact hp.open_ u k hu r hr
    · obtain ⟨rfl, rfl⟩ | ⟨-, hu⟩ := hcases u k hu
      · obtain ⟨rfl, -⟩ | ⟨-, hv⟩ := hcases v _ hv
        · rfl
        · exact absurd (hp.lt v _ hv) (Nat.lt_irrefl _)
      · obtain ⟨-, rfl⟩ | ⟨-, hv⟩ := hcases v k hv
        · exact absurd (hp.lt u _ hu) (Nat.lt_irrefl _)
        · exact hp.distinct u v k hu hv
    · rw [hclock]
      exact Nat.lt_succ_of_lt (hp.returned r (hret ▸ hr))
  | through t _ _ prompts codes _ =>
    have hclock : s'.hist.codes.clock = s.hist.codes.clock + 1 := by rw [codes]; rfl
    have hret : s'.hist.codes.returns =
        s.notePrompt.promptReturn s.hist.codes.clock :: s.hist.codes.returns := by rw [codes]; rfl
    refine ⟨fun u k hu => ?_, fun u k hu r hr => ?_, fun u v k hu hv => ?_, fun r hr => ?_⟩
    · rw [hclock]
      exact Nat.lt_succ_of_lt (hp.lt u k (prompts ▸ hu))
    · rw [prompts] at hu
      rw [hret] at hr
      rcases List.mem_cons.mp hr with rfl | hr
      · exact Nat.ne_of_gt (hp.lt u k hu)
      · exact hp.open_ u k hu r hr
    · exact hp.distinct u v k (prompts ▸ hu) (prompts ▸ hv)
    · rw [hclock]
      rw [hret] at hr
      rcases List.mem_cons.mp hr with rfl | hr
      · exact Nat.lt_succ_self _
      · exact Nat.lt_succ_of_lt (hp.returned r hr)
  | leave t k parked prompts codes _ =>
    have hclock : s'.hist.codes.clock = s.hist.codes.clock := by rw [codes]; rfl
    have hret : s'.hist.codes.returns = s.promptReturn k :: s.hist.codes.returns := by
      rw [codes]; rfl
    have hcases : ∀ u j, s'.promptOf u = some j → u ≠ t ∧ s.promptOf u = some j := by
      intro u j hu
      rw [prompts, Function.update_apply] at hu
      split_ifs at hu with hut
      exact ⟨hut, hu⟩
    refine ⟨fun u j hu => ?_, fun u j hu r hr => ?_, fun u v j hu hv => ?_, fun r hr => ?_⟩
    · rw [hclock]
      exact hp.lt u j (hcases u j hu).2
    · obtain ⟨hne, hu⟩ := hcases u j hu
      rw [hret] at hr
      rcases List.mem_cons.mp hr with rfl | hr
      · -- only `t` was parked in `k`
        rintro rfl
        exact hne (hp.distinct u t _ hu parked)
      · exact hp.open_ u j hu r hr
    · exact hp.distinct u v j (hcases u j hu).2 (hcases v j hv).2
    · rw [hclock]
      rw [hret] at hr
      rcases List.mem_cons.mp hr with rfl | hr
      · exact hp.lt t k parked
      · exact hp.returned r hr

theorem reach {G : Sys → Act → Prop} (h : accountMachine.Reach G s) : Prompts s := by
  refine h.invariant ?_ fun _ _ _ _ _ hst hp => hp.step hst
  exact ⟨fun _ _ h => by simp [promptOf, accountMachine] at h,
    fun _ _ h => by simp [promptOf, accountMachine] at h,
    fun _ _ _ h => by simp [promptOf, accountMachine] at h, fun _ h => (nomatch h)⟩

end Prompts

end WrapperPaas
