/-
  `logout` and the handlers parked in the 2FA wait.

  `logout` raises the abort flag in one critical section and lowers it in another.  A parked handler
  that is notified by the first must take the mutex again before its predicate is evaluated; when
  the second section wins that race the handler goes on waiting (`logout_releases_parked_fails`),
  and the code of a later login can wake it.  Under `AbortQuiet` every handler has left its wait by
  the time the flag is lowered, and then it returned false.
-/
import Mathlib.Data.List.Basic
import WrapperPaas.Account.Equiv.Wait

namespace WrapperPaas

open Sys

/-- The condition on a run: when a raised abort flag is lowered, no handler is still parked. -/
def AbortQuiet (s : Sys) (act : Act) : Prop :=
  act.lowersAbort s → s.acct.aborted = true → ∀ th ∈ s.threads, th.prompt = none

instance : DecidableRel AbortQuiet := fun s act => by
  unfold AbortQuiet
  infer_instance

/-- Thread `t` was parked in prompt `k` when a `logout()` was called that has returned by now. -/
inductive AfterLogout (G : Sys → Act → Prop) (t : ThreadId) (k : Nat) : Sys → Prop
  | intro {s₁ s₂ s₃ s₄ s₅ : Sys} {during after : List Act} (reached : accountMachine.Reach G s₁)
      (parked : s₁.promptOf t = some k) (call : s₁.step .logoutCall = some s₂)
      (inside : accountMachine.Path G s₂ during s₃)
      (allowed : G s₃ (.logoutReset s₁.threads.length))
      (reset : s₃.step (.logoutReset s₁.threads.length) = some s₄)
      (outside : accountMachine.Path G s₄ after s₅) : AfterLogout G t k s₅

/-- The handler that thread `t` parked in prompt `k` has left its wait, or can leave it; what it
returned was false. -/
structure Released (t : ThreadId) (k : Nat) (s : Sys) : Prop where
  ready : s.promptOf t = some k → s.acct.codeReady = true
  left : s.promptOf t ≠ some k → ∃ r ∈ s.hist.codes.returns, r.prompt = k
  refused : ∀ r ∈ s.hist.codes.returns, r.prompt = k → r.ok = false

/-- What holds of prompt `k` from the first section of `logout` on. -/
structure Aborting (t : ThreadId) (k : Nat) (s : Sys) : Prop where
  lt : k < s.hist.codes.clock
  raised : ∀ u, s.promptOf u = some k → s.acct.aborted = true
  left : s.promptOf t = some k ∨ ∃ r ∈ s.hist.codes.returns, r.prompt = k
  refused : ∀ r ∈ s.hist.codes.returns, r.prompt = k → r.ok = false

/-- A handler that returns while the abort flag is up returns false. -/
theorem promptReturn_aborted {s : Sys} (k : Nat) (ha : s.acct.aborted = true) :
    (s.promptReturn k).ok = false := by
  simp [promptReturn, Account.codeCredentials, ha]

/-- No thread is parked when all of them say so. -/
theorem promptOf_eq_none {s : Sys} (h : ∀ th ∈ s.threads, th.prompt = none) (u : ThreadId) :
    s.promptOf u = none := by
  cases hu : s.threads[u]? with
  | none => rw [promptOf, hu, Option.bind_none]
  | some th => rw [promptOf_of_getElem? hu, h th (List.mem_of_getElem? hu)]

namespace Aborting

variable {t : ThreadId} {k : Nat} {s s' : Sys}

/-- A step that neither parks nor releases a handler and lowers no flag that one relies on. -/
theorem same (ha : Aborting t k s) (prompts : s'.promptOf = s.promptOf)
    (clock : s.hist.codes.clock ≤ s'.hist.codes.clock)
    (returns : s'.hist.codes.returns = s.hist.codes.returns)
    (aborted : (∃ u, s.promptOf u = some k) → s.acct.aborted = true → s'.acct.aborted = true) :
    Aborting t k s' where
  lt := Nat.lt_of_lt_of_le ha.lt clock
  raised u hu := aborted ⟨u, prompts ▸ hu⟩ (ha.raised u (prompts ▸ hu))
  left := by
    rw [prompts, returns]
    exact ha.left
  refused r hr := ha.refused r (returns ▸ hr)

theorem step {act : Act} (hG : AbortQuiet s act) (h : s.step act = some s')
    (ha : Aborting t k s) : Aborting t k s' := by
  cases wait_cases h with
  | quiet prompts codes _ _ aborted =>
    exact ha.same prompts (Nat.le_of_eq (by rw [codes])) (by rw [codes])
      fun _ hr => aborted.trans hr
  | clear prompts codes _ lowers =>
    refine ha.same prompts (Nat.le_of_eq (by rw [codes])) (by rw [codes]) ?_
    -- the flag is only lowered when the handler is gone
    rintro ⟨u, hu⟩ hr
    rw [promptOf_eq_none (hG lowers hr)] at hu
    cases hu
  | drop prompts codes _ aborted =>
    exact ha.same prompts (Nat.le_of_eq (by rw [codes])) (by rw [codes])
      fun _ hr => aborted.trans hr
  | raise prompts codes _ _ aborted =>
    exact ha.same prompts (Nat.le_of_eq (by rw [codes])) (by rw [codes]) fun _ _ => aborted
  | submit c _ _ prompts codes _ aborted =>
    exact ha.same prompts (by rw [codes]; exact Nat.le_succ _) (by rw [codes]; rfl)
      fun _ hr => aborted.trans hr
  | park u _ free prompts codes acct =>
    have hclock : s'.hist.codes.clock = s.hist.codes.clock + 1 := by rw [codes]; rfl
    have hret : s'.hist.codes.returns = s.hist.codes.returns := by rw [codes]; rfl
    refine ⟨?_, fun v hv => ?_, ?_, fun r hr => ha.refused r (hret ▸ hr)⟩
    · rw [hclock]
      exact Nat.lt_succ_of_lt ha.lt
    · rw [prompts, Function.update_apply] at hv
      split_ifs at hv with hvu
      · -- the new prompt is not `k`
        exact absurd (Option.some.inj hv) (Nat.ne_of_gt ha.lt)
      · rw [acct]
        exact ha.raised v hv
    · rw [prompts, hret]
      refine ha.left.imp_left fun ht => ?_
      have hne : t ≠ u := by
        rintro rfl
        rw [free] at ht
        cases ht
      rw [Function.update_of_ne hne, ht]
  | through u _ _ prompts codes acct =>
    have hclock : s'.hist.codes.clock = s.hist.codes.clock + 1 := by rw [codes]; rfl
    have hret : s'.hist.codes.returns =
        s.notePrompt.promptReturn s.hist.codes.clock :: s.hist.codes.returns := by rw [codes]; rfl
    refine ⟨?_, fun v hv => ?_, ?_, fun r hr hrk => ?_⟩
    · rw [hclock]
      exact Nat.lt_succ_of_lt ha.lt
    · rw [acct]
      exact ha.raised v (prompts ▸ hv)
    · rw [prompts, hret]
      refine ha.left.imp_right ?_
      rintro ⟨r, hr, hrk⟩
      exact ⟨r, List.mem_cons_of_mem _ hr, hrk⟩
    · rw [hret] at hr
      rcases List.mem_cons.mp hr with rfl | hr
      · exact absurd hrk (Nat.ne_of_gt ha.lt)
      · exact ha.refused r hr hrk
  | leave u j parked prompts codes acct =>
    have hret : s'.hist.codes.returns = s.promptReturn j :: s.hist.codes.returns := by
      rw [codes]; rfl
    refine ⟨?_, fun v hv => ?_, ?_, fun r hr hrk => ?_⟩
    · rw [codes]
      exact ha.lt
    · rw [prompts, Function.update_apply] at hv
      split_ifs at hv
      rw [acct]
      exact ha.raised v hv
    · rw [prompts, hret]
      rcases ha.left with ht | ⟨r, hr, hrk⟩
      · by_cases htu : t = u
        · -- it is the handler itself that leaves
          subst htu
          obtain rfl := Option.some.inj (parked.symm.trans ht)
          exact .inr ⟨_, List.mem_cons_self, rfl⟩
        · rw [Function.update_of_ne htu]
          exact .inl ht
      · exact .inr ⟨r, List.mem_cons_of_mem _ hr, hrk⟩
    · rw [hret] at hr
      rcases List.mem_cons.mp hr with rfl | hr
      · obtain rfl : j = k := hrk
        exact promptReturn_aborted j (ha.raised u parked)
      · exact ha.refused r hr hrk

/-- A run keeps it. -/
theorem path {as : List Act} (h : accountMachine.Path AbortQuiet s as s')
    (ha : Aborting t k s) : Aborting t k s' :=
  h.preserves (fun _ _ _ hG hst ha => ha.step hG hst) ha

/-- The first section of `logout` establishes it for every parked handler. -/
theorem call (hp : Prompts s) (parked : s.promptOf t = some k)
    (h : s.step .logoutCall = some s') : Aborting t k s' := by
  obtain rfl := Option.some.inj h
  have prompts : (({ s with acct := s.acct.logoutRaise } : Sys).spawn (.logout .detach)).promptOf =
      s.promptOf := promptOf_spawn rfl
  refine ⟨hp.lt t k parked, fun _ _ => rfl, .inl ?_, fun r hr hrk => ?_⟩
  · rw [prompts]
    exact parked
  · exact absurd hrk (hp.open_ t k parked r hr)

end Aborting

/-- **Logout releases a parked handler.**  In a run that lowers the abort flag only when no handler
is still parked, a handler that was parked when `logout()` was called has returned false by the time
`logout()` returns. -/
theorem logout_releases_parked {t : ThreadId} {k : Nat} {s : Sys}
    (h : AfterLogout AbortQuiet t k s) : Released t k s := by
  obtain ⟨reached, parked, call, inside, allowed, reset, outside⟩ := h
  have called := Aborting.call (Prompts.reach reached) parked call
  have ha := ((called.path inside).step allowed reset).path outside
  refine ⟨fun ht => ?_, fun ht => ?_, ha.refused⟩
  · rw [Account.codeReady, ha.raised t ht, Bool.or_true]
  · exact ha.left.resolve_left ht

/-- A login up to its 2FA wait. -/
def loginToPrompt : List Act :=
  [.startLogin 1 1 "old@example.com" "secret", .workerCheck 0 true true, .workerReqCtx 0 true,
   .workerBaseDir 0, .workerMakeFlow 0 true, .workerCredentials 0, .workerPrompt 0]

/-- The parked handler takes the mutex between the two sections of `logout`. -/
theorem logout_releases_parked_wakeup :
    ∃ s, accountMachine.exec AbortQuiet accountMachine.init
        (loginToPrompt ++ [.logoutCall, .logoutDetach 1, .workerWake 0, .logoutReset 1]) = some s ∧
      Released 0 0 s :=
  ⟨_, rfl, logout_releases_parked
    (.intro (Machine.reach_of_exec (l := loginToPrompt) rfl) rfl rfl
      (Machine.path_of_exec (l := [.logoutDetach 1, .workerWake 0]) rfl)
      (by decide) rfl (.nil _))⟩

/-- The second section of `logout` takes the mutex before the parked handler. -/
theorem logout_releases_parked_fails :
    ¬ ∀ t k s, AfterLogout Machine.anyStep t k s → Released t k s := by
  intro hall
  have h := hall 0 0 _ (.intro (Machine.reach_of_exec (l := loginToPrompt) rfl) rfl rfl
    (Machine.path_of_exec (l := [.logoutDetach 1]) rfl) trivial rfl (.nil _))
  have hr := h.ready rfl
  cases hr

end WrapperPaas
