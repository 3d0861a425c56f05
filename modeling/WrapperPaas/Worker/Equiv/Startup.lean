/-
  What the supervisor makes of failed startups.

  `Attempts` is the history of the startup attempts and their outcomes.  `spawn_ready` exits at the
  first failure and nothing ever adds to `startup_failures`: `note_startup_failure`, which would
  count the failures and compare them with the limit, is not called.  So the startup policy holds
  exactly as long as no attempt fails, or where the first failure is to end the supervisor
  (`startup_policy_iff`).
-/
import Mathlib.Data.List.Basic
import WrapperPaas.Worker.Equiv.Books
import WrapperPaas.Worker.Equiv.Synchrony

namespace WrapperPaas

namespace Supervisor

/-! ### The history -/

/-- The startup attempts: which thread made each, and whether the worker became ready. -/
abbrev Attempts := List (CallId × Bool)

/-- How many attempts have failed since the last one that succeeded. -/
def Attempts.failures (attempts : Attempts) : Nat :=
  (attempts.reverse.takeWhile fun a => !a.2).length

/-- The last attempt of thread `t` failed. -/
def Attempts.failedLast (attempts : Attempts) (t : CallId) : Bool :=
  (attempts.filter fun a => a.1 = t).getLast? = some (t, false)

/-- An attempt ends when the spawn fails, the probe fails or the worker is ready. -/
def noteAttempt (attempts : Attempts) (s : System) : Act → Attempts
  | .launchFails t => attempts ++ [(t, false)]
  | .run t =>
    match s.threads[t]? with
    | some (.spawn _ .failed) => attempts ++ [(t, false)]
    | some (.spawn _ (.ready _)) => attempts ++ [(t, true)]
    | _ => attempts
  | _ => attempts

/-- `workerMachine` with the history of the startup attempts. -/
def startupMachine (c : Config) : Machine (System × Attempts) Act :=
  (workerMachine c).record [] noteAttempt

/-! ### The policy -/

/-- The call has returned, and not with an error. -/
def Pc.returnedOk : Pc → Bool
  | .ensureReturned (.ok _) | .returned _ (.ok _) => true
  | _ => false

/-- The startup policy that the configuration describes. -/
structure StartupPolicy (c : Config) (s : System) (attempts : Attempts) : Prop where
  /-- the supervisor exits after `max_startup_failures` failures in a row, if it may -/
  exits : s.exited = true ↔
    c.exitOnStartupFailure = true ∧ max 1 c.maxStartupFailures.toNat ≤ attempts.failures
  /-- otherwise the call whose attempt failed returns an error -/
  serves : c.exitOnStartupFailure = false → ∀ t, attempts.failedLast t = true →
    s.threads[t]?.any Pc.returnedOk = false
  /-- while it runs, the supervisor counts the failures -/
  count : s.exited = false → s.worker.startupFailures.toNat = attempts.failures

/-! ### What the code does -/

section

variable {c : Config} {s s' : System} {act : Act} {b : Books}

theorem Pc.eq_failed {pc : Pc} {tr : Option Request} (h : pc.desk = .held tr .failing) :
    ∃ k, pc = .spawn k .failed := by
  cases pc with
  | spawn k spc =>
    cases spc with
    | failed => exact ⟨k, rfl⟩
    | _ => cases h
  | abandon r a apc => cases apc <;> cases h
  | untrack r result => cases result <;> cases h
  | unlock r result => cases result <;> cases h
  | returned r result => cases result <;> cases h
  | restart r rpc => cases rpc <;> cases h
  | _ => cases h

/-- Nothing is added to `startup_failures`. -/
theorem startupFailures_step (hs : BookStep c s act b) (h : s.books.startupFailures = 0) :
    b.startupFailures = 0 := by
  cases hs with
  | reset => rfl
  | _ => exact h

/-- Only a failed attempt ends the supervisor. -/
theorem exited_step (hs : BookStep c s act b) : b.exited = s.exited ∨
    (∃ t, act = .launchFails t) ∨
    ∃ t tr, act = .run t ∧ s.books.desks[t]? = some (.held tr .failing) := by
  cases hs with
  | @exit t tr hd => exact .inr (.inr ⟨t, tr, rfl, hd⟩)
  | @abort t tr hd => exact .inr (.inl ⟨t, rfl⟩)
  | _ => exact .inl rfl

/-- A step notes a failed attempt and ends the supervisor, or it notes none and does not. -/
theorem attempt_step (attempts : Attempts) (h : s.step c act = some s') :
    s'.exited = true ∧ (∃ t, noteAttempt attempts s act = attempts ++ [(t, false)]) ∨
    s'.exited = false ∧ ∃ more, noteAttempt attempts s act = attempts ++ more ∧
      ∀ a ∈ more, a.2 = true := by
  have hrunning := System.running_of_step h
  have hexited := exited_step (System.book_step h)
  have hsame : s'.books.exited = s.exited → s'.exited = false := fun he => he.trans hrunning
  cases act with
  | launchFails t =>
    simp only [System.step, hrunning] at h
    obtain ⟨pc, ht, hf⟩ := System.withThread_eq_some h
    split at hf
    · have hs := Option.some.inj hf
      exact .inl ⟨by rw [← hs], t, rfl⟩
    · cases hf
  | run t =>
    have hstep := h
    simp only [System.step, hrunning] at hstep
    obtain ⟨pc, ht, hf⟩ := System.withThread_eq_some hstep
    by_cases hfailed : ∃ k, pc = .spawn k .failed
    · obtain ⟨k, rfl⟩ := hfailed
      have hs := Option.some.inj hf
      exact .inl ⟨by rw [← hs], t, by simp [noteAttempt, ht]⟩
    · refine .inr ⟨?_, ?_⟩
      · rcases hexited with he | ⟨u, hu⟩ | ⟨u, tr, hu, hd⟩
        · exact hsame he
        · cases hu
        · obtain rfl := Act.run.inj hu
          have hdesk := (System.desk_of_getElem? ht).symm.trans hd
          exact absurd (Pc.eq_failed (Option.some.inj hdesk)) hfailed
      · simp only [noteAttempt, ht]
        split
        · rename_i k hk
          exact absurd ⟨k, Option.some.inj hk⟩ hfailed
        · exact ⟨[(t, true)], rfl, by simp⟩
        · exact ⟨[], by simp, by simp⟩
  | _ =>
    refine .inr ⟨?_, [], by simp [noteAttempt], by simp⟩
    rcases hexited with he | ⟨u, hu⟩ | ⟨u, tr, hu, hd⟩
    · exact hsame he
    · cases hu
    · cases hu

end

/-- The counter is never raised, and a failed attempt is the last one. -/
structure FailsFast (s : System) (attempts : Attempts) : Prop where
  count : s.worker.startupFailures = 0
  running : s.exited = false → ∀ a ∈ attempts, a.2 = true
  ended : s.exited = true → ∃ (before : Attempts) (t : CallId),
    attempts = before ++ [(t, false)] ∧ ∀ a ∈ before, a.2 = true

theorem FailsFast.step {c : Config} {s s' : System} {act : Act} {attempts : Attempts}
    (h : FailsFast s attempts) (hst : s.step c act = some s') :
    FailsFast s' (noteAttempt attempts s act) := by
  have hcount := startupFailures_step (System.book_step hst) h.count
  rcases attempt_step attempts hst with ⟨hexit, t, hnote⟩ | ⟨hexit, more, hnote, hmore⟩
  · refine ⟨hcount, fun hn => ?_,
      fun _ => ⟨attempts, t, hnote, h.running (System.running_of_step hst)⟩⟩
    rw [hexit] at hn
    cases hn
  · refine ⟨hcount, fun _ a ha => ?_, fun hn => ?_⟩
    · rw [hnote] at ha
      rcases List.mem_append.mp ha with ha | ha
      · exact h.running (System.running_of_step hst) a ha
      · exact hmore a ha
    · rw [hexit] at hn
      cases hn

theorem FailsFast.reach {c : Config} {s : System} {attempts : Attempts}
    (h : (startupMachine c).Reach Machine.anyStep (s, attempts)) : FailsFast s attempts := by
  have hinit : FailsFast {} [] := ⟨rfl, fun _ a ha => (by cases ha), fun hn => (by cases hn)⟩
  refine h.invariant (P := fun x => FailsFast x.1 x.2) hinit ?_
  intro x act x' _ _ hst hx
  obtain ⟨hstep, hnote⟩ := Machine.step_record.mp hst
  rw [hnote]
  exact hx.step hstep

/-- A successful attempt, or the beginning of the history, ends the row of failures. -/
theorem takeWhile_failed_eq_nil {attempts : Attempts} (h : ∀ a ∈ attempts, a.2 = true) :
    attempts.reverse.takeWhile (fun a => !a.2) = [] := by
  cases hrev : attempts.reverse with
  | nil => rfl
  | cons a rest =>
    have hmem : a ∈ attempts := by
      rw [← List.mem_reverse, hrev]
      exact List.mem_cons_self
    simp [h a hmem]

theorem failures_eq_zero {attempts : Attempts} (h : ∀ a ∈ attempts, a.2 = true) :
    attempts.failures = 0 := by
  rw [Attempts.failures, takeWhile_failed_eq_nil h, List.length_nil]

theorem failures_concat {before : Attempts} {t : CallId} (h : ∀ a ∈ before, a.2 = true) :
    Attempts.failures (before ++ [(t, false)]) = 1 := by
  simp [Attempts.failures, takeWhile_failed_eq_nil h]

/-- **The startup policy** holds exactly as long as no attempt fails, or where it asks for an exit
at the first failure. -/
theorem startup_policy_iff {c : Config} {s : System} {attempts : Attempts}
    (h : (startupMachine c).Reach Machine.anyStep (s, attempts)) :
    StartupPolicy c s attempts ↔ (∀ a ∈ attempts, a.2 = true) ∨
      c.exitOnStartupFailure = true ∧ c.maxStartupFailures.toNat ≤ 1 := by
  have hfast := FailsFast.reach h
  cases hexit : s.exited with
  | false =>
    have hall := hfast.running hexit
    have hnone := failures_eq_zero hall
    refine iff_of_true
      ⟨⟨fun he => ?_, fun ⟨_, hle⟩ => ?_⟩, fun _ t ht => ?_, fun _ => ?_⟩ (.inl hall)
    · rw [hexit] at he
      cases he
    · omega
    · have hmem := List.mem_of_getLast? (of_decide_eq_true ht)
      have hlast := hall (t, false) (List.mem_filter.mp hmem).1
      cases hlast
    · rw [hfast.count, hnone]
      rfl
  | true =>
    -- one attempt has failed, the last one, and the code has exited
    obtain ⟨before, t, rfl, hbefore⟩ := hfast.ended hexit
    have hone : Attempts.failures (before ++ [(t, false)]) = 1 := failures_concat hbefore
    constructor
    · intro hpolicy
      obtain ⟨hmay, hle⟩ := hpolicy.exits.mp hexit
      exact .inr ⟨hmay, by omega⟩
    · rintro (hall | ⟨hmay, hle⟩)
      · have hlast := hall (t, false) (by simp)
        cases hlast
      · refine ⟨⟨fun _ => ⟨hmay, by omega⟩, fun _ => hexit⟩, fun hno => ?_, fun hrun => ?_⟩
        · rw [hmay] at hno
          cases hno
        · rw [hexit] at hrun
          cases hrun

theorem startup_policy_iff_firstRequest :
    ∃ x, (startupMachine defaultConfig).exec Machine.anyStep ({}, []) firstRequest = some x ∧
      x.2 = [(0, true)] ∧ StartupPolicy defaultConfig x.1 x.2 := by
  have hend : ((startupMachine defaultConfig).exec Machine.anyStep ({}, []) firstRequest).map
      (fun x => x.2) = some [(0, true)] := by
    decide +kernel
  obtain ⟨x, hx, hattempts⟩ := Option.map_eq_some_iff.mp hend
  refine ⟨x, hx, hattempts, (startup_policy_iff (Machine.reach_of_exec hx)).mpr (.inl ?_)⟩
  rw [hattempts]
  decide

/-- The first worker cannot be spawned. -/
def failedSpawn : List Act := [.ensureStarted, .run 0, .run 0, .launchFails 0]

/-- With a limit of three failures and leave to keep serving, the supervisor exits after one. -/
theorem startup_policy_fails :
    ¬ ∀ x, (startupMachine defaultConfig).Reach Machine.anyStep x →
      StartupPolicy defaultConfig x.1 x.2 := by
  intro hall
  have hpolicy := hall _ (Machine.reach_of_exec (l := failedSpawn) rfl)
  obtain ⟨hmay, -⟩ := hpolicy.exits.mp rfl
  exact absurd hmay (by decide)

end Supervisor

end WrapperPaas
