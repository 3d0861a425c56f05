/-
  Only one Apple authentication activity at a time.

  `auth.hpp` promises "one concurrent login flow at a time", because Apple's libraries are not
  re-entrant on the auth path.  The promise is kept through `state_` alone, and `logout` makes the
  state idle under a running flow (`twoLogins`).  Under `FlowQuiet` the flows do not overlap: no
  reset happens under an attempt in flight, and no login is accepted in the window in which a
  restore has made its last store but not returned yet.
-/
import Mathlib.Data.List.Basic
import WrapperPaas.Account.Equiv.Sole

namespace WrapperPaas

open Sys

namespace Thread

/-- The thread is inside an Apple authentication activity: in `worker_main` before its `finish_*`
call, or in a restore between storing InProgress and its return. -/
def inActivity : Thread → Bool
  | .worker _ (.failing _ _) => false
  | .worker _ (.publish _) => false
  | .worker _ .done => false
  | .worker _ _ => true
  | .restore _ _ _ (.reqCtx _) => true
  | .restore _ _ _ (.harvest _) => true
  | .restore _ _ _ (.failing _) => true
  | .restore _ _ _ (.publish _ _) => true
  | .restore _ _ _ (.returning a) => a.isSome
  | _ => false

/-- The restore has made its last store and still owns `restore_mu_`. -/
def isReturning : Thread → Bool
  | .restore _ _ _ (.returning a) => a.isSome
  | _ => false

/-- The thread owns `restore_mu_`. -/
def ownsRestoreMu : Thread → Bool
  | .restore _ _ _ .tryLock => false
  | .restore _ _ _ .returned => false
  | .restore _ _ _ .done => false
  | .restore _ _ _ _ => true
  | _ => false

theorem inFlight_or_isReturning {th : Thread} (h : th.inActivity) :
    th.inFlight ∨ th.isReturning := by
  cases th with
  | worker a pc => cases pc <;> first | exact .inl rfl | cases h
  | restore l r tr pc => cases pc <;> first | exact .inl rfl | exact .inr h
  | logout pc => cases h

theorem ownsRestoreMu_of_isReturning {th : Thread} (h : th.isReturning) : th.ownsRestoreMu := by
  cases th with
  | worker a pc => cases h
  | restore l r tr pc => cases pc <;> first | rfl | cases h
  | logout pc => cases h

end Thread

/-- The condition on a run: no reset under an attempt in flight, and no login accepted while a
restore is returning. -/
def FlowQuiet (s : Sys) : Act → Prop
  | .logoutReset _ => ∀ th ∈ s.threads, th.inFlight = false
  | .startLogin _ _ _ _ => ¬ s.acct.busy → ∀ th ∈ s.threads, th.isReturning = false
  | _ => True

instance : DecidableRel FlowQuiet := fun s act => by
  apply act.casesOn (motive := (Decidable <| FlowQuiet s ·)) <;> intros <;>
    dsimp only [FlowQuiet] <;> infer_instance

theorem FlowQuiet.logoutQuiet {s : Sys} {act : Act} (h : FlowQuiet s act) : LogoutQuiet s act := by
  cases act <;> first | exact h | trivial

/-- `restore_mu_` has at most one owner, and while a restore returns nothing is in flight. -/
structure Single (s : Sys) : Prop where
  owner : ∀ (t : ThreadId) th, s.threads[t]? = some th → th.ownsRestoreMu →
    s.acct.restoreMu = some t
  quiet : ∀ (t u : ThreadId) th th', s.threads[t]? = some th → s.threads[u]? = some th' →
    th.isReturning → th'.inFlight = false

/-- A local move takes `restore_mu_` only when it is free and gives it up only as its owner. -/
theorem LocalMove.owner {s : Sys} {t : ThreadId} {th th' : Thread} {m : Option ThreadId}
    (h : LocalMove s t th th' m) :
    (th'.ownsRestoreMu → m = some t ∨ m = s.acct.restoreMu ∧ th.ownsRestoreMu) ∧
    (m = s.acct.restoreMu ∨ s.acct.restoreMu = none ∨ th.ownsRestoreMu) ∧
    th'.isReturning = false := by
  cases h with
  | worker hw => exact ⟨fun h => (by cases h), .inl rfl, rfl⟩
  | restore hr =>
    cases hr with
    | lock hm => exact ⟨fun _ => .inl rfl, .inr (.inl hm), rfl⟩
    | locked => exact ⟨fun h => (by cases h), .inl rfl, rfl⟩
    | ready => exact ⟨fun _ => .inr ⟨rfl, rfl⟩, .inl rfl, rfl⟩
    | unready => exact ⟨fun _ => .inr ⟨rfl, rfl⟩, .inl rfl, rfl⟩
    | refused _ => exact ⟨fun _ => .inr ⟨rfl, rfl⟩, .inl rfl, rfl⟩
    | reqCtx a => exact ⟨fun _ => .inr ⟨rfl, rfl⟩, .inl rfl, rfl⟩
    | noReqCtx a => exact ⟨fun _ => .inr ⟨rfl, rfl⟩, .inl rfl, rfl⟩
    | noHarvest a => exact ⟨fun _ => .inr ⟨rfl, rfl⟩, .inl rfl, rfl⟩
    | unlock a => exact ⟨fun h => (by cases h), .inr (.inr rfl), rfl⟩
    | finish => exact ⟨fun h => (by cases h), .inl rfl, rfl⟩
  | detach => exact ⟨fun h => (by cases h), .inl rfl, rfl⟩

namespace Single

variable {s s' : Sys} {t : ThreadId} {th th' : Thread}

/-- `quiet` after one thread moved on without beginning or ending its stores. -/
theorem quiet_moved (hg : Single s) (ht : s.threads[t]? = some th)
    (hthreads : s'.threads = (s.move t th').threads) (hret : th'.isReturning = false)
    (hkeep : th'.inFlight → th.inFlight) (u v : ThreadId) (x y : Thread)
    (hu : s'.threads[u]? = some x) (hv : s'.threads[v]? = some y) (hx : x.isReturning) :
    y.inFlight = false := by
  rw [hthreads] at hu hv
  obtain ⟨-, rfl⟩ | ⟨-, hu'⟩ := getElem?_move hu
  · rw [hret] at hx
    cases hx
  · obtain ⟨-, rfl⟩ | ⟨-, hv'⟩ := getElem?_move hv
    · refine Bool.eq_false_iff.mpr fun hy => ?_
      exact Bool.eq_false_iff.mp (hg.quiet u t x th hu' ht hx) (hkeep hy)
    · exact hg.quiet u v x y hu' hv' hx

/-- One thread moves on, and `restore_mu_` stays with its owner. -/
theorem moved (hg : Single s) (ht : s.threads[t]? = some th)
    (hthreads : s'.threads = (s.move t th').threads) (hmu : s'.acct.restoreMu = s.acct.restoreMu)
    (hown : th'.ownsRestoreMu → th.ownsRestoreMu)
    (hquiet : ∀ (u v : ThreadId) x y, s'.threads[u]? = some x → s'.threads[v]? = some y →
      x.isReturning → y.inFlight = false) : Single s' where
  owner u x hu hx := by
    rw [hthreads] at hu
    rw [hmu]
    obtain ⟨rfl, rfl⟩ | ⟨-, hu⟩ := getElem?_move hu
    · exact hg.owner _ th ht (hown hx)
    · exact hg.owner u x hu hx
  quiet := hquiet

/-- One worker moves on inside its attempt. -/
theorem worker_moved {a : AttemptId} {pc pc' : WorkerPc} (hg : Single s)
    (ht : s.threads[t]? = some (.worker a pc)) (hf : (Thread.worker a pc).inFlight)
    (hthreads : s'.threads = (s.move t (.worker a pc')).threads)
    (hmu : s'.acct.restoreMu = s.acct.restoreMu) : Single s' :=
  hg.moved ht hthreads hmu (fun h => by cases h)
    (hg.quiet_moved ht hthreads rfl fun _ => hf)

/-- A call creates a thread that owns nothing and is not in flight. -/
theorem spawned {acct : Account} (hg : Single s) (hmu : acct.restoreMu = s.acct.restoreMu)
    (hown : th.ownsRestoreMu = false) (hf : th.inFlight = false) :
    Single ({ s with acct := acct }.spawn th) where
  owner u x hu hx := by
    obtain hu | ⟨-, rfl⟩ := getElem?_spawn hu
    · exact hmu.trans (hg.owner u x hu hx)
    · rw [hown] at hx
      cases hx
  quiet u v x y hu hv hx := by
    obtain hv | ⟨-, rfl⟩ := getElem?_spawn hv
    · obtain hu | ⟨-, rfl⟩ := getElem?_spawn hu
      · exact hg.quiet u v x y hu hv hx
      · rw [Thread.ownsRestoreMu_of_isReturning hx] at hown
        cases hown
    · exact hf

theorem step {act : Act} (hG : FlowQuiet s act) (h : s.step act = some s') (hs : Sole s)
    (hg : Single s) : Single s' := by
  cases step_trans h with
  | refused _ => exact hg
  | @login l r id pw acct hacct =>
    obtain ⟨hb, rfl⟩ := Account.startLogin_eq_some hacct
    have hno := hG hb
    refine ⟨fun u x hu hx => ?_, fun u v x y hu hv hx => ?_⟩
    · obtain hu | ⟨-, rfl⟩ := getElem?_spawn hu
      · exact hg.owner u x hu hx
      · cases hx
    · obtain hu | ⟨-, rfl⟩ := getElem?_spawn hu
      · rw [hno x (List.mem_of_getElem? hu)] at hx
        cases hx
      · cases hx
  | @submit code acct hacct =>
    obtain ⟨-, rfl⟩ := Account.submit2fa_eq_some hacct
    exact ⟨hg.owner, hg.quiet⟩
  | raise => exact hg.spawned rfl rfl rfl
  | call _ => exact hg.spawned rfl rfl rfl
  | @loc act t th th' _ m _ _ ht hm =>
    obtain ⟨hown, hmu, hret⟩ := hm.owner
    refine ⟨fun u x hu hx => ?_, hg.quiet_moved ht rfl hret fun hf => (hm.keeps hf).1⟩
    obtain ⟨rfl, rfl⟩ | ⟨hne, hu⟩ := getElem?_move hu
    · rcases hown hx with h | ⟨h, hth⟩
      · exact h
      · exact h.trans (hg.owner _ th ht hth)
    · -- another owner: `restore_mu_` was not free, and its owner is not the thread that moved
      have hu' := hg.owner u x hu hx
      rcases hmu with h | h | h
      · exact h.trans hu'
      · rw [h] at hu'
        cases hu'
      · exact absurd (Option.some.inj (hu'.symm.trans (hg.owner t th ht h))) hne
  | nullDeref _ _ _ => exact ⟨hg.owner, hg.quiet⟩
  | reset ht =>
    exact hg.moved ht rfl rfl (fun h => by cases h) (hg.quiet_moved ht rfl rfl fun h => by cases h)
  | @begin t l r tr acct ht hacct =>
    obtain ⟨-, rfl⟩ := Account.restoreBegin_eq_some hacct
    refine hg.moved ht rfl rfl (fun _ => rfl) fun u v x y hu hv hx => ?_
    -- a returning restore would own `restore_mu_`, which the beginning one owns
    obtain ⟨-, rfl⟩ | ⟨hne, hu⟩ := getElem?_move hu
    · cases hx
    · have h1 := hg.owner u x hu (Thread.ownsRestoreMu_of_isReturning hx)
      have h2 := hg.owner t _ ht rfl
      exact absurd (Option.some.inj (h1.symm.trans h2)) hne
  | giveUp ht =>
    exact hg.moved ht rfl rfl (fun _ => rfl) fun _ _ _ _ _ hv _ =>
      hs.ended_not_inFlight ht rfl rfl rfl hv
  | restored ht _ _ =>
    exact hg.moved ht rfl rfl (fun _ => rfl) (hg.quiet_moved ht rfl rfl fun _ => rfl)
  | restorePublish ht =>
    exact hg.moved ht rfl rfl (fun _ => rfl) fun _ _ _ _ _ hv _ =>
      hs.ended_not_inFlight ht rfl rfl rfl hv
  | park ht _ => exact hg.worker_moved ht rfl rfl rfl
  | promptThrough ht _ => exact hg.worker_moved ht rfl rfl rfl
  | wake ht _ => exact hg.worker_moved ht rfl rfl rfl
  | timeout ht => exact hg.worker_moved ht rfl rfl rfl
  | harvested ht _ _ _ => exact hg.worker_moved ht rfl rfl rfl
  | fail ht => exact hg.worker_moved ht rfl rfl rfl
  | publish ht => exact hg.worker_moved ht rfl rfl rfl

theorem reach (h : accountMachine.Reach FlowQuiet s) : Single s := by
  refine h.invariant ?_ fun _ _ _ hr hG hst hg =>
    hg.step hG hst (.reach (hr.mono fun _ _ => FlowQuiet.logoutQuiet))
  exact ⟨fun _ _ hu => by simp [accountMachine] at hu, fun _ _ _ _ hu => by
    simp [accountMachine] at hu⟩

end Single

/-! ### One activity at a time -/

/-- Two threads inside an Apple authentication activity are the same thread. -/
def AtMostOneActivity (s : Sys) : Prop :=
  ∀ (t u : ThreadId) th th', s.threads[t]? = some th → s.threads[u]? = some th' →
    th.inActivity → th'.inActivity → t = u

/-- **Single flow.**  In a run in which no reset happens under an attempt in flight and no login is
accepted while a restore returns, at most one thread is inside an Apple authentication activity. -/
theorem single_flow {s : Sys} (h : accountMachine.Reach FlowQuiet s) : AtMostOneActivity s := by
  have hs := Sole.reach (h.mono fun _ _ => FlowQuiet.logoutQuiet)
  have hg := Single.reach h
  intro t u th th' ht hu hth hth'
  rcases Thread.inFlight_or_isReturning hth with hf | hr
  · rcases Thread.inFlight_or_isReturning hth' with hf' | hr'
    · exact hs.unique t u th th' ht hu hf hf'
    · exact absurd hf (Bool.eq_false_iff.mp (hg.quiet u t th' th hu ht hr'))
  · rcases Thread.inFlight_or_isReturning hth' with hf' | hr'
    · exact absurd hf' (Bool.eq_false_iff.mp (hg.quiet t u th th' ht hu hr))
    · -- both own `restore_mu_`
      have h1 := hg.owner t th ht (Thread.ownsRestoreMu_of_isReturning hr)
      have h2 := hg.owner u th' hu (Thread.ownsRestoreMu_of_isReturning hr')
      exact Option.some.inj (h1.symm.trans h2)

/-- A restore that fails, is over, and is followed by a login. -/
def restoreThenLogin : List Act :=
  [.restoreCall 1 1, .restoreTryLock 0, .restoreChecks 0 true, .restoreGate 0,
   .restoreReqCtx 0 false, .restoreFail 0, .restoreReturn 0,
   .startLogin 1 1 "new@example.com" "secret"]

theorem single_flow_restoreThenLogin :
    ∃ s, accountMachine.exec FlowQuiet accountMachine.init restoreThenLogin = some s ∧
      AtMostOneActivity s :=
  ⟨_, rfl, single_flow (Machine.reach_of_exec (l := restoreThenLogin) rfl)⟩

/-- A second login after `logout` detached the first one's worker. -/
def twoLogins : List Act :=
  [.startLogin 1 1 "first@example.com" "secret", .logoutCall, .logoutDetach 1, .logoutReset 1,
   .startLogin 1 1 "second@example.com" "secret"]

/-- Two workers are inside `worker_main` at once. -/
theorem single_flow_fails :
    ¬ ∀ s, accountMachine.Reach Machine.anyStep s → AtMostOneActivity s := by
  intro hall
  obtain ⟨s, hs⟩ : ∃ s, accountMachine.exec Machine.anyStep accountMachine.init twoLogins =
      some s := ⟨_, rfl⟩
  have hone := hall s (Machine.reach_of_exec hs) 0 2
  obtain rfl := Option.some.inj hs
  cases hone _ _ rfl rfl rfl rfl

end WrapperPaas
