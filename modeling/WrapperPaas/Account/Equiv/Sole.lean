/-
  At most one login attempt is in flight as long as no `logout` resets the account under a running
  one.

  `start_login` and the restore refuse while the account is busy, so two attempts can overlap only
  after somebody else made the account idle while an attempt was in flight.  `logout` does that: it
  detaches the worker and resets the account without waiting for the thread it detached.  Under
  `LogoutQuiet`, which asks that no attempt is in flight when the reset happens, the attempt in
  flight is alone and current (`Sole`).
-/
import Mathlib.Data.List.Basic
import WrapperPaas.Account.Equiv.Step

namespace WrapperPaas

open Sys

/-! ### Looking a thread up after a step -/

theorem getElem?_move {s : Sys} {t u : ThreadId} {th x : Thread}
    (h : (s.move t th).threads[u]? = some x) :
    (u = t ∧ x = th) ∨ (u ≠ t ∧ s.threads[u]? = some x) := by
  rw [move, List.getElem?_set] at h
  split_ifs at h with htu hlt
  · exact .inl ⟨htu.symm, (Option.some.inj h).symm⟩
  · exact .inr ⟨fun hu => htu hu.symm, h⟩

theorem getElem?_spawn {s : Sys} {u : ℕ} {th x : Thread}
    (h : (s.spawn th).threads[u]? = some x) :
    s.threads[u]? = some x ∨ u = s.threads.length ∧ x = th := by
  rw [spawn, List.getElem?_append] at h
  split_ifs at h with hu
  · exact .inl h
  · rw [List.getElem?_singleton] at h
    split_ifs at h with h0
    exact .inr ⟨by omega, (Option.some.inj h).symm⟩

/-! ### At most one attempt in flight -/

/-- The condition on a run: `logout` resets the account only when no attempt is in flight. -/
def LogoutQuiet (s : Sys) : Act → Prop
  | .logoutReset _ => ∀ th ∈ s.threads, th.inFlight = false
  | _ => True

instance : DecidableRel LogoutQuiet := fun s act => by
  apply act.casesOn (motive := (Decidable <| LogoutQuiet s ·)) <;> intros <;>
    dsimp only [LogoutQuiet] <;> infer_instance

/-- At most one attempt is in flight; it is the current one and the account is busy with it. -/
structure Sole (s : Sys) : Prop where
  current : ∀ (t : ThreadId) th, s.threads[t]? = some th → th.inFlight →
    th.attempt = s.hist.current
  busy : ∀ (t : ThreadId) th, s.threads[t]? = some th → th.inFlight → s.acct.busy
  unique : ∀ (t u : ThreadId) th th', s.threads[t]? = some th → s.threads[u]? = some th' →
    th.inFlight → th'.inFlight → t = u
  idle : s.hist.current = none → s.acct.state = .loggedOut

theorem WorkerMove.inFlight {s : Sys} {pc pc' : WorkerPc} (h : WorkerMove s pc pc')
    (a : AttemptId) : (Thread.worker a pc).inFlight := by
  cases h <;> rfl

/-- A local move never puts a thread in flight, and never changes its attempt in flight. -/
theorem LocalMove.keeps {s : Sys} {t : ThreadId} {th th' : Thread} {m : Option ThreadId}
    (h : LocalMove s t th th' m) (hf : th'.inFlight) :
    th.inFlight ∧ th'.attempt = th.attempt := by
  cases h with
  | worker hw => exact ⟨hw.inFlight _, rfl⟩
  | restore hr => cases hr <;> first | exact ⟨rfl, rfl⟩ | cases hf
  | detach => cases hf

namespace Sole

variable {s s' : Sys} {t : ThreadId} {th th' : Thread}

/-- No attempt is in flight. -/
theorem of_none (hno : ∀ (u : ThreadId) x, s.threads[u]? = some x → ¬ x.inFlight)
    (hidle : s.hist.current = none → s.acct.state = .loggedOut) : Sole s where
  current u x hu hx := absurd hx (hno u x hu)
  busy u x hu hx := absurd hx (hno u x hu)
  unique u _ x _ hu _ hx := absurd hx (hno u x hu)
  idle := hidle

/-- One thread moves on and stays in its attempt. -/
theorem moved (hs : Sole s) (ht : s.threads[t]? = some th)
    (hthreads : s'.threads = (s.move t th').threads) (hcur : s'.hist.current = s.hist.current)
    (hbusy : s.acct.busy → s'.acct.busy)
    (hidle : s'.hist.current = none → s'.acct.state = .loggedOut)
    (hkeep : th'.inFlight → th.inFlight ∧ th'.attempt = th.attempt) : Sole s' := by
  -- whatever is in flight after the step was in flight before it, in the same attempt
  have back : ∀ (u : ThreadId) x, s'.threads[u]? = some x → x.inFlight →
      ∃ y, s.threads[u]? = some y ∧ y.inFlight ∧ x.attempt = y.attempt := by
    intro u x hu hx
    rw [hthreads] at hu
    obtain ⟨rfl, rfl⟩ | ⟨_, hu⟩ := getElem?_move hu
    · exact ⟨th, ht, (hkeep hx).1, (hkeep hx).2⟩
    · exact ⟨x, hu, hx, rfl⟩
  refine ⟨fun u x hu hx => ?_, fun u x hu hx => ?_, fun u v x y hu hv hx hy => ?_, hidle⟩
  · obtain ⟨y, hy, hyf, ha⟩ := back u x hu hx
    rw [ha, hcur]
    exact hs.current u y hy hyf
  · obtain ⟨y, hy, hyf, -⟩ := back u x hu hx
    exact hbusy (hs.busy u y hy hyf)
  · obtain ⟨x', hx', hxf, -⟩ := back u x hu hx
    obtain ⟨y', hy', hyf, -⟩ := back v y hv hy
    exact hs.unique u v x' y' hx' hy' hxf hyf

/-- After the last store of the thread in flight no thread is in flight. -/
theorem ended_not_inFlight (hs : Sole s) (ht : s.threads[t]? = some th) (hf : th.inFlight)
    (hthreads : s'.threads = (s.move t th').threads) (hf' : th'.inFlight = false) {u : ThreadId}
    {x : Thread} (hu : s'.threads[u]? = some x) : x.inFlight = false := by
  rw [hthreads] at hu
  obtain ⟨-, rfl⟩ | ⟨hne, hu⟩ := getElem?_move hu
  · exact hf'
  · exact Bool.eq_false_iff.mpr fun hx => hne (hs.unique u t x th hu ht hx hf)

/-- The thread in flight makes its last store. -/
theorem ended (hs : Sole s) (ht : s.threads[t]? = some th) (hf : th.inFlight)
    (hthreads : s'.threads = (s.move t th').threads) (hf' : th'.inFlight = false)
    (hidle : s'.hist.current = none → s'.acct.state = .loggedOut) : Sole s' :=
  of_none (fun _ _ hu => Bool.eq_false_iff.mp (hs.ended_not_inFlight ht hf hthreads hf' hu)) hidle

/-- An attempt begins: no other one can be in flight. -/
theorem began (hs : Sole s) (hnot : ¬ s.acct.busy) (hbusy : s'.acct.busy)
    (hthreads : ∀ (u : ThreadId) x, s'.threads[u]? = some x →
      s.threads[u]? = some x ∨ u = t ∧ x = th')
    (hcur : ∃ a, s'.hist.current = some a ∧ th'.attempt = some a) : Sole s' := by
  obtain ⟨a, hcur, hatt⟩ := hcur
  have only : ∀ (u : ThreadId) x, s'.threads[u]? = some x → x.inFlight → u = t ∧ x = th' := by
    intro u x hu hx
    rcases hthreads u x hu with hu | hu
    · exact absurd (hs.busy u x hu hx) hnot
    · exact hu
  refine ⟨fun u x hu hx => ?_, fun u x _ _ => hbusy, fun u v x y hu hv hx hy => ?_, ?_⟩
  · rw [(only u x hu hx).2, hatt, hcur]
  · rw [(only u x hu hx).1, (only v y hv hy).1]
  · intro h
    rw [hcur] at h
    cases h

/-- A call creates a thread that is not in an attempt yet. -/
theorem spawned {acct : Account} (hs : Sole s) (hstate : acct.state = s.acct.state)
    (hf : th.inFlight = false) : Sole ({ s with acct := acct }.spawn th) := by
  have back : ∀ (u : ThreadId) x, ({ s with acct := acct }.spawn th).threads[u]? = some x →
      x.inFlight → s.threads[u]? = some x := by
    intro u x hu hx
    obtain hu | ⟨-, rfl⟩ := getElem?_spawn hu
    · exact hu
    · rw [hf] at hx
      cases hx
  refine ⟨fun u x hu hx => hs.current u x (back u x hu hx) hx, fun u x hu hx => ?_,
    fun u v x y hu hv hx hy => hs.unique u v x y (back u x hu hx) (back v y hv hy) hx hy,
    fun hc => hstate.trans (hs.idle hc)⟩
  have hb := hs.busy u x (back u x hu hx) hx
  unfold Account.busy at hb ⊢
  exact hstate ▸ hb

/-- `Sole` is kept by every step of a run in which `logout` resets only a quiet account. -/
theorem step {act : Act} (hG : LogoutQuiet s act) (h : s.step act = some s') (hs : Sole s) :
    Sole s' := by
  have hcurrent : ∀ {u : ThreadId} {x : Thread} {a}, s.threads[u]? = some x → x.inFlight →
      x.attempt = some a → s.hist.current ≠ none := by
    intro u x a hu hx ha
    rw [← hs.current u x hu hx, ha]
    simp
  cases step_trans h with
  | refused _ => exact hs
  | @login l r id pw acct hacct =>
    obtain ⟨hb, rfl⟩ := Account.startLogin_eq_some hacct
    exact hs.began hb (.inl rfl) (fun u x hu => getElem?_spawn hu) ⟨_, rfl, rfl⟩
  | @submit code acct hacct =>
    obtain ⟨hb, rfl⟩ := Account.submit2fa_eq_some hacct
    refine ⟨hs.current, fun _ _ _ _ => .inl rfl, hs.unique, fun hc => ?_⟩
    have hst := hs.idle hc
    rw [hb] at hst
    cases hst
  | raise => exact hs.spawned rfl rfl
  | call _ => exact hs.spawned rfl rfl
  | loc _ ht hm => exact hs.moved ht rfl rfl id hs.idle hm.keeps
  | nullDeref _ _ _ => exact ⟨hs.current, hs.busy, hs.unique, hs.idle⟩
  | @reset t ht =>
    refine of_none (fun u x hu hx => ?_) fun _ => rfl
    obtain ⟨rfl, rfl⟩ | ⟨_, hu⟩ := getElem?_move hu
    · cases hx
    · rw [hG x (List.mem_of_getElem? hu)] at hx
      cases hx
  | @begin t l r tr acct ht hacct =>
    obtain ⟨hb, rfl⟩ := Account.restoreBegin_eq_some hacct
    have hb' := Account.not_busy_of_loggedOut hb
    exact hs.began hb' (.inl rfl) (fun u x hu => (getElem?_move hu).symm.imp_left And.right)
      ⟨_, rfl, rfl⟩
  | @giveUp t l r tr a ht =>
    exact hs.ended ht rfl rfl rfl fun _ => rfl
  | restored ht _ _ =>
    exact hs.moved ht rfl rfl id hs.idle fun _ => ⟨rfl, rfl⟩
  | restorePublish ht =>
    exact hs.ended ht rfl rfl rfl fun hc => absurd hc (hcurrent ht rfl rfl)
  | park ht _ =>
    exact hs.moved ht rfl rfl (fun _ => .inr rfl) (fun hc => absurd hc (hcurrent ht rfl rfl))
      fun _ => ⟨rfl, rfl⟩
  | promptThrough ht _ =>
    exact hs.moved ht rfl rfl (fun _ => .inl rfl) (fun hc => absurd hc (hcurrent ht rfl rfl))
      fun _ => ⟨rfl, rfl⟩
  | wake ht _ =>
    exact hs.moved ht rfl rfl (fun _ => .inl rfl) (fun hc => absurd hc (hcurrent ht rfl rfl))
      fun _ => ⟨rfl, rfl⟩
  | timeout ht =>
    exact hs.moved ht rfl rfl (fun _ => .inl rfl) (fun hc => absurd hc (hcurrent ht rfl rfl))
      fun _ => ⟨rfl, rfl⟩
  | harvested ht _ _ _ =>
    exact hs.moved ht rfl rfl id hs.idle fun _ => ⟨rfl, rfl⟩
  | fail ht =>
    exact hs.ended ht rfl rfl rfl fun hc => absurd hc (hcurrent ht rfl rfl)
  | publish ht =>
    exact hs.ended ht rfl rfl rfl fun hc => absurd hc (hcurrent ht rfl rfl)

theorem reach (h : accountMachine.Reach LogoutQuiet s) : Sole s := by
  refine h.invariant (P := Sole) ?_ fun _ _ _ _ hG hst hs => hs.step hG hst
  exact of_none (fun _ _ hu => by simp [accountMachine] at hu) fun _ => rfl

end Sole

end WrapperPaas
