/-
  Isolation of login attempts.

  A thread that `logout` detached still ends in `finish_authenticated` or `finish_failed`, and both
  store into the account unconditionally, so its outcome lands in an account that has been reset or
  belongs to another login (`staleFailure`).  When `logout` resets only a quiet account this cannot
  happen: the thread in flight belongs to the current attempt (`Sole`), and what it publishes is
  what its own attempt read and harvested (`Provenance`).
-/
import Mathlib.Data.List.Basic
import WrapperPaas.Account.Equiv.Sole

namespace WrapperPaas

open Sys

/-! ### Where published tokens come from -/

/-- If attempt `a` is a `start_login`, the account carries the Apple ID it was given. -/
def Sys.owns (s : Sys) (a : AttemptId) : Prop :=
  ∀ id, (a, id) ∈ s.hist.loginId → id = s.acct.appleId

/-- What a thread in flight carries is what its own attempt read or harvested. -/
def Thread.Honest (s : Sys) : Thread → Prop
  | .worker _ .done => True
  | .worker a (.harvestArgs id) => s.owns a ∧ id = s.acct.appleId
  | .worker a (.harvest id) => s.owns a ∧ id = s.acct.appleId
  | .worker a (.publish tk) =>
    s.owns a ∧ tk.appleId = s.acct.appleId ∧ (a, tk) ∈ s.hist.harvested
  | .worker a _ => s.owns a
  | .restore _ _ _ (.reqCtx a) => ∀ id, (a, id) ∉ s.hist.loginId
  | .restore _ _ _ (.harvest a) => ∀ id, (a, id) ∉ s.hist.loginId
  | .restore _ _ _ (.failing a) => ∀ id, (a, id) ∉ s.hist.loginId
  | .restore _ _ _ (.publish a tk) =>
    (∀ id, (a, id) ∉ s.hist.loginId) ∧ (a, tk) ∈ s.hist.harvested
  | _ => True

/-- The tokens of an authenticated account were harvested by the current attempt, and the Apple ID
reported with them is that attempt's. -/
def Sys.Attributed (s : Sys) : Prop :=
  ∃ a tk now, s.hist.current = some a ∧ (a, tk) ∈ s.hist.harvested ∧
    s.acct.tokens = { tk with loggedInAt := now } ∧ s.acct.appleId = tk.appleId ∧ s.owns a

structure Provenance (s : Sys) : Prop where
  fresh : ∀ a id, (a, id) ∈ s.hist.loginId → a < s.hist.begun
  honest : ∀ (t : ThreadId) th, s.threads[t]? = some th → th.Honest s
  published : s.acct.state = .authenticated → s.Attributed

namespace Thread

variable {s s' : Sys} {th th' : Thread}

theorem honest_of_not_inFlight (hf : th.inFlight = false) : th.Honest s := by
  cases th with
  | worker a pc => cases pc <;> trivial
  | restore l r tr pc => cases pc <;> trivial
  | logout pc => trivial

/-- Honesty depends only on the Apple ID, the attempts' IDs and the harvests made. -/
theorem Honest.mono (h : th.Honest s) (hid : s'.acct.appleId = s.acct.appleId)
    (hlog : s'.hist.loginId = s.hist.loginId)
    (hharv : ∀ x ∈ s.hist.harvested, x ∈ s'.hist.harvested) : th.Honest s' := by
  cases th with
  | worker a pc =>
    cases pc <;> simp only [Honest, Sys.owns, hid, hlog] at h ⊢ <;> try exact h
    exact ⟨h.1, h.2.1, hharv _ h.2.2⟩
  | restore l r tr pc =>
    cases pc <;> simp only [Honest, hlog] at h ⊢ <;> try exact h
    exact ⟨h.1, hharv _ h.2⟩
  | logout pc => trivial

theorem Honest.owns {a : AttemptId} {pc : WorkerPc} (h : (Thread.worker a pc).Honest s)
    (hpc : pc ≠ .done) : s.owns a := by
  cases pc <;> first | exact absurd rfl hpc | exact h | exact h.1

theorem Honest.local_move {t : ThreadId} {m : Option ThreadId} (hm : LocalMove s t th th' m)
    (h : th.Honest s) : th'.Honest s := by
  cases hm with
  | worker hw =>
    have ho := h.owns (by cases hw <;> simp)
    cases hw <;> first | exact ho | exact ⟨ho, rfl⟩ | exact h
  | restore hr => cases hr <;> trivial
  | detach => trivial

end Thread

namespace Provenance

variable {s s' : Sys} {t : ThreadId} {th th' : Thread}

/-- One thread moves on; the Apple ID and the attempts stay. -/
theorem moved (hp : Provenance s) (hbegun : s'.hist.begun = s.hist.begun)
    (hthreads : s'.threads = (s.move t th').threads) (hid : s'.acct.appleId = s.acct.appleId)
    (hlog : s'.hist.loginId = s.hist.loginId)
    (hharv : ∀ x ∈ s.hist.harvested, x ∈ s'.hist.harvested) (hth' : th'.Honest s')
    (hpub : s'.acct.state = .authenticated → s'.Attributed) : Provenance s' where
  fresh a id h := by
    rw [hbegun]
    exact hp.fresh a id (hlog ▸ h)
  honest u x hu := by
    rw [hthreads] at hu
    obtain ⟨-, rfl⟩ | ⟨-, hu⟩ := getElem?_move hu
    · exact hth'
    · exact (hp.honest u x hu).mono hid hlog hharv
  published := hpub

/-- An attempt begins when no other one is in flight. -/
theorem began (hs : Sole s) (hnot : ¬ s.acct.busy)
    (hthreads : ∀ (u : ThreadId) x, s'.threads[u]? = some x →
      s.threads[u]? = some x ∨ u = t ∧ x = th')
    (hfresh : ∀ a id, (a, id) ∈ s'.hist.loginId → a < s'.hist.begun) (hth' : th'.Honest s')
    (hstate : s'.acct.state ≠ .authenticated) : Provenance s' where
  fresh := hfresh
  honest u x hu := by
    rcases hthreads u x hu with hu | ⟨-, rfl⟩
    · exact Thread.honest_of_not_inFlight
        (Bool.eq_false_iff.mpr fun hx => hnot (hs.busy u x hu hx))
    · exact hth'
  published h := absurd h hstate

/-- A call creates a thread that carries nothing yet. -/
theorem spawned {acct : Account} (hp : Provenance s) (hid : acct.appleId = s.acct.appleId)
    (hstate : acct.state = s.acct.state) (htokens : acct.tokens = s.acct.tokens)
    (hf : th.inFlight = false) : Provenance ({ s with acct := acct }.spawn th) where
  fresh := hp.fresh
  honest u x hu := by
    obtain hu | ⟨-, rfl⟩ := getElem?_spawn hu
    · exact (hp.honest u x hu).mono hid rfl fun _ h => h
    · exact Thread.honest_of_not_inFlight hf
  published h := by
    obtain ⟨a, tk, now, hc, hm, ht, hi, ho⟩ := hp.published (hstate ▸ h)
    exact ⟨a, tk, now, hc, hm, htokens.trans ht, hid.trans hi, fun id h => (ho id h).trans hid.symm⟩

/-- `finish_authenticated` publishes what its own attempt harvested. -/
theorem attributed_finish {tk : Tokens} {now : Nat} {a : AttemptId}
    (hacct : s'.acct = s.acct.finishAuthenticated tk now) (hhist : s'.hist = s.hist)
    (hcur : s.hist.current = some a) (hm : (a, tk) ∈ s.hist.harvested)
    (hown : ∀ id, (a, id) ∈ s.hist.loginId → id = tk.appleId) : s'.Attributed := by
  refine ⟨a, tk, now, ?_, ?_, ?_, ?_, fun id h => ?_⟩
  · rw [hhist, hcur]
  · rw [hhist]
    exact hm
  · rw [hacct]
    rfl
  · rw [hacct]
    rfl
  · rw [hacct]
    exact hown id (hhist ▸ h)

theorem step {act : Act} (hG : LogoutQuiet s act) (h : s.step act = some s') (hs : Sole s)
    (hp : Provenance s) : Provenance s' := by
  cases step_trans h with
  | refused _ => exact hp
  | @login l r id pw acct hacct =>
    obtain ⟨hb, rfl⟩ := Account.startLogin_eq_some hacct
    refine began hs hb (fun u x hu => getElem?_spawn hu) (fun a id' ha => ?_) ?_
      (by simp [spawn, noteBegun])
    · rcases List.mem_cons.mp ha with ha | ha
      · obtain ⟨rfl, rfl⟩ := Prod.mk.inj ha
        exact Nat.lt_succ_self _
      · exact Nat.lt_succ_of_lt (hp.fresh a id' ha)
    · -- the only entry of the new attempt is the Apple ID just stored
      intro id' ha
      rcases List.mem_cons.mp ha with ha | ha
      · exact (Prod.mk.inj ha).2
      · exact absurd (hp.fresh _ _ ha) (Nat.lt_irrefl _)
  | @submit code acct hacct =>
    obtain ⟨-, rfl⟩ := Account.submit2fa_eq_some hacct
    refine ⟨hp.fresh, fun u x hu => ?_, fun h => by cases h⟩
    exact (hp.honest u x hu).mono rfl rfl fun _ h => h
  | raise => exact hp.spawned rfl rfl rfl rfl
  | call _ => exact hp.spawned rfl rfl rfl rfl
  | loc _ ht hm =>
    exact hp.moved rfl rfl rfl rfl (fun _ h => h)
      (((hp.honest _ _ ht).local_move hm).mono rfl rfl fun _ h => h) hp.published
  | nullDeref _ _ _ => exact ⟨hp.fresh, hp.honest, hp.published⟩
  | @reset t ht =>
    refine ⟨hp.fresh, fun u x hu => ?_, fun h => by cases h⟩
    obtain ⟨-, rfl⟩ | ⟨-, hu⟩ := getElem?_move hu
    · trivial
    · exact Thread.honest_of_not_inFlight (hG x (List.mem_of_getElem? hu))
  | @begin t l r tr acct ht hacct =>
    obtain ⟨hb, rfl⟩ := Account.restoreBegin_eq_some hacct
    have hb' := Account.not_busy_of_loggedOut hb
    refine began hs hb' (fun u x hu => (getElem?_move hu).symm.imp_left And.right)
      (fun a id ha => Nat.lt_succ_of_lt (hp.fresh a id ha)) (fun id ha => ?_)
      (by simp [move, noteBegun])
    exact absurd (hp.fresh _ _ ha) (Nat.lt_irrefl _)
  | giveUp ht =>
    exact hp.moved rfl rfl rfl rfl (fun _ h => h) trivial fun h => by cases h
  | restored ht _ _ =>
    exact hp.moved rfl rfl rfl rfl (fun _ h => List.mem_cons_of_mem _ h)
      ⟨hp.honest _ _ ht, List.mem_cons_self⟩
      fun h => by
        obtain ⟨b, tk', now, hc, hm, hrest⟩ := hp.published h
        exact ⟨b, tk', now, hc, List.mem_cons_of_mem _ hm, hrest⟩
  | @restorePublish t l r tr a tk now ht =>
    obtain ⟨hno, hm⟩ := hp.honest _ _ ht
    have hatt : Sys.Attributed ({ s with acct := s.acct.finishAuthenticated tk now }.move t
        (.restore l r tr (.returning (some a)))) :=
      attributed_finish rfl rfl (hs.current _ _ ht rfl).symm hm fun id h => absurd h (hno id)
    -- the attempt was alone in flight, so no thread carries the old Apple ID
    refine ⟨hp.fresh, fun u x hu => ?_, fun _ => hatt⟩
    exact Thread.honest_of_not_inFlight (hs.ended_not_inFlight ht rfl rfl rfl hu)
  | park ht _ =>
    exact hp.moved rfl rfl rfl rfl (fun _ h => h) ((hp.honest _ _ ht).owns (by simp))
      fun h => by cases h
  | promptThrough ht _ =>
    exact hp.moved rfl rfl rfl rfl (fun _ h => h) ((hp.honest _ _ ht).owns (by simp))
      fun h => by cases h
  | wake ht _ =>
    exact hp.moved rfl rfl rfl rfl (fun _ h => h) ((hp.honest _ _ ht).owns (by simp))
      fun h => by cases h
  | timeout ht =>
    exact hp.moved rfl rfl rfl rfl (fun _ h => h) ((hp.honest _ _ ht).owns (by simp))
      fun h => by cases h
  | harvested ht hid _ _ =>
    obtain ⟨hown, hread⟩ := hp.honest _ _ ht
    exact hp.moved rfl rfl rfl rfl (fun _ h => List.mem_cons_of_mem _ h)
      ⟨hown, hid.trans hread, List.mem_cons_self⟩
      fun h => by
        obtain ⟨b, tk', now, hc, hm, hrest⟩ := hp.published h
        exact ⟨b, tk', now, hc, List.mem_cons_of_mem _ hm, hrest⟩
  | fail ht =>
    exact hp.moved rfl rfl rfl rfl (fun _ h => h) trivial fun h => by cases h
  | @publish t a tk now ht =>
    obtain ⟨hown, hid, hm⟩ := hp.honest _ _ ht
    have hatt : Sys.Attributed ({ s with acct := s.acct.finishAuthenticated tk now }.move t
        (.worker a .done)) :=
      attributed_finish rfl rfl (hs.current _ _ ht rfl).symm hm
        fun id h => (hown id h).trans hid.symm
    refine ⟨hp.fresh, fun u x hu => ?_, fun _ => hatt⟩
    exact Thread.honest_of_not_inFlight (hs.ended_not_inFlight ht rfl rfl rfl hu)

theorem reach (h : accountMachine.Reach LogoutQuiet s) : Provenance s := by
  refine h.invariant ?_ fun _ _ _ hr hG hst hp => hp.step hG hst (.reach hr)
  exact ⟨fun _ _ h => (by cases h), fun _ _ hu => by simp [accountMachine] at hu,
    fun h => (by cases h)⟩

end Provenance

/-! ### Isolation -/

/-- A step taken on behalf of a superseded attempt changes none of `state_`, `tokens_`,
`apple_id_`, `last_error_` and `last_error_code_`. -/
def Isolated (s : Sys) (act : Act) (s' : Sys) : Prop :=
  ∀ (t : ThreadId) th a, act.thread = some t → s.threads[t]? = some th → th.attempt = some a →
    s.hist.current ≠ some a →
      s'.acct.state = s.acct.state ∧ s'.acct.tokens = s.acct.tokens ∧
      s'.acct.appleId = s.acct.appleId ∧ s'.acct.lastError = s.acct.lastError ∧
      s'.acct.lastErrorCode = s.acct.lastErrorCode

/-- A thread that is not in flight only moves on. -/
theorem isolated_of_sole {s s' : Sys} {act : Act} (hs : Sole s) (h : s.step act = some s') :
    Isolated s act s' := by
  intro t th a hact ht hatt hcur
  -- a thread in flight belongs to the current attempt, so `th` is not in flight
  have hidle : th.inFlight = false :=
    Bool.eq_false_iff.mpr fun hf => hcur ((hs.current t th ht hf).symm.trans hatt)
  have same : ∀ {u : ThreadId} {x : Thread}, some u = some t → s.threads[u]? = some x →
      x.inFlight → False := by
    intro u x hu hx hf
    obtain rfl := Option.some.inj hu
    obtain rfl := Option.some.inj (hx.symm.trans ht)
    rw [hidle] at hf
    cases hf
  have other : ∀ {u : ThreadId} {x : Thread}, some u = some t → s.threads[u]? = some x →
      x.attempt = none → False := by
    intro u x hu hx hn
    obtain rfl := Option.some.inj hu
    obtain rfl := Option.some.inj (hx.symm.trans ht)
    rw [hn] at hatt
    cases hatt
  cases step_trans h with
  | refused hnone => exact ⟨rfl, rfl, rfl, rfl, rfl⟩
  | login _ => cases hact
  | submit _ => cases hact
  | raise => cases hact
  | call hnone =>
    rw [hnone] at hact
    cases hact
  | loc _ _ _ => exact ⟨rfl, rfl, rfl, rfl, rfl⟩
  | nullDeref _ _ _ => exact ⟨rfl, rfl, rfl, rfl, rfl⟩
  | reset hu => exact (other hact hu rfl).elim
  | begin hu _ => exact (other hact hu rfl).elim
  | giveUp hu => exact (same hact hu rfl).elim
  | restored _ _ _ => exact ⟨rfl, rfl, rfl, rfl, rfl⟩
  | restorePublish hu => exact (same hact hu rfl).elim
  | park hu _ => exact (same hact hu rfl).elim
  | promptThrough hu _ => exact (same hact hu rfl).elim
  | wake hu _ => exact (same hact hu rfl).elim
  | timeout hu => exact (same hact hu rfl).elim
  | harvested _ _ _ _ => exact ⟨rfl, rfl, rfl, rfl, rfl⟩
  | fail hu => exact (same hact hu rfl).elim
  | publish hu => exact (same hact hu rfl).elim

/-- **Isolation of login attempts.**  In a run in which `logout` resets the account only while no
attempt is in flight, no step of a superseded attempt changes the account, the account stays logged
out from the return of `logout` until an attempt begins, and published tokens were harvested by the
attempt whose Apple ID is reported. -/
theorem login_isolation {s : Sys} (h : accountMachine.Reach LogoutQuiet s) :
    (∀ act s', LogoutQuiet s act → s.step act = some s' → Isolated s act s') ∧
    (s.hist.current = none → s.acct.state = .loggedOut) ∧
    (s.acct.state = .authenticated → s.Attributed) :=
  ⟨fun _ _ _ hst => isolated_of_sole (.reach h) hst, (Sole.reach h).idle,
    (Provenance.reach h).published⟩

/-- A login that runs to its end, and what Apple answers to it. -/
def completedLogin : List Act :=
  [.startLogin 1 1 "new@example.com" "secret", .workerCheck 0 true true, .workerReqCtx 0 true,
   .workerBaseDir 0, .workerMakeFlow 0 true, .workerCredentials 0,
   .workerFlowReturns 0 (some ⟨6, none, none⟩), .workerReadId 0, .workerHarvestArgs 0,
   .workerHarvest 0 ⟨"143441", "dev", "guid", "music", none⟩, .workerPublish 0 5]

/-- After a completed login the published tokens are that login's. -/
theorem completedLogin_attributed :
    ∃ s, accountMachine.exec LogoutQuiet accountMachine.init completedLogin = some s ∧
      s.acct.state = .authenticated ∧ s.Attributed := by
  refine ⟨_, rfl, rfl, ?_⟩
  exact (login_isolation (Machine.reach_of_exec (l := completedLogin) rfl)).2.2 rfl

/-- A login to which Apple gives no flow, and which `logout` resets before its worker stores the
failure. -/
def staleFailure : List Act :=
  [.startLogin 1 1 "old@example.com" "secret", .workerCheck 0 true true, .workerReqCtx 0 true,
   .workerBaseDir 0, .workerMakeFlow 0 false, .logoutCall, .logoutDetach 1, .logoutReset 1]

/-- A stale worker stores its failure into the account after `logout` has returned. -/
theorem login_isolation_fails :
    ¬ ∀ s, accountMachine.Reach Machine.anyStep s →
      ∀ act s', s.step act = some s' → Isolated s act s' := by
  intro hall
  obtain ⟨s, hs⟩ : ∃ s, accountMachine.exec Machine.anyStep accountMachine.init staleFailure =
      some s := ⟨_, rfl⟩
  have hiso := hall s (Machine.reach_of_exec hs) (.workerFail 0)
  obtain rfl := Option.some.inj hs
  obtain ⟨hstate, -⟩ := hiso _ rfl 0 _ 0 rfl rfl rfl (by decide)
  cases hstate

end WrapperPaas
