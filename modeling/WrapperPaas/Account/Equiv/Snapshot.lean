/-
  What a snapshot of the account shows.

  `public_snapshot` copies the tokens only from an authenticated account and the error only from a
  failed one.  Each of these two states is stored together with its data and left by every store
  that changes the data, so a snapshot is never a mixture, not even beside threads of attempts that
  are over (`snapshot_complete`).
-/
import Mathlib.Data.List.Basic
import WrapperPaas.Account.Equiv.Sole

namespace WrapperPaas

open Sys

/-! ### The most recent failure -/

/-- The message and code of the `finish_failed` that the step runs, if it runs one. -/
def Act.failure (s : Sys) : Act → Option (String × Int)
  | .workerFail t =>
    match s.threads[t]? with
    | some (.worker _ (.failing message code)) => some (message, code)
    | _ => none
  | _ => none

/-- The observer's note of the most recent `finish_failed`. -/
def noteFailure (last : Option (String × Int)) (s : Sys) (act : Act) : Option (String × Int) :=
  (act.failure s).or last

/-- The account with the most recent `finish_failed` beside it. -/
def failureMachine : Machine (Sys × Option (String × Int)) Act :=
  accountMachine.record none noteFailure

/-- Only the thread at `finish_failed` runs it. -/
theorem failure_eq_some {s : Sys} {act : Act} {f : String × Int} (h : act.failure s = some f) :
    ∃ t a, act = .workerFail t ∧ s.threads[t]? = some (.worker a (.failing f.1 f.2)) := by
  unfold Act.failure at h
  split at h
  · rename_i t
    split at h
    · rename_i a message code ht
      obtain rfl := Option.some.inj h
      exact ⟨t, a, rfl, ht⟩
    · cases h
  · cases h

/-! ### The invariant -/

/-- The harvest that the thread is about to publish. -/
def Thread.carries : Thread → Option (AttemptId × Tokens)
  | .worker a (.publish tk) => some (a, tk)
  | .restore _ _ _ (.publish a tk) => some (a, tk)
  | _ => none

theorem LocalMove.carries {s : Sys} {t : ThreadId} {th th' : Thread} {m : Option ThreadId}
    (h : LocalMove s t th th' m) : th'.carries = none := by
  cases h with
  | worker hw => cases hw <;> rfl
  | restore hr => cases hr <;> rfl
  | detach => rfl

/-- The account's tokens are those of a harvest of this run. -/
def Sys.TokensHarvested (s : Sys) : Prop :=
  ∃ a tk now, (a, tk) ∈ s.hist.harvested ∧ tk.Harvested ∧
    s.acct.tokens = { tk with loggedInAt := now }

/-- What the two states with data say about it, and what is about to be published. -/
structure Published (s : Sys) (last : Option (String × Int)) : Prop where
  carried : ∀ (t : ThreadId) th x, s.threads[t]? = some th → th.carries = some x →
    x ∈ s.hist.harvested ∧ x.2.Harvested
  authenticated : s.acct.state = .authenticated → s.TokensHarvested
  failed : s.acct.state = .failed → last = some (s.acct.lastError, s.acct.lastErrorCode)

namespace Published

variable {s s' : Sys} {last last' : Option (String × Int)} {t : ThreadId} {th' : Thread}

/-- One thread moves on. -/
theorem moved (hp : Published s last) (hthreads : s'.threads = (s.move t th').threads)
    (hharv : ∀ x ∈ s.hist.harvested, x ∈ s'.hist.harvested)
    (hcarry : ∀ x, th'.carries = some x → x ∈ s'.hist.harvested ∧ x.2.Harvested)
    (hauth : s'.acct.state = .authenticated → s'.TokensHarvested)
    (hfail : s'.acct.state = .failed →
      last' = some (s'.acct.lastError, s'.acct.lastErrorCode)) : Published s' last' where
  carried u x y hu hy := by
    rw [hthreads] at hu
    obtain ⟨-, rfl⟩ | ⟨-, hu⟩ := getElem?_move hu
    · exact hcarry y hy
    · have h := hp.carried u x y hu hy
      exact ⟨hharv y h.1, h.2⟩
  authenticated := hauth
  failed := hfail

/-- One thread moves on without a harvest to publish, and the session's data stay. -/
theorem moved_same (hp : Published s last) (hthreads : s'.threads = (s.move t th').threads)
    (hharv : ∀ x ∈ s.hist.harvested, x ∈ s'.hist.harvested)
    (hcarry : ∀ x, th'.carries = some x → x ∈ s'.hist.harvested ∧ x.2.Harvested)
    (hstate : s'.acct.state = s.acct.state) (htokens : s'.acct.tokens = s.acct.tokens)
    (herror : s'.acct.lastError = s.acct.lastError)
    (hcode : s'.acct.lastErrorCode = s.acct.lastErrorCode) : Published s' last := by
  refine hp.moved hthreads hharv hcarry ?_ ?_
  · intro h
    obtain ⟨a, tk, now, hm, htk, ht⟩ := hp.authenticated (hstate ▸ h)
    exact ⟨a, tk, now, hharv _ hm, htk, htokens.trans ht⟩
  · intro h
    rw [herror, hcode]
    exact hp.failed (hstate ▸ h)

/-- One thread moves on, and the account is in a state without data. -/
theorem moved_busy (hp : Published s last) (hthreads : s'.threads = (s.move t th').threads)
    (hharv : s'.hist.harvested = s.hist.harvested) (hcarry : th'.carries = none)
    (hauth : s'.acct.state ≠ .authenticated) (hfail : s'.acct.state ≠ .failed) :
    Published s' last := by
  refine hp.moved hthreads ?_ ?_ (fun h => absurd h hauth) fun h => absurd h hfail
  · intro x hx
    rw [hharv]
    exact hx
  · intro x hx
    rw [hcarry] at hx
    cases hx

/-- A call creates a thread that carries nothing. -/
theorem spawned {acct : Account} (hp : Published s last) (hcarry : th'.carries = none)
    (hauth : acct.state = .authenticated → s.acct.state = .authenticated ∧
      acct.tokens = s.acct.tokens)
    (hfail : acct.state = .failed → s.acct.state = .failed ∧
      acct.lastError = s.acct.lastError ∧ acct.lastErrorCode = s.acct.lastErrorCode) :
    Published ({ s with acct := acct }.spawn th') last where
  carried u x y hu hy := by
    obtain hu | ⟨-, rfl⟩ := getElem?_spawn hu
    · exact hp.carried u x y hu hy
    · rw [hcarry] at hy
      cases hy
  authenticated h := by
    obtain ⟨hs, ht⟩ := hauth h
    obtain ⟨a, tk, now, hm, htk, htokens⟩ := hp.authenticated hs
    exact ⟨a, tk, now, hm, htk, ht.trans htokens⟩
  failed h := by
    obtain ⟨hs, he, hc⟩ := hfail h
    have hlast := hp.failed hs
    rw [← he, ← hc] at hlast
    exact hlast

theorem step {act : Act} (h : s.step act = some s') (hp : Published s last) :
    Published s' (noteFailure last s act) := by
  cases hf : act.failure s with
  | some f =>
    -- `finish_failed`: the step stores what the observer notes
    obtain ⟨t, a, rfl, ht⟩ := failure_eq_some hf
    have hlast : noteFailure last s (.workerFail t) = some f := by rw [noteFailure, hf]; rfl
    rw [hlast]
    simp only [Sys.step, Sys.worker, ht, Option.some.injEq] at h
    subst h
    refine hp.moved rfl (fun x hx => hx) (fun x hx => ?_) (fun h => ?_) fun _ => rfl
    · cases hx
    · cases h
  | none =>
    have hlast : noteFailure last s act = last := by rw [noteFailure, hf]; rfl
    rw [hlast]
    cases step_trans h with
    | refused _ => exact hp
    | login hacct =>
      obtain ⟨-, rfl⟩ := Account.startLogin_eq_some hacct
      refine ⟨fun u x y hu hy => ?_, fun h => (by cases h), fun h => (by cases h)⟩
      obtain hu | ⟨-, rfl⟩ := getElem?_spawn hu
      · exact hp.carried u x y hu hy
      · cases hy
    | submit hacct =>
      obtain ⟨-, rfl⟩ := Account.submit2fa_eq_some hacct
      exact ⟨hp.carried, fun h => (by cases h), fun h => (by cases h)⟩
    | raise => exact hp.spawned rfl (fun h => ⟨h, rfl⟩) fun h => ⟨h, rfl, rfl⟩
    | call _ => exact hp.spawned rfl (fun h => ⟨h, rfl⟩) fun h => ⟨h, rfl, rfl⟩
    | loc _ _ hm =>
      refine hp.moved_same rfl (fun _ hx => hx) (fun x hx => ?_) rfl rfl rfl rfl
      rw [hm.carries] at hx
      cases hx
    | nullDeref _ _ _ => exact ⟨hp.carried, hp.authenticated, hp.failed⟩
    | reset _ => exact hp.moved_busy rfl rfl rfl (fun h => by cases h) fun h => by cases h
    | begin _ hacct =>
      obtain ⟨-, rfl⟩ := Account.restoreBegin_eq_some hacct
      exact hp.moved_busy rfl rfl rfl (fun h => by cases h) fun h => by cases h
    | giveUp _ => exact hp.moved_busy rfl rfl rfl (fun h => by cases h) fun h => by cases h
    | restored _ htk _ =>
      refine hp.moved_same rfl (fun _ hx => List.mem_cons_of_mem _ hx) (fun x hx => ?_) rfl rfl rfl
        rfl
      obtain rfl := Option.some.inj hx
      exact ⟨List.mem_cons_self, htk⟩
    | restorePublish ht =>
      have hc := hp.carried _ _ _ ht rfl
      refine hp.moved rfl (fun _ hx => hx) (fun x hx => ?_) (fun _ => ?_) fun h => by cases h
      · cases hx
      · exact ⟨_, _, _, hc.1, hc.2, rfl⟩
    | park _ _ => exact hp.moved_busy rfl rfl rfl (fun h => by cases h) fun h => by cases h
    | promptThrough _ _ =>
      exact hp.moved_busy rfl rfl rfl (fun h => by cases h) fun h => by cases h
    | wake _ _ => exact hp.moved_busy rfl rfl rfl (fun h => by cases h) fun h => by cases h
    | timeout _ => exact hp.moved_busy rfl rfl rfl (fun h => by cases h) fun h => by cases h
    | harvested _ _ htk _ =>
      refine hp.moved_same rfl (fun _ hx => List.mem_cons_of_mem _ hx) (fun x hx => ?_) rfl rfl rfl
        rfl
      obtain rfl := Option.some.inj hx
      exact ⟨List.mem_cons_self, htk⟩
    | fail ht =>
      rw [Act.failure, ht] at hf
      cases hf
    | publish ht =>
      have hc := hp.carried _ _ _ ht rfl
      refine hp.moved rfl (fun _ hx => hx) (fun x hx => ?_) (fun _ => ?_) fun h => by cases h
      · cases hx
      · exact ⟨_, _, _, hc.1, hc.2, rfl⟩

theorem reach {p : Sys × Option (String × Int)} (h : failureMachine.Reach Machine.anyStep p) :
    Published p.1 p.2 := by
  refine h.invariant (P := fun p => Published p.1 p.2) ?_ fun p act q _ _ hst hp => ?_
  · refine ⟨fun t th x ht => ?_, fun h => ?_, fun h => ?_⟩
    · simp [failureMachine, Machine.record, accountMachine] at ht
    · cases h
    · cases h
  · obtain ⟨hst, hnote⟩ := Machine.step_record.mp hst
    rw [hnote]
    exact hp.step hst

end Published

/-! ### Snapshots -/

/-- What a snapshot shows: a whole harvest of this run when authenticated, the most recent
`finish_failed` when failed, and neither token nor error otherwise. -/
structure SnapshotComplete (s : Sys) (last : Option (String × Int)) (snap : AccountSnapshot) :
    Prop where
  authenticated : snap.state = .authenticated → ∃ a tk, (a, tk) ∈ s.hist.harvested ∧ tk.Harvested ∧
    snap.storefront = tk.storefront ∧ snap.devToken = tk.devToken ∧
    snap.musicUserToken = tk.musicUserToken ∧ snap.dsid = tk.dsid ∧
    snap.storefront ≠ "" ∧ snap.devToken ≠ "" ∧ snap.musicUserToken ≠ ""
  failed : snap.state = .failed → last = some (snap.lastError, snap.lastErrorCode)
  tokenless : snap.state ≠ .authenticated →
    snap.storefront = "" ∧ snap.devToken = "" ∧ snap.musicUserToken = "" ∧ snap.dsid = ""
  errorless : snap.state ≠ .failed → snap.lastError = "" ∧ snap.lastErrorCode = 0

/-- **A published session is complete.**  In every reachable state, whatever threads of earlier
attempts still run, a snapshot shows tokens of one successful harvest, the most recent failure, or
nothing of either, as its state says. -/
theorem snapshot_complete {s : Sys} {last : Option (String × Int)}
    (h : failureMachine.Reach Machine.anyStep (s, last)) :
    SnapshotComplete s last s.acct.publicSnapshot := by
  have hp := Published.reach h
  have hstate : s.acct.publicSnapshot.state = s.acct.state := by
    unfold Account.publicSnapshot
    dsimp only
    split_ifs <;> rfl
  refine ⟨fun ha => ?_, fun hf => ?_, fun hn => ?_, fun hn => ?_⟩
  · rw [hstate] at ha
    obtain ⟨a, tk, now, hm, htk, htokens⟩ : s.TokensHarvested := hp.authenticated ha
    have hsnap : s.acct.publicSnapshot = {
        state := .authenticated, appleId := s.acct.appleId, storefront := tk.storefront,
        dsid := tk.dsid, musicUserToken := tk.musicUserToken, devToken := tk.devToken,
        loggedInAt := now } := by
      simp [Account.publicSnapshot, ha, htokens]
    rw [hsnap]
    obtain ⟨r, out, hr, hs, hd, hmu, hds⟩ := htk
    have hne := harvestAll_ne_empty hr
    rw [← hs, ← hd, ← hmu] at hne
    exact ⟨a, tk, hm, ⟨r, out, hr, hs, hd, hmu, hds⟩, rfl, rfl, rfl, rfl, hne⟩
  · rw [hstate] at hf
    have hsnap : s.acct.publicSnapshot = {
        state := .failed, appleId := s.acct.appleId, lastError := s.acct.lastError,
        lastErrorCode := s.acct.lastErrorCode } := by
      simp [Account.publicSnapshot, hf]
    rw [hsnap]
    exact hp.failed hf
  · rw [hstate] at hn
    unfold Account.publicSnapshot
    dsimp only
    rw [if_neg hn]
    split_ifs <;> exact ⟨rfl, rfl, rfl, rfl⟩
  · rw [hstate] at hn
    unfold Account.publicSnapshot
    dsimp only
    split_ifs <;> exact ⟨rfl, rfl⟩

/-- A cached session that is restored. -/
def restoredSession : List Act :=
  [.restoreCall 1 1, .restoreTryLock 0, .restoreChecks 0 true, .restoreGate 0,
   .restoreReqCtx 0 true, .restoreHarvest 0 ⟨"143441", "dev", "guid", "music", none⟩ none,
   .restorePublish 0 5]

theorem snapshot_complete_restoredSession :
    ∃ s last, failureMachine.exec Machine.anyStep failureMachine.init restoredSession =
        some (s, last) ∧ s.acct.publicSnapshot.devToken = "dev" ∧
      SnapshotComplete s last s.acct.publicSnapshot :=
  ⟨_, _, rfl, rfl, snapshot_complete (Machine.reach_of_exec (l := restoredSession) rfl)⟩

end WrapperPaas
