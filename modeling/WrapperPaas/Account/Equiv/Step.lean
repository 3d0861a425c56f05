/-
  What one step of the account's threads can do.

  `Sys.step` has a case for every program point.  Most of them only move one thread along and leave
  the account alone; `LocalMove` lists those moves, and `Trans` lists the steps that do more, each
  with its guard.  `step_trans` says that this is all: the invariants of the account are proved by
  cases on `Trans`, never by unfolding `Sys.step` again.
-/
import Mathlib.Data.List.Basic
import WrapperPaas.Account.Threads

namespace WrapperPaas

namespace Thread

/-- The thread runs an attempt and has not made its last store yet. -/
def inFlight : Thread → Bool
  | .worker _ .done => false
  | .worker _ _ => true
  | .restore _ _ _ (.reqCtx _) => true
  | .restore _ _ _ (.harvest _) => true
  | .restore _ _ _ (.failing _) => true
  | .restore _ _ _ (.publish _ _) => true
  | _ => false

/-- The attempt on whose behalf the thread acts. -/
def attempt : Thread → Option AttemptId
  | .worker a _ => some a
  | .restore _ _ _ (.reqCtx a) => some a
  | .restore _ _ _ (.harvest a) => some a
  | .restore _ _ _ (.failing a) => some a
  | .restore _ _ _ (.publish a _) => some a
  | .restore _ _ _ (.returning a) => a
  | _ => none

/-- The 2FA prompt the thread is parked in. -/
def prompt : Thread → Option Nat
  | .worker _ (.parked k) => some k
  | _ => none

end Thread

/-- The thread that takes a step; `none` for the calls that are one section. -/
def Act.thread : Act → Option ThreadId
  | .logoutDetach t | .logoutReset t => some t
  | .restoreTryLock t | .restoreChecks t _ | .restoreGate t | .restoreReqCtx t _
  | .restoreHarvest t _ _ | .restoreFail t | .restorePublish t _ | .restoreReturn t
  | .restoreIdle t => some t
  | .workerCheck t _ _ | .workerReqCtx t _ | .workerBaseDir t | .workerMakeFlow t _
  | .workerCredentials t | .workerPrompt t | .workerWake t | .workerTimeout t
  | .workerFlowReturns t _ | .workerReadId t | .workerHarvestArgs t | .workerHarvest t _
  | .workerFail t | .workerPublish t _ => some t
  | _ => none

/-- Moves inside `worker_main` that store nothing in the account. -/
inductive WorkerMove (s : Sys) : WorkerPc → WorkerPc → Prop
  | checked : s.acct.loader.isSome → s.acct.runtime.isSome → WorkerMove s .check .reqCtx
  | unready (msg code) : WorkerMove s .check (.failing msg code)
  | reqCtx : WorkerMove s .reqCtx .baseDir
  | noReqCtx (msg code) : WorkerMove s .reqCtx (.failing msg code)
  | baseDir : WorkerMove s .baseDir .makeFlow
  | makeFlow : WorkerMove s .makeFlow (.run none)
  | noFlow (msg code) : WorkerMove s .makeFlow (.failing msg code)
  | credentials (h c) : WorkerMove s (.run h) (.run c)
  | flowFailed (h msg code) : WorkerMove s (.run h) (.failing msg code)
  | flowDone (h) : WorkerMove s (.run h) .readId
  | readId : WorkerMove s .readId (.harvestArgs s.acct.appleId)
  | harvestArgs (id) : WorkerMove s (.harvestArgs id) (.harvest id)
  | noHarvest (id msg code) : WorkerMove s (.harvest id) (.failing msg code)

/-- Moves inside `try_restore_cached_session` that store nothing but `restore_mu_`, whose owner
afterwards is the last argument. -/
inductive RestoreMove (s : Sys) (t : ThreadId) : RestorePc → RestorePc → Option ThreadId → Prop
  | lock : s.acct.restoreMu = none → RestoreMove s t .tryLock .checks (some t)
  | locked : RestoreMove s t .tryLock .returned s.acct.restoreMu
  | ready : RestoreMove s t .checks .gate s.acct.restoreMu
  | unready : RestoreMove s t .checks (.returning none) s.acct.restoreMu
  | refused : s.acct.state ≠ .loggedOut → RestoreMove s t .gate (.returning none) s.acct.restoreMu
  | reqCtx (a) : RestoreMove s t (.reqCtx a) (.harvest a) s.acct.restoreMu
  | noReqCtx (a) : RestoreMove s t (.reqCtx a) (.failing a) s.acct.restoreMu
  | noHarvest (a) : RestoreMove s t (.harvest a) (.failing a) s.acct.restoreMu
  | unlock (a) : RestoreMove s t (.returning a) .returned none
  | finish : RestoreMove s t .returned .done s.acct.restoreMu

/-- Moves that store nothing the login flow reads. -/
inductive LocalMove (s : Sys) (t : ThreadId) : Thread → Thread → Option ThreadId → Prop
  | worker {a pc pc'} : WorkerMove s pc pc' →
      LocalMove s t (.worker a pc) (.worker a pc') s.acct.restoreMu
  | restore {l r tr pc pc' m} : RestoreMove s t pc pc' m →
      LocalMove s t (.restore l r tr pc) (.restore l r tr pc') m
  | detach : LocalMove s t (.logout .detach) (.logout .reset) s.acct.restoreMu

/-- The tokens are those of one successful `harvest_all`; the Apple ID may be another. -/
def Tokens.Harvested (tk : Tokens) : Prop :=
  ∃ (r : HarvestReply) (out : Tokens), (harvestAll r out).1 = true ∧
    tk.storefront = (harvestAll r out).2.storefront ∧ tk.devToken = (harvestAll r out).2.devToken ∧
    tk.musicUserToken = (harvestAll r out).2.musicUserToken ∧ tk.dsid = (harvestAll r out).2.dsid

/-- The pointers that the next program point of `worker_main` calls through. -/
def derefs (s : Sys) : WorkerPc → Bool
  | .reqCtx => s.acct.loader.isSome && s.acct.runtime.isSome
  | .baseDir => s.acct.runtime.isSome
  | .harvestArgs _ => s.acct.runtime.isSome
  | _ => true

/-- The steps of the account's threads. -/
inductive Trans (s : Sys) : Act → Sys → Prop
  /-- a call that returned false -/
  | refused {act} : act.thread = none → Trans s act s
  | login {l r id pw acct} : s.acct.startLogin l r id pw = some acct →
      Trans s (.startLogin l r id pw)
        (({ s with acct := acct }.spawn (.worker s.hist.begun .check)).noteBegun (some id))
  | submit {code acct} : s.acct.submit2fa code = some acct →
      Trans s (.submit2fa code) ({ s with acct := acct }.noteSubmit code)
  | raise : Trans s .logoutCall ({ s with acct := s.acct.logoutRaise }.spawn (.logout .detach))
  | call {act l r tr running} : act.thread = none →
      Trans s act ({ s with acct := { s.acct with restoreRunning := running } }.spawn
        (.restore l r tr .tryLock))
  | loc {act t th th' joinable m running} : act.thread = some t → s.threads[t]? = some th →
      LocalMove s t th th' m →
      Trans s act ({ s with acct := { s.acct with
        workerJoinable := joinable, restoreMu := m, restoreRunning := running } }.move t th')
  | nullDeref {act t a pc} : act.thread = some t → s.threads[t]? = some (.worker a pc) →
      derefs s pc = false → Trans s act { s with nullDeref := true }
  | reset {t} : s.threads[t]? = some (.logout .reset) →
      Trans s (.logoutReset t)
        (({ s with acct := s.acct.logoutReset }.move t (.logout .done)).noteLogout)
  | begin {t l r tr acct} : s.threads[t]? = some (.restore l r tr .gate) →
      s.acct.restoreBegin l r = some acct →
      Trans s (.restoreGate t)
        (({ s with acct := acct }.move t (.restore l r tr (.reqCtx s.hist.begun))).noteBegun none)
  | giveUp {t l r tr a} : s.threads[t]? = some (.restore l r tr (.failing a)) →
      Trans s (.restoreFail t)
        ({ s with acct := s.acct.restoreGiveUp }.move t (.restore l r tr (.returning (some a))))
  | restored {t l r tr a tk} : s.threads[t]? = some (.restore l r tr (.harvest a)) →
      tk.Harvested → {act : Act} → act.thread = some t →
      Trans s act ((s.move t (.restore l r tr (.publish a tk))).noteHarvest a tk)
  | restorePublish {t l r tr a tk now} : s.threads[t]? = some (.restore l r tr (.publish a tk)) →
      Trans s (.restorePublish t now)
        ({ s with acct := s.acct.finishAuthenticated tk now }.move t
          (.restore l r tr (.returning (some a))))
  | park {t a h} : s.threads[t]? = some (.worker a (.run h)) → s.acct.codeReady = false →
      Trans s (.workerPrompt t)
        (({ s with acct := s.acct.awaitCode }.notePrompt).move t
          (.worker a (.parked s.hist.codes.clock)))
  | promptThrough {t a h} : s.threads[t]? = some (.worker a (.run h)) → s.acct.codeReady = true →
      Trans s (.workerPrompt t)
        (({ s with acct := s.acct.awaitCode }.notePrompt).leave t a s.hist.codes.clock)
  | wake {t a k} : s.threads[t]? = some (.worker a (.parked k)) → s.acct.codeReady = true →
      Trans s (.workerWake t) (s.leave t a k)
  | timeout {t a k} : s.threads[t]? = some (.worker a (.parked k)) →
      Trans s (.workerTimeout t) (s.leave t a k)
  | harvested {t a id tk} : s.threads[t]? = some (.worker a (.harvest id)) → tk.appleId = id →
      tk.Harvested → {act : Act} → act.thread = some t →
      Trans s act ((s.move t (.worker a (.publish tk))).noteHarvest a tk)
  | fail {t a msg code} : s.threads[t]? = some (.worker a (.failing msg code)) →
      Trans s (.workerFail t)
        ({ s with acct := s.acct.finishFailed msg code }.move t (.worker a .done))
  | publish {t a tk now} : s.threads[t]? = some (.worker a (.publish tk)) →
      Trans s (.workerPublish t now)
        ({ s with acct := s.acct.finishAuthenticated tk now }.move t (.worker a .done))

/-- `harvest_all` never touches the Apple ID. -/
theorem harvestAll_appleId (r : HarvestReply) (out : Tokens) :
    (harvestAll r out).2.appleId = out.appleId := by
  unfold harvestAll
  dsimp only
  split_ifs
  · rfl
  · rfl
  · rfl
  · rfl
  · cases r.dsid <;> rfl

/-- A successful harvest leaves none of the three tokens empty. -/
theorem harvestAll_ne_empty {r : HarvestReply} {out : Tokens} (h : (harvestAll r out).1 = true) :
    (harvestAll r out).2.storefront ≠ "" ∧ (harvestAll r out).2.devToken ≠ "" ∧
      (harvestAll r out).2.musicUserToken ≠ "" := by
  unfold harvestAll at h ⊢
  dsimp only at h ⊢
  split_ifs at h ⊢ with hs hd hg hm
  · cases r.dsid <;> exact ⟨hs, hd, hm⟩

namespace Account

variable {a a' : Account} {l r : Handle}

/-- An accepted `start_login`: no login was in progress, and one is now. -/
theorem startLogin_eq_some {id pw : String} (h : a.startLogin l r id pw = some a') :
    ¬ a.busy ∧ a' = { a with
      loader := some l, runtime := some r, appleId := id, password := pw,
      twofaCode := "", twofaSubmitted := false, aborted := false, tokens := {},
      lastError := "", lastErrorCode := 0, state := .inProgress,
      workerJoinable := true } := by
  rw [startLogin] at h
  split_ifs at h with hb
  exact ⟨hb, (Option.some.inj h).symm⟩

/-- An accepted `submit_2fa` answers a waiting login. -/
theorem submit2fa_eq_some {code : String} (h : a.submit2fa code = some a') :
    a.state = .awaiting2fa ∧
      a' = { a with twofaCode := code, twofaSubmitted := true, state := .inProgress } := by
  rw [submit2fa] at h
  split_ifs at h with hb
  exact ⟨not_not.mp hb, (Option.some.inj h).symm⟩

/-- A restore that gets past the LoggedOut check begins as a login does, without a password. -/
theorem restoreBegin_eq_some (h : a.restoreBegin l r = some a') :
    a.state = .loggedOut ∧ a' = { a with
      workerJoinable := false, loader := some l, runtime := some r,
      password := "", twofaCode := "", twofaSubmitted := false, aborted := false, tokens := {},
      lastError := "", lastErrorCode := 0, state := .inProgress } := by
  rw [restoreBegin] at h
  split_ifs at h with hb
  exact ⟨not_not.mp hb, (Option.some.inj h).symm⟩

theorem not_busy_of_loggedOut (h : a.state = .loggedOut) : ¬ a.busy := by
  rw [busy, h]
  simp

end Account

namespace Sys

variable {s s' : Sys} {t : ThreadId}

theorem worker_eq_some {f : AttemptId → WorkerPc → Option Sys} (h : s.worker t f = some s') :
    ∃ a pc, s.threads[t]? = some (.worker a pc) ∧ f a pc = some s' := by
  unfold worker at h
  split at h
  · exact ⟨_, _, ‹_›, h⟩
  · cases h

theorem restore_eq_some {f : Handle → Handle → Bool → RestorePc → Option Sys}
    (h : s.restore t f = some s') :
    ∃ l r tr pc, s.threads[t]? = some (.restore l r tr pc) ∧ f l r tr pc = some s' := by
  unfold restore at h
  split at h
  · exact ⟨_, _, _, _, ‹_›, h⟩
  · cases h

theorem logout_eq_some {f : LogoutPc → Option Sys} (h : s.logout t f = some s') :
    ∃ pc, s.threads[t]? = some (.logout pc) ∧ f pc = some s' := by
  unfold logout at h
  split at h
  · exact ⟨_, ‹_›, h⟩
  · cases h

end Sys

open Sys in
/-- Every step is one of the transitions listed in `Trans`. -/
theorem step_trans {s s' : Sys} {act : Act} (h : s.step act = some s') : Trans s act s' := by
  cases act with
  | startLogin l r id pw =>
    simp only [step] at h
    split at h
    · obtain rfl := Option.some.inj h
      exact .refused rfl
    · obtain rfl := Option.some.inj h
      exact .login ‹_›
  | submit2fa code =>
    simp only [step] at h
    split at h
    · obtain rfl := Option.some.inj h
      exact .refused rfl
    · obtain rfl := Option.some.inj h
      exact .submit ‹_›
  | logoutCall =>
    obtain rfl := Option.some.inj h
    exact .raise
  | logoutDetach t =>
    obtain ⟨pc, ht, hf⟩ := logout_eq_some h
    cases pc <;> simp only [Option.some.injEq, reduceCtorEq] at hf
    subst hf
    exact .loc rfl ht .detach
  | logoutReset t =>
    obtain ⟨pc, ht, hf⟩ := logout_eq_some h
    cases pc <;> simp only [Option.some.injEq, reduceCtorEq] at hf
    subst hf
    exact .reset ht
  | restoreCall l r =>
    obtain rfl := Option.some.inj h
    exact .call rfl
  | restoreTrigger l r =>
    simp only [step] at h
    split_ifs at h
    · obtain rfl := Option.some.inj h
      exact .refused rfl
    · obtain rfl := Option.some.inj h
      exact .call rfl
  | restoreTryLock t =>
    obtain ⟨l, r, tr, pc, ht, hf⟩ := restore_eq_some h
    cases pc <;> simp only [reduceCtorEq] at hf
    split_ifs at hf with hm
    · obtain rfl := Option.some.inj hf
      exact .loc rfl ht (.restore (.lock hm))
    · obtain rfl := Option.some.inj hf
      exact .loc rfl ht (.restore .locked)
  | restoreChecks t ready =>
    obtain ⟨l, r, tr, pc, ht, hf⟩ := restore_eq_some h
    cases pc <;> simp only [Option.some.injEq, reduceCtorEq] at hf
    subst hf
    cases ready
    · exact .loc rfl ht (.restore .unready)
    · exact .loc rfl ht (.restore .ready)
  | restoreGate t =>
    obtain ⟨l, r, tr, pc, ht, hf⟩ := restore_eq_some h
    cases pc <;> simp only [reduceCtorEq] at hf
    split at hf
    · rename_i hb
      obtain rfl := Option.some.inj hf
      refine .loc rfl ht (.restore (.refused fun hl => ?_))
      simp [Account.restoreBegin, hl] at hb
    · obtain rfl := Option.some.inj hf
      exact .begin ht ‹_›
  | restoreReqCtx t present =>
    obtain ⟨l, r, tr, pc, ht, hf⟩ := restore_eq_some h
    cases pc <;> simp only [Option.some.injEq, reduceCtorEq] at hf
    subst hf
    cases present
    · exact .loc rfl ht (.restore (.noReqCtx _))
    · exact .loc rfl ht (.restore (.reqCtx _))
  | restoreHarvest t reply label =>
    obtain ⟨l, r, tr, pc, ht, hf⟩ := restore_eq_some h
    cases pc <;> simp only [reduceCtorEq] at hf
    split_ifs at hf with hh
    · obtain rfl := Option.some.inj hf
      refine .restored ht ⟨reply, {}, hh, ?_⟩ rfl
      -- the label replaces nothing but the Apple ID
      cases label with
      | none => exact ⟨rfl, rfl, rfl, rfl⟩
      | some id =>
        dsimp only
        split_ifs <;> exact ⟨rfl, rfl, rfl, rfl⟩
    · obtain rfl := Option.some.inj hf
      exact .loc rfl ht (.restore (.noHarvest _))
  | restoreFail t =>
    obtain ⟨l, r, tr, pc, ht, hf⟩ := restore_eq_some h
    cases pc <;> simp only [Option.some.injEq, reduceCtorEq] at hf
    subst hf
    exact .giveUp ht
  | restorePublish t now =>
    obtain ⟨l, r, tr, pc, ht, hf⟩ := restore_eq_some h
    cases pc <;> simp only [Option.some.injEq, reduceCtorEq] at hf
    subst hf
    exact .restorePublish ht
  | restoreReturn t =>
    obtain ⟨l, r, tr, pc, ht, hf⟩ := restore_eq_some h
    cases pc <;> simp only [Option.some.injEq, reduceCtorEq] at hf
    subst hf
    exact .loc rfl ht (.restore (.unlock _))
  | restoreIdle t =>
    obtain ⟨l, r, tr, pc, ht, hf⟩ := restore_eq_some h
    cases pc <;> simp only [Option.some.injEq, reduceCtorEq] at hf
    subst hf
    exact .loc rfl ht (.restore .finish)
  | workerCheck t loaderOk initialized =>
    obtain ⟨a, pc, ht, hf⟩ := worker_eq_some h
    cases pc <;> simp only [reduceCtorEq] at hf
    split_ifs at hf with hc
    · obtain rfl := Option.some.inj hf
      exact .loc rfl ht (.worker (.unready _ _))
    · obtain rfl := Option.some.inj hf
      simp only [not_or] at hc
      exact .loc rfl ht (.worker (.checked (Option.isSome_iff_ne_none.mpr hc.1)
        (Option.isSome_iff_ne_none.mpr hc.2.2.1)))
  | workerReqCtx t present =>
    obtain ⟨a, pc, ht, hf⟩ := worker_eq_some h
    cases pc <;> simp only [deref, Option.some.injEq, reduceCtorEq] at hf
    split_ifs at hf with hd hp
    · subst hf
      exact .loc rfl ht (.worker .reqCtx)
    · subst hf
      exact .loc rfl ht (.worker (.noReqCtx _ _))
    · subst hf
      exact .nullDeref rfl ht (by simpa [derefs] using hd)
  | workerBaseDir t =>
    obtain ⟨a, pc, ht, hf⟩ := worker_eq_some h
    cases pc <;> simp only [deref, Option.some.injEq, reduceCtorEq] at hf
    split_ifs at hf with hd
    · subst hf
      exact .loc rfl ht (.worker .baseDir)
    · subst hf
      exact .nullDeref rfl ht (by simpa [derefs] using hd)
  | workerMakeFlow t present =>
    obtain ⟨a, pc, ht, hf⟩ := worker_eq_some h
    cases pc <;> simp only [Option.some.injEq, reduceCtorEq] at hf
    subst hf
    cases present
    · exact .loc rfl ht (.worker (.noFlow _ _))
    · exact .loc rfl ht (.worker .makeFlow)
  | workerCredentials t =>
    obtain ⟨a, pc, ht, hf⟩ := worker_eq_some h
    cases pc <;> simp only [Option.some.injEq, reduceCtorEq] at hf
    subst hf
    exact .loc rfl ht (.worker (.credentials _ _))
  | workerPrompt t =>
    obtain ⟨a, pc, ht, hf⟩ := worker_eq_some h
    cases pc <;> simp only [reduceCtorEq] at hf
    split_ifs at hf with hr
    · obtain rfl := Option.some.inj hf
      exact .promptThrough ht hr
    · obtain rfl := Option.some.inj hf
      exact .park ht (by simpa using hr)
  | workerWake t =>
    obtain ⟨a, pc, ht, hf⟩ := worker_eq_some h
    cases pc <;> simp only [reduceCtorEq] at hf
    split_ifs at hf with hr
    obtain rfl := Option.some.inj hf
    exact .wake ht hr
  | workerTimeout t =>
    obtain ⟨a, pc, ht, hf⟩ := worker_eq_some h
    cases pc <;> simp only [Option.some.injEq, reduceCtorEq] at hf
    subst hf
    exact .timeout ht
  | workerFlowReturns t response =>
    obtain ⟨a, pc, ht, hf⟩ := worker_eq_some h
    cases pc <;> simp only [reduceCtorEq] at hf
    split at hf
    · obtain rfl := Option.some.inj hf
      exact .loc rfl ht (.worker (.flowFailed _ _ _))
    · split_ifs at hf
      · obtain rfl := Option.some.inj hf
        exact .loc rfl ht (.worker (.flowFailed _ _ _))
      · obtain rfl := Option.some.inj hf
        exact .loc rfl ht (.worker (.flowDone _))
  | workerReadId t =>
    obtain ⟨a, pc, ht, hf⟩ := worker_eq_some h
    cases pc <;> simp only [Option.some.injEq, reduceCtorEq] at hf
    subst hf
    exact .loc rfl ht (.worker .readId)
  | workerHarvestArgs t =>
    obtain ⟨a, pc, ht, hf⟩ := worker_eq_some h
    cases pc <;> simp only [deref, Option.some.injEq, reduceCtorEq] at hf
    split_ifs at hf with hd
    · subst hf
      exact .loc rfl ht (.worker (.harvestArgs _))
    · subst hf
      exact .nullDeref rfl ht (by simpa [derefs] using hd)
  | workerHarvest t reply =>
    obtain ⟨a, pc, ht, hf⟩ := worker_eq_some h
    cases pc <;> simp only [reduceCtorEq] at hf
    split_ifs at hf with hh
    · obtain rfl := Option.some.inj hf
      exact .harvested ht (harvestAll_appleId _ _) ⟨reply, _, hh, rfl, rfl, rfl, rfl⟩ rfl
    · obtain rfl := Option.some.inj hf
      exact .loc rfl ht (.worker (.noHarvest _ _ _))
  | workerFail t =>
    obtain ⟨a, pc, ht, hf⟩ := worker_eq_some h
    cases pc <;> simp only [Option.some.injEq, reduceCtorEq] at hf
    subst hf
    exact .fail ht
  | workerPublish t now =>
    obtain ⟨a, pc, ht, hf⟩ := worker_eq_some h
    cases pc <;> simp only [Option.some.injEq, reduceCtorEq] at hf
    subst hf
    exact .publish ht

end WrapperPaas
