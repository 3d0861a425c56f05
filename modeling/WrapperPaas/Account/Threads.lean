/-
  The threads that act on one `Account` and their interleavings.

  `Account/State.lean` gives the critical sections; here they are put in the order in which
  `start_login`, `submit_2fa`, `logout`, `try_restore_cached_session`,
  `trigger_restore_cached_session` and `worker_main` run them.  One `Act` is one mutex-protected
  section, one unguarded access to a member, or one answer of Apple's library, so every order of
  `Act`s that `step` allows is an interleaving of the source.

  A thread is named by its position in `Sys.threads`; threads are only ever appended.

  `History` is what an observer of the run writes down: which attempts began, which of them is
  current, which codes were submitted and what the 2FA prompts returned.  No step reads it.
-/
import Mathlib.Data.List.Basic
import WrapperPaas.Lib.Machine
import WrapperPaas.Account.State

namespace WrapperPaas

/-- The number of a login attempt, in the order in which attempts begin. -/
abbrev AttemptId := Nat

/-- Where a thread is in `worker_main`. -/
inductive WorkerPc where
  /-- before the null and readiness checks -/
  | check
  /-- before `loader_->sym()` and `runtime_->request_ctx_copy()` -/
  | reqCtx
  /-- before `runtime_->base_dir()` and the two unlinks -/
  | baseDir
  /-- before `make_shared_AuthenticateFlow` -/
  | makeFlow
  /-- inside `AuthenticateFlow_run`, with the credentials handed to Apple so far -/
  | run (handed : Option Credentials)
  /-- in the 2FA wait, inside `AuthenticateFlow_run`; the number is that of the prompt -/
  | parked (prompt : Nat)
  /-- before `t.apple_id = apple_id_` -/
  | readId
  /-- before the second `runtime_->request_ctx_copy()` and `runtime_->device_guid_copy()` -/
  | harvestArgs (appleId : String)
  /-- inside `harvest_all` -/
  | harvest (appleId : String)
  /-- inside `finish_failed`, before its lock -/
  | failing (message : String) (code : Int)
  /-- inside `finish_authenticated`, before its lock -/
  | publish (t : Tokens)
  | done
  deriving DecidableEq, Repr

/-- Where a thread is in `try_restore_cached_session`. -/
inductive RestorePc where
  | tryLock
  /-- before the readiness and warm-session checks -/
  | checks
  /-- before the section with the LoggedOut check -/
  | gate
  /-- before `runtime.request_ctx_copy()`, the attempt having begun -/
  | reqCtx (a : AttemptId)
  /-- inside `harvest_all` -/
  | harvest (a : AttemptId)
  /-- before the lock of a failure exit -/
  | failing (a : AttemptId)
  /-- inside `finish_authenticated`, before its lock -/
  | publish (a : AttemptId) (t : Tokens)
  /-- returning: `restore_mu_` is still owned; the attempt this call began, if any -/
  | returning (a : Option AttemptId)
  /-- returned to the lambda of `trigger_restore_cached_session` -/
  | returned
  | done
  deriving DecidableEq, Repr

/-- Where a thread is in `logout`, its first section being done. -/
inductive LogoutPc where
  | detach
  | reset
  | done
  deriving DecidableEq, Repr

/-- A thread that entered one of the multi-step operations. -/
inductive Thread where
  | worker (a : AttemptId) (pc : WorkerPc)
  | restore (loader runtime : Handle) (triggered : Bool) (pc : RestorePc)
  | logout (pc : LogoutPc)
  deriving DecidableEq, Repr

/-- What a 2FA prompt returned: the prompt, the flag and password it returned, the `password_` it
read, and the submission whose code `twofa_code_` held. -/
structure PromptReturn where
  prompt : Nat
  ok : Bool
  password : String
  base : String
  submission : Nat
  deriving DecidableEq, Repr

/-- The observer's record of the 2FA codes.  Prompts and submissions are numbered by one clock, so
that their order can be read off. -/
structure CodeLog where
  clock : Nat := 0
  /-- the submission whose code is in `twofa_code_` -/
  codeFrom : Nat := 0
  submissions : List (Nat × String) := []
  returns : List PromptReturn := []
  deriving DecidableEq, Repr

/-- The observer's record of a run. -/
structure History where
  /-- how many attempts have begun -/
  begun : Nat := 0
  /-- the Apple ID a `start_login` attempt was given -/
  loginId : List (AttemptId × String) := []
  /-- the latest attempt, unless a `logout` has returned since it began -/
  current : Option AttemptId := none
  /-- successful harvests -/
  harvested : List (AttemptId × Tokens) := []
  codes : CodeLog := {}
  deriving DecidableEq, Repr

/-- The daemon's account with everything that acts on it.  `nullDeref` records that a member of a
null `loader_` or `runtime_` was called. -/
structure Sys where
  acct : Account := {}
  threads : List Thread := []
  hist : History := {}
  nullDeref : Bool := false
  deriving DecidableEq, Repr

/-- One step of one thread.  The arguments are the caller's, or Apple's answer. -/
inductive Act where
  | startLogin (loader runtime : Handle) (appleId password : String)
  | submit2fa (code : String)
  | logoutCall
  | logoutDetach (t : ThreadId)
  | logoutReset (t : ThreadId)
  | restoreCall (loader runtime : Handle)
  | restoreTrigger (loader runtime : Handle)
  | restoreTryLock (t : ThreadId)
  | restoreChecks (t : ThreadId) (ready : Bool)
  | restoreGate (t : ThreadId)
  | restoreReqCtx (t : ThreadId) (present : Bool)
  | restoreHarvest (t : ThreadId) (reply : HarvestReply) (label : Option String)
  | restoreFail (t : ThreadId)
  | restorePublish (t : ThreadId) (now : Nat)
  | restoreReturn (t : ThreadId)
  | restoreIdle (t : ThreadId)
  | workerCheck (t : ThreadId) (loaderOk initialized : Bool)
  | workerReqCtx (t : ThreadId) (present : Bool)
  | workerBaseDir (t : ThreadId)
  | workerMakeFlow (t : ThreadId) (present : Bool)
  | workerCredentials (t : ThreadId)
  | workerPrompt (t : ThreadId)
  | workerWake (t : ThreadId)
  | workerTimeout (t : ThreadId)
  | workerFlowReturns (t : ThreadId) (response : Option FlowResponse)
  | workerReadId (t : ThreadId)
  | workerHarvestArgs (t : ThreadId)
  | workerHarvest (t : ThreadId) (reply : HarvestReply)
  | workerFail (t : ThreadId)
  | workerPublish (t : ThreadId) (now : Nat)
  deriving DecidableEq, Repr

namespace Sys

/-- Thread `t` goes on as `th`. -/
def move (s : Sys) (t : ThreadId) (th : Thread) : Sys := { s with threads := s.threads.set t th }

/-- A new thread. -/
def spawn (s : Sys) (th : Thread) : Sys := { s with threads := s.threads ++ [th] }

/-- Run `f` if `t` is inside `worker_main`. -/
def worker (s : Sys) (t : ThreadId) (f : AttemptId → WorkerPc → Option Sys) : Option Sys :=
  match s.threads[t]? with
  | some (.worker a pc) => f a pc
  | _ => none

/-- Run `f` if `t` is inside `try_restore_cached_session`. -/
def restore (s : Sys) (t : ThreadId) (f : Handle → Handle → Bool → RestorePc → Option Sys) :
    Option Sys :=
  match s.threads[t]? with
  | some (.restore l r tr pc) => f l r tr pc
  | _ => none

/-- Run `f` if `t` is inside `logout`. -/
def logout (s : Sys) (t : ThreadId) (f : LogoutPc → Option Sys) : Option Sys :=
  match s.threads[t]? with
  | some (.logout pc) => f pc
  | _ => none

/-- A call through a null pointer. -/
def deref (s : Sys) (ok : Bool) (next : Sys) : Sys :=
  if ok then next else { s with nullDeref := true }

/-! ### The observer's notes -/

/-- A `start_login` or a restore became the current attempt. -/
def noteBegun (s : Sys) (login : Option String) : Sys :=
  { s with hist := { s.hist with
      begun := s.hist.begun + 1
      current := some s.hist.begun
      loginId := match login with
        | some id => (s.hist.begun, id) :: s.hist.loginId
        | none => s.hist.loginId } }

/-- A `logout` returned. -/
def noteLogout (s : Sys) : Sys := { s with hist := { s.hist with current := none } }

/-- Attempt `a` harvested `t`. -/
def noteHarvest (s : Sys) (a : AttemptId) (t : Tokens) : Sys :=
  { s with hist := { s.hist with harvested := (a, t) :: s.hist.harvested } }

/-- A `submit_2fa` returned true. -/
def noteSubmit (s : Sys) (code : String) : Sys :=
  { s with hist := { s.hist with codes := { s.hist.codes with
      clock := s.hist.codes.clock + 1
      codeFrom := s.hist.codes.clock
      submissions := (s.hist.codes.clock, code) :: s.hist.codes.submissions } } }

/-- A 2FA prompt was raised. -/
def notePrompt (s : Sys) : Sys :=
  { s with hist := { s.hist with codes := { s.hist.codes with clock := s.hist.codes.clock + 1 } } }

/-- What prompt `k` returns when it leaves its wait now. -/
def promptReturn (s : Sys) (k : Nat) : PromptReturn where
  prompt := k
  ok := s.acct.codeCredentials.ok
  password := s.acct.codeCredentials.password
  base := s.acct.password
  submission := s.hist.codes.codeFrom

/-- Prompt `k` returned. -/
def noteReturn (s : Sys) (k : Nat) : Sys :=
  { s with hist := { s.hist with codes := { s.hist.codes with
      returns := s.promptReturn k :: s.hist.codes.returns } } }

/-! ### Steps -/

/-- The thread of prompt `k` leaves the 2FA wait. -/
def leave (s : Sys) (t : ThreadId) (a : AttemptId) (k : Nat) : Sys :=
  { s.noteReturn k with
    acct := s.acct.leaveWait
    threads := s.threads.set t (.worker a (.run (some s.acct.codeCredentials))) }

/-- One step of the account's threads; `none` when the step is not enabled. -/
def step (s : Sys) : Act → Option Sys
  | .startLogin loader runtime appleId password =>
    match s.acct.startLogin loader runtime appleId password with
    | none => some s
    | some acct =>
      some (({ s with acct := acct }.spawn (.worker s.hist.begun .check)).noteBegun (some appleId))
  | .submit2fa code =>
    match s.acct.submit2fa code with
    | none => some s
    | some acct => some ({ s with acct := acct }.noteSubmit code)
  | .logoutCall => some ({ s with acct := s.acct.logoutRaise }.spawn (.logout .detach))
  | .logoutDetach t => s.logout t fun pc => match pc with
    | .detach => some ({ s with acct := s.acct.logoutDetach }.move t (.logout .reset))
    | _ => none
  | .logoutReset t => s.logout t fun pc => match pc with
    | .reset => some (({ s with acct := s.acct.logoutReset }.move t (.logout .done)).noteLogout)
    | _ => none
  | .restoreCall loader runtime => some (s.spawn (.restore loader runtime false .tryLock))
  | .restoreTrigger loader runtime =>
    -- the load before the compare-exchange only returns early in the same case
    if s.acct.restoreRunning then some s
    else some ({ s with acct := { s.acct with restoreRunning := true } }.spawn
      (.restore loader runtime true .tryLock))
  | .restoreTryLock t => s.restore t fun l r tr pc => match pc with
    | .tryLock =>
      if s.acct.restoreMu = none then
        some ({ s with acct := { s.acct with restoreMu := some t } }.move t
          (.restore l r tr .checks))
      else some (s.move t (.restore l r tr .returned))
    | _ => none
  | .restoreChecks t ready => s.restore t fun l r tr pc => match pc with
    | .checks => some (s.move t (.restore l r tr (if ready then .gate else .returning none)))
    | _ => none
  | .restoreGate t => s.restore t fun l r tr pc => match pc with
    | .gate =>
      match s.acct.restoreBegin l r with
      | none => some (s.move t (.restore l r tr (.returning none)))
      | some acct =>
        some (({ s with acct := acct }.move t (.restore l r tr (.reqCtx s.hist.begun))).noteBegun
          none)
    | _ => none
  | .restoreReqCtx t present => s.restore t fun l r tr pc => match pc with
    | .reqCtx a => some (s.move t (.restore l r tr (if present then .harvest a else .failing a)))
    | _ => none
  | .restoreHarvest t reply label => s.restore t fun l r tr pc => match pc with
    | .harvest a =>
      let h := harvestAll reply {}
      if h.1 then
        let tk := match label with
          | some id => if id ≠ "" then { h.2 with appleId := id } else h.2
          | none => h.2
        some ((s.move t (.restore l r tr (.publish a tk))).noteHarvest a tk)
      else some (s.move t (.restore l r tr (.failing a)))
    | _ => none
  | .restoreFail t => s.restore t fun l r tr pc => match pc with
    | .failing a =>
      some ({ s with acct := s.acct.restoreGiveUp }.move t (.restore l r tr (.returning (some a))))
    | _ => none
  | .restorePublish t now => s.restore t fun l r tr pc => match pc with
    | .publish a tk =>
      some ({ s with acct := s.acct.finishAuthenticated tk now }.move t
        (.restore l r tr (.returning (some a))))
    | _ => none
  | .restoreReturn t => s.restore t fun l r tr pc => match pc with
    | .returning _ =>
      some ({ s with acct := { s.acct with restoreMu := none } }.move t (.restore l r tr .returned))
    | _ => none
  | .restoreIdle t => s.restore t fun l r tr pc => match pc with
    | .returned =>
      some ({ s with acct :=
          { s.acct with restoreRunning := if tr then false else s.acct.restoreRunning } }.move t
        (.restore l r tr .done))
    | _ => none
  | .workerCheck t loaderOk initialized => s.worker t fun a pc => match pc with
    | .check =>
      if s.acct.loader = none ∨ loaderOk = false ∨ s.acct.runtime = none ∨ initialized = false then
        some (s.move t (.worker a (.failing "runtime not initialized" (-1))))
      else some (s.move t (.worker a .reqCtx))
    | _ => none
  | .workerReqCtx t present => s.worker t fun a pc => match pc with
    | .reqCtx =>
      some (s.deref (s.acct.loader.isSome && s.acct.runtime.isSome)
        (s.move t (.worker a
          (if present then .baseDir else .failing "request context unavailable" (-2)))))
    | _ => none
  | .workerBaseDir t => s.worker t fun a pc => match pc with
    | .baseDir => some (s.deref s.acct.runtime.isSome (s.move t (.worker a .makeFlow)))
    | _ => none
  | .workerMakeFlow t present => s.worker t fun a pc => match pc with
    | .makeFlow =>
      some (s.move t (.worker a (if present then .run none
        else .failing "make_shared<AuthenticateFlow> returned null" (-3))))
    | _ => none
  | .workerCredentials t => s.worker t fun a pc => match pc with
    | .run _ => some (s.move t (.worker a (.run (some s.acct.fetchCredentials))))
    | _ => none
  | .workerPrompt t => s.worker t fun a pc => match pc with
    | .run _ =>
      let s' := { s with acct := s.acct.awaitCode }.notePrompt
      -- a wait whose predicate already holds returns without releasing the mutex
      if s.acct.codeReady then some (s'.leave t a s.hist.codes.clock)
      else some (s'.move t (.worker a (.parked s.hist.codes.clock)))
    | _ => none
  | .workerWake t => s.worker t fun a pc => match pc with
    | .parked k => if s.acct.codeReady then some (s.leave t a k) else none
    | _ => none
  | .workerTimeout t => s.worker t fun a pc => match pc with
    | .parked k => some (s.leave t a k)
    | _ => none
  | .workerFlowReturns t response => s.worker t fun a pc => match pc with
    | .run _ =>
      match response with
      | none =>
        some (s.move t (.worker a (.failing "AuthenticateFlow::response() returned null" (-4))))
      | some r =>
        if r.responseType ≠ 6 then
          some (s.move t (.worker a (.failing r.failure.1 r.failure.2)))
        else some (s.move t (.worker a .readId))
    | _ => none
  | .workerReadId t => s.worker t fun a pc => match pc with
    | .readId => some (s.move t (.worker a (.harvestArgs s.acct.appleId)))
    | _ => none
  | .workerHarvestArgs t => s.worker t fun a pc => match pc with
    | .harvestArgs id => some (s.deref s.acct.runtime.isSome (s.move t (.worker a (.harvest id))))
    | _ => none
  | .workerHarvest t reply => s.worker t fun a pc => match pc with
    | .harvest id =>
      let h := harvestAll reply { appleId := id }
      if h.1 then some ((s.move t (.worker a (.publish h.2))).noteHarvest a h.2)
      else some (s.move t
        (.worker a (.failing "token harvest failed after flow.run() succeeded" (-5))))
    | _ => none
  | .workerFail t => s.worker t fun a pc => match pc with
    | .failing msg code =>
      some ({ s with acct := s.acct.finishFailed msg code }.move t (.worker a .done))
    | _ => none
  | .workerPublish t now => s.worker t fun a pc => match pc with
    | .publish tk =>
      some ({ s with acct := s.acct.finishAuthenticated tk now }.move t (.worker a .done))
    | _ => none

end Sys

/-- The account at daemon start and all its interleavings. -/
def accountMachine : Machine Sys Act where
  init := {}
  step := Sys.step

end WrapperPaas
