/-
  The login state of the daemon (`src/daemon/apple/auth.{hpp,cpp}`): the fields of `Account` and
  what each critical section of its member functions does to them.

  Every function here is the body of one `mu_`-guarded section (or of one unguarded access, where
  the source has one), so that `Account/Threads.lean` can interleave them.  Apple's library is
  outside the repository; its answers are arguments.
-/
import Mathlib.Data.List.Basic

namespace WrapperPaas

/-- Coarse-grained login state surfaced via `/me`. -/
inductive LoginState where
  | loggedOut
  | inProgress
  | awaiting2fa
  | authenticated
  | failed
  deriving DecidableEq, Repr

/-- Account-side data harvested after a successful flow. -/
structure Tokens where
  appleId : String := ""
  storefront : String := ""
  devToken : String := ""
  musicUserToken : String := ""
  dsid : String := ""
  loggedInAt : Nat := 0
  deriving DecidableEq, Repr

/-- A non-null `const Loader*` or `const Runtime*`; a null pointer is `none`. -/
abbrev Handle := Nat

/-- The name under which `restore_mu_` records its owner. -/
abbrev ThreadId := Nat

/-- The data members of `Account`.  `workerJoinable` is `worker_.joinable()`. -/
structure Account where
  state : LoginState := .loggedOut
  loader : Option Handle := none
  runtime : Option Handle := none
  appleId : String := ""
  password : String := ""
  twofaCode : String := ""
  twofaSubmitted : Bool := false
  aborted : Bool := false
  tokens : Tokens := {}
  lastError : String := ""
  lastErrorCode : Int := 0
  workerJoinable : Bool := false
  restoreMu : Option ThreadId := none
  restoreRunning : Bool := false
  deriving DecidableEq, Repr

/-- What `public_snapshot` returns; a field that does not belong to the state keeps its default. -/
structure AccountSnapshot where
  state : LoginState := .loggedOut
  appleId : String := ""
  storefront : String := ""
  dsid : String := ""
  musicUserToken : String := ""
  devToken : String := ""
  loggedInAt : Nat := 0
  lastError : String := ""
  lastErrorCode : Int := 0
  deriving DecidableEq, Repr

/-! ### Apple's answers -/

/-- What Apple's services return to the four requests of `harvest_all`; an empty string is a
request that failed.  `dsid` is the claim found in the dev token, if any. -/
structure HarvestReply where
  storefront : String
  devToken : String
  guid : String
  musicUserToken : String
  dsid : Option String
  deriving DecidableEq, Repr

/-- `tokens::harvest_all`: fills the fields in order and stops at the first empty answer. -/
def harvestAll (r : HarvestReply) (out : Tokens) : Bool × Tokens :=
  let out := { out with storefront := r.storefront }
  if r.storefront = "" then (false, out)
  else
    let out := { out with devToken := r.devToken }
    if r.devToken = "" then (false, out)
    else if r.guid = "" then (false, out)
    else
      let out := { out with musicUserToken := r.musicUserToken }
      if r.musicUserToken = "" then (false, out)
      else
        match r.dsid with
        | some d => (true, { out with dsid := d })
        | none => (true, out)

/-- The response object of a finished `AuthenticateFlow`. -/
structure FlowResponse where
  responseType : Int
  /-- `AR_error`: error code and `what()`, each absent when Apple returns a null pointer. -/
  error : Option (Int × Option String)
  customerMessage : Option String
  deriving DecidableEq, Repr

/-- The message and code that `worker_main` reports for a response of another type than 6. -/
def FlowResponse.failure (r : FlowResponse) : String × Int :=
  let code := match r.error with
    | some (c, _) => c
    | none => 0
  let msg := match r.error with
    | some (_, some what) => what
    | _ => ""
  let msg := if msg = "" then r.customerMessage.getD "" else msg
  let msg := if msg = "" then "Apple returned response type " ++ toString r.responseType else msg
  (msg, code)

/-- The credentials handed to Apple's callback: user name, password and the returned flag. -/
structure Credentials where
  username : String
  password : String
  ok : Bool
  deriving DecidableEq, Repr

namespace Account

/-! ### The critical sections -/

/-- A login is in progress: `start_login` refuses. -/
def busy (a : Account) : Prop := a.state = .inProgress ∨ a.state = .awaiting2fa

instance (a : Account) : Decidable a.busy := inferInstanceAs (Decidable (_ ∨ _))

/-- `start_login`; `none` is its `return false`. -/
def startLogin (a : Account) (loader runtime : Handle) (appleId password : String) :
    Option Account :=
  if a.busy then none
  else some { a with
    loader := some loader, runtime := some runtime, appleId := appleId, password := password,
    twofaCode := "", twofaSubmitted := false, aborted := false, tokens := {},
    lastError := "", lastErrorCode := 0, state := .inProgress,
    workerJoinable := true }

/-- `submit_2fa`; `none` is its `return false`. -/
def submit2fa (a : Account) (code : String) : Option Account :=
  if a.state ≠ .awaiting2fa then none
  else some { a with twofaCode := code, twofaSubmitted := true, state := .inProgress }

/-- The first critical section of `logout`: raise the abort flag. -/
def logoutRaise (a : Account) : Account := { a with aborted := true }

/-- `worker_.detach()` between the two sections of `logout`. -/
def logoutDetach (a : Account) : Account := { a with workerJoinable := false }

/-- The second critical section of `logout`: reset, and lower the abort flag. -/
def logoutReset (a : Account) : Account :=
  { a with state := .loggedOut, appleId := "", password := "", twofaCode := "",
           twofaSubmitted := false, aborted := false, tokens := {}, lastError := "",
           lastErrorCode := 0 }

/-- The section of `try_restore_cached_session` behind its LoggedOut check; `none` is its
`return false`. -/
def restoreBegin (a : Account) (loader runtime : Handle) : Option Account :=
  if a.state ≠ .loggedOut then none
  else some { a with
    workerJoinable := false, loader := some loader, runtime := some runtime,
    password := "", twofaCode := "", twofaSubmitted := false, aborted := false, tokens := {},
    lastError := "", lastErrorCode := 0, state := .inProgress }

/-- The two failure exits of `try_restore_cached_session`. -/
def restoreGiveUp (a : Account) : Account :=
  { a with loader := none, runtime := none, state := .loggedOut }

/-- `fetch_credentials_blocking(needs_2fa = false)`. -/
def fetchCredentials (a : Account) : Credentials := ⟨a.appleId, a.password, a.appleId ≠ ""⟩

/-- `fetch_credentials_blocking(needs_2fa = true)` up to its wait. -/
def awaitCode (a : Account) : Account := { a with state := .awaiting2fa }

/-- The predicate of the 2FA wait. -/
def codeReady (a : Account) : Bool := a.twofaSubmitted || a.aborted

/-- `fetch_credentials_blocking(needs_2fa = true)` after its wait: the stores. -/
def leaveWait (a : Account) : Account := { a with state := .inProgress }

/-- `fetch_credentials_blocking(needs_2fa = true)` after its wait: what it returns. -/
def codeCredentials (a : Account) : Credentials :=
  if a.aborted || !a.twofaSubmitted then ⟨a.appleId, a.password, false⟩
  else ⟨a.appleId, a.password ++ a.twofaCode, true⟩

/-- `finish_authenticated`. -/
def finishAuthenticated (a : Account) (t : Tokens) (now : Nat) : Account :=
  { a with tokens := { t with loggedInAt := now }, appleId := t.appleId, password := "",
           twofaCode := "", twofaSubmitted := false, state := .authenticated }

/-- `finish_failed`. -/
def finishFailed (a : Account) (message : String) (code : Int) : Account :=
  { a with lastError := message, lastErrorCode := code, password := "", twofaCode := "",
           twofaSubmitted := false, state := .failed }

/-- `public_snapshot`. -/
def publicSnapshot (a : Account) : AccountSnapshot :=
  let snap : AccountSnapshot := { state := a.state, appleId := a.appleId }
  let snap :=
    if snap.state = .authenticated then
      { snap with
        storefront := a.tokens.storefront, dsid := a.tokens.dsid,
        musicUserToken := a.tokens.musicUserToken, devToken := a.tokens.devToken,
        loggedInAt := a.tokens.loggedInAt }
    else snap
  if snap.state = .failed then
    { snap with lastError := a.lastError, lastErrorCode := a.lastErrorCode }
  else snap

end Account

end WrapperPaas
