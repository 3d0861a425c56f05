/-
  The handlers of the worker and its loop (`src/daemon/ipc.cpp`).

  Other threads work on the account, the runtime and the loader while a request is served, so a
  handler is given what the calls that it makes return (`Answers`), whatever that is; what it calls
  of the account is part of its result.

  `nlohmann::json` is outside the repository; its reader is a parameter (`Nlohmann`), and its other
  exceptions have the texts of its documentation.  The text of a parse error repeats what was read
  last, so it need not be UTF-8.
-/
import WrapperPaas.Daemon.Equiv.Ipc
import WrapperPaas.Daemon.Report
import WrapperPaas.Lib.JsonCodec
import WrapperPaas.Playback.Fetch

namespace WrapperPaas

namespace Daemon

open Json Report

open Playback (PlaybackResult)

def opHealth : UInt16 := 1
def opMe : UInt16 := 2
def opLogin : UInt16 := 3
def opLogin2fa : UInt16 := 4
def opLogout : UInt16 := 5
def opPlayback : UInt16 := 6
def opShutdown : UInt16 := 8

/-- `kLoginTimeout` and `kLogin2faTimeout`, in seconds. -/
def kLoginTimeout : Nat := 30
def kLogin2faTimeout : Nat := 60

/-! ### What the handlers call -/

/-- A call of a member function of `Account`. -/
inductive AccountCall where
  | state
  | triggerRestore
  | publicSnapshot
  | startLogin (appleId password : String)
  | submit2fa (code : String)
  | waitForSettledState (timeout : Nat)
  | logout
  deriving DecidableEq, Repr

/-- What the calls return that are made for one request. -/
structure Answers where
  /-- what `runtime_to_json` reads -/
  info : RuntimeInfo
  /-- `rt.initialized()` at the beginning of a handler -/
  initialized : Bool
  playbackReady : Bool
  /-- the environment variable WRAPPER_RESTORE_SESSION -/
  restoreSession : Option String
  state : LoginState
  /-- the state behind `logout` -/
  stateAfter : LoginState
  startLogin : Bool
  submit2fa : Bool
  settled : LoginState
  snapshot : AccountSnapshot
  /-- an error is the text of an exception -/
  fetchPlaybackJson : Bytes → Except Bytes PlaybackResult
  decryptSamples : Bytes → Bytes → List Bytes → DecryptResult

/-- What `json_response` is given beside the request. -/
structure Response where
  status : Int
  body : Value
  retryable : Bool := false
  restartWorker : Bool := false

/-- The calls of a handler, and its response or the text of its exception. -/
abbrev Handled := List AccountCall × Except Bytes Response

def jsonReply (status : Int) (body : Value) : Response := { status := status, body := body }

def errorBody (error detail : String) : Value :=
  .object [("error", .str error), ("detail", .str detail)]

/-- The response with an error object. -/
def errorReply (status : Int) (error detail : String) : Response :=
  jsonReply status (errorBody error detail)

def Response.frame (req : Frame) (r : Response) : Frame :=
  Report.jsonResponse compact req r.status r.body r.retryable r.restartWorker

/-! ### Reading requests -/

def restoreSessionEnabled (v : Option String) : Bool :=
  match v with
  | none => true
  | some v => v = "" || (v ≠ "0" && v ≠ "false" && v ≠ "no")

/-- `nlohmann::json::type_name`. -/
def typeName : Value → String
  | .null => "null"
  | .bool _ => "boolean"
  | .num _ | .real _ => "number"
  | .str _ => "string"
  | .arr _ => "array"
  | .obj _ => "object"

/-- `body.contains(key) && body[key].is_string()` with the string. -/
def stringMember (body : Value) (key : String) : Option String :=
  match body.get key with
  | some (.str s) => some s
  | _ => none

/-- `body.value(key, "")`. -/
def valueOrEmpty (body : Value) (key : String) : Except Bytes String :=
  match body with
  | .obj members =>
    match members.lookup key with
    | none => .ok ""
    | some (.str s) => .ok s
    | some v =>
      .error (utf8 ("[json.exception.type_error.302] type must be string, but is " ++ typeName v))
  | v => .error (utf8 ("[json.exception.type_error.306] cannot use value() with " ++ typeName v))

section Handlers

variable (nl : Nlohmann) (iso8601Utc : Nat → String) (a : Answers)

def parsePayloadJson (req : Frame) : Except Bytes Value :=
  if req.payload = [] then .ok (.obj []) else nl.parse req.payload

/-- What `authenticated_or_restored` calls. -/
def restoreCalls : List AccountCall :=
  if a.state = .authenticated then [.state]
  else if restoreSessionEnabled a.restoreSession then [.state, .triggerRestore]
  else [.state]

/-- `http_status_for`. -/
def httpStatusFor : LoginState → Int
  | .authenticated => 200
  | .awaiting2fa => 202
  | .failed => 401
  | .inProgress => 504
  | .loggedOut => 400

/-! ### Handlers -/

def notInitialized : Response :=
  errorReply 503 "runtime_not_initialized" "Apple lib init has not completed; check /health"

def notAuthenticated : Response :=
  errorReply 401 "not_authenticated" "POST /login or restore a session first"

def handleHealth : Handled :=
  ([], .ok (jsonReply 200 (.object [("status", .str "ok"), ("version", .str a.info.version),
    ("runtime", runtimeToJson a.info)])))

def handleMe : Handled :=
  ((if a.initialized && restoreSessionEnabled a.restoreSession then restoreCalls a else []) ++
      [.publicSnapshot],
    .ok (jsonReply 200 (meBody iso8601Utc a.snapshot a.info)))

/-- The Apple ID of a login request, or the response that refuses it. -/
def loginName (body : Value) : Except Response String :=
  match stringMember body "apple_id", stringMember body "username" with
  | some appleId, some username =>
    if appleId ≠ username then
      .error (errorReply 400 "conflicting_identifiers"
        "'username' and 'apple_id' must match if both are sent")
    else .ok appleId
  | some appleId, none => .ok appleId
  | none, some username => .ok username
  | none, none =>
    .error (errorReply 400 "missing_field" "expected 'username' or 'apple_id' string")

/-- What follows on `start_login` or `submit_2fa` when it has returned true. -/
def settledReply : Response :=
  jsonReply (httpStatusFor a.settled) (snapshotToJson iso8601Utc a.snapshot)

def handleLogin (req : Frame) : Handled :=
  if !a.initialized then ([], .ok notInitialized)
  else
    match parsePayloadJson nl req with
    | .error e => ([], .error e)
    | .ok body =>
      match stringMember body "password" with
      | none => ([], .ok (errorReply 400 "missing_field"
          "expected JSON object with string 'password' and 'username' or 'apple_id'"))
      | some password =>
        match loginName body with
        | .error r => ([], .ok r)
        | .ok name =>
          if name = "" ∨ password = "" then
            ([], .ok (errorReply 400 "empty_field"
              "username/apple_id and password must be non-empty"))
          else if !a.startLogin then
            ([.startLogin name password], .ok (errorReply 409 "already_in_progress"
              "a login flow is already running; DELETE /login to abort"))
          else
            ([.startLogin name password, .waitForSettledState kLoginTimeout, .publicSnapshot],
              .ok (settledReply iso8601Utc a))

def handleLogin2fa (req : Frame) : Handled :=
  match parsePayloadJson nl req with
  | .error e => ([], .error e)
  | .ok body =>
    match stringMember body "code" with
    | none => ([], .ok (errorReply 400 "missing_field" "expected JSON object with string 'code'"))
    | some code =>
      if code = "" then ([], .ok (errorReply 400 "empty_code" "code must be non-empty"))
      else if !a.submit2fa then
        ([.submit2fa code], .ok (errorReply 409 "not_awaiting_2fa"
          "no login is currently waiting for a 2FA code; start one with POST /login"))
      else
        ([.submit2fa code, .waitForSettledState kLogin2faTimeout, .publicSnapshot],
          .ok (settledReply iso8601Utc a))

def handleLogout : Handled :=
  ([.state, .logout, .state], .ok (jsonReply 200 (.object [("state", .str a.stateAfter.name),
    ("was", .str a.state.name)])))

def handlePlayback (req : Frame) : Handled :=
  if !a.initialized then ([], .ok notInitialized)
  else if a.state ≠ .authenticated then (restoreCalls a, .ok notAuthenticated)
  else
    (restoreCalls a, do
      let body ← parsePayloadJson nl req
      let adamId ← valueOrEmpty body "adam_id"
      if adamId = "" then
        .ok (errorReply 400 "missing_field" "expected query string '?adam_id=<numeric store id>'")
      else
        let pr ← a.fetchPlaybackJson (utf8 adamId)
        if !pr.ok then .ok (errorReply 502 "playback_dispatch_failed" pr.error)
        else .ok (jsonReply 200 pr.body))

/-! ### Dispatch -/

/-- The cases of `dispatch` whose handlers answer in JSON. -/
def handle (req : Frame) : Handled :=
  if req.opcode = opHealth then handleHealth a
  else if req.opcode = opMe then handleMe iso8601Utc a
  else if req.opcode = opLogin then handleLogin nl iso8601Utc a req
  else if req.opcode = opLogin2fa then handleLogin2fa nl iso8601Utc a req
  else if req.opcode = opLogout then handleLogout a
  else if req.opcode = opPlayback then handlePlayback nl a req
  else
    ([], .ok (jsonReply 400 (.object [("error", .str "unknown_opcode"),
      ("detail", .num req.opcode.toNat)])))

/-- An exception is an internal error.  A text of it that is not UTF-8 cannot be dumped: this
exception leaves the handler of the first one, and nobody catches it. -/
def caught : Except Bytes Response → Outcome Response
  | .ok r => .ok r
  | .error what =>
    match ofUtf8 what with
    | some text => .ok (errorReply 500 "internal" text)
    | none => .error .terminated

/-- What `handle_decrypt_batch` and the loop see of the answers. -/
def Answers.env : Env where
  initialized := a.initialized
  playbackReady := a.playbackReady
  authenticated := a.state = .authenticated
  decryptSamples := a.decryptSamples
  dump e := compact (jsonEnvelope e.httpStatus (errorBody e.error e.detail) e.retryable
    e.restartWorker)
  other req := (caught (handle nl iso8601Utc a req).2).map fun r => r.frame req

/-- What a request calls of the account. -/
def accountCalls (req : Frame) : List AccountCall :=
  if req.opcode = opDecryptBatch then
    if a.initialized && a.playbackReady then restoreCalls a else []
  else (handle nl iso8601Utc a req).1

end Handlers

/-! ### The loop -/

/-- A frame takes at least its header off the input. -/
theorem length_lt_of_readFrame {b rest : Bytes} {f : Frame}
    (h : readFrame readFull b = .ok (f, rest)) : rest.length < b.length := by
  have hheader : (frameHeader f).length = 20 := rfl
  rw [(readFrame_eq_ok.mp h).1, writeFrame, List.length_append, List.length_append, hheader]
  omega

/-- `run_ipc_worker`: what it writes when its input is read to the end, or until the process is
terminated.  The requests are numbered, since each has answers of its own. -/
def runIpcWorker (env : Nat → Env) (request : Nat) (input : Bytes) : Outcome Bytes :=
  match _h : readFrame readFull input with
  -- the input is closed, or has something else than a frame
  | .error _ => .ok []
  | .ok (req, rest) =>
    if req.kind ≠ kKindRequest then runIpcWorker env request rest
    else if req.opcode = opShutdown then .ok []
    else
      match dispatch (env request) req with
      | .error .terminated => .ok []
      | .error e => .error e
      | .ok resp => do
        let more ← runIpcWorker env (request + 1) rest
        .ok (writeFrame resp ++ more)
termination_by input.length
decreasing_by
  all_goals exact length_lt_of_readFrame _h

end Daemon

end WrapperPaas
