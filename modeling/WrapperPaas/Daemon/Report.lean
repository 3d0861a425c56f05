/-
  The answer to `GET /me` (`src/daemon/ipc.cpp`): the account and the runtime as JSON.

  The strings are UTF-8, the only ones that `nlohmann::json::dump` writes; for any other string it
  throws, and the answer is an internal error.
-/
import WrapperPaas.Account.State
import WrapperPaas.Daemon.Ipc
import WrapperPaas.Lib.JsonValue

namespace WrapperPaas

/-- `to_string(LoginState)`. -/
def LoginState.name : LoginState → String
  | .loggedOut => "logged_out"
  | .inProgress => "in_progress"
  | .awaiting2fa => "awaiting_2fa"
  | .authenticated => "authenticated"
  | .failed => "failed"

namespace Daemon.Report

open Json

/-- What the handler reads of `Loader`, `Runtime` and `ServerInfo`. -/
structure RuntimeInfo where
  version : String := "1.0.0"
  appleInitEnabled : Bool := true
  loaderOk : Bool := false
  /-- `loader.last_error()` -/
  loaderError : String := ""
  initialized : Bool := false
  playbackReady : Bool := false
  baseDir : String := ""
  deviceInfo : String := ""
  deriving DecidableEq, Repr

/-- Members that are assigned on a condition. -/
def membersIf (c : Prop) [Decidable c] (ms : List (String × Value)) : List (String × Value) :=
  if c then ms else []

section Handler

variable (iso8601Utc : Nat → String)

def snapshotToJson (snap : AccountSnapshot) : Value :=
  .object ([("state", .str snap.state.name)] ++
    membersIf (snap.appleId ≠ "")
      [("apple_id", .str snap.appleId), ("username", .str snap.appleId)] ++
    membersIf (snap.state = .authenticated) (
      membersIf (snap.storefront ≠ "") [("storefront", .str snap.storefront)] ++
      membersIf (snap.dsid ≠ "") [("dsid", .str snap.dsid)] ++
      membersIf (snap.musicUserToken ≠ "") [("music_user_token", .str snap.musicUserToken)] ++
      membersIf (snap.devToken ≠ "") [("dev_token", .str snap.devToken)] ++
      [("logged_in_at", .str (iso8601Utc snap.loggedInAt))]) ++
    membersIf (snap.state = .failed) (
      membersIf (snap.lastError ≠ "") [("error", .str snap.lastError)] ++
      membersIf (snap.lastErrorCode ≠ 0) [("error_code", .num snap.lastErrorCode)]))

def runtimeToJson (rt : RuntimeInfo) : Value :=
  .object ([("apple_init_enabled", .bool rt.appleInitEnabled), ("loader_ok", .bool rt.loaderOk),
      ("initialized", .bool rt.initialized), ("playback_ready", .bool rt.playbackReady)] ++
    membersIf (rt.loaderOk = false ∧ rt.loaderError ≠ "") [("loader_error", .str rt.loaderError)] ++
    membersIf (rt.initialized = true) [("base_dir", .str rt.baseDir),
      ("device_info", .str rt.deviceInfo)])

/-- The envelope of `json_response`. -/
def jsonEnvelope (status : Int) (body : Value) (retryable restartWorker : Bool) : Value :=
  .object [("ok", .bool (200 ≤ status ∧ status < 300)), ("http_status", .num status),
    ("content_type", .str "application/json"), ("body", body), ("retryable", .bool retryable),
    ("restart_worker", .bool restartWorker)]

/-- `json_response`; `dump` is the serialiser. -/
def jsonResponse (dump : Value → Bytes) (req : Frame) (status : Int) (body : Value)
    (retryable restartWorker : Bool) : Frame where
  kind := kKindResponse
  requestId := req.requestId
  opcode := req.opcode
  flags := 0
  payload := dump (jsonEnvelope status body retryable restartWorker)

/-- The body of the answer of `handle_me`. -/
def meBody (snap : AccountSnapshot) (rt : RuntimeInfo) : Value :=
  .object [("version", .str rt.version), ("runtime", runtimeToJson rt),
    ("auth", snapshotToJson iso8601Utc snap)]

/-- `handle_me` with the snapshot that `public_snapshot` returns; a restore that it triggers before
runs on a thread of its own. -/
def handleMe (dump : Value → Bytes) (req : Frame) (snap : AccountSnapshot) (rt : RuntimeInfo) :
    Frame :=
  jsonResponse dump req 200 (meBody iso8601Utc snap rt) false false

end Handler

end Daemon.Report

end WrapperPaas
