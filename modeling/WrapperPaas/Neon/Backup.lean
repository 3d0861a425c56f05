/-
  Backing up the session (`backup_state` of `src/rust/neon_state.rs`) and the reading of the
  worker's answer that it rests on (`parse_worker_response` of `src/rust/worker.rs`).

  The database, the tarball and the JSON library are outside the repository.
-/
import Mathlib.Data.List.Infix
import WrapperPaas.Daemon.Report

namespace WrapperPaas

namespace Neon

open Json

/-! ### The worker's answer -/

structure WorkerResponse where
  httpStatus : UInt16
  contentType : String
  body : Bytes
  restartWorker : Bool
  deriving DecidableEq, Repr

/-- `parse_worker_response`; `fromSlice` and `toVec` are `serde_json::from_slice` and
`serde_json::to_vec`. -/
def parseWorkerResponse (fromSlice : Bytes → Option Value) (toVec : Value → Option Bytes)
    (frame : Frame) : Option WorkerResponse :=
  (fromSlice frame.payload).map fun v => {
    httpStatus :=
      match v.get "http_status" with
      | some (.num i) => if 0 ≤ i then .ofNat i.toNat else 502
      | _ => 502
    contentType :=
      match v.get "content_type" with
      | some (.str s) => s
      | _ => "application/json"
    restartWorker :=
      match v.get "restart_worker" with
      | some (.bool b) => b
      | _ => false
    body :=
      match v.get "body" with
      | some (.str s) => utf8 s
      | some other => (toVec other).getD (utf8 "\x7b\"error\":\"invalid_worker_body\"\x7d")
      | none => [] }

/-! ### The backup -/

/-- The environment variables and what the calls of `backup_state` return. -/
structure Env where
  var : String → Option String
  /-- `build_tarball` -/
  tarball : Option Bytes
  hash : Bytes → UInt64
  lastHash : UInt64
  /-- whether the connection is made and both statements are executed -/
  database : Bool

/-- What `backup_state` has done when it returns. -/
structure Backup where
  /-- it went on to `build_tarball` -/
  built : Bool := false
  /-- the row that it wrote -/
  row : Option (String × Bytes) := none
  deriving DecidableEq, Repr

def neonUrl (env : Env) : Option String := (env.var "NEON_DATABASE_URL").filter (· ≠ "")

def stateKey (env : Env) : String := ((env.var "WRAPPER_STATE_KEY").filter (· ≠ "")).getD "default"

/-- `body.contains("authenticated")`.  The decoding before it is lossy, but it neither loses nor
makes ASCII characters. -/
def mentionsAuthenticated (body : Bytes) : Bool := decide (utf8 "authenticated" <:+: body)

/-- `backup_state`; `resp` is the result of the request for `OP_ME`. -/
def backupState (env : Env) (resp : Option WorkerResponse) : Backup :=
  match neonUrl env with
  | none => {}
  | some _ =>
    match resp with
    | none => {}
    | some resp =>
      if mentionsAuthenticated resp.body then
        match env.tarball with
        | none => { built := true }
        | some data =>
          if data = [] ∨ env.hash data = env.lastHash ∨ !env.database then { built := true }
          else { built := true, row := some (stateKey env, data) }
      else {}

end Neon

end WrapperPaas
