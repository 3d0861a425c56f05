/-
  The decrypt path of the supervisor from the public routes to the pipe and back:
  `Worker::decrypt_batch` (`src/rust/worker.rs`), one round of `handle_decrypt_client` and the
  `POST /decrypt` route (`src/rust/main.rs`).

  `exchange` is a request to a worker process that stays up and answers in time; what happens when
  it does not is in the model of `Worker` itself.
-/
import Mathlib.Data.List.Basic
import WrapperPaas.Daemon.Ipc
import WrapperPaas.Protocol.Batch

namespace WrapperPaas

namespace Supervisor

/-! ### Worker calls -/

inductive WorkerError where
  | io (e : String)
  | protocol (e : String)
  | unavailable (e : String)
  deriving DecidableEq, Repr

/-- The text that `Display` writes. -/
def WorkerError.toText : WorkerError → String
  | .io e | .protocol e | .unavailable e => e

/-- A worker call failed, or its thread panicked. -/
inductive CallFailure where
  | worker (e : WorkerError)
  | panic
  deriving DecidableEq, Repr

abbrev Call (α : Type) := Except CallFailure α

/-- `map_err(|e| f(e.to_string()))`. -/
def mapErr {α : Type} (f : String → WorkerError) : Outcome α → Call α
  | .ok a => .ok a
  | .error (.err _ message) => .error (.worker (f message))
  | .error .panic => .error .panic

/-- What `decrypt_batch` uses of a `WorkerResponse`; `text` is its body as a string. -/
structure WorkerResponse where
  text : String
  restartWorker : Bool
  deriving DecidableEq, Repr

/-- The result of a call, and whether it called `restart_after_delay`. -/
structure WorkerCall (α : Type) where
  result : Call α
  restart : Bool := false

section Worker

variable (request : UInt16 → Bytes → Call Frame)
  (parseWorkerResponse : Frame → Call WorkerResponse)

/-- `Worker::decrypt_batch`. -/
def decryptBatch (adam uri : String) (samples : List Bytes) : WorkerCall (List Bytes) :=
  match mapErr .protocol (decryptBatchPayload adam uri samples) with
  | .error e => { result := .error e }
  | .ok payload =>
    match request opDecryptBatch payload with
    | .error e => { result := .error e }
    | .ok frame =>
      if frame.flags &&& 1 = 1 then
        { result := mapErr .protocol (parseDecryptSamplesPayload frame.payload) }
      else
        match parseWorkerResponse frame with
        | .error e => { result := .error e }
        | .ok r =>
          { result := .error (.worker (.unavailable r.text)), restart := r.restartWorker }

end Worker

/-- The exchange of `Worker::request` with a worker that reads the frame and answers it. -/
def exchange (env : Daemon.Env) (id : UInt32) (opcode : UInt16) (payload : Bytes) : Call Frame := do
  let bytes ← mapErr .io (writeFrame (requestFrame id opcode payload))
  match Daemon.serveRequest env bytes with
  | .error _ => .error (.worker (.io "worker stdout closed"))
  | .ok (out, _) =>
    let (resp, _) ← mapErr .io (readFrame readExact out)
    if resp.kind ≠ kindResponse ∨ resp.requestId ≠ id ∨ resp.opcode ≠ opcode then
      .error (.worker (.protocol "mismatched ipc response"))
    else .ok resp

/-! ### Routes -/

section Routes

variable (decrypt : String → String → List Bytes → WorkerCall (List Bytes))

/-- One round of `handle_decrypt_client`: it goes on with the rest of the stream, or the session
ends, both after sending some bytes. -/
inductive ClientRound where
  | next (sent rest : Bytes)
  | ended (sent : Bytes) (result : Outcome Unit)

/-- Send a frame before `k` goes on; a frame that cannot be written ends the session. -/
def sendFrame (f : DecryptFrame) (k : Bytes → ClientRound) : ClientRound :=
  match writeDecryptFrame f with
  | .ok bytes => k bytes
  | .error e => .ended [] (.error e)

/-- The frame of `write_decrypt_error`. -/
def decryptError (requestId : UInt32) (message : String) : DecryptFrame where
  kind := decryptKindError
  requestId := requestId
  payload := utf8 message

/-- The body of the loop of `handle_decrypt_client`, on the bytes the client sends. -/
def decryptClientRound (input : Bytes) : ClientRound :=
  match readDecryptFrame readExact input with
  | .error (.err .unexpectedEof _) => .ended [] (.ok ())
  | .error e => .ended [] (.error e)
  | .ok (frame, rest) =>
    if frame.kind = decryptKindClose then .ended [] (.ok ())
    else if frame.kind ≠ decryptKindBatch then
      sendFrame (decryptError frame.requestId "unsupported decrypt frame kind") fun bytes =>
        .ended bytes (.ok ())
    else
      match parseDecryptBatchPayload frame.payload with
      | .error (.err _ message) =>
        sendFrame (decryptError frame.requestId message) fun bytes => .ended bytes (.ok ())
      | .error .panic => .ended [] (.error .panic)
      | .ok (adam, uri, samples) =>
        match (decrypt adam uri samples).result with
        | .error (.worker e) =>
          -- a failure to send this frame is ignored
          .ended ((writeDecryptFrame (decryptError frame.requestId e.toText)).toOption.getD [])
            (.error (.err .other e.toText))
        | .error .panic => .ended [] (.error .panic)
        | .ok plaintexts =>
          match buildDecryptSamplesPayload plaintexts with
          | .error e => .ended [] (.error e)
          | .ok payload =>
            sendFrame ⟨decryptKindOk, frame.requestId, payload⟩ fun bytes => .next bytes rest

/-- `MAX_HTTP_BODY`, 64 MiB. -/
def maxHttpBody : Nat := 64 * 1024 * 1024

/-- The body of an HTTP response: octets, an error object, or the object of a body over the
limit. -/
inductive HttpBody where
  | octets (b : Bytes)
  | error (error detail : String)
  | tooLarge (error : String) (limit : Nat)
  deriving DecidableEq, Repr

structure HttpResponse where
  status : Nat
  body : HttpBody
  deriving DecidableEq, Repr

/-- `POST /decrypt` with the size check in front of it. -/
def postDecrypt (body : Bytes) : Outcome HttpResponse :=
  if body.length > maxHttpBody then .ok ⟨413, .tooLarge "payload_too_large" maxHttpBody⟩
  else
    match parseHttpDecryptBatch body with
    | .error (.err _ message) => .ok ⟨400, .error "invalid_frame" message⟩
    | .error .panic => .error .panic
    | .ok (adam, uri, samples) =>
      match (decrypt adam uri samples).result with
      | .error (.worker e) => .ok ⟨502, .error "decrypt_failed" e.toText⟩
      | .error .panic => .error .panic
      | .ok plaintexts => do
        let payload ← buildHttpDecryptSamplesPayload plaintexts
        .ok ⟨200, .octets payload⟩

end Routes

end Supervisor

end WrapperPaas
