/-
  The routes of the supervisor, the responses that it writes (`src/rust/main.rs`) and its JSON
  requests to the worker (`src/rust/worker.rs`).

  The JSON library is outside the repository.  A route calls the worker once at most; the call is
  part of the result of `route`.
-/
import WrapperPaas.Http.Connection
import WrapperPaas.Lib.JsonCodec
import WrapperPaas.Neon.Backup

namespace WrapperPaas

namespace Supervisor

def opMe : UInt16 := 2
def opLogin : UInt16 := 3
def opLogin2fa : UInt16 := 4
def opLogout : UInt16 := 5
def opPlayback : UInt16 := 6

end Supervisor

namespace Http

open Json Supervisor

/-! ### Responses -/

/-- What `write_response` is given. -/
structure Response where
  status : UInt16
  contentType : String
  body : Bytes
  deriving DecidableEq, Repr

def reason (status : UInt16) : String :=
  if status = 200 then "OK"
  else if status = 202 then "Accepted"
  else if status = 400 then "Bad Request"
  else if status = 401 then "Unauthorized"
  else if status = 404 then "Not Found"
  else if status = 409 then "Conflict"
  else if status = 413 then "Payload Too Large"
  else if status = 431 then "Request Header Fields Too Large"
  else if status = 500 then "Internal Server Error"
  else if status = 502 then "Bad Gateway"
  else if status = 503 then "Service Unavailable"
  else if status = 504 then "Gateway Timeout"
  else "OK"

/-- What `write_response` writes. -/
def writeResponse (r : Response) : Bytes :=
  utf8 "HTTP/1.1 " ++ (decimal r.status.toNat ++ (utf8 " " ++ (utf8 (reason r.status) ++
    (utf8 "\r\ncontent-type: " ++ (utf8 r.contentType ++ (utf8 "\r\ncontent-length: " ++
      (decimal r.body.length ++ (utf8 "\r\nconnection: close\r\n\r\n" ++ r.body))))))))

/-- The response of `write_json`. -/
def jsonResponse (status : UInt16) (body : Value) : Response :=
  ⟨status, "application/json", compact body⟩

def errorObject (error detail : String) : Value :=
  .object [("error", .str error), ("detail", .str detail)]

/-- The response of `proxy_json`. -/
def proxyJson : Except WorkerError Neon.WorkerResponse → Response
  | .ok r => ⟨r.httpStatus, r.contentType, r.body⟩
  | .error e => jsonResponse 503 (errorObject "worker_unavailable" e.toText)

/-- A response of the decrypt route as it is written. -/
def responseOf (r : HttpResponse) : Response :=
  match r.body with
  | .octets b => ⟨.ofNat r.status, "application/octet-stream", b⟩
  | .error error detail => jsonResponse (.ofNat r.status) (errorObject error detail)
  | .tooLarge error limit => jsonResponse (.ofNat r.status)
      (.object [("error", .str error), ("limit", .num limit)])

/-! ### The worker -/

/-- The payload of `request_json`. -/
def requestPayload : Value → Bytes
  | .null => []
  | v => compact v

/-- What the routes use of `Worker`. -/
structure WorkerApi where
  /-- `Worker::request` for a JSON request -/
  request : UInt16 → Bytes → Call Frame
  decryptBatch : String → String → List Bytes → WorkerCall (List Bytes)
  snapshot : Value

section Routes

variable (serde : SerdeJson)

/-- `parse_worker_response` with its error. -/
def parseWorkerResponse (frame : Frame) : Call Neon.WorkerResponse := do
  let v ← (serde.parse frame.payload).mapError fun e => .worker (.protocol e)
  match Neon.parseWorkerResponse (fun _ => some v) (fun v => some (compact v)) frame with
  | some r => .ok r
  | none => .error .panic

/-- `Worker::request_json`. -/
def requestJson (w : WorkerApi) (opcode : UInt16) (payload : Value) : Call Neon.WorkerResponse := do
  let frame ← w.request opcode (requestPayload payload)
  parseWorkerResponse serde frame

/-! ### Routes -/

/-- A response, or a call of the worker and what is made of its result. -/
inductive Routed where
  | respond (r : Response)
  | ask (opcode : UInt16) (payload : Value) (k : Except WorkerError Neon.WorkerResponse → Response)
  | batch (body : Bytes)

/-- The member `worker_ipc` of `GET /health`. -/
def workerIpc : Except WorkerError Neon.WorkerResponse → Value
  | .ok r => .object [("reachable", .bool true), ("status", .num r.httpStatus.toNat)]
  | .error e =>
    .object [("reachable", .bool false), ("status", .num 0), ("error", .str e.toText)]

def healthBody (snapshot ipc : Value) : Value :=
  .object [("status", .str "ok"), ("version", .str "1.0.0"), ("mode", .str "rust-supervisor"),
    ("worker", snapshot), ("worker_ipc", ipc)]

/-- The value of `deep` asks for the worker. -/
def isDeep (query : Bytes) : Bool :=
  match parseQuery query "deep" with
  | none => false
  | some v => v = "1" || v = "true" || v = "yes"

/-- The parameter of `GET /playback`. -/
def adamIdParam (query : Bytes) : String :=
  (((parseQuery query "adam_id").or (parseQuery query "adamId"))).getD ""

/-- The routes whose body is JSON for the worker. -/
def postJson (opcode : UInt16) (body : Bytes) : Routed :=
  match serde.parse body with
  | .error e => .respond (jsonResponse 400 (errorObject "invalid_json" e))
  | .ok v => .ask opcode v proxyJson

/-- The dispatch on method and path. -/
def route (snapshot : Value) (d : Dispatch) : Routed :=
  if d.method = "GET" ∧ d.path = utf8 "/health" then
    if isDeep d.query then
      .ask opHealth .null fun result => jsonResponse 200 (healthBody snapshot (workerIpc result))
    else .respond (jsonResponse 200 (healthBody snapshot .null))
  else if d.method = "GET" ∧ d.path = utf8 "/me" then .ask opMe .null proxyJson
  else if d.method = "POST" ∧ d.path = utf8 "/login" then postJson serde opLogin d.body
  else if d.method = "POST" ∧ d.path = utf8 "/login/2fa" then postJson serde opLogin2fa d.body
  else if d.method = "DELETE" ∧ d.path = utf8 "/login" then .ask opLogout .null proxyJson
  else if d.method = "GET" ∧ d.path = utf8 "/playback" then
    .ask opPlayback (.object [("adam_id", .str (adamIdParam d.query))]) proxyJson
  else if d.method = "POST" ∧ d.path = utf8 "/decrypt" then .batch d.body
  else .respond (jsonResponse 404 (.object [("error", .str "not_found")]))

/-- The call of the worker is made. -/
def Routed.run (w : WorkerApi) : Routed → Outcome Response
  | .respond r => .ok r
  | .ask opcode payload k =>
    match requestJson serde w opcode payload with
    | .ok r => .ok (k (.ok r))
    | .error (.worker e) => .ok (k (.error e))
    | .error .panic => .error .panic
  | .batch body => (postDecrypt w.decryptBatch body).map responseOf

/-- What is written to a client in answer to what was read, if anything is. -/
def respondTo (w : WorkerApi) : Handled → Outcome (Option Response)
  | .closed => .ok none
  | .refused status body => .ok (some (jsonResponse (.ofNat status) body))
  | .dispatched d _ => ((route serde w.snapshot d).run serde w).map some

/-- `handle_http_connection` up to what it writes. -/
def serveConnection (httparse : Bytes → Except String (Option Request)) (apiKey : Option String)
    (w : WorkerApi) (r : Reader) : Outcome Bytes := do
  let handled ← handleHttpConnection httparse apiKey r
  let response ← respondTo serde w handled
  .ok ((response.map writeResponse).getD [])

/-- `Worker` with a worker process that stays up and answers in time. -/
def pipeApi (env : Daemon.Env) (id : UInt32) (snapshot : Value) : WorkerApi where
  request := exchange env id
  decryptBatch := decryptBatch (exchange env id) fun frame =>
    (parseWorkerResponse serde frame).map fun r => ⟨fromUtf8Lossy r.body, r.restartWorker⟩
  snapshot := snapshot

end Routes

end Http

end WrapperPaas
