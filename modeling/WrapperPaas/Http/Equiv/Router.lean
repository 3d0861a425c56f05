/-
  What a client of the HTTP interface is sent.

  `http_responses_readable` is about every connection: whatever the client sends, however it is cut,
  and whatever the worker finds, a client is sent nothing or exactly one response that it can read,
  with a status of the supervisor's table and a body of the announced length and type.

  `json_route_faithful` is about the routes for which the worker is asked: the value of the request
  arrives at the handler, and the status and the body of the handler arrive at the client.
-/
import WrapperPaas.Daemon.Equiv.Handlers
import WrapperPaas.Http.Router
import WrapperPaas.Lib.HttpMessage
import WrapperPaas.Protocol.Equiv.Fidelity

namespace WrapperPaas

namespace Http

open Json Supervisor HttpMessage

/-! ### Responses -/

/-- A response as a message. -/
def message (r : Response) : Message where
  status := r.status.toNat
  reason := utf8 (reason r.status)
  fields := [⟨utf8 "content-type", utf8 r.contentType⟩,
    ⟨utf8 "content-length", decimal r.body.length⟩, ⟨utf8 "connection", utf8 "close"⟩]
  body := r.body

theorem writeResponse_eq (r : Response) : writeResponse r = (message r).bytes := by
  have hsplit : utf8 "\r\ncontent-type: " = crlf ++ (utf8 "content-type" ++ [colon, blank]) ∧
      utf8 "\r\ncontent-length: " = crlf ++ (utf8 "content-length" ++ [colon, blank]) ∧
      utf8 "\r\nconnection: close\r\n\r\n" =
        crlf ++ (utf8 "connection" ++ [colon, blank] ++ utf8 "close" ++ crlf ++ crlf) := by
    decide
  obtain ⟨htype, hlength, hclose⟩ := hsplit
  have hblank : utf8 " " = [blank] := rfl
  unfold writeResponse Message.bytes Message.statusLine
  rw [htype, hlength, hclose, hblank]
  simp [message, Field.line]

/-- The statuses for which there is a reason in the table. -/
def statusCodes : List Nat := [200, 202, 400, 401, 404, 409, 413, 431, 500, 502, 503, 504]

/-- The two content types. -/
def contentTypes : List String := ["application/json", "application/octet-stream"]

/-- A response that a client can read. -/
structure Response.Readable (r : Response) : Prop where
  status : r.status.toNat ∈ statusCodes
  contentType : r.contentType ∈ contentTypes
  json : r.contentType = "application/json" → ∃ v, Json.read r.body = some v

theorem trimBlanks_eq_self {b : Bytes} (h : ∀ c ∈ b, isBlank c = false) : trimBlanks b = b := by
  have hdrop : ∀ {l : Bytes}, (∀ c ∈ l, isBlank c = false) → l.dropWhile isBlank = l := by
    intro l hl
    cases l with
    | nil => rfl
    | cons c l => exact List.dropWhile_cons_of_neg (by simp [hl c List.mem_cons_self])
  unfold trimBlanks
  rw [hdrop h, hdrop fun c hc => h c (List.mem_reverse.mp hc), List.reverse_reverse]

theorem trimBlanks_decimal (n : Nat) : trimBlanks (decimal n) = decimal n := by
  refine trimBlanks_eq_self fun c hc => ?_
  have hdigit := isDigit_decimal hc
  have hne : c ≠ blank ∧ c ≠ 9 := by
    constructor
    all_goals
      rintro rfl
      exact absurd hdigit (by decide)
  simp [isBlank, hne]

theorem wellFormed_message {r : Response} (h : r.Readable) : (message r).WellFormed := by
  have hrange : ∀ n ∈ statusCodes, 100 ≤ n ∧ n < 1000 := by decide
  have hreason : ∀ n ∈ statusCodes, Unbroken (utf8 (reason (.ofNat n))) := by decide
  have htype : ∀ t ∈ contentTypes, Unbroken (utf8 t) ∧ trimBlanks (utf8 t) = utf8 t := by decide
  have hstatus := hreason _ h.status
  rw [UInt16.ofNat_toNat] at hstatus
  obtain ⟨hunbroken, htrimmed⟩ := htype _ h.contentType
  refine ⟨hrange _ h.status, hstatus, fun f hf => ?_, utf8 "content-length", rfl⟩
  have hname : ∀ n ∈ [utf8 "content-type", utf8 "content-length", utf8 "connection"],
      n ≠ [] ∧ colon ∉ n ∧ Unbroken n := by decide
  simp only [message, List.mem_cons, List.not_mem_nil, or_false] at hf
  rcases hf with rfl | rfl | rfl
  · obtain ⟨hne, hcolon, hline⟩ := hname (utf8 "content-type") (by simp)
    exact ⟨hne, hcolon, hline, hunbroken, htrimmed⟩
  · obtain ⟨hne, hcolon, hline⟩ := hname (utf8 "content-length") (by simp)
    exact ⟨hne, hcolon, hline, unbroken_decimal _, trimBlanks_decimal _⟩
  · obtain ⟨hne, hcolon, hline⟩ := hname (utf8 "connection") (by simp)
    exact ⟨hne, hcolon, hline, by decide, by decide⟩

/-- A readable response is read, and it is all that is sent. -/
theorem read_writeResponse {r : Response} (h : r.Readable) :
    HttpMessage.read (writeResponse r) = some (message r, []) := by
  have hread := read_bytes (wellFormed_message h) []
  rwa [List.append_nil, ← writeResponse_eq] at hread

section Routes

variable {serde : SerdeJson}

theorem readable_jsonResponse {status : UInt16} {body : Value} (h : status.toNat ∈ statusCodes)
    (hbody : body.Canonical) : (jsonResponse status body).Readable :=
  ⟨h, List.mem_cons_self, fun _ => ⟨body, read_compact hbody⟩⟩

theorem canonical_errorObject (error detail : String) : (errorObject error detail).Canonical :=
  canonical_object ⟨trivial, trivial, trivial⟩

theorem readable_error {status : UInt16} (h : status.toNat ∈ statusCodes) (error detail : String) :
    (jsonResponse status (errorObject error detail)).Readable :=
  readable_jsonResponse h (canonical_errorObject error detail)

/-- A worker whose answers to JSON requests are readable, and the description of it. -/
structure WorkerApi.Sound (serde : SerdeJson) (w : WorkerApi) : Prop where
  snapshot : w.snapshot.Canonical
  answer : ∀ opcode payload r, opcode ≠ opDecryptBatch →
    requestJson serde w opcode payload = .ok r → (proxyJson (.ok r)).Readable

theorem canonical_healthBody {snapshot ipc : Value} (h : snapshot.Canonical)
    (hipc : ipc.Canonical) : (healthBody snapshot ipc).Canonical :=
  canonical_object ⟨trivial, trivial, trivial, h, hipc, trivial⟩

theorem canonical_workerIpc (result : Except WorkerError Neon.WorkerResponse) :
    (workerIpc result).Canonical := by
  cases result with
  | ok r =>
    have hlt := r.httpStatus.toNat_lt
    have hrange : InRange (r.httpStatus.toNat : Int) := ⟨by omega, by omega⟩
    exact canonical_object ⟨trivial, hrange, trivial⟩
  | error e =>
    have hrange : InRange 0 := by decide
    exact canonical_object ⟨trivial, hrange, trivial, trivial⟩

/-- The responses of the decrypt route. -/
theorem readable_responseOf {decrypt : String → String → List Bytes → WorkerCall (List Bytes)}
    {body : Bytes} {r : HttpResponse} (h : postDecrypt decrypt body = .ok r) :
    (responseOf r).Readable := by
  have herror : ∀ {status : Nat}, (UInt16.ofNat status).toNat ∈ statusCodes → ∀ error detail,
      (responseOf ⟨status, .error error detail⟩).Readable :=
    fun hstatus error detail => readable_error hstatus error detail
  unfold postDecrypt at h
  split_ifs at h
  · obtain rfl := Except.ok.inj h
    have hlimit : InRange maxHttpBody := by decide
    exact readable_jsonResponse (by decide) (canonical_object ⟨trivial, hlimit, trivial⟩)
  · split at h
    · obtain rfl := Except.ok.inj h
      exact herror (by decide) ..
    · cases h
    · split at h
      · obtain rfl := Except.ok.inj h
        exact herror (by decide) ..
      · cases h
      · obtain ⟨payload, -, h⟩ := bind_eq_ok.mp h
        obtain rfl := Except.ok.inj h
        have hstatus : (200 : UInt16).toNat ∈ statusCodes := by decide
        have hmem : "application/octet-stream" ∈ contentTypes := by decide
        have htype : "application/octet-stream" ≠ "application/json" := by decide
        exact ⟨hstatus, hmem, fun h => absurd h htype⟩

/-- What a route makes of its call. -/
def Routed.Sound : Routed → Prop
  | .respond r => r.Readable
  | .ask opcode _ k => opcode ≠ opDecryptBatch ∧ (∀ e, (k (.error e)).Readable) ∧
      ∀ r, (proxyJson (.ok r)).Readable → (k (.ok r)).Readable
  | .batch _ => True

theorem sound_proxyJson {opcode : UInt16} (hop : opcode ≠ opDecryptBatch) (payload : Value) :
    (Routed.ask opcode payload proxyJson).Sound :=
  ⟨hop, fun _ => readable_error (by decide) .., fun _ h => h⟩

theorem sound_postJson {opcode : UInt16} (hop : opcode ≠ opDecryptBatch) (body : Bytes) :
    (postJson serde opcode body).Sound := by
  unfold postJson
  split
  · exact readable_error (by decide) ..
  · exact sound_proxyJson hop _

theorem sound_route {snapshot : Value} (h : snapshot.Canonical) (d : Dispatch) :
    (route serde snapshot d).Sound := by
  have hhealth : ∀ {ipc : Value}, ipc.Canonical →
      (jsonResponse 200 (healthBody snapshot ipc)).Readable :=
    fun hipc => readable_jsonResponse (by decide) (canonical_healthBody h hipc)
  unfold route
  split_ifs
  · exact ⟨by decide, fun e => hhealth (canonical_workerIpc (.error e)),
      fun r _ => hhealth (canonical_workerIpc (.ok r))⟩
  · exact hhealth trivial
  · exact sound_proxyJson (by decide) _
  · exact sound_postJson (by decide) _
  · exact sound_postJson (by decide) _
  · exact sound_proxyJson (by decide) _
  · exact sound_proxyJson (by decide) _
  · exact trivial
  · exact readable_jsonResponse (by decide) (canonical_object ⟨trivial, trivial⟩)

theorem readable_run {w : WorkerApi} (hw : w.Sound serde) {x : Routed} (hx : x.Sound)
    {r : Response} (h : x.run serde w = .ok r) : r.Readable := by
  cases x with
  | respond r' =>
    obtain rfl := Except.ok.inj h
    exact hx
  | ask opcode payload k =>
    obtain ⟨hop, herror, hok⟩ := hx
    cases hanswer : requestJson serde w opcode payload with
    | ok answer =>
      rw [Routed.run, hanswer] at h
      obtain rfl := Except.ok.inj h
      exact hok _ (hw.answer _ _ _ hop hanswer)
    | error e =>
      rw [Routed.run, hanswer] at h
      cases e with
      | worker e =>
        obtain rfl := Except.ok.inj h
        exact herror _
      | panic => cases h
  | batch body =>
    cases hpost : postDecrypt w.decryptBatch body with
    | error e =>
      rw [Routed.run, hpost] at h
      cases h
    | ok r' =>
      rw [Routed.run, hpost] at h
      obtain rfl := Except.ok.inj h
      exact readable_responseOf hpost

/-- The handler's own responses. -/
theorem refused_status {httparse : Bytes → Except String (Option Request)} {apiKey : Option String}
    {r : Reader} {status : Nat} {body : Value}
    (h : handleHttpConnection httparse apiKey r = .ok (.refused status body)) :
    (UInt16.ofNat status).toNat ∈ statusCodes ∧ body.Canonical := by
  have hlimit : InRange maxHttpBody := by decide
  unfold handleHttpConnection at h
  split at h
  · cases h
  · cases h
  · obtain ⟨rfl, rfl⟩ := Handled.refused.inj (Except.ok.inj h)
    exact ⟨by decide, canonical_object ⟨trivial, trivial⟩⟩
  · split at h
    · cases h
    · obtain ⟨rfl, rfl⟩ := Handled.refused.inj (Except.ok.inj h)
      exact ⟨by decide, canonical_object ⟨trivial, trivial⟩⟩
    · unfold readBody at h
      split at h
      · obtain ⟨rfl, rfl⟩ := Handled.refused.inj (Except.ok.inj h)
        exact ⟨by decide, canonical_object ⟨trivial, trivial, trivial⟩⟩
      · dsimp only at h
        split at h
        · obtain ⟨rfl, rfl⟩ := Handled.refused.inj (Except.ok.inj h)
          exact ⟨by decide, canonical_object ⟨trivial, hlimit, trivial⟩⟩
        · split at h
          · cases h
          · cases h

/-- What is sent is nothing, or one response with this property. -/
def Sends (P : Message → Prop) : Outcome Bytes → Prop
  | .error _ => True
  | .ok sent => sent = [] ∨ ∃ m, HttpMessage.read sent = some (m, []) ∧ P m

theorem sends_serveConnection {w : WorkerApi} (hw : w.Sound serde)
    (httparse : Bytes → Except String (Option Request)) (apiKey : Option String) (r : Reader) :
    Sends (fun m => ∃ response, response.Readable ∧ m = message response)
      (serveConnection serde httparse apiKey w r) := by
  have hsends : ∀ {response : Response}, response.Readable →
      Sends (fun m => ∃ response, response.Readable ∧ m = message response)
        (.ok (writeResponse response)) :=
    fun h => .inr ⟨_, read_writeResponse h, _, h, rfl⟩
  unfold serveConnection
  cases hhandled : handleHttpConnection httparse apiKey r with
  | error e => trivial
  | ok handled =>
    rw [ok_bind]
    cases handled with
    | closed => exact .inl rfl
    | refused status body =>
      obtain ⟨hstatus, hbody⟩ := refused_status hhandled
      exact hsends (readable_jsonResponse hstatus hbody)
    | dispatched d rest =>
      cases hrun : (route serde w.snapshot d).run serde w with
      | error e =>
        rw [respondTo, hrun]
        trivial
      | ok response =>
        rw [respondTo, hrun]
        exact hsends (readable_run hw (sound_route hw.snapshot d) hrun)

end Routes

/-! ### The worker behind the routes -/

section Worker

variable {nl : Nlohmann} {serde : SerdeJson} {iso8601Utc : Nat → String} {a : Daemon.Answers}

/-- The response of the worker to a request fits into a frame. -/
def Fits (nl : Nlohmann) (iso8601Utc : Nat → String) (a : Daemon.Answers) (req : Frame) : Prop :=
  ∀ resp, Daemon.dispatch (a.env nl iso8601Utc) req = .ok resp → resp.payload.length < 2 ^ 32

/-- An exchange that succeeds brings the response of the dispatch. -/
theorem dispatch_of_exchange {id : UInt32} {opcode : UInt16} {payload : Bytes} {frame : Frame}
    (hfits : Fits nl iso8601Utc a (requestFrame id opcode payload))
    (h : exchange (a.env nl iso8601Utc) id opcode payload = .ok frame) :
    Daemon.dispatch (a.env nl iso8601Utc) (requestFrame id opcode payload) = .ok frame := by
  obtain ⟨bytes, hbytes, h⟩ := bind_eq_ok.mp h
  unfold Fits at hfits
  generalize hreq : requestFrame id opcode payload = req at hbytes hfits ⊢
  have hkind : req.kind = Daemon.kKindRequest := by
    rw [← hreq]
    rfl
  obtain ⟨b, hwrite, rfl⟩ : ∃ b, writeFrame req = .ok b ∧ b = bytes := by
    cases hwrite : writeFrame req with
    | ok b =>
      rw [hwrite] at hbytes
      exact ⟨b, rfl, Except.ok.inj hbytes⟩
    | error e =>
      rw [hwrite] at hbytes
      cases e <;> cases hbytes
  have hlen := lt_of_writeFrame hwrite
  obtain rfl := Except.ok.inj ((writeFrame_eq hlen).symm.trans hwrite)
  rw [Daemon.serveRequest_frame _ hlen hkind] at h
  by_cases hbig : req.payload.length > Daemon.kMaxPayload
  · rw [if_pos hbig] at h
    cases h
  · rw [if_neg hbig] at h
    cases hresp : Daemon.dispatch (a.env nl iso8601Utc) req with
    | error e =>
      rw [hresp] at h
      cases h
    | ok resp =>
      have hback : readFrame readExact (Daemon.writeFrame resp) = .ok (resp, []) := by
        rw [← List.append_nil (Daemon.writeFrame resp)]
        exact readFrame_append (hfits _ hresp)
      rw [hresp] at h
      dsimp only [Except.map] at h
      rw [hback, mapErr_ok, ok_bind] at h
      dsimp only at h
      split_ifs at h
      rw [Except.ok.inj h]

/-- A JSON request within the limit is answered by its handler. -/
theorem exchange_json (id : UInt32) {opcode : UInt16} (hop : opcode ≠ opDecryptBatch)
    {payload : Bytes} (hlen : payload.length ≤ Daemon.kMaxPayload) {r : Daemon.Response}
    (hr : Daemon.caught (Daemon.handle nl iso8601Utc a (requestFrame id opcode payload)).2 = .ok r)
    (hfits : (r.frame (requestFrame id opcode payload)).payload.length < 2 ^ 32) :
    exchange (a.env nl iso8601Utc) id opcode payload =
      .ok (r.frame (requestFrame id opcode payload)) := by
  have hmax : Daemon.kMaxPayload = 2 ^ 28 := by decide
  have hdispatch : Daemon.dispatch (a.env nl iso8601Utc) (requestFrame id opcode payload) =
      .ok (r.frame (requestFrame id opcode payload)) := by
    refine (if_neg hop).trans ?_
    show (Daemon.caught _).map _ = _
    rw [hr]
    rfl
  have hlt : (requestFrame id opcode payload).payload.length < 2 ^ 32 := by
    show payload.length < _
    omega
  have hserve := Daemon.serveRequest_frame (a.env nl iso8601Utc) hlt rfl
  have hle : ¬ (requestFrame id opcode payload).payload.length > Daemon.kMaxPayload :=
    Nat.not_lt.mpr hlen
  rw [hdispatch, if_neg hle] at hserve
  exact exchange_eq (by omega) hserve hfits rfl rfl rfl

theorem parseWorkerResponse_eq_ok {frame : Frame} {w : Neon.WorkerResponse} :
    parseWorkerResponse serde frame = .ok w ↔ Daemon.parseResponse serde frame = some w := by
  unfold parseWorkerResponse Daemon.parseResponse Neon.parseWorkerResponse
  dsimp only
  cases serde.parse frame.payload with
  | error e =>
    constructor
    all_goals
      intro h
      cases h
  | ok v =>
    dsimp only [Except.mapError, Except.toOption, Option.map_some]
    rw [ok_bind, Except.ok.injEq]
    exact Iff.of_eq (Option.some.injEq ..).symm

/-- The status of a response in JSON, and its body as the supervisor has read it. -/
theorem readable_received {r : Daemon.Response} (h : r.Sound) {req : Frame}
    {w : Neon.WorkerResponse} (hw : parseWorkerResponse serde (r.frame req) = .ok w) :
    (proxyJson (.ok w)).Readable := by
  have hcodes : ∀ i ∈ Daemon.statuses, (UInt16.ofNat i.toNat).toNat ∈ statusCodes := by decide
  obtain ⟨hdepth, b, hb, rfl⟩ :=
    (Daemon.parseResponse_frame serde h req).mp (parseWorkerResponse_eq_ok.mp hw)
  obtain ⟨v, hv⟩ := (Daemon.parse_jsonEnvelope_iff serde h).mpr ⟨hdepth, b, hb⟩
  exact ⟨hcodes _ h.status, List.mem_cons_self,
    fun _ => ⟨b, read_compact (Daemon.canonical_body h hv hb)⟩⟩

/-- A supervisor each of whose requests fails, or is answered by a worker. -/
structure Supervising (nl : Nlohmann) (iso8601Utc : Nat → String) where
  api : WorkerApi
  snapshot : api.snapshot.Canonical
  answered : ∀ opcode payload frame, api.request opcode payload = .ok frame →
    ∃ (a : Daemon.Answers) (id : UInt32), a.Sound ∧
      Fits nl iso8601Utc a (requestFrame id opcode payload) ∧
      exchange (a.env nl iso8601Utc) id opcode payload = .ok frame

theorem Supervising.sound (x : Supervising nl iso8601Utc) (serde : SerdeJson) :
    x.api.Sound serde where
  snapshot := x.snapshot
  answer opcode payload r hop hr := by
    obtain ⟨frame, hframe, hr⟩ := bind_eq_ok.mp hr
    obtain ⟨a, id, hsound, hfits, hexchange⟩ := x.answered _ _ _ hframe
    have hdispatch := dispatch_of_exchange hfits hexchange
    rcases Daemon.dispatch_cases hdispatch with ⟨hbatch, -⟩ | ⟨answer, hanswer, rfl⟩
    · exact absurd hbatch hop
    · rcases hanswer with hown | hcaught
      · exact readable_received hown.sound hr
      · exact readable_received (Daemon.sound_handle hsound hcaught) hr

/-- **Responses are readable.**  Whatever is received on a connection, and whatever the worker
answers, a client is sent nothing or one response that it can read: the status and its reason are
in the table, the length is that of the body, and a body that is announced as JSON is JSON. -/
theorem http_responses_readable (x : Supervising nl iso8601Utc)
    (httparse : Bytes → Except String (Option Request)) (apiKey : Option String) (r : Reader) :
    Sends (fun m => m.status ∈ statusCodes ∧ m.reason = utf8 (reason (.ofNat m.status)) ∧
        ∃ t ∈ contentTypes, m.fields = [⟨utf8 "content-type", utf8 t⟩,
          ⟨utf8 "content-length", decimal m.body.length⟩, ⟨utf8 "connection", utf8 "close"⟩] ∧
        (t = "application/json" → ∃ v, Json.read m.body = some v))
      (serveConnection serde httparse apiKey x.api r) := by
  have hsends := sends_serveConnection (x.sound serde) httparse apiKey r
  cases hserve : serveConnection serde httparse apiKey x.api r with
  | error e => trivial
  | ok sent =>
    rw [hserve] at hsends
    refine hsends.imp_right ?_
    rintro ⟨_, hread, response, hresponse, rfl⟩
    refine ⟨_, hread, hresponse.status, ?_, _, hresponse.contentType, rfl, hresponse.json⟩
    show utf8 (reason response.status) = utf8 (reason (.ofNat response.status.toNat))
    rw [UInt16.ofNat_toNat]

/-- A supervisor with one worker, which a response of 4 GiB breaks. -/
def steadyApi (nl : Nlohmann) (iso8601Utc : Nat → String) (a : Daemon.Answers) (id : UInt32)
    (snapshot : Value) : WorkerApi where
  request opcode payload :=
    match Daemon.dispatch (a.env nl iso8601Utc) (requestFrame id opcode payload) with
    | .error _ => .error (.worker (.io "worker stdout closed"))
    | .ok resp =>
      if resp.payload.length < 2 ^ 32 then exchange (a.env nl iso8601Utc) id opcode payload
      else .error (.worker (.io "worker stdout closed"))
  decryptBatch _ _ _ := { result := .error .panic }
  snapshot := snapshot

def Supervising.steady (nl : Nlohmann) (iso8601Utc : Nat → String)
    (a : { a : Daemon.Answers // a.Sound }) (id : UInt32)
    (snapshot : { v : Value // v.Canonical }) : Supervising nl iso8601Utc where
  api := steadyApi nl iso8601Utc a.val id snapshot.val
  snapshot := snapshot.property
  answered opcode payload frame h := by
    unfold steadyApi at h
    dsimp only at h
    split at h
    · cases h
    · next resp hresp =>
      split_ifs at h with hfits
      refine ⟨a.val, id, a.property, fun resp' hresp' => ?_, h⟩
      obtain rfl := Except.ok.inj (hresp.symm.trans hresp')
      exact hfits

/-! ### Requests in JSON -/

/-- The parameter that `GET /playback` is given. -/
def GivenAdamId (query : Bytes) (adamId : String) : Prop :=
  parseQuery query "adam_id" = some adamId ∨
    parseQuery query "adam_id" = none ∧ (parseQuery query "adamId" = some adamId ∨
      parseQuery query "adamId" = none ∧ adamId = "")

/-- What a request asks of the worker. -/
inductive Asks (serde : SerdeJson) (d : Dispatch) : UInt16 → Value → Prop
  | me : d.method = "GET" → d.path = utf8 "/me" → Asks serde d opMe .null
  | login {v : Value} : d.method = "POST" → d.path = utf8 "/login" → serde.parse d.body = .ok v →
      Asks serde d opLogin v
  | login2fa {v : Value} : d.method = "POST" → d.path = utf8 "/login/2fa" →
      serde.parse d.body = .ok v → Asks serde d opLogin2fa v
  | logout : d.method = "DELETE" → d.path = utf8 "/login" → Asks serde d opLogout .null
  | playback {adamId : String} : d.method = "GET" → d.path = utf8 "/playback" →
      GivenAdamId d.query adamId → Asks serde d opPlayback (.object [("adam_id", .str adamId)])

/-- The value that a handler is given for a payload. -/
def received : Value → Value
  | .null => .obj []
  | v => v

/-- The handler is given what the library of the worker reads. -/
theorem parsePayloadJson_request (id : UInt32) (opcode : UInt16) {payload v : Value}
    (h : payload.Canonical) :
    Daemon.parsePayloadJson nl (requestFrame id opcode (requestPayload payload)) = .ok v ↔
      ∃ w, payload.reread nl.real = some w ∧ v = received w := by
  have hparse : ∀ p : Value, p.Canonical → requestPayload p = compact p →
      (∀ w, p.reread nl.real = some w → received w = w) →
      (Daemon.parsePayloadJson nl (requestFrame id opcode (requestPayload p)) = .ok v ↔
        ∃ w, p.reread nl.real = some w ∧ v = received w) := by
    intro p hp htext hreceived
    have hne : compact p ≠ [] := List.ne_nil_of_length_pos (length_compact_pos hp)
    have hpayload : Daemon.parsePayloadJson nl (requestFrame id opcode (compact p)) =
        nl.parse (compact p) := if_neg hne
    rw [htext, hpayload, nl.parse_compact hp]
    constructor
    · rintro ⟨-, hv⟩
      exact ⟨v, hv, (hreceived v hv).symm⟩
    · rintro ⟨w, hw, rfl⟩
      rw [hreceived w hw]
      exact ⟨fun _ h => (nomatch h), hw⟩
  have hscalar : ∀ {p w : Value}, p.reread nl.real = some p → received p = p →
      p.reread nl.real = some w → received w = w := by
    intro p w hp hreceived hw
    obtain rfl := Option.some.inj (hp.symm.trans hw)
    exact hreceived
  cases payload with
  | null =>
    constructor
    · intro hv
      obtain rfl := Except.ok.inj hv
      exact ⟨.null, rfl, rfl⟩
    · rintro ⟨w, hw, rfl⟩
      obtain rfl := Option.some.inj hw
      rfl
  | bool b => exact hparse _ h rfl fun w => hscalar rfl rfl
  | num i => exact hparse _ h rfl fun w => hscalar rfl rfl
  | str s => exact hparse _ h rfl fun w => hscalar rfl rfl
  | real t =>
    refine hparse _ h rfl fun w hw => ?_
    obtain ⟨_, -, rfl⟩ := Option.map_eq_some_iff.mp hw
    rfl
  | arr elements =>
    refine hparse _ h rfl fun w hw => ?_
    obtain ⟨_, -, rfl⟩ := Option.map_eq_some_iff.mp hw
    rfl
  | obj members =>
    refine hparse _ h rfl fun w hw => ?_
    obtain ⟨_, -, rfl⟩ := Option.map_eq_some_iff.mp hw
    rfl

theorem adamIdParam_eq {query : Bytes} {adamId : String} (h : GivenAdamId query adamId) :
    adamIdParam query = adamId := by
  unfold adamIdParam
  rcases h with h | ⟨h, h' | ⟨h', rfl⟩⟩
  · rw [h]
    rfl
  · rw [h, h']
    rfl
  · rw [h, h']
    rfl

/-- The route of a request in JSON. -/
theorem Asks.route_eq {d : Dispatch} {opcode : UInt16} {payload : Value}
    (h : Asks serde d opcode payload) (snapshot : Value) :
    opcode ≠ opDecryptBatch ∧ payload.Canonical ∧
      route serde snapshot d = .ask opcode payload proxyJson := by
  have hne : utf8 "/me" ≠ utf8 "/health" ∧ utf8 "/login/2fa" ≠ utf8 "/login" ∧
      utf8 "/playback" ≠ utf8 "/health" ∧ utf8 "/playback" ≠ utf8 "/me" := by decide
  obtain ⟨hme, htwo, hplayback, hplayback'⟩ := hne
  cases h with
  | me hmethod hpath =>
    refine ⟨by decide, trivial, ?_⟩
    simp [route, hmethod, hpath, hme]
  | login hmethod hpath hparse =>
    refine ⟨by decide, serde.canonical hparse, ?_⟩
    simp [route, hmethod, hpath, postJson, hparse]
  | login2fa hmethod hpath hparse =>
    refine ⟨by decide, serde.canonical hparse, ?_⟩
    simp [route, hmethod, hpath, postJson, hparse, htwo]
  | logout hmethod hpath =>
    refine ⟨by decide, trivial, ?_⟩
    simp [route, hmethod, hpath]
  | playback hmethod hpath hadam =>
    refine ⟨by decide, canonical_object ⟨trivial, trivial⟩, ?_⟩
    simp [route, hmethod, hpath, hplayback, hplayback', adamIdParam_eq hadam]

/-- A request in JSON whose payload fits into a frame. -/
structure JsonRequest (serde : SerdeJson) where
  dispatch : Dispatch
  opcode : UInt16
  payload : Value
  asks : Asks serde dispatch opcode payload
  bounded : (requestPayload payload).length ≤ Daemon.kMaxPayload

/-- **The way of a JSON request.**  What a client asks arrives at the handler of the worker as the
value that it was, and the client reads the handler's status and the value of its body; of fractions
each library that reads them makes the nearest number that it has. -/
theorem json_route_faithful (nl : Nlohmann) (serde : SerdeJson) (iso8601Utc : Nat → String)
    (a : { a : Daemon.Answers // a.Sound }) (id : UInt32) (snapshot : Value)
    (x : JsonRequest serde) (rest : Reader) :
    let req := requestFrame id x.opcode (requestPayload x.payload)
    (∀ v, Daemon.parsePayloadJson nl req = .ok v ↔
        ∃ w, x.payload.reread nl.real = some w ∧ v = received w) ∧
      ∀ (r : Daemon.Response) (b : Value),
        Daemon.caught (Daemon.handle nl iso8601Utc a.val req).2 = .ok r →
        (r.frame req).payload.length < 2 ^ 32 → r.body.depth ≤ 126 →
        r.body.reread serde.real = some b → ∃ response m,
          respondTo serde (pipeApi serde (a.val.env nl iso8601Utc) id snapshot)
            (.dispatched x.dispatch rest) = .ok (some response) ∧
          HttpMessage.read (writeResponse response) = some (m, []) ∧
          m.status = r.status ∧ m.body = compact b := by
  intro req
  obtain ⟨a, ha⟩ := a
  obtain ⟨d, opcode, payload, hasks, hlen⟩ := x
  obtain ⟨hop, hpayload, hroute⟩ := hasks.route_eq snapshot
  refine ⟨fun v => parsePayloadJson_request id opcode hpayload, fun r b hr hfits hdepth hb => ?_⟩
  have hsound := Daemon.sound_handle ha hr
  have hexchange : exchange (a.env nl iso8601Utc) id opcode (requestPayload payload) =
      .ok (r.frame req) := exchange_json id hop hlen hr hfits
  have hanswer : parseWorkerResponse serde (r.frame req) = .ok (r.received b) :=
    parseWorkerResponse_eq_ok.mpr
      ((Daemon.parseResponse_frame serde hsound req).mpr ⟨hdepth, b, hb, rfl⟩)
  have hrequest : requestJson serde (pipeApi serde (a.env nl iso8601Utc) id snapshot) opcode
      payload = .ok (r.received b) := by
    unfold requestJson pipeApi
    dsimp only
    rw [hexchange, ok_bind, hanswer]
  have hread := read_writeResponse (readable_received hsound hanswer)
  have hstatus : ∀ i ∈ Daemon.statuses, ((UInt16.ofNat i.toNat).toNat : Int) = i := by decide
  refine ⟨_, _, ?_, hread, hstatus _ hsound.status, rfl⟩
  rw [respondTo, show (pipeApi serde (a.env nl iso8601Utc) id snapshot).snapshot = snapshot from
    rfl, hroute, Routed.run, hrequest]
  rfl

end Worker

/-- Apple delivers a dictionary with a fraction in it. -/
def pricedCoreFoundation : Playback.CoreFoundation where
  cfRetain d := d
  cfRetain_eq _ := rfl
  cfGetTypeID _ := 18
  cfDictionaryGetTypeID := 18
  iso8601 _ := "2026-01-01T00:00:00Z"
  plist _ := .ok (.dictionary
    [(some ⟨some "price", 5, none⟩, .float (some ⟨utf8 "0.99", by decide⟩))])

def pricedCall (adamId : Bytes) : Playback.Call where
  initialized := true
  adamId := adamId
  requestCtx := 1
  purchase _ := { setup := [], run := [some 7], later := [], response := none }

/-- What the calls return that are made for `GET /playback`. -/
def pricedAnswers : Daemon.Answers where
  info := {}
  initialized := true
  playbackReady := true
  restoreSession := none
  state := .authenticated
  stateAfter := .authenticated
  startLogin := false
  submit2fa := false
  settled := .authenticated
  snapshot := {}
  fetchPlaybackJson adamId := (Playback.fetchPlaybackJson pricedCoreFoundation
    { ok := true, symbols := fun _ => 1 } (pricedCall adamId) {}).1
  decryptSamples _ _ _ := ⟨false, "", []⟩

theorem sound_pricedAnswers : pricedAnswers.Sound := by
  refine Daemon.sound_of_fetch (by decide) fun adamId => ⟨_, _, _, _, fun _ d hd => ?_, rfl⟩
  intro p hp
  obtain rfl := Except.ok.inj hp
  exact ⟨_, rfl⟩

example : Supervising (reader [] none) fun _ => "" :=
  .steady _ _ ⟨pricedAnswers, sound_pricedAnswers⟩ 7 ⟨.null, trivial⟩

def playbackRequest : JsonRequest (reader "parse error" (some 127)) where
  dispatch := ⟨"GET", utf8 "/playback", utf8 "adam_id=1440857781", []⟩
  opcode := opPlayback
  payload := .object [("adam_id", .str "1440857781")]
  asks := .playback rfl rfl (.inl (by decide +kernel))
  bounded := by decide +kernel

/-- What comes of the dictionary. -/
def pricedBody : Value := .obj [("price", .real (utf8 "0.99"))]

example : pricedAnswers.fetchPlaybackJson (utf8 "1440857781") =
    .ok { ok := true, body := pricedBody } := rfl

theorem json_route_faithful_playback : ∃ response m,
    respondTo (reader "parse error" (some 127))
      (pipeApi (reader "parse error" (some 127))
        (pricedAnswers.env (reader [] none) fun _ => "") 7 .null)
      (.dispatched playbackRequest.dispatch ⟨[], [], none⟩) = .ok (some response) ∧
    HttpMessage.read (writeResponse response) = some (m, []) ∧
    (m.status : Int) = 200 ∧ m.body = compact pricedBody := by
  obtain ⟨hparse, hroute⟩ := json_route_faithful (reader [] none) (reader "parse error" (some 127))
    (fun _ => "") ⟨pricedAnswers, sound_pricedAnswers⟩ 7 .null playbackRequest ⟨[], [], none⟩
  have hpayload := (hparse _).mpr ⟨_, rfl, rfl⟩
  refine hroute (Daemon.jsonReply 200 pricedBody) pricedBody ?_ ?_ ?_ rfl
  · show Daemon.caught (Daemon.handlePlayback (reader [] none) pricedAnswers _).2 = _
    have hinit : pricedAnswers.initialized = true := rfl
    have hstate : pricedAnswers.state = .authenticated := rfl
    unfold Daemon.handlePlayback
    simp only [hinit, hstate, Bool.not_true, Bool.false_eq_true, if_false, ne_eq,
      not_true_eq_false]
    rw [hpayload, ok_bind]
    rfl
  · decide +kernel
  · decide

end Http

end WrapperPaas
