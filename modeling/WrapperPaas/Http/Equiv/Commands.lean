/-
  What HTTP requests do to the account.

  A route's call of the worker is followed through the frame and the handler to the calls of the
  account.  `http_commands_iff` says for every request which commands come of it: the start of a
  login, the submission of a code and the logout come of `POST /login`, `POST /login/2fa` and
  `DELETE /login` alone, and their strings are the ones in the body.
-/
import WrapperPaas.Http.Equiv.Router

namespace WrapperPaas

namespace Http

open Json Supervisor

/-- What a frame makes the worker call of the account. -/
def frameCalls (nl : Nlohmann) (iso8601Utc : Nat → String) (a : Daemon.Answers) (id : UInt32)
    (opcode : UInt16) (payload : Bytes) : List Daemon.AccountCall :=
  if payload.length ≤ Daemon.kMaxPayload then
    Daemon.accountCalls nl iso8601Utc a (requestFrame id opcode payload)
  else []

/-- What a request makes the worker call of the account. -/
def Routed.accountCalls (nl : Nlohmann) (iso8601Utc : Nat → String) (a : Daemon.Answers)
    (id : UInt32) : Routed → List Daemon.AccountCall
  | .respond _ => []
  | .ask opcode payload _ => frameCalls nl iso8601Utc a id opcode (requestPayload payload)
  | .batch body =>
    match parseHttpDecryptBatch body with
    | .error _ => []
    | .ok (adam, uri, samples) =>
      match decryptBatchPayload adam uri samples with
      | .error _ => []
      | .ok payload => frameCalls nl iso8601Utc a id opDecryptBatch payload

/-- The value in a body, as far as it fits into a frame and the library of the worker reads it. -/
def BodyValue (nl : Nlohmann) (serde : SerdeJson) (body : Bytes) (v : Value) : Prop :=
  serde.parse body = .ok v ∧ (requestPayload v).length ≤ Daemon.kMaxPayload ∧
    ∃ w, v.reread nl.real = some w

/-- What a request commands. -/
inductive Commands (nl : Nlohmann) (serde : SerdeJson) (initialized : Bool) (d : Dispatch) :
    Daemon.AccountCall → Prop
  | login {v : Value} {name password : String} : d.method = "POST" → d.path = utf8 "/login" →
      initialized = true → BodyValue nl serde d.body v → Daemon.Credentials v name password →
      Commands nl serde initialized d (.startLogin name password)
  | login2fa {v : Value} {code : String} : d.method = "POST" → d.path = utf8 "/login/2fa" →
      BodyValue nl serde d.body v → v.get "code" = some (.str code) → code ≠ "" →
      Commands nl serde initialized d (.submit2fa code)
  | logout : d.method = "DELETE" → d.path = utf8 "/login" →
      Commands nl serde initialized d .logout

/-- The strings in a value are those in what the handler is given. -/
theorem get_str_received {real : Bytes → Option Bytes} {v w : Value} (h : v.reread real = some w)
    {key s : String} : (received w).get key = some (.str s) ↔ v.get key = some (.str s) := by
  have hget : (received w).get key = w.get key := by
    cases w <;> rfl
  rw [hget]
  exact v.get_str_reread h

theorem credentials_received {real : Bytes → Option Bytes} {v w : Value}
    (h : v.reread real = some w) {name password : String} :
    Daemon.Credentials (received w) name password ↔ Daemon.Credentials v name password := by
  unfold Daemon.Credentials
  simp only [get_str_received h, ne_eq]

section Worker

variable {nl : Nlohmann} {serde : SerdeJson} {iso8601Utc : Nat → String} {a : Daemon.Answers}
  {id : UInt32} {c : Daemon.AccountCall}

/-- The calls of the routes with a body. -/
theorem mem_accountCalls_postJson {opcode : UInt16} {body : Bytes} :
    c ∈ (postJson serde opcode body).accountCalls nl iso8601Utc a id ↔
      ∃ v, serde.parse body = .ok v ∧ (requestPayload v).length ≤ Daemon.kMaxPayload ∧
        c ∈ Daemon.accountCalls nl iso8601Utc a
          (requestFrame id opcode (requestPayload v)) := by
  unfold postJson
  cases hparse : serde.parse body with
  | error e => simp [Routed.accountCalls]
  | ok v =>
    by_cases hlen : (requestPayload v).length ≤ Daemon.kMaxPayload
    · simp [Routed.accountCalls, frameCalls, hlen]
    · simp [Routed.accountCalls, frameCalls, hlen]

/-- What the handler of the login route is given, and its call. -/
theorem mem_accountCalls_login {body : Bytes} (hc : c.isCommand = true) :
    c ∈ (postJson serde opLogin body).accountCalls nl iso8601Utc a id ↔
      a.initialized = true ∧ ∃ v name password, BodyValue nl serde body v ∧
        Daemon.Credentials v name password ∧ c = .startLogin name password := by
  rw [mem_accountCalls_postJson]
  constructor
  · rintro ⟨v, hv, hlen, h⟩
    obtain ⟨hinit, w, name, password, hw, hcredentials, rfl⟩ :=
      (Daemon.command_handleLogin nl iso8601Utc a hc).mp h
    obtain ⟨u, hu, rfl⟩ := (parsePayloadJson_request id _ (serde.canonical hv)).mp hw
    exact ⟨hinit, v, name, password, ⟨hv, hlen, u, hu⟩, (credentials_received hu).mp hcredentials,
      rfl⟩
  · rintro ⟨hinit, v, name, password, ⟨hv, hlen, u, hu⟩, hcredentials, rfl⟩
    have hw := (parsePayloadJson_request id opLogin (serde.canonical hv)).mpr ⟨u, hu, rfl⟩
    exact ⟨v, hv, hlen, (Daemon.command_handleLogin nl iso8601Utc a hc).mpr
      ⟨hinit, _, name, password, hw, (credentials_received hu).mpr hcredentials, rfl⟩⟩

/-- The same for the route of the codes. -/
theorem mem_accountCalls_login2fa {body : Bytes} (hc : c.isCommand = true) :
    c ∈ (postJson serde opLogin2fa body).accountCalls nl iso8601Utc a id ↔
      ∃ v code, BodyValue nl serde body v ∧ v.get "code" = some (.str code) ∧ code ≠ "" ∧
        c = .submit2fa code := by
  rw [mem_accountCalls_postJson]
  constructor
  · rintro ⟨v, hv, hlen, h⟩
    obtain ⟨w, code, hw, hcode, hne, rfl⟩ :=
      (Daemon.command_handleLogin2fa nl iso8601Utc a hc).mp h
    obtain ⟨u, hu, rfl⟩ := (parsePayloadJson_request id _ (serde.canonical hv)).mp hw
    exact ⟨v, code, ⟨hv, hlen, u, hu⟩, (get_str_received hu).mp hcode, hne, rfl⟩
  · rintro ⟨v, code, ⟨hv, hlen, u, hu⟩, hcode, hne, rfl⟩
    have hw := (parsePayloadJson_request id opLogin2fa (serde.canonical hv)).mpr ⟨u, hu, rfl⟩
    exact ⟨v, hv, hlen, (Daemon.command_handleLogin2fa nl iso8601Utc a hc).mpr
      ⟨_, code, hw, (get_str_received hu).mpr hcode, hne, rfl⟩⟩

/-- The logout needs no body. -/
theorem mem_accountCalls_logout (hc : c.isCommand = true) :
    c ∈ (Routed.ask opLogout .null proxyJson).accountCalls nl iso8601Utc a id ↔ c = .logout := by
  have hfits : (requestPayload .null).length ≤ Daemon.kMaxPayload := Nat.zero_le _
  rw [Routed.accountCalls, frameCalls, if_pos hfits]
  exact Daemon.command_handleLogout a hc

/-- Reports, playback and decryption command nothing. -/
theorem not_command_calls {opcode : UInt16}
    (hop : opcode ∈ [opHealth, opMe, opPlayback, opDecryptBatch]) (payload : Bytes)
    (hc : c.isCommand = true) : c ∉ frameCalls nl iso8601Utc a id opcode payload := by
  unfold frameCalls
  split_ifs
  · simp only [List.mem_cons, List.not_mem_nil, or_false] at hop
    rcases hop with rfl | rfl | rfl | rfl
    · exact List.not_mem_nil
    · exact Daemon.not_command_handleMe _ _ hc
    · exact Daemon.not_command_handlePlayback _ _ hc
    · change c ∉ if a.initialized && a.playbackReady then Daemon.restoreCalls a else []
      split_ifs
      · intro h
        rw [Daemon.isCommand_restoreCalls _ h] at hc
        cases hc
      · exact List.not_mem_nil
  · exact List.not_mem_nil

/-- The routes that command nothing. -/
theorem not_command_route (snapshot : Value) {d : Dispatch}
    (hlogin : ¬ (d.method = "POST" ∧ d.path = utf8 "/login"))
    (hlogin2fa : ¬ (d.method = "POST" ∧ d.path = utf8 "/login/2fa"))
    (hlogout : ¬ (d.method = "DELETE" ∧ d.path = utf8 "/login")) (hc : c.isCommand = true) :
    c ∉ (route serde snapshot d).accountCalls nl iso8601Utc a id := by
  unfold route
  rw [if_neg hlogin, if_neg hlogin2fa, if_neg hlogout]
  split_ifs
  · exact not_command_calls (by decide) _ hc
  · exact List.not_mem_nil
  · exact not_command_calls (by decide) _ hc
  · exact not_command_calls (by decide) _ hc
  · rw [Routed.accountCalls]
    split
    · exact List.not_mem_nil
    · split
      · exact List.not_mem_nil
      · exact not_command_calls (by decide) _ hc
  · exact List.not_mem_nil

end Worker

section Commands

variable {nl : Nlohmann} {serde : SerdeJson} {initialized : Bool} {d : Dispatch}
  {c : Daemon.AccountCall}

/-! The commands of a request with this method and path. -/

theorem commands_login_iff (hmethod : d.method = "POST") (hpath : d.path = utf8 "/login") :
    Commands nl serde initialized d c ↔ initialized = true ∧ ∃ v name password,
      BodyValue nl serde d.body v ∧ Daemon.Credentials v name password ∧
        c = .startLogin name password := by
  constructor
  · intro h
    cases h with
    | login _ _ hinit hbody hcredentials => exact ⟨hinit, _, _, _, hbody, hcredentials, rfl⟩
    | login2fa _ hpath' => exact absurd (hpath'.symm.trans hpath) (by decide)
    | logout hmethod' => exact absurd (hmethod.symm.trans hmethod') (by decide)
  · rintro ⟨hinit, v, name, password, hbody, hcredentials, rfl⟩
    exact .login hmethod hpath hinit hbody hcredentials

theorem commands_login2fa_iff (hmethod : d.method = "POST") (hpath : d.path = utf8 "/login/2fa") :
    Commands nl serde initialized d c ↔ ∃ v code, BodyValue nl serde d.body v ∧
      v.get "code" = some (.str code) ∧ code ≠ "" ∧ c = .submit2fa code := by
  constructor
  · intro h
    cases h with
    | login _ hpath' => exact absurd (hpath.symm.trans hpath') (by decide)
    | login2fa _ _ hbody hcode hne => exact ⟨_, _, hbody, hcode, hne, rfl⟩
    | logout hmethod' => exact absurd (hmethod.symm.trans hmethod') (by decide)
  · rintro ⟨v, code, hbody, hcode, hne, rfl⟩
    exact .login2fa hmethod hpath hbody hcode hne

theorem commands_logout_iff (hmethod : d.method = "DELETE") (hpath : d.path = utf8 "/login") :
    Commands nl serde initialized d c ↔ c = .logout := by
  constructor
  · intro h
    cases h with
    | login hmethod' => exact absurd (hmethod'.symm.trans hmethod) (by decide)
    | login2fa hmethod' => exact absurd (hmethod'.symm.trans hmethod) (by decide)
    | logout => rfl
  · rintro rfl
    exact .logout hmethod hpath

end Commands

/-- **What requests do to the account.**  A login is started, a code is submitted or the session is
ended exactly when a request commands it, with the strings of its body. -/
theorem http_commands_iff (nl : Nlohmann) (serde : SerdeJson) (iso8601Utc : Nat → String)
    (a : Daemon.Answers) (id : UInt32) (snapshot : Value) (d : Dispatch)
    (c : Daemon.AccountCall) :
    c ∈ ((route serde snapshot d).accountCalls nl iso8601Utc a id).filter
        Daemon.AccountCall.isCommand ↔ Commands nl serde a.initialized d c := by
  have htwo : utf8 "/login/2fa" ≠ utf8 "/login" := by decide
  rw [List.mem_filter]
  by_cases hc : c.isCommand = true
  swap
  · refine ⟨fun h => absurd h.2 hc, fun h => ?_⟩
    cases h <;> exact absurd rfl hc
  rw [and_iff_left hc]
  by_cases hlogin : d.method = "POST" ∧ d.path = utf8 "/login"
  · obtain ⟨hmethod, hpath⟩ := hlogin
    have hroute : route serde snapshot d = postJson serde opLogin d.body := by
      simp [route, hmethod, hpath]
    rw [hroute, mem_accountCalls_login hc, commands_login_iff hmethod hpath]
  by_cases hlogin2fa : d.method = "POST" ∧ d.path = utf8 "/login/2fa"
  · obtain ⟨hmethod, hpath⟩ := hlogin2fa
    have hroute : route serde snapshot d = postJson serde opLogin2fa d.body := by
      simp [route, hmethod, hpath, htwo]
    rw [hroute, mem_accountCalls_login2fa hc, commands_login2fa_iff hmethod hpath]
  by_cases hlogout : d.method = "DELETE" ∧ d.path = utf8 "/login"
  · obtain ⟨hmethod, hpath⟩ := hlogout
    have hroute : route serde snapshot d = .ask opLogout .null proxyJson := by
      simp [route, hmethod, hpath]
    rw [hroute, mem_accountCalls_logout hc, commands_logout_iff hmethod hpath]
  -- the other routes command nothing
  refine ⟨fun h => absurd h (not_command_route snapshot hlogin hlogin2fa hlogout hc), ?_⟩
  intro h
  cases h with
  | login hmethod hpath => exact absurd ⟨hmethod, hpath⟩ hlogin
  | login2fa hmethod hpath => exact absurd ⟨hmethod, hpath⟩ hlogin2fa
  | logout hmethod hpath => exact absurd ⟨hmethod, hpath⟩ hlogout

end Http

end WrapperPaas
