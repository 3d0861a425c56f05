/-
  What the worker answers.

  `ipc_worker_answers` is about the loop: whatever the handlers learn from the other threads, the
  requests on the worker's input are answered one by one and in their order, each with one response
  that carries its id and its opcode.  The model of the supervisor takes this of a worker process.

  The other results are about single requests: the responses are readable
  (`parseResponse_frame`), and what a request does to the account.
-/
import WrapperPaas.Daemon.Equiv.Parse
import WrapperPaas.Daemon.Handlers
import WrapperPaas.Neon.Backup
import WrapperPaas.Playback.Equiv.Fetch

namespace WrapperPaas

namespace Daemon

open Json Report

/-! ### The loop -/

/-- The bytes of frames in a row. -/
def stream (fs : List Frame) : Bytes := (fs.map writeFrame).flatten

/-- The requests that are answered, which are those before the first one for `OpShutdown`. -/
def served (fs : List Frame) : List Frame :=
  (fs.filter fun f => decide (f.kind = kKindRequest)).takeWhile fun f =>
    decide (f.opcode ≠ opShutdown)

/-- What arrives at the worker: frames within its limit, and something behind them that is no frame,
such as the end of the input or the beginning of a frame. -/
structure Input where
  frames : List Frame
  bounded : ∀ f ∈ frames, f.payload.length ≤ kMaxPayload
  rest : Bytes
  closed : ∀ x, readFrame readFull rest ≠ .ok x

def Input.bytes (x : Input) : Bytes := stream x.frames ++ x.rest

/-- No batch makes the worker read out of bounds. -/
theorem exists_handleDecryptBatch (env : Env) (req : Frame) :
    ∃ resp, handleDecryptBatch env req = .ok resp := by
  unfold handleDecryptBatch
  split_ifs
  · exact ⟨_, rfl⟩
  · exact ⟨_, rfl⟩
  · exact ⟨_, rfl⟩
  · rcases parseDecryptPayload_cases req with ⟨hparse, -⟩ | ⟨r, hparse, -⟩
    · rw [hparse]
      exact ⟨_, rfl⟩
    · rw [hparse]
      dsimp only
      split
      · exact ⟨_, rfl⟩
      · exact ⟨_, rfl⟩

/-- The handler of the request throws an exception whose text is not UTF-8. -/
def Terminates (nl : Nlohmann) (iso8601Utc : Nat → String) (a : Answers) (req : Frame) : Prop :=
  req.opcode ≠ opDecryptBatch ∧
    ∃ what, (handle nl iso8601Utc a req).2 = .error what ∧ ofUtf8 what = none

/-- A request is answered, or it ends the process. -/
theorem dispatch_eq_error_iff {nl : Nlohmann} {iso8601Utc : Nat → String} {a : Answers}
    {req : Frame} {e : Failure} : dispatch (a.env nl iso8601Utc) req = .error e ↔
      e = .terminated ∧ Terminates nl iso8601Utc a req := by
  unfold dispatch Terminates
  split_ifs with hop
  · obtain ⟨resp, hresp⟩ := exists_handleDecryptBatch (a.env nl iso8601Utc) req
    rw [hresp]
    exact ⟨fun h => (nomatch h), fun h => absurd hop h.2.1⟩
  · show (caught (handle nl iso8601Utc a req).2).map _ = _ ↔ _
    cases hhandle : (handle nl iso8601Utc a req).2 with
    | ok r => exact ⟨fun h => (nomatch h), fun ⟨_, _, what, h, _⟩ => (nomatch h)⟩
    | error what =>
      cases htext : ofUtf8 what with
      | some text =>
        rw [caught, htext]
        refine ⟨fun h => (nomatch h), ?_⟩
        rintro ⟨-, -, what', hwhat, hnone⟩
        obtain rfl := Except.error.inj hwhat
        rw [htext] at hnone
        cases hnone
      | none =>
        rw [caught, htext]
        refine ⟨fun h => ?_, ?_⟩
        · obtain rfl := Except.error.inj h
          exact ⟨rfl, hop, what, rfl, htext⟩
        · rintro ⟨rfl, -⟩
          rfl

/-- One round of the worker on a request frame. -/
theorem serveRequest_frame (env : Env) {req : Frame} (hlen : req.payload.length < 2 ^ 32)
    (hkind : req.kind = kKindRequest) :
    serveRequest env (Supervisor.frameHeader req ++ req.payload) =
      if req.payload.length > kMaxPayload then .error .failed
      else (dispatch env req).map fun resp => (writeFrame resp, []) := by
  have hread := readFrame_append req [] hlen
  rw [List.append_nil, frameHeader_eq] at hread
  unfold serveRequest
  rw [hread]
  split_ifs
  · rfl
  · rw [ok_bind]
    dsimp only
    rw [if_neg (not_not_intro hkind)]
    cases dispatch env req with
    | error e => rfl
    | ok resp => rfl

/-! ### Reading frames off a longer input -/

/-- Where no frame can be read, none can be read of a part. -/
theorem readFrame_take {b : Bytes} (h : ∀ x, readFrame readFull b ≠ .ok x) (cut : Nat)
    (x : Frame × Bytes) : readFrame readFull (b.take cut) ≠ .ok x := by
  intro hread
  obtain ⟨f, rest⟩ := x
  have hmore := readFrame_append_right (b.drop cut) hread
  rw [List.take_append_drop] at hmore
  exact h _ hmore

/-- A frame is not read before its last byte is there. -/
theorem readFrame_incomplete {f : Frame} (hle : f.payload.length ≤ kMaxPayload) {cut : Nat}
    (hcut : cut < (writeFrame f).length) (x : Frame × Bytes) :
    readFrame readFull ((writeFrame f).take cut) ≠ .ok x := by
  intro hread
  obtain ⟨g, rest⟩ := x
  have hmore := readFrame_append_right ((writeFrame f).drop cut) hread
  have hwhole := readFrame_eq_ok.mpr ⟨(List.append_nil (writeFrame f)).symm, hle⟩
  rw [List.take_append_drop] at hmore
  rw [hmore] at hwhole
  have hnil := (Prod.mk.inj (Except.ok.inj hwhole)).2
  have hdrop := (List.append_eq_nil_iff.mp hnil).2
  rw [List.drop_eq_nil_iff] at hdrop
  omega

/-! ### Iterations -/

section Loop

variable {env : Nat → Env}

/-- An iteration of the loop that reads a frame. -/
theorem runIpcWorker_frame {input rest : Bytes} {f : Frame} {k : Nat}
    (h : readFrame readFull input = .ok (f, rest)) : runIpcWorker env k input =
      if f.kind ≠ kKindRequest then runIpcWorker env k rest
      else if f.opcode = opShutdown then .ok []
      else
        (match dispatch (env k) f with
        | .error .terminated => .ok []
        | .error e => .error e
        | .ok resp => do
          let more ← runIpcWorker env (k + 1) rest
          .ok (writeFrame resp ++ more)) := by
  rw [runIpcWorker]
  split
  · next e he =>
    rw [h] at he
    cases he
  · next req rest' hreq =>
    rw [h] at hreq
    obtain ⟨rfl, rfl⟩ := Prod.mk.inj (Except.ok.inj hreq)
    rfl

theorem runIpcWorker_closed {input : Bytes} {k : Nat}
    (h : ∀ x, readFrame readFull input ≠ .ok x) : runIpcWorker env k input = .ok [] := by
  rw [runIpcWorker]
  split
  · rfl
  · next hreq => exact absurd hreq (h _)

/-- How many of the frames are there with the first `cut` bytes. -/
def complete : List Frame → (cut : Nat) → Nat
  | [], _ => 0
  | f :: fs, cut =>
    if (writeFrame f).length ≤ cut then complete fs (cut - (writeFrame f).length) + 1 else 0

theorem served_request {f : Frame} (fs : List Frame) (hkind : f.kind = kKindRequest) :
    served (f :: fs) = if f.opcode ≠ opShutdown then f :: served fs else [] := by
  unfold served
  rw [List.filter_cons_of_pos (by simpa using hkind), List.takeWhile_cons]
  simp only [decide_eq_true_eq]

theorem served_other {f : Frame} (fs : List Frame) (hkind : f.kind ≠ kKindRequest) :
    served (f :: fs) = served fs := by
  unfold served
  rw [List.filter_cons_of_neg (by simpa using hkind)]

/-- What `resps` has to be for the requests `reqs` from the `k`th one on. -/
def Answered (env : Nat → Env) (k : Nat) (reqs resps : List Frame) : Prop :=
  resps.length = reqs.length ∧ ∀ i req resp, reqs[i]? = some req → resps[i]? = some resp →
    dispatch (env (k + i)) req = .ok resp

theorem Answered.nil (k : Nat) : Answered env k [] [] :=
  ⟨rfl, fun _ _ _ h _ => (nomatch h)⟩

theorem Answered.cons {k : Nat} {req resp : Frame} {reqs resps : List Frame}
    (h : dispatch (env k) req = .ok resp) (hmore : Answered env (k + 1) reqs resps) :
    Answered env k (req :: reqs) (resp :: resps) := by
  refine ⟨congrArg (· + 1) hmore.1, fun i r r' hr hr' => ?_⟩
  cases i with
  | zero =>
    obtain rfl := Option.some.inj hr
    obtain rfl := Option.some.inj hr'
    exact h
  | succ i =>
    have h := hmore.2 i r r' hr hr'
    rwa [Nat.add_right_comm] at h

/-- The requests in front of the first one that ends the process. -/
def survived (env : Nat → Env) : (k : Nat) → List Frame → List Frame
  | _, [] => []
  | k, req :: reqs =>
    match dispatch (env k) req with
    | .error _ => []
    | .ok _ => req :: survived env (k + 1) reqs

/-- The loop on the first `cut` bytes of the frames and what follows on them. -/
theorem runIpcWorker_take (hterminated : ∀ {k req e}, dispatch (env k) req = .error e →
      e = .terminated) {rest : Bytes} (hrest : ∀ x, readFrame readFull rest ≠ .ok x)
    {fs : List Frame} (hle : ∀ f ∈ fs, f.payload.length ≤ kMaxPayload) (k : Nat) :
    ∃ resps, Answered env k (survived env k (served fs)) resps ∧
      ∀ cut, runIpcWorker env k ((stream fs ++ rest).take cut) =
        .ok (stream (resps.take (served (fs.take (complete fs cut))).length)) := by
  induction fs generalizing k with
  | nil => exact ⟨[], .nil k, fun cut => runIpcWorker_closed (readFrame_take hrest cut)⟩
  | cons f fs ih =>
    have ih := ih fun g hg => hle g (List.mem_cons_of_mem _ hg)
    have hf := hle f List.mem_cons_self
    have hcons : stream (f :: fs) ++ rest = writeFrame f ++ (stream fs ++ rest) :=
      List.append_assoc ..
    -- the first frame is there or it is not
    have hpart : ∀ {cut}, ¬ (writeFrame f).length ≤ cut → ∀ resps : List Frame,
        runIpcWorker env k ((stream (f :: fs) ++ rest).take cut) =
          .ok (stream (resps.take (served ((f :: fs).take (complete (f :: fs) cut))).length)) := by
      intro cut hcut resps
      rw [hcons, List.take_append_of_le_length (by omega), complete, if_neg hcut,
        runIpcWorker_closed (readFrame_incomplete hf (by omega))]
      rfl
    have hwhole : ∀ {cut}, (writeFrame f).length ≤ cut →
        readFrame readFull ((stream (f :: fs) ++ rest).take cut) =
            .ok (f, (stream fs ++ rest).take (cut - (writeFrame f).length)) ∧
          (f :: fs).take (complete (f :: fs) cut) =
            f :: fs.take (complete fs (cut - (writeFrame f).length)) := by
      intro cut hcut
      rw [hcons, List.take_append, List.take_of_length_le hcut, complete, if_pos hcut,
        List.take_succ_cons]
      exact ⟨readFrame_eq_ok.mpr ⟨rfl, hf⟩, rfl⟩
    by_cases hkind : f.kind = kKindRequest
    · by_cases hop : f.opcode = opShutdown
      · refine ⟨[], ?_, fun cut => ?_⟩
        · rw [served_request fs hkind, if_neg (not_not_intro hop)]
          exact .nil k
        · by_cases hcut : (writeFrame f).length ≤ cut
          · obtain ⟨hread, -⟩ := hwhole hcut
            rw [runIpcWorker_frame hread, if_neg (not_not_intro hkind), if_pos hop,
              List.take_nil]
            rfl
          · exact hpart hcut []
      · cases hresp : dispatch (env k) f with
        | error e =>
          obtain rfl := hterminated hresp
          refine ⟨[], ?_, fun cut => ?_⟩
          · rw [served_request fs hkind, if_pos hop, survived, hresp]
            exact .nil k
          · by_cases hcut : (writeFrame f).length ≤ cut
            · obtain ⟨hread, -⟩ := hwhole hcut
              rw [runIpcWorker_frame hread, if_neg (not_not_intro hkind), if_neg hop, hresp,
                List.take_nil]
              rfl
            · exact hpart hcut []
        | ok resp =>
          obtain ⟨resps, hresps, hrun⟩ := ih (k + 1)
          refine ⟨resp :: resps, ?_, fun cut => ?_⟩
          · rw [served_request fs hkind, if_pos hop, survived, hresp]
            exact .cons hresp hresps
          · by_cases hcut : (writeFrame f).length ≤ cut
            · obtain ⟨hread, htake⟩ := hwhole hcut
              rw [runIpcWorker_frame hread, if_neg (not_not_intro hkind), if_neg hop, hresp]
              dsimp only
              rw [hrun, ok_bind, htake, served_request _ hkind, if_pos hop, List.length_cons,
                List.take_succ_cons]
              rfl
            · exact hpart hcut _
    · obtain ⟨resps, hresps, hrun⟩ := ih k
      refine ⟨resps, ?_, fun cut => ?_⟩
      · rwa [served_other fs hkind]
      · by_cases hcut : (writeFrame f).length ≤ cut
        · obtain ⟨hread, htake⟩ := hwhole hcut
          rw [runIpcWorker_frame hread, if_pos hkind, hrun, htake, served_other _ hkind]
        · exact hpart hcut resps

end Loop

/-! ### Responses -/

section Responses

/-- The statuses of the handlers. -/
def statuses : List Int := [200, 202, 400, 401, 409, 500, 502, 503, 504]

/-- A response whose status is one of the handlers', and whose body is an object that has a text. -/
structure Response.Sound (r : Response) : Prop where
  status : r.status ∈ statuses
  body : r.body.Canonical
  object : ∃ members, r.body = .obj members

/-- `serde_json` reads the body where it stands in the envelope. -/
def Response.Read (serde : SerdeJson) (r : Response) : Prop :=
  r.body.depth ≤ 126 ∧ ∃ b, r.body.reread serde.real = some b

/-- A response that the worker makes up itself. -/
structure Response.Own (r : Response) : Prop where
  status : r.status ∈ statuses
  body : r.body.Plain 2
  object : ∃ members, r.body = .obj members

/-- What holds of the answers: an error code is an `int`, and the body of a playback result is made
of a dictionary. -/
structure Answers.Sound (a : Answers) : Prop where
  lastErrorCode : InRange a.snapshot.lastErrorCode
  playback : ∀ adamId r, a.fetchPlaybackJson adamId = .ok r → r.ok = true →
    r.body.Canonical ∧ ∃ members, r.body = .obj members

/-- The playback code gives such bodies, as long as Apple delivers dictionaries. -/
theorem sound_of_fetch {a : Answers} (hcode : InRange a.snapshot.lastErrorCode)
    (hfetch : ∀ adamId, ∃ cf l c t,
      (∀ req, (c.purchase req).Delivers cf) ∧
        a.fetchPlaybackJson adamId = (Playback.fetchPlaybackJson cf l c t).1) : a.Sound := by
  refine ⟨hcode, fun adamId r hr hok => ?_⟩
  obtain ⟨cf, l, c, t, hc, heq⟩ := hfetch adamId
  exact Playback.body_fetchPlaybackJson hc (heq ▸ hr) hok

/-- The bodies of playback results can be read by `serde_json`. -/
def Answers.Read (serde : SerdeJson) (a : Answers) : Prop :=
  ∀ adamId r, a.fetchPlaybackJson adamId = .ok r → r.ok = true →
    (jsonReply 200 r.body).Read serde

theorem Response.Own.sound {r : Response} (h : r.Own) : r.Sound :=
  ⟨h.status, h.body.canonical, h.object⟩

theorem Response.Own.read {r : Response} (h : r.Own) (serde : SerdeJson) : r.Read serde :=
  ⟨h.body.depth.trans (by decide), r.body, h.body.reread _⟩

theorem own_object {status : Int} {members : List (String × Value)} (hstatus : status ∈ statuses)
    (h : ∀ m ∈ members, m.2.Plain 1) : (jsonReply status (.object members)).Own :=
  ⟨hstatus, plain_object h, _, rfl⟩

theorem own_errorReply {status : Int} (h : status ∈ statuses) (error detail : String) :
    (errorReply status error detail).Own :=
  own_object h (by simp)

@[simp] theorem forall_mem_membersIf {c : Prop} [Decidable c] {ms : List (String × Value)}
    {P : String × Value → Prop} : (∀ m ∈ membersIf c ms, P m) ↔ (c → ∀ m ∈ ms, P m) := by
  unfold membersIf
  split_ifs with hc
  · exact ⟨fun h _ => h, fun h => h hc⟩
  · exact ⟨fun _ h => absurd h hc, fun _ => List.forall_mem_nil _⟩

theorem plain_snapshotToJson (iso8601Utc : Nat → String) {snap : AccountSnapshot}
    (h : InRange snap.lastErrorCode) : (snapshotToJson iso8601Utc snap).Plain 1 := by
  refine plain_object ?_
  simp only [List.forall_mem_append, forall_mem_membersIf]
  simp [h]

theorem plain_runtimeToJson (rt : RuntimeInfo) : (runtimeToJson rt).Plain 1 := by
  refine plain_object ?_
  simp only [List.forall_mem_append, forall_mem_membersIf]
  simp

theorem httpStatusFor_mem (s : LoginState) : httpStatusFor s ∈ statuses := by
  cases s <;> decide

theorem own_loginName {body : Value} {r : Response} (h : loginName body = .error r) : r.Own := by
  unfold loginName at h
  split at h
  · split_ifs at h
    obtain rfl := Except.error.inj h
    exact own_errorReply (by decide) ..
  · cases h
  · cases h
  · obtain rfl := Except.error.inj h
    exact own_errorReply (by decide) ..

/-- The responses of a handler. -/
def Yields (P : Response → Prop) (x : Except Bytes Response) : Prop := ∀ r, x = .ok r → P r

section Yields

variable {P : Response → Prop}

theorem Yields.ok {r : Response} (h : P r) : Yields P (.ok r) := by
  rintro r' hr
  obtain rfl := Except.ok.inj hr
  exact h

theorem Yields.error (what : Bytes) : Yields P (.error what) := fun _ h => (nomatch h)

theorem Yields.mono {Q : Response → Prop} {x : Except Bytes Response} (h : Yields P x)
    (himp : ∀ r, P r → Q r) : Yields Q x := fun r hr => himp r (h r hr)

/-- What is answered in the place of an exception is the worker's own. -/
theorem Yields.caught {x : Except Bytes Response} {r : Response} (h : Yields P x)
    (hown : ∀ r : Response, r.Own → P r) (hr : Daemon.caught x = .ok r) : P r := by
  cases x with
  | ok r' =>
    obtain rfl := Except.ok.inj hr
    exact h _ rfl
  | error what =>
    unfold Daemon.caught at hr
    dsimp only at hr
    split at hr
    · obtain rfl := Except.ok.inj hr
      exact hown _ (own_errorReply (by decide) ..)
    · cases hr

end Yields

variable {nl : Nlohmann} {iso8601Utc : Nat → String} {a : Answers}

theorem own_settledReply (h : a.Sound) : (settledReply iso8601Utc a).Own :=
  ⟨httpStatusFor_mem _, (plain_snapshotToJson _ h.lastErrorCode).mono (by decide), _, rfl⟩

theorem own_handleLogin (h : a.Sound) (req : Frame) :
    Yields Response.Own (handleLogin nl iso8601Utc a req).2 := by
  unfold handleLogin
  split
  · exact .ok (own_errorReply (by decide) ..)
  · split
    · exact .error _
    · split
      · exact .ok (own_errorReply (by decide) ..)
      · split
        · next hname => exact .ok (own_loginName hname)
        · split_ifs
          · exact .ok (own_errorReply (by decide) ..)
          · exact .ok (own_errorReply (by decide) ..)
          · exact .ok (own_settledReply h)

theorem own_handleLogin2fa (h : a.Sound) (req : Frame) :
    Yields Response.Own (handleLogin2fa nl iso8601Utc a req).2 := by
  unfold handleLogin2fa
  split
  · exact .error _
  · split
    · exact .ok (own_errorReply (by decide) ..)
    · split_ifs
      · exact .ok (own_errorReply (by decide) ..)
      · exact .ok (own_errorReply (by decide) ..)
      · exact .ok (own_settledReply h)

/-- The response to a playback request, if it is not the worker's own. -/
def Answers.Plays (a : Answers) (r : Response) : Prop :=
  ∃ adamId pr, a.fetchPlaybackJson adamId = .ok pr ∧ pr.ok = true ∧ r = jsonReply 200 pr.body

theorem yields_handlePlayback (req : Frame) :
    Yields (fun r => r.Own ∨ a.Plays r) (handlePlayback nl a req).2 := by
  unfold handlePlayback
  split_ifs
  · exact .ok (.inl (own_errorReply (by decide) ..))
  · exact .ok (.inl (own_errorReply (by decide) ..))
  · cases parsePayloadJson nl req with
    | error e => exact .error _
    | ok body =>
      rw [ok_bind]
      cases valueOrEmpty body "adam_id" with
      | error e => exact .error _
      | ok adamId =>
        rw [ok_bind]
        split_ifs
        · exact .ok (.inl (own_errorReply (by decide) ..))
        · cases hfetch : a.fetchPlaybackJson (utf8 adamId) with
          | error e => exact .error _
          | ok pr =>
            rw [ok_bind]
            split_ifs with hok
            · exact .ok (.inl (own_errorReply (by decide) ..))
            · exact .ok (.inr ⟨_, pr, hfetch, by simpa using hok, rfl⟩)

/-- A response in JSON is the worker's own, or has the body of a playback result. -/
theorem yields_handle (h : a.Sound) (req : Frame) :
    Yields (fun r => r.Own ∨ a.Plays r) (handle nl iso8601Utc a req).2 := by
  have hruntime := plain_runtimeToJson a.info
  have hsnapshot := plain_snapshotToJson iso8601Utc h.lastErrorCode
  unfold handle
  split_ifs
  · exact .ok (.inl (own_object (by decide) (by simp [hruntime])))
  · exact .ok (.inl (own_object (by decide) (by simp [hruntime, hsnapshot])))
  · exact (own_handleLogin h req).mono fun _ => .inl
  · exact (own_handleLogin2fa h req).mono fun _ => .inl
  · exact .ok (.inl (own_object (by decide) (by simp)))
  · exact yields_handlePlayback req
  · have hlt := req.opcode.toNat_lt
    have hrange : InRange (req.opcode.toNat : Int) := ⟨by omega, by omega⟩
    exact .ok (.inl (own_object (by decide) (by simp [hrange])))

/-- Every response in JSON is sound. -/
theorem sound_handle (h : a.Sound) {req : Frame} {r : Response}
    (hr : caught (handle nl iso8601Utc a req).2 = .ok r) : r.Sound := by
  have hstatus : (200 : Int) ∈ statuses := by decide
  refine ((yields_handle h req).mono fun r hr => ?_).caught (fun _ => Response.Own.sound) hr
  rcases hr with hown | ⟨adamId, pr, hfetch, hok, rfl⟩
  · exact hown.sound
  · obtain ⟨hbody, hobject⟩ := h.playback _ _ hfetch hok
    exact ⟨hstatus, hbody, hobject⟩

theorem read_handle {serde : SerdeJson} (h : a.Sound) (hread : a.Read serde) {req : Frame}
    {r : Response} (hr : caught (handle nl iso8601Utc a req).2 = .ok r) : r.Read serde := by
  refine ((yields_handle h req).mono fun r hr => ?_).caught (fun _ h => h.read serde) hr
  rcases hr with hown | ⟨adamId, pr, hfetch, hok, rfl⟩
  · exact hown.read serde
  · exact hread _ _ hfetch hok

/-! ### The supervisor's reading -/

theorem canonical_jsonEnvelope {r : Response} (h : r.Sound) :
    (jsonEnvelope r.status r.body r.retryable r.restartWorker).Canonical := by
  have hstatus : ∀ i ∈ statuses, InRange i := by decide
  exact canonical_object ⟨trivial, hstatus _ h.status, trivial, h.body, trivial, trivial, trivial⟩

/-- The members of an envelope. -/
theorem get_jsonEnvelope (status : Int) (body : Value) (retryable restartWorker : Bool)
    (key : String) : (jsonEnvelope status body retryable restartWorker).get key =
      if key = "restart_worker" then some (.bool restartWorker)
      else if key = "retryable" then some (.bool retryable)
      else if key = "body" then some body
      else if key = "content_type" then some (.str "application/json")
      else if key = "http_status" then some (.num status)
      else if key = "ok" then some (.bool (200 ≤ status ∧ status < 300))
      else none := by
  simp only [jsonEnvelope, Value.object, Value.get, assignMembers, List.foldl_cons,
    List.foldl_nil, lookup_setMember]
  rfl

/-- `parse_worker_response` with a JSON library that writes compactly. -/
def parseResponse (serde : SerdeJson) : Frame → Option Neon.WorkerResponse :=
  Neon.parseWorkerResponse (fun b => (serde.parse b).toOption) (fun v => some (compact v))

/-- An envelope is read when its body is. -/
theorem parse_jsonEnvelope_iff (serde : SerdeJson) {r : Response} (h : r.Sound) :
    (∃ v, serde.parse (compact (jsonEnvelope r.status r.body r.retryable r.restartWorker)) =
      .ok v) ↔ r.Read serde := by
  constructor
  · rintro ⟨v, hv⟩
    obtain ⟨hdepth, hreread⟩ := (serde.parse_compact (canonical_jsonEnvelope h)).mp hv
    have hmembers := membersDepth_le.mp (Nat.le_of_succ_le_succ (hdepth 127 rfl))
    have hbody := hmembers ("body", r.body) ((mem_assignMembers (by simp)).mpr (by simp))
    obtain ⟨b, hb, -⟩ := Value.exists_get_reread hreread (get_jsonEnvelope _ _ _ _ "body")
    exact ⟨hbody, b, hb⟩
  · rintro ⟨hdepth, b, hb⟩
    obtain ⟨w, hw⟩ : ∃ w, (jsonEnvelope r.status r.body r.retryable r.restartWorker).reread
        serde.real = some w :=
      exists_reread_object (by simp [Value.reread, hb])
    refine ⟨w, (serde.parse_compact (canonical_jsonEnvelope h)).mpr ⟨?_, hw⟩⟩
    rintro n hn
    obtain rfl := Option.some.inj hn
    exact depth_object (by simp [Value.depth, hdepth])

theorem canonical_body {serde : SerdeJson} {r : Response} (h : r.Sound) {v b : Value}
    (hv : serde.parse (compact (jsonEnvelope r.status r.body r.retryable r.restartWorker)) = .ok v)
    (hb : r.body.reread serde.real = some b) : b.Canonical := by
  have hreread := ((serde.parse_compact (canonical_jsonEnvelope h)).mp hv).2
  obtain ⟨b', hb', hget⟩ := Value.exists_get_reread hreread (get_jsonEnvelope _ _ _ _ "body")
  obtain rfl := Option.some.inj (hb.symm.trans hb')
  exact (serde.canonical hv).get hget

/-- What the supervisor makes of a response whose body is read as `b`. -/
def Response.received (r : Response) (b : Value) : Neon.WorkerResponse where
  httpStatus := .ofNat r.status.toNat
  contentType := "application/json"
  body := compact b
  restartWorker := r.restartWorker

/-- The supervisor reads a response out of its frame, or nothing. -/
theorem parseResponse_frame (serde : SerdeJson) {r : Response} (h : r.Sound) (req : Frame)
    {w : Neon.WorkerResponse} : parseResponse serde (r.frame req) = some w ↔
      r.body.depth ≤ 126 ∧ ∃ b, r.body.reread serde.real = some b ∧ w = r.received b := by
  have hnonneg : ∀ i ∈ statuses, 0 ≤ i := by decide
  generalize henv : jsonEnvelope r.status r.body r.retryable r.restartWorker = envelope
  have hget : ∀ {key x}, (jsonEnvelope r.status r.body r.retryable r.restartWorker).get key =
      some x → envelope.get key = some x := fun hx => henv ▸ hx
  have hframe : (r.frame req).payload = compact envelope := congrArg compact henv
  -- what is made of an envelope that is read
  have hread : ∀ {v b}, serde.parse (compact envelope) = .ok v →
      r.body.reread serde.real = some b →
      parseResponse serde (r.frame req) = some (r.received b) := by
    intro v b hv hb
    have hreread := ((serde.parse_compact (henv ▸ canonical_jsonEnvelope h)).mp hv).2
    obtain ⟨_, hstatus, hgetStatus⟩ := Value.exists_get_reread hreread
      (hget (get_jsonEnvelope _ _ _ _ "http_status"))
    obtain ⟨_, htype, hgetType⟩ := Value.exists_get_reread hreread
      (hget (get_jsonEnvelope _ _ _ _ "content_type"))
    obtain ⟨_, hrestart, hgetRestart⟩ := Value.exists_get_reread hreread
      (hget (get_jsonEnvelope _ _ _ _ "restart_worker"))
    obtain ⟨_, hbody, hgetBody⟩ := Value.exists_get_reread hreread
      (hget (get_jsonEnvelope _ _ _ _ "body"))
    obtain rfl := Option.some.inj hstatus
    obtain rfl := Option.some.inj htype
    obtain rfl := Option.some.inj hrestart
    obtain rfl := Option.some.inj (hb.symm.trans hbody)
    obtain ⟨members, hmembers⟩ := h.object
    rw [hmembers] at hb
    obtain ⟨ms, -, rfl⟩ := Option.map_eq_some_iff.mp hb
    unfold parseResponse Neon.parseWorkerResponse
    dsimp only
    rw [hframe, hv]
    dsimp only [Except.toOption, Option.map_some]
    rw [hgetStatus, hgetType, hgetRestart, hgetBody]
    dsimp only
    rw [if_pos (hnonneg _ h.status)]
    rfl
  have hsome := parse_jsonEnvelope_iff serde h
  rw [henv] at hsome
  constructor
  · intro hw
    obtain ⟨v, hv, -⟩ := Option.map_eq_some_iff.mp hw
    rw [hframe] at hv
    obtain ⟨hdepth, b, hb⟩ := hsome.mp ⟨v, toOption_eq_some.mp hv⟩
    have hsame := hread (toOption_eq_some.mp hv) hb
    exact ⟨hdepth, b, hb, Option.some.inj (hw.symm.trans hsame)⟩
  · rintro ⟨hdepth, b, hb, rfl⟩
    obtain ⟨v, hv⟩ := hsome.mpr ⟨hdepth, b, hb⟩
    exact hread hv hb

/-- A response is the plaintexts of a batch, or it is JSON. -/
theorem dispatch_cases {nl : Nlohmann} {iso8601Utc : Nat → String} {a : Answers}
    {req resp : Frame} (hresp : dispatch (a.env nl iso8601Utc) req = .ok resp) :
    (req.opcode = opDecryptBatch ∧ ∃ body, resp = binaryResponse req body) ∨
      ∃ r : Response, (r.Own ∨ caught (handle nl iso8601Utc a req).2 = .ok r) ∧
        resp = r.frame req := by
  have hstatus : ∀ n ∈ [400, 401, 502, 503], ((n : Nat) : Int) ∈ statuses := by decide
  have herror : ∀ e : Envelope, e.httpStatus ∈ [400, 401, 502, 503] →
      jsonResponse (a.env nl iso8601Utc) req e = resp →
        ∃ r : Response, (r.Own ∨ caught (handle nl iso8601Utc a req).2 = .ok r) ∧
          resp = r.frame req := by
    rintro e he rfl
    have hown := own_errorReply (hstatus _ he) e.error e.detail
    exact ⟨⟨e.httpStatus, errorBody e.error e.detail, e.retryable, e.restartWorker⟩,
      .inl ⟨hown.status, hown.body, hown.object⟩, rfl⟩
  unfold dispatch handleDecryptBatch at hresp
  split_ifs at hresp with hop
  · exact .inr (herror _ (by decide) (Except.ok.inj hresp))
  · exact .inr (herror _ (by decide) (Except.ok.inj hresp))
  · exact .inr (herror _ (by decide) (Except.ok.inj hresp))
  · split at hresp
    · exact .inr (herror _ (by decide) (Except.ok.inj hresp))
    · cases hresp
    · dsimp only at hresp
      split at hresp
      · exact .inr (herror _ (by simp) (Except.ok.inj hresp))
      · exact .inl ⟨hop, _, (Except.ok.inj hresp).symm⟩
  · cases hcaught : caught (handle nl iso8601Utc a req).2 with
    | error e =>
      change (caught (handle nl iso8601Utc a req).2).map _ = _ at hresp
      rw [hcaught] at hresp
      cases hresp
    | ok r =>
      change (caught (handle nl iso8601Utc a req).2).map _ = _ at hresp
      rw [hcaught] at hresp
      exact .inr ⟨r, .inr rfl, (Except.ok.inj hresp).symm⟩

/-- What the supervisor relies on in a response. -/
structure Faithful (serde : SerdeJson) (req resp : Frame) : Prop where
  kind : resp.kind = kKindResponse
  requestId : resp.requestId = req.requestId
  opcode : resp.opcode = req.opcode
  /-- a binary response is one to a batch -/
  binary : resp.flags &&& 1 = 1 → req.opcode = opDecryptBatch
  /-- any other response is readable -/
  readable : resp.flags &&& 1 ≠ 1 → ∃ w v, parseResponse serde resp = some w ∧
    (w.httpStatus.toNat : Int) ∈ statuses ∧ w.contentType = "application/json" ∧
    read w.body = some v

theorem faithful_of_dispatch {nl : Nlohmann} {serde : SerdeJson} {iso8601Utc : Nat → String}
    {a : Answers} (h : a.Sound) (hread : a.Read serde) {req resp : Frame}
    (hresp : dispatch (a.env nl iso8601Utc) req = .ok resp) : Faithful serde req resp := by
  rcases dispatch_cases hresp with ⟨hop, body, rfl⟩ | ⟨r, hr, rfl⟩
  · refine ⟨rfl, rfl, rfl, fun _ => hop, fun hflag => ?_⟩
    exact absurd (show kFlagBinary &&& 1 = 1 by decide) hflag
  · have hstatus : ∀ i ∈ statuses, ((UInt16.ofNat i.toNat).toNat : Int) = i := by decide
    obtain ⟨hsound, hdepth, b, hb⟩ : r.Sound ∧ r.Read serde := by
      rcases hr with hown | hr
      · exact ⟨hown.sound, hown.read serde⟩
      · exact ⟨sound_handle h hr, read_handle h hread hr⟩
    obtain ⟨v, hv⟩ := (parse_jsonEnvelope_iff serde hsound).mpr ⟨hdepth, b, hb⟩
    have hcanonical := canonical_body hsound hv hb
    refine ⟨rfl, rfl, rfl, fun hflag => ?_, fun _ => ⟨_, b,
      (parseResponse_frame serde hsound req).mpr ⟨hdepth, b, hb, rfl⟩, ?_, rfl,
      read_compact hcanonical⟩⟩
    · have hzero : (0 : UInt16) &&& 1 = 1 := hflag
      exact absurd hzero (by decide)
    · show ((UInt16.ofNat r.status.toNat).toNat : Int) ∈ statuses
      rw [hstatus _ hsound.status]
      exact hsound.status

end Responses

/-! ### The account -/

section Account

variable (nl : Nlohmann) (iso8601Utc : Nat → String) (a : Answers)

/-- A call that begins or ends a session, or goes on with a login. -/
def AccountCall.isCommand : AccountCall → Bool
  | .startLogin _ _ => true
  | .submit2fa _ => true
  | .logout => true
  | _ => false

/-- A login request has this name and this password. -/
def Credentials (v : Value) (name password : String) : Prop :=
  v.get "password" = some (.str password) ∧ name ≠ "" ∧ password ≠ "" ∧
    (v.get "apple_id" = some (.str name) ∧ (∀ u, v.get "username" = some (.str u) → u = name) ∨
      (∀ s, v.get "apple_id" ≠ some (.str s)) ∧ v.get "username" = some (.str name))

theorem stringMember_eq_some {v : Value} {key s : String} :
    stringMember v key = some s ↔ v.get key = some (.str s) := by
  unfold stringMember
  split
  · next s' hget => rw [hget, Option.some.injEq, Option.some.injEq, Value.str.injEq]
  · next hget => exact ⟨fun h => (nomatch h), fun h => absurd h (hget s)⟩

theorem loginName_eq_ok {v : Value} {name : String} : loginName v = .ok name ↔
    (v.get "apple_id" = some (.str name) ∧ (∀ u, v.get "username" = some (.str u) → u = name) ∨
      (∀ s, v.get "apple_id" ≠ some (.str s)) ∧ v.get "username" = some (.str name)) := by
  simp only [← stringMember_eq_some, ne_eq]
  unfold loginName
  cases happle : stringMember v "apple_id" with
  | none =>
    cases huser : stringMember v "username" with
    | none => simp
    | some u => simp
  | some appleId =>
    cases huser : stringMember v "username" with
    | none => simp
    | some u =>
      by_cases hne : appleId = u
      · simp [hne]
      · have hdistinct : appleId = name → ¬ u = name := fun h h' => hne (h.trans h'.symm)
        simpa [hne] using hdistinct

/-- The command among calls, if it is the only one. -/
theorem eq_of_mem_calls {c command : AccountCall} (before : List AccountCall)
    {after : List AccountCall} (hc : c.isCommand = true) (h : c ∈ before ++ command :: after)
    (hother : ∀ other ∈ before ++ after, other.isCommand = false) : c = command := by
  have hne : ∀ other ∈ before ++ after, c ≠ other := by
    rintro other hmem rfl
    rw [hother _ hmem] at hc
    cases hc
  rcases List.mem_append.mp h with h | h
  · exact absurd rfl (hne _ (List.mem_append_left _ h))
  · rcases List.mem_cons.mp h with h | h
    · exact h
    · exact absurd rfl (hne _ (List.mem_append_right _ h))

theorem isCommand_restoreCalls {c : AccountCall} (h : c ∈ restoreCalls a) :
    c.isCommand = false := by
  have hcalls : ∀ c ∈ [AccountCall.state, .triggerRestore], c.isCommand = false := by decide
  refine hcalls c ?_
  unfold restoreCalls at h
  split_ifs at h
  · exact List.mem_cons.mpr (.inl (List.mem_singleton.mp h))
  · exact h
  · exact List.mem_cons.mpr (.inl (List.mem_singleton.mp h))

/-- The commands of a login. -/
theorem command_handleLogin {req : Frame} {c : AccountCall} (hc : c.isCommand = true) :
    c ∈ (handleLogin nl iso8601Utc a req).1 ↔ a.initialized = true ∧ ∃ v name password,
      parsePayloadJson nl req = .ok v ∧ Credentials v name password ∧
        c = .startLogin name password := by
  constructor
  · intro h
    unfold handleLogin at h
    split at h
    · exact absurd h (by simp)
    · next hinit =>
      split at h
      · exact absurd h (by simp)
      · next v hparse =>
        split at h
        · exact absurd h (by simp)
        · next password hpassword =>
          split at h
          · exact absurd h (by simp)
          · next name hname =>
            split at h
            · exact absurd h (by simp)
            · next hempty =>
              rw [not_or] at hempty
              have hcredentials : Credentials v name password :=
                ⟨stringMember_eq_some.mp hpassword, hempty.1, hempty.2, loginName_eq_ok.mp hname⟩
              refine ⟨by simpa using hinit, v, name, password, hparse, hcredentials, ?_⟩
              split at h
              · exact List.mem_singleton.mp h
              · exact eq_of_mem_calls [] hc h (by decide)
  · rintro ⟨hinit, v, name, password, hparse, ⟨hpassword, hname, hne, hrule⟩, rfl⟩
    unfold handleLogin
    rw [hinit, hparse]
    dsimp only
    rw [stringMember_eq_some.mpr hpassword]
    dsimp only
    rw [loginName_eq_ok.mpr hrule]
    dsimp only
    rw [if_neg (not_or.mpr ⟨hname, hne⟩)]
    cases a.startLogin with
    | false => exact List.mem_cons_self
    | true => exact List.mem_cons_self

/-- The commands of a 2FA request. -/
theorem command_handleLogin2fa {req : Frame} {c : AccountCall} (hc : c.isCommand = true) :
    c ∈ (handleLogin2fa nl iso8601Utc a req).1 ↔ ∃ v code, parsePayloadJson nl req = .ok v ∧
      v.get "code" = some (.str code) ∧ code ≠ "" ∧ c = .submit2fa code := by
  constructor
  · intro h
    unfold handleLogin2fa at h
    split at h
    · exact absurd h (by simp)
    · next v hparse =>
      split at h
      · exact absurd h (by simp)
      · next code hcode =>
        split at h
        · exact absurd h (by simp)
        · next hempty =>
          refine ⟨v, code, hparse, stringMember_eq_some.mp hcode, hempty, ?_⟩
          split at h
          · exact List.mem_singleton.mp h
          · exact eq_of_mem_calls [] hc h (by decide)
  · rintro ⟨v, code, hparse, hcode, hempty, rfl⟩
    unfold handleLogin2fa
    rw [hparse]
    dsimp only
    rw [stringMember_eq_some.mpr hcode]
    dsimp only
    rw [if_neg hempty]
    cases a.submit2fa with
    | false => exact List.mem_cons_self
    | true => exact List.mem_cons_self

/-- The other handlers. -/
theorem command_handleLogout {c : AccountCall} (hc : c.isCommand = true) :
    c ∈ (handleLogout a).1 ↔ c = .logout := by
  refine ⟨fun h => eq_of_mem_calls [.state] hc h (by decide), ?_⟩
  rintro rfl
  exact List.mem_cons_of_mem _ List.mem_cons_self

theorem not_command_handleMe {c : AccountCall} (hc : c.isCommand = true) :
    c ∉ (handleMe iso8601Utc a).1 := by
  intro h
  unfold handleMe at h
  rcases List.mem_append.mp h with h | h
  · split_ifs at h
    · rw [isCommand_restoreCalls a h] at hc
      cases hc
    · exact absurd h List.not_mem_nil
  · obtain rfl := List.mem_singleton.mp h
    cases hc

theorem not_command_handlePlayback {req : Frame} {c : AccountCall} (hc : c.isCommand = true) :
    c ∉ (handlePlayback nl a req).1 := by
  intro h
  have hrestore : c ∉ restoreCalls a := fun hmem => by
    rw [isCommand_restoreCalls a hmem] at hc
    cases hc
  unfold handlePlayback at h
  split_ifs at h
  · exact absurd h List.not_mem_nil
  · exact hrestore h
  · exact hrestore h

end Account

/-- **The worker answers.**  Whatever its handlers learn while they serve a request, the requests on
its input are answered one by one and in their order, with one faithful response each, up to one
whose handler throws an exception with a text that is not UTF-8: that one ends the process.  A
response is there as soon as the last byte of its request is. -/
theorem ipc_worker_answers (nl : Nlohmann) (serde : SerdeJson) (iso8601Utc : Nat → String)
    (answers : Nat → { a : Answers // a.Sound ∧ a.Read serde }) (x : Input) :
    let env := fun k => (answers k).1.env nl iso8601Utc
    (∀ k req e, dispatch (env k) req = .error e ↔
        e = .terminated ∧ Terminates nl iso8601Utc (answers k).1 req) ∧
      ∃ resps, List.Forall₂ (Faithful serde) (survived env 0 (served x.frames)) resps ∧
        ∀ cut, runIpcWorker env 0 (x.bytes.take cut) =
          .ok (stream (resps.take (served (x.frames.take (complete x.frames cut))).length)) := by
  intro env
  obtain ⟨resps, hresps, hrun⟩ :=
    runIpcWorker_take (fun h => (dispatch_eq_error_iff.mp h).1) x.closed x.bounded 0
  refine ⟨fun k req e => dispatch_eq_error_iff, resps, ?_, hrun⟩
  refine List.forall₂_iff_get.mpr ⟨hresps.1.symm, fun i hi hi' => ?_⟩
  have h := hresps.2 i _ _ (List.getElem?_eq_getElem hi) (List.getElem?_eq_getElem hi')
  exact faithful_of_dispatch (answers (0 + i)).2.1 (answers (0 + i)).2.2 h

/-- A worker of this version, in which nobody has logged in. -/
def freshAnswers (version : String) : Answers where
  info := { version }
  initialized := true
  playbackReady := true
  restoreSession := none
  state := .loggedOut
  stateAfter := .loggedOut
  startLogin := false
  submit2fa := false
  settled := .loggedOut
  snapshot := {}
  fetchPlaybackJson _ := .error []
  decryptSamples _ _ _ := ⟨false, "not authenticated", []⟩

theorem sound_freshAnswers (version : String) : (freshAnswers version).Sound where
  lastErrorCode := by
    show InRange 0
    decide
  playback adamId r h := by cases h

theorem read_freshAnswers (version : String) (serde : SerdeJson) :
    (freshAnswers version).Read serde := by
  intro adamId r h
  cases h

/-- A library whose error repeats the byte that it cannot read. -/
def repeating : Nlohmann := reader (utf8 "last read: " ++ [34, 255]) none

/-- The second of three requests has a string in its body that is not UTF-8. -/
def brokenString : Input where
  frames := [⟨kKindRequest, 7, opHealth, 0, []⟩, ⟨kKindRequest, 8, opLogin2fa, 0, [34, 255, 34]⟩,
    ⟨kKindRequest, 9, opHealth, 0, []⟩]
  bounded := by decide
  rest := []
  closed x h := by cases h

/-- It ends the process, so that the third one is not answered. -/
theorem ipc_worker_answers_brokenString (serde : SerdeJson) :
    ∃ resp, Faithful serde ⟨kKindRequest, 7, opHealth, 0, []⟩ resp ∧
      runIpcWorker (fun _ => (freshAnswers "1.0.0").env repeating fun _ => "") 0
        brokenString.bytes = .ok (writeFrame resp) := by
  obtain ⟨-, resps, hresps, hrun⟩ := ipc_worker_answers repeating serde (fun _ => "")
    (fun _ => ⟨freshAnswers "1.0.0", sound_freshAnswers _, read_freshAnswers _ _⟩) brokenString
  have hsurvived : survived (fun _ => (freshAnswers "1.0.0").env repeating fun _ => "") 0
      (served brokenString.frames) = [⟨kKindRequest, 7, opHealth, 0, []⟩] := by
    decide +kernel
  rw [hsurvived] at hresps
  obtain ⟨resp, _, hfaithful, hnil, rfl⟩ := List.forall₂_cons_left_iff.mp hresps
  obtain rfl := List.forall₂_nil_left_iff.mp hnil
  have hcomplete : (served (brokenString.frames.take
      (complete brokenString.frames brokenString.bytes.length))).length = 3 := by
    decide +kernel
  have hrun := hrun brokenString.bytes.length
  rw [List.take_length, hcomplete] at hrun
  refine ⟨resp, hfaithful, hrun.trans ?_⟩
  rw [stream, List.take_succ_cons, List.take_nil, List.map_singleton, List.flatten_singleton]

end Daemon

end WrapperPaas
