/-
  A decrypted batch arrives as it should.

  The batch of a client passes through three encoders and three decoders on its way to the worker
  and through as many on its way back.  Each of them is the inverse of its neighbour
  (`Equiv/Frames`, `Equiv/Batch`, `Daemon/Equiv/Ipc`); here they are composed, first over the pipe
  (`decryptBatch_exchange`) and then over the two public routes.
-/
import Mathlib.Data.List.Basic
import WrapperPaas.Protocol.Equiv.Forward

namespace WrapperPaas

open Supervisor

/-- The worker is ready and decrypts the batch with `D`. -/
structure Decrypts (env : Daemon.Env) (D : Bytes → Bytes) (adam uri : String)
    (samples : List Bytes) : Prop where
  initialized : env.initialized = true
  playbackReady : env.playbackReady = true
  authenticated : env.authenticated = true
  ok : (env.decryptSamples (utf8 adam) (utf8 uri) samples).ok = true
  plaintexts : (env.decryptSamples (utf8 adam) (utf8 uri) samples).plaintexts = samples.map D
  /-- in place -/
  length : ∀ x, (D x).length = x.length

@[simp] theorem mapErr_ok {α : Type} (f : String → WorkerError) (a : α) :
    mapErr f (.ok a) = .ok a := rfl

section Exchange

variable {env : Daemon.Env} {D : Bytes → Bytes} {adam uri : String} {samples : List Bytes}

theorem length_flatten_map (hD : ∀ x, (D x).length = x.length) :
    (samples.map D).flatten.length = samples.flatten.length := by
  rw [List.length_flatten, List.length_flatten, List.map_map]
  congr 1
  exact List.map_congr_left fun x _ => hD x

/-- The worker answers the request frame of a batch with its plaintexts. -/
theorem serveRequest_decrypt (h : Decrypts env D adam uri samples)
    (hwf : tcpHeader.WellFormed adam uri samples)
    (hle : (tcpHeader.encode (utf8 adam) (utf8 uri) samples).length ≤ Daemon.kMaxPayload)
    (id : UInt32) :
    let req := requestFrame id opDecryptBatch (tcpHeader.encode (utf8 adam) (utf8 uri) samples)
    Daemon.serveRequest env (frameHeader req ++ req.payload) =
      .ok (Daemon.writeFrame (Daemon.binaryResponse req (encodeSamples (samples.map D))), []) := by
  intro req
  have hk : Daemon.kMaxPayload = 2 ^ 28 := by decide
  have hlen := BatchHeader.length_encode (H := tcpHeader) (utf8 adam) (utf8 uri) samples
  have hread := Daemon.readFrame_append req []
    (by change (tcpHeader.encode _ _ _).length < _; omega)
  rw [if_neg (by change ¬ (tcpHeader.encode _ _ _).length > _; omega), List.append_nil] at hread
  have hparse : Daemon.parseDecryptPayload req = .ok (utf8 adam, utf8 uri, samples) := by
    refine Daemon.parseDecryptPayload_ok_iff.mpr ⟨?_, rfl⟩
    refine ⟨hwf.adam_pos, hwf.adam_lt, hwf.uri_pos, hwf.uri_lt, hwf.samples_pos, hwf.samples_lt,
      fun x hx => (hwf.sample x hx).1, ?_⟩
    change _ ≤ Daemon.kMaxPayload
    omega
  have hhandle : Daemon.handleDecryptBatch env req =
      .ok (Daemon.binaryResponse req (encodeSamples (samples.map D))) := by
    simp only [Daemon.handleDecryptBatch, h.initialized, h.playbackReady, h.authenticated, hparse,
      h.ok, h.plaintexts, List.length_map, Bool.not_true, Bool.false_eq_true, if_false, ne_eq,
      not_true_eq_false, decide_false, Bool.or_false]
    rfl
  rw [Daemon.serveRequest, ← Daemon.frameHeader_eq, hread, ok_bind]
  dsimp only
  have hop : req.opcode = Daemon.opDecryptBatch := rfl
  rw [if_neg (fun hne => hne rfl), Daemon.dispatch, if_pos hop, hhandle, ok_bind]

/-- A request whose answer fits a frame and carries its id and opcode gets this answer. -/
theorem exchange_eq {id : UInt32} {opcode : UInt16} {payload : Bytes} {resp : Frame}
    (hlen : payload.length < 2 ^ 32)
    (hserve : Daemon.serveRequest env (frameHeader (requestFrame id opcode payload) ++ payload) =
      .ok (Daemon.writeFrame resp, []))
    (hresp : resp.payload.length < 2 ^ 32) (hkind : resp.kind = kindResponse)
    (hid : resp.requestId = id) (hop : resp.opcode = opcode) :
    exchange env id opcode payload = .ok resp := by
  have hwrite := writeFrame_eq (f := requestFrame id opcode payload) hlen
  have hread : readFrame readExact (Daemon.writeFrame resp) = .ok (resp, []) := by
    rw [← List.append_nil (Daemon.writeFrame resp)]
    exact readFrame_append hresp
  change Daemon.serveRequest env (frameHeader (requestFrame id opcode payload) ++
    (requestFrame id opcode payload).payload) = _ at hserve
  rw [exchange, hwrite, mapErr_ok, ok_bind, hserve]
  dsimp only
  rw [hread, mapErr_ok, ok_bind]
  dsimp only
  rw [if_neg]
  rintro (h | h | h)
  · exact h hkind
  · exact h hid
  · exact h hop

/-- The plaintexts of a batch have the encoded size of a batch without its identifiers. -/
theorem length_encodeSamples_map (hD : ∀ x, (D x).length = x.length) (samples : List Bytes) :
    (encodeSamples (samples.map D)).length = 4 + 4 * samples.length + samples.flatten.length := by
  rw [length_encodeSamples, List.length_map, length_flatten_map hD]

/-- **The round trip over the pipe** gives the plaintexts back, in order. -/
theorem decryptBatch_exchange (h : Decrypts env D adam uri samples)
    (hwf : tcpHeader.WellFormed adam uri samples)
    (hle : (tcpHeader.encode (utf8 adam) (utf8 uri) samples).length ≤ Daemon.kMaxPayload)
    (id : UInt32) (parseWorkerResponse : Frame → Call WorkerResponse) :
    (decryptBatch (exchange env id) parseWorkerResponse adam uri samples).result =
      .ok (samples.map D) := by
  have hk : Daemon.kMaxPayload = 2 ^ 28 := by decide
  have husize : usizeSize = 2 ^ 64 := rfl
  have hu32 : u32Max = 2 ^ 32 - 1 := rfl
  have hlen := BatchHeader.length_encode (H := tcpHeader) (utf8 adam) (utf8 uri) samples
  have hback := length_encodeSamples_map h.length samples
  have hserve := serveRequest_decrypt h hwf hle id
  have hpayload := decryptBatchPayload_of_wellFormed hwf (by omega)
  have hexchange := exchange_eq (by omega) hserve (by
    change (encodeSamples _).length < _
    omega) rfl rfl rfl
  have hparse : parseDecryptSamplesPayload (encodeSamples (samples.map D)) =
      .ok (samples.map D) := parseDecryptSamplesPayload_encodeSamples
    (by rw [List.length_map]; exact hwf.samples_lt) (fun x hx => by
      obtain ⟨y, hy, rfl⟩ := List.mem_map.mp hx
      have := (hwf.sample y hy).2
      have hmax : maxSampleLen = 2 ^ 26 := by decide
      rw [h.length]
      omega) (by omega)
  have hflag : ∀ req body, (Daemon.binaryResponse req body).flags &&& 1 = 1 := by
    intro req body
    change Daemon.kFlagBinary &&& 1 = 1
    decide
  rw [decryptBatch, hpayload, mapErr_ok]
  dsimp only
  rw [hexchange]
  dsimp only
  rw [if_pos (hflag _ _)]
  change mapErr .protocol (parseDecryptSamplesPayload (encodeSamples (samples.map D))) = _
  rw [hparse, mapErr_ok]

end Exchange

/-! ### The public routes -/

/-- The batches of the claim: adam_id and URI of 1 to 65535 bytes, samples of 1 to 64 MiB, and an
encoding of at most 256 MiB. -/
structure Deliverable (adam uri : String) (samples : List Bytes) : Prop where
  adam_ne : adam ≠ ""
  adam_le : adam.utf8ByteSize ≤ 65535
  uri_ne : uri ≠ ""
  uri_le : uri.utf8ByteSize ≤ 65535
  samples_ne : samples ≠ []
  sample : ∀ x ∈ samples, 1 ≤ x.length ∧ x.length ≤ 64 * 1024 * 1024
  encoded : (tcpHeader.encode (utf8 adam) (utf8 uri) samples).length ≤ 256 * 1024 * 1024

theorem utf8_length_pos {s : String} (h : s ≠ "") : 0 < (utf8 s).length := by
  refine List.length_pos_iff.mpr fun hnil => h ?_
  exact utf8_injective (hnil.trans rfl)

namespace Deliverable

variable {adam uri : String} {samples : List Bytes}

theorem wellFormed (h : Deliverable adam uri samples) (H : BatchHeader)
    (hbound : 2 ^ 16 ≤ H.bound) : H.WellFormed adam uri samples := by
  have hlen := BatchHeader.length_encode (H := tcpHeader) (utf8 adam) (utf8 uri) samples
  have ha := h.adam_le
  have hu := h.uri_le
  have he := h.encoded
  rw [← length_utf8] at ha hu
  exact ⟨utf8_length_pos h.adam_ne, by omega, utf8_length_pos h.uri_ne, by omega,
    List.length_pos_iff.mpr h.samples_ne, by omega, h.sample⟩

end Deliverable

section Routes

variable {decrypt : String → String → List Bytes → WorkerCall (List Bytes)} {adam uri : String}
  {samples plaintexts : List Bytes} {payload : Bytes}

/-- The frame in which the plaintexts of a batch are sent. -/
def okFrame (requestId : UInt32) (payload : Bytes) : DecryptFrame where
  kind := decryptKindOk
  requestId := requestId
  payload := payload

/-- A round of the session on a batch that is decrypted. -/
theorem decryptClientRound_eq {f : DecryptFrame} {rest : Bytes} (hkind : f.kind = decryptKindBatch)
    (hlen : f.payload.length < 2 ^ 32)
    (hparse : parseDecryptBatchPayload f.payload = .ok (adam, uri, samples))
    (hdecrypt : (decrypt adam uri samples).result = .ok plaintexts)
    (hbuild : buildSamplesPayload plaintexts = .ok payload) (hpayload : payload.length < 2 ^ 32) :
    decryptClientRound decrypt (decryptHeader f ++ f.payload ++ rest) =
      .next (decryptHeader (okFrame f.requestId payload) ++ payload) rest := by
  have hclose : ¬ f.kind = decryptKindClose := by
    rw [hkind]
    decide
  have hwrite := writeDecryptFrame_eq (f := okFrame f.requestId payload) hpayload
  rw [decryptClientRound, readDecryptFrame_append hlen]
  dsimp only
  rw [if_neg hclose, if_neg (fun h => h hkind), hparse]
  dsimp only
  rw [hdecrypt]
  dsimp only
  rw [buildDecryptSamplesPayload, hbuild]
  dsimp only
  change sendFrame (okFrame f.requestId payload) _ = _
  rw [sendFrame, hwrite]
  rfl

/-- The HTTP route on a batch that is decrypted. -/
theorem postDecrypt_eq {body : Bytes} (hbody : body.length ≤ maxHttpBody)
    (hparse : parseHttpDecryptBatch body = .ok (adam, uri, samples))
    (hdecrypt : (decrypt adam uri samples).result = .ok plaintexts)
    (hbuild : buildSamplesPayload plaintexts = .ok payload) :
    postDecrypt decrypt body = .ok ⟨200, .octets payload⟩ := by
  rw [postDecrypt, if_neg (Nat.not_lt.mpr hbody), hparse]
  dsimp only
  rw [hdecrypt]
  dsimp only
  rw [buildHttpDecryptSamplesPayload, hbuild, ok_bind]

end Routes

/-- **End-to-end decrypt fidelity.**  The TCP session answers a deliverable batch with a kind-OK
frame that carries the client's request id and decodes to the plaintexts, in order; the HTTP route
answers the same batch, if its body is within the limit, with the same payload. -/
theorem decrypt_fidelity {env : Daemon.Env} {D : Bytes → Bytes} {adam uri : String}
    {samples : List Bytes} (hb : Deliverable adam uri samples)
    (hD : Decrypts env D adam uri samples) (parseWorkerResponse : Frame → Call WorkerResponse) :
    ∃ payload, parseDecryptSamplesPayload payload = .ok (samples.map D) ∧
      (∀ (id requestId : UInt32) (rest : Bytes), ∃ request sent,
        writeDecryptFrame (batchFrame requestId adam uri samples) = .ok request ∧
        decryptClientRound (decryptBatch (exchange env id) parseWorkerResponse) (request ++ rest) =
          .next sent rest ∧
        readDecryptFrame readExact sent = .ok (okFrame requestId payload, [])) ∧
      ∀ id : UInt32, (httpHeader.encode (utf8 adam) (utf8 uri) samples).length ≤ maxHttpBody →
        postDecrypt (decryptBatch (exchange env id) parseWorkerResponse)
          (httpHeader.encode (utf8 adam) (utf8 uri) samples) = .ok ⟨200, .octets payload⟩ := by
  have hwf := hb.wellFormed tcpHeader (Nat.le_refl _)
  have hle := hb.encoded
  have husize : usizeSize = 2 ^ 64 := rfl
  have hlen := BatchHeader.length_encode (H := tcpHeader) (utf8 adam) (utf8 uri) samples
  have hback := length_encodeSamples_map hD.length samples
  have hcount : (samples.map D).length < 2 ^ 32 := by
    rw [List.length_map]
    exact hwf.samples_lt
  have hlt : ∀ x ∈ samples.map D, x.length < 2 ^ 32 := by
    intro x hx
    obtain ⟨y, hy, rfl⟩ := List.mem_map.mp hx
    have := (hb.sample y hy).2
    rw [hD.length]
    omega
  have hpipe := fun id => decryptBatch_exchange hD hwf hle id parseWorkerResponse
  have hbuild := buildSamplesPayload_eq hcount hlt (by omega)
  have hpayload : (encodeSamples (samples.map D)).length < 2 ^ 32 := by omega
  refine ⟨encodeSamples (samples.map D),
    parseDecryptSamplesPayload_encodeSamples hcount hlt (by omega), fun id requestId rest => ?_,
    fun id hbody => ?_⟩
  · have hframe : (batchFrame requestId adam uri samples).payload.length < 2 ^ 32 := by
      change (tcpHeader.encode _ _ _).length < _
      omega
    have hparse : parseDecryptBatchPayload (batchFrame requestId adam uri samples).payload =
        .ok (adam, uri, samples) :=
      (BatchHeader.parse_ok_iff (H := tcpHeader)).mpr ⟨hwf, rfl⟩
    refine ⟨_, _, writeDecryptFrame_eq hframe,
      decryptClientRound_eq rfl hframe hparse (hpipe id) hbuild hpayload, ?_⟩
    have hread : readDecryptFrame readExact (decryptHeader (okFrame requestId _) ++
        encodeSamples (samples.map D) ++ []) = .ok (okFrame requestId _, []) :=
      readDecryptFrame_append hpayload
    rwa [List.append_nil] at hread
  · have hparse : parseHttpDecryptBatch (httpHeader.encode (utf8 adam) (utf8 uri) samples) =
        .ok (adam, uri, samples) :=
      (BatchHeader.parse_ok_iff (H := httpHeader)).mpr ⟨hb.wellFormed httpHeader (by decide), rfl⟩
    exact postDecrypt_eq hbody hparse (hpipe id) hbuild

/-- A worker whose key context inverts every byte. -/
def invertingEnv : Daemon.Env where
  initialized := true
  playbackReady := true
  authenticated := true
  decryptSamples _ _ samples := ⟨true, "", samples.map fun x => x.map fun b => b ^^^ 255⟩
  dump _ := []
  other f := .ok f

theorem decrypt_fidelity_inverting :
    Deliverable "123" "skd://x" [[1, 2, 3], [4]] ∧ ∃ payload,
      parseDecryptSamplesPayload payload = .ok [[254, 253, 252], [251]] ∧
      ∃ request sent, writeDecryptFrame (batchFrame 7 "123" "skd://x" [[1, 2, 3], [4]]) =
        .ok request ∧
      decryptClientRound (decryptBatch (exchange invertingEnv 5) fun _ => .error .panic) request =
        .next sent [] ∧
      readDecryptFrame readExact sent = .ok (okFrame 7 payload, []) := by
  have hb : Deliverable "123" "skd://x" [[1, 2, 3], [4]] :=
    ⟨by decide, by decide, by decide, by decide, by decide, by decide, by decide⟩
  have hD : Decrypts invertingEnv (fun x => x.map fun b => b ^^^ 255) "123" "skd://x"
      [[1, 2, 3], [4]] :=
    ⟨rfl, rfl, rfl, rfl, rfl, fun _ => List.length_map ..⟩
  obtain ⟨payload, hparse, htcp, -⟩ := decrypt_fidelity hb hD fun _ => .error .panic
  obtain ⟨request, sent, hrequest, hround, hsent⟩ := htcp 5 7 []
  rw [List.append_nil] at hround
  exact ⟨hb, payload, hparse, request, sent, hrequest, hround, hsent⟩

end WrapperPaas
