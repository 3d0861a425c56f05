/-
  Which accepted batches the worker accepts too.

  The supervisor re-encodes a parsed batch for the worker.  For a batch that fits the u16 length
  fields the re-encoding is the TCP encoding, and the worker takes it exactly if the payload has at
  most 256 MiB (`forwardable_iff`).  The TCP listener has no limit on the payload, and the HTTP
  parser has none on adam_id and URI below the body limit, so each accepts batches that cannot be
  forwarded; the two theorems say which.
-/
import Mathlib.Data.List.Basic
import WrapperPaas.Daemon.Equiv.Ipc
import WrapperPaas.Protocol.Routes

namespace WrapperPaas

open Supervisor

/-- The supervisor can encode the batch, and the worker reads the request frame of any request and
parses the identical batch out of it. -/
def Forwardable (adam uri : String) (samples : List Bytes) : Prop :=
  ∃ p, decryptBatchPayload adam uri samples = .ok p ∧ ∀ id : UInt32, ∃ bytes req,
    writeFrame (requestFrame id opDecryptBatch p) = .ok bytes ∧
      Daemon.readFrame Daemon.readFull bytes = .ok (req, []) ∧
      Daemon.parseDecryptPayload req = .ok (utf8 adam, utf8 uri, samples)

section

variable {adam uri : String} {samples : List Bytes}

/-- The worker's re-encoding of a well-formed batch. -/
theorem decryptBatchPayload_of_wellFormed (hwf : tcpHeader.WellFormed adam uri samples)
    (hlt : (tcpHeader.encode (utf8 adam) (utf8 uri) samples).length < usizeSize) :
    decryptBatchPayload adam uri samples =
      .ok (tcpHeader.encode (utf8 adam) (utf8 uri) samples) := by
  have hb : tcpHeader.bound = 2 ^ 16 := rfl
  have ha := hwf.adam_lt
  have hu := hwf.uri_lt
  have hn := hwf.samples_lt
  have hu16 : u16Max = 2 ^ 16 - 1 := rfl
  have hu32 : u32Max = 2 ^ 32 - 1 := rfl
  have hmax : maxSampleLen = 2 ^ 26 := by decide
  refine (decryptBatchPayload_ok_iff hlt).mpr ⟨by omega, ?_, fun x hx => ?_, rfl⟩
  · exact List.ne_nil_of_length_pos hwf.samples_pos
  · obtain ⟨hpos, hle⟩ := hwf.sample x hx
    exact ⟨List.ne_nil_of_length_pos hpos, by omega⟩

/-- A well-formed batch is forwardable exactly if its encoding is within the worker's limit. -/
theorem forwardable_iff (hwf : tcpHeader.WellFormed adam uri samples)
    (hlt : (tcpHeader.encode (utf8 adam) (utf8 uri) samples).length < 2 ^ 32) :
    Forwardable adam uri samples ↔
      (tcpHeader.encode (utf8 adam) (utf8 uri) samples).length ≤ Daemon.kMaxPayload := by
  have husize : usizeSize = 2 ^ 64 := rfl
  have hu32 : u32Max = 2 ^ 32 - 1 := rfl
  have hpayload := decryptBatchPayload_of_wellFormed hwf (by omega)
  generalize henc : tcpHeader.encode (utf8 adam) (utf8 uri) samples = p at hlt hpayload ⊢
  have hread : ∀ id : UInt32, writeFrame (requestFrame id opDecryptBatch p) =
      .ok (frameHeader (requestFrame id opDecryptBatch p) ++ p) :=
    fun id => writeFrame_eq (f := requestFrame id opDecryptBatch p) hlt
  have hworker : ∀ id : UInt32, Daemon.readFrame Daemon.readFull
      (frameHeader (requestFrame id opDecryptBatch p) ++ p) =
        if p.length > Daemon.kMaxPayload then .error .failed
        else .ok (requestFrame id opDecryptBatch p, []) := by
    intro id
    have h := Daemon.readFrame_append (requestFrame id opDecryptBatch p) [] hlt
    rwa [List.append_nil] at h
  constructor
  · rintro ⟨p', hp', hserve⟩
    obtain rfl := Except.ok.inj (hpayload.symm.trans hp')
    obtain ⟨bytes, req, hbytes, hreq, -⟩ := hserve 0
    obtain rfl := Except.ok.inj ((hread 0).symm.trans hbytes)
    rw [hworker] at hreq
    split_ifs at hreq with hbig
    exact Nat.not_lt.mp hbig
  · intro hle
    refine ⟨p, hpayload, fun id => ⟨_, requestFrame id opDecryptBatch p, hread id, ?_, ?_⟩⟩
    · rw [hworker, if_neg (by omega)]
    · refine Daemon.parseDecryptPayload_ok_iff.mpr ⟨?_, henc.symm⟩
      refine ⟨hwf.adam_pos, hwf.adam_lt, hwf.uri_pos, hwf.uri_lt, hwf.samples_pos, hwf.samples_lt,
        fun x hx => (hwf.sample x hx).1, ?_⟩
      have hlen := BatchHeader.length_encode (H := tcpHeader) (utf8 adam) (utf8 uri) samples
      rw [henc] at hlen
      change _ ≤ Daemon.kMaxPayload
      omega

end

/-! ### The TCP listener -/

/-- **TCP batches.**  A batch that the public listener accepts is forwarded to the worker unharmed
exactly if its frame's payload has at most 256 MiB. -/
theorem tcp_batch_forwardable_iff {input rest : Bytes} {frame : DecryptFrame} {adam uri : String}
    {samples : List Bytes} (hread : readDecryptFrame readExact input = .ok (frame, rest))
    (hparse : parseDecryptBatchPayload frame.payload = .ok (adam, uri, samples)) :
    Forwardable adam uri samples ↔ frame.payload.length ≤ 256 * 1024 * 1024 := by
  have hlt := (readDecryptFrame_eq_ok.mp hread).2
  have husize : usizeSize = 2 ^ 64 := rfl
  obtain ⟨hwf, henc⟩ := (BatchHeader.parse_ok_iff (H := tcpHeader)).mp hparse
  rw [henc] at hlt ⊢
  exact forwardable_iff hwf hlt

/-- A batch of `n` samples of 64 MiB. -/
def largeSamples (n : Nat) : List Bytes := List.replicate n (List.replicate maxSampleLen 0)

theorem length_flatten_largeSamples (n : Nat) :
    (largeSamples n).flatten.length = n * maxSampleLen := by
  rw [largeSamples, List.length_flatten, List.map_replicate, List.length_replicate,
    List.sum_replicate_nat]

theorem wellFormed_largeSamples {n : Nat} (hpos : 0 < n) (hlt : n < 2 ^ 32) :
    tcpHeader.WellFormed "1" "u" (largeSamples n) where
  adam_pos := by decide
  adam_lt := by decide
  uri_pos := by decide
  uri_lt := by decide
  samples_pos := by rwa [largeSamples, List.length_replicate]
  samples_lt := by rwa [largeSamples, List.length_replicate]
  sample x hx := by
    obtain rfl := List.eq_of_mem_replicate hx
    rw [List.length_replicate]
    decide

/-- The frame in which a client sends a batch. -/
def batchFrame (requestId : UInt32) (adam uri : String) (samples : List Bytes) : DecryptFrame where
  kind := decryptKindBatch
  requestId := requestId
  payload := tcpHeader.encode (utf8 adam) (utf8 uri) samples

theorem length_largeSamples_encode (n : Nat) :
    (tcpHeader.encode (utf8 "1") (utf8 "u") (largeSamples n)).length =
      10 + 4 * n + n * maxSampleLen := by
  rw [BatchHeader.length_encode, length_flatten_largeSamples, largeSamples, List.length_replicate]
  change 8 + 4 * n + 1 + 1 + _ = _
  omega

/-- The listener accepts a frame of up to 60 such samples. -/
theorem read_largeSamples {n : Nat} (hpos : 0 < n) (hle : n ≤ 60) :
    let frame := batchFrame 1 "1" "u" (largeSamples n)
    readDecryptFrame readExact (decryptHeader frame ++ frame.payload ++ []) = .ok (frame, []) ∧
      parseDecryptBatchPayload frame.payload = .ok ("1", "u", largeSamples n) := by
  have hmax : maxSampleLen = 2 ^ 26 := by decide
  have husize : usizeSize = 2 ^ 64 := rfl
  have hlen := length_largeSamples_encode n
  rw [hmax] at hlen
  refine ⟨readDecryptFrame_append ?_, (BatchHeader.parse_ok_iff (H := tcpHeader)).mpr
    ⟨wellFormed_largeSamples hpos (by omega), rfl⟩⟩
  change (tcpHeader.encode _ _ _).length < _
  omega

theorem tcp_batch_forwardable_iff_largeSample :
    Forwardable "1" "u" (largeSamples 1) ↔
      (batchFrame 1 "1" "u" (largeSamples 1)).payload.length ≤ 256 * 1024 * 1024 :=
  tcp_batch_forwardable_iff (read_largeSamples (by decide) (by decide)).1
    (read_largeSamples (by decide) (by decide)).2

/-- Five samples of 64 MiB are accepted and cannot be forwarded. -/
theorem tcp_batch_not_forwardable :
    ¬ ∀ (input rest : Bytes) (frame : DecryptFrame) (adam uri : String) (samples : List Bytes),
      readDecryptFrame readExact input = .ok (frame, rest) →
        parseDecryptBatchPayload frame.payload = .ok (adam, uri, samples) →
          Forwardable adam uri samples := by
  intro hall
  obtain ⟨hread, hparse⟩ := read_largeSamples (n := 5) (by decide) (by decide)
  have hforward := hall _ _ _ _ _ _ hread hparse
  have hlen := length_largeSamples_encode 5
  have hmax : maxSampleLen = 2 ^ 26 := by decide
  rw [forwardable_iff (wellFormed_largeSamples (by decide) (by decide)) (by omega), hlen,
    hmax] at hforward
  exact absurd hforward (by decide)

/-! ### The HTTP route -/

/-- A batch that can be forwarded fits the u16 length fields. -/
theorem Forwardable.lengths_le {adam uri : String} {samples : List Bytes}
    (hsize : (tcpHeader.encode (utf8 adam) (utf8 uri) samples).length < usizeSize)
    (h : Forwardable adam uri samples) :
    (utf8 adam).length ≤ u16Max ∧ (utf8 uri).length ≤ u16Max := by
  obtain ⟨p, hp, -⟩ := h
  obtain ⟨⟨ha, hu, -⟩, -⟩ := (decryptBatchPayload_ok_iff hsize).mp hp
  exact ⟨ha, hu⟩

/-- The encoding for the worker is four bytes shorter than the HTTP body. -/
theorem length_httpHeader_encode (adam uri : Bytes) (samples : List Bytes) :
    (httpHeader.encode adam uri samples).length =
      (tcpHeader.encode adam uri samples).length + 4 := by
  rw [BatchHeader.length_encode, BatchHeader.length_encode]
  change 12 + _ + _ + _ + _ = 8 + _ + _ + _ + _ + 4
  omega

/-- **HTTP batches.**  A batch that the HTTP route accepts is forwarded to the worker unharmed
exactly if adam_id and URI fit the u16 length fields of the worker's format. -/
theorem http_batch_forwardable_iff {body : Bytes} {adam uri : String} {samples : List Bytes}
    (hbody : body.length ≤ maxHttpBody)
    (hparse : parseHttpDecryptBatch body = .ok (adam, uri, samples)) :
    Forwardable adam uri samples ↔ (utf8 adam).length ≤ 65535 ∧ (utf8 uri).length ≤ 65535 := by
  have husize : usizeSize = 2 ^ 64 := rfl
  have hmax : maxHttpBody = 2 ^ 26 := by decide
  obtain ⟨hwf, rfl⟩ := (BatchHeader.parse_ok_iff (H := httpHeader)).mp hparse
  rw [length_httpHeader_encode] at hbody
  constructor
  · intro h
    exact h.lengths_le (by omega)
  · rintro ⟨ha, hu⟩
    have hwf' : tcpHeader.WellFormed adam uri samples :=
      ⟨hwf.adam_pos, Nat.lt_succ_of_le ha, hwf.uri_pos, Nat.lt_succ_of_le hu, hwf.samples_pos,
        hwf.samples_lt, hwf.sample⟩
    refine (forwardable_iff hwf' (by omega)).mpr ?_
    have hk : Daemon.kMaxPayload = 2 ^ 28 := by decide
    omega

/-- An adam_id of `2 ^ k` letters. -/
def longId : Nat → String
  | 0 => "a"
  | k + 1 => longId k ++ longId k

theorem length_longId (k : Nat) : (utf8 (longId k)).length = 2 ^ k := by
  induction k with
  | zero => decide
  | succ k ih =>
    rw [length_utf8] at ih ⊢
    rw [longId, String.utf8ByteSize_append, ih, Nat.pow_succ]
    omega

/-- The HTTP body with this adam_id, a URI of one letter and a sample of one byte. -/
theorem parse_longId {k : Nat} (hk : k ≤ 20) :
    (httpHeader.encode (utf8 (longId k)) (utf8 "u") [[0]]).length ≤ maxHttpBody ∧
      parseHttpDecryptBatch (httpHeader.encode (utf8 (longId k)) (utf8 "u") [[0]]) =
        .ok (longId k, "u", [[0]]) := by
  have hpow : 2 ^ k ≤ 2 ^ 20 := Nat.pow_le_pow_right (by decide) hk
  have hpos : 0 < 2 ^ k := Nat.two_pow_pos k
  have hlen : (httpHeader.encode (utf8 (longId k)) (utf8 "u") [[0]]).length = 18 + 2 ^ k := by
    rw [BatchHeader.length_encode, length_longId]
    change 12 + 4 * 1 + _ + 1 + 1 = _
    omega
  have husize : usizeSize = 2 ^ 64 := rfl
  have hmax : maxHttpBody = 2 ^ 26 := by decide
  refine ⟨by omega, (BatchHeader.parse_ok_iff (H := httpHeader)).mpr ⟨?_, rfl⟩⟩
  refine ⟨by rwa [length_longId], ?_, by decide, by decide, by decide, by decide, by decide⟩
  rw [length_longId]
  change _ < 2 ^ 32
  omega

theorem http_batch_forwardable_iff_longId :
    Forwardable (longId 4) "u" [[0]] ↔
      (utf8 (longId 4)).length ≤ 65535 ∧ (utf8 "u").length ≤ 65535 :=
  http_batch_forwardable_iff (parse_longId (by decide)).1 (parse_longId (by decide)).2

/-- An adam_id of 65536 letters is accepted and cannot be forwarded. -/
theorem http_batch_not_forwardable :
    ¬ ∀ (body : Bytes) (adam uri : String) (samples : List Bytes), body.length ≤ maxHttpBody →
      parseHttpDecryptBatch body = .ok (adam, uri, samples) → Forwardable adam uri samples := by
  intro hall
  obtain ⟨hbody, hparse⟩ := parse_longId (k := 16) (by decide)
  have hforward := hall _ _ _ _ hbody hparse
  have hmax : maxHttpBody = 2 ^ 26 := by decide
  have husize : usizeSize = 2 ^ 64 := rfl
  rw [length_httpHeader_encode] at hbody
  obtain ⟨ha, -⟩ := hforward.lengths_le (by omega)
  rw [length_longId] at ha
  exact absurd ha (by decide)

end WrapperPaas
