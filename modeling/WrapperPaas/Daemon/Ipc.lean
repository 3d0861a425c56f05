/-
  The worker's side of the WV2I pipe (`src/daemon/ipc.cpp`): its frame codec, the decrypt batch
  payload codec and the dispatch loop around them.

  Apple's library and the JSON library are outside the repository.  What the handlers learn from
  them is collected in `Env`.
-/
import Mathlib.Data.List.Basic
import WrapperPaas.Protocol.Frames

namespace WrapperPaas

namespace Daemon

/-- A function returned false, a pointer was read past the end of its buffer, or an exception that
nobody catches has terminated the process. -/
inductive Failure where
  | failed
  | outOfBounds
  | terminated
  deriving DecidableEq, Repr

abbrev Outcome (α : Type) := Except Failure α

/-! ### Constants -/

/-- The bytes "WV2I". -/
def kMagic : Nat := 0x57563249
def kVersion : Nat := 1
def kKindRequest : UInt16 := 1
def kKindResponse : UInt16 := 2
def kFlagBinary : UInt16 := 1

/-- 256 MiB. -/
def kMaxPayload : Nat := 256 * 1024 * 1024

def opDecryptBatch : UInt16 := 7

/-- Arithmetic on `std::uint64_t` wraps. -/
def wrap64 (n : Nat) : Nat := n % 2 ^ 64

/-! ### Frames -/

/-- `read_frame`; `readFull` is `read_full` on standard input. -/
def readFrame {σ : Type} (readFull : σ → Nat → Outcome (Bytes × σ)) (r : σ) :
    Outcome (Frame × σ) := do
  let (h, r) ← readFull r 20
  let magic ← readU32 .outOfBounds h 0
  let version ← readU16 .outOfBounds h 4
  if magic ≠ kMagic ∨ version ≠ kVersion then .error .failed
  else
    let kind ← readU16 .outOfBounds h 6
    let requestId ← readU32 .outOfBounds h 8
    let opcode ← readU16 .outOfBounds h 12
    let flags ← readU16 .outOfBounds h 14
    let payloadLen ← readU32 .outOfBounds h 16
    let frame : Frame := ⟨.ofNat kind, .ofNat requestId, .ofNat opcode, .ofNat flags, []⟩
    if payloadLen > kMaxPayload then .error .failed
    else if payloadLen = 0 then .ok (frame, r)
    else
      let (payload, r) ← readFull r payloadLen
      .ok ({ frame with payload := payload }, r)

/-- `read_full` on a stream whose remaining bytes are given. -/
def readFull (b : Bytes) (n : Nat) : Outcome (Bytes × Bytes) :=
  if n ≤ b.length then .ok (b.take n, b.drop n) else .error .failed

/-- The header that `write_frame` appends word by word. -/
def frameHeader (f : Frame) : Bytes :=
  be32 kMagic ++ (be16 kVersion ++ (be16 f.kind.toNat ++ (be32 f.requestId.toNat ++
    (be16 f.opcode.toNat ++ (be16 f.flags.toNat ++ (be32 f.payload.length ++ []))))))

/-- What `write_frame` writes. -/
def writeFrame (f : Frame) : Bytes := frameHeader f ++ f.payload

/-! ### Decrypt batches -/

/-- The body of the length loop of `parse_decrypt_payload`, over `lengths` and `sample_bytes`. -/
def countSample (s : List Nat × Nat) (n : Nat) : Outcome (List Nat × Nat) :=
  if n = 0 then .error .failed
  else
    let sampleBytes := wrap64 (s.2 + n)
    if sampleBytes > 256 * 1024 * 1024 then .error .failed
    else .ok (s.1 ++ [n], sampleBytes)

/-- The loop that copies the samples out of the payload. -/
def copySamples (p : Bytes) : (s : Nat) → (lengths : List Nat) → Outcome (List Bytes)
  | _, [] => .ok []
  | s, n :: lengths => do
    let sample ← slice .outOfBounds p s (s + n)
    let samples ← copySamples p (s + n) lengths
    .ok (sample :: samples)

/-- `parse_decrypt_payload`. -/
def parseDecryptPayload (req : Frame) : Outcome (Bytes × Bytes × List Bytes) :=
  let p := req.payload
  if p.length < 8 then .error .failed
  else do
    let adamLen ← readU16 .outOfBounds p 0
    let uriLen ← readU16 .outOfBounds p 2
    let sampleCount ← readU32 .outOfBounds p 4
    if adamLen = 0 ∨ uriLen = 0 ∨ sampleCount = 0 then .error .failed
    else
      let tableBytes := wrap64 (sampleCount * 4)
      let fixed := wrap64 (8 + tableBytes + adamLen + uriLen)
      if fixed > p.length then .error .failed
      else
        let (lengths, sampleBytes) ← forWords .outOfBounds p 8 countSample 0 sampleCount ([], 0)
        if wrap64 (fixed + sampleBytes) ≠ p.length then .error .failed
        else
          let s := 8 + tableBytes
          let adamId ← slice .outOfBounds p s (s + adamLen)
          let uri ← slice .outOfBounds p (s + adamLen) (s + adamLen + uriLen)
          let samples ← copySamples p (s + adamLen + uriLen) lengths
          .ok (adamId, uri, samples)

/-- `build_decrypt_response_payload`. -/
def buildDecryptResponsePayload (samples : List Bytes) : Bytes :=
  be32 samples.length ++ (wordTable (samples.map List.length) ++ samples.flatten)

/-! ### Handlers -/

/-- The JSON envelope of a response whose body is an error object. -/
structure Envelope where
  httpStatus : Nat
  error : String
  detail : String
  retryable : Bool := false
  restartWorker : Bool := false
  deriving DecidableEq, Repr

structure DecryptResult where
  ok : Bool
  error : String
  plaintexts : List Bytes
  deriving DecidableEq, Repr

/-- What the handlers depend on. -/
structure Env where
  /-- `rt.initialized()` -/
  initialized : Bool
  /-- `rt.playback_ready()` -/
  playbackReady : Bool
  /-- `authenticated_or_restored(account, loader, rt)` -/
  authenticated : Bool
  /-- `apple::decrypt_samples(loader, rt, adam_id, uri, samples)` -/
  decryptSamples : Bytes → Bytes → List Bytes → DecryptResult
  /-- the text of an envelope -/
  dump : Envelope → Bytes
  /-- the handlers of the other opcodes -/
  other : Frame → Outcome Frame

def jsonResponse (env : Env) (req : Frame) (e : Envelope) : Frame where
  kind := kKindResponse
  requestId := req.requestId
  opcode := req.opcode
  flags := 0
  payload := env.dump e

def binaryResponse (req : Frame) (body : Bytes) : Frame where
  kind := kKindResponse
  requestId := req.requestId
  opcode := req.opcode
  flags := kFlagBinary
  payload := body

/-- `handle_decrypt_batch`. -/
def handleDecryptBatch (env : Env) (req : Frame) : Outcome Frame :=
  if !env.initialized then
    .ok (jsonResponse env req {
      httpStatus := 503
      error := "runtime_not_initialized"
      detail := "Apple lib init has not completed; check /health" })
  else if !env.playbackReady then
    .ok (jsonResponse env req {
      httpStatus := 503
      error := "decrypt_unavailable"
      detail := "FPS playback stack did not initialize; check /health.runtime" })
  else if !env.authenticated then
    .ok (jsonResponse env req {
      httpStatus := 401
      error := "not_authenticated"
      detail := "POST /login or restore a session first" })
  else
    match parseDecryptPayload req with
    | .error .failed =>
      .ok (jsonResponse env req {
        httpStatus := 400
        error := "invalid_frame"
        detail := "invalid decrypt batch payload" })
    | .error e => .error e
    | .ok (adamId, uri, samples) =>
      let expectedCount := samples.length
      let dr := env.decryptSamples adamId uri samples
      if !dr.ok || dr.plaintexts.length ≠ expectedCount then
        .ok (jsonResponse env req {
          httpStatus := 502
          error := "decrypt_failed"
          detail := if dr.error = "" then "FPS decrypt failed" else dr.error
          retryable := true
          restartWorker := true })
      else .ok (binaryResponse req (buildDecryptResponsePayload dr.plaintexts))

def dispatch (env : Env) (req : Frame) : Outcome Frame :=
  if req.opcode = opDecryptBatch then handleDecryptBatch env req else env.other req

/-- One round of `run_ipc_worker` on the given input: the bytes it writes and the input left.  It
ends the loop with `failed` when no frame can be read. -/
def serveRequest (env : Env) (input : Bytes) : Outcome (Bytes × Bytes) := do
  let (req, input) ← readFrame readFull input
  if req.kind ≠ kKindRequest then .ok ([], input)
  else
    let resp ← dispatch env req
    .ok (writeFrame resp, input)

end Daemon

end WrapperPaas
