/-
  The batch payloads of the supervisor: the encoder and the response decoder it uses towards the
  worker (`src/rust/protocol.rs`) and the public parsers of the TCP (`src/rust/main.rs`) and HTTP
  (`src/rust/protocol.rs`) batch formats with their response encoders.

  The two public parsers are the same function of the batch header, as are the two response
  encoders.
-/
import Mathlib.Data.List.Basic
import WrapperPaas.Protocol.Frames

namespace WrapperPaas

namespace Supervisor

/-- What a batch parser returns: adam_id, key URI and ciphertext samples. -/
abbrev Batch := String × String × List Bytes

/-- The parsers' limit on one sample, 64 MiB. -/
def maxSampleLen : Nat := 64 * 1024 * 1024

/-! ### Towards the worker -/

/-- The checks `decrypt_batch_payload` makes while it adds the samples' lengths up. -/
def addSampleLen (size : Nat) (sample : Bytes) : Outcome Nat :=
  if sample = [] ∨ sample.length > u32Max then invalidInput "invalid decrypt sample length"
  else checkedAdd size sample.length (invalidInput "decrypt payload too large")

/-- `decrypt_batch_payload`.  The size is only used as a capacity. -/
def decryptBatchPayload (adam uri : String) (samples : List Bytes) : Outcome Bytes :=
  let tooLarge : Outcome Nat := invalidInput "decrypt payload too large"
  if (utf8 adam).length > u16Max ∨ (utf8 uri).length > u16Max ∨ samples.length > u32Max then
    invalidInput "decrypt payload too large"
  else if samples = [] then invalidInput "decrypt batch must not be empty"
  else do
    let size ← checkedAdd 8 (← checkedMul samples.length 4 tooLarge) tooLarge
    let size ← checkedAdd size (utf8 adam).length tooLarge
    let size ← checkedAdd size (utf8 uri).length tooLarge
    let _ ← samples.foldlM addSampleLen size
    .ok (be16 (utf8 adam).length ++ (be16 (utf8 uri).length ++ (be32 samples.length ++
      (wordTable (samples.map List.length) ++ (utf8 adam ++ (utf8 uri ++ samples.flatten))))))

/-- The loop that cuts consecutive samples out of `data` and returns the offset it ends at. -/
def takeSamples (tooLarge : String) (data : Bytes) :
    (offset : Nat) → (lengths : List Nat) → Outcome (List Bytes × Nat)
  | offset, [] => .ok ([], offset)
  | offset, len :: lengths => do
    let stop ← checkedAdd offset len (invalidData tooLarge)
    if stop > data.length then invalidData "truncated decrypt sample"
    else
      let sample ← slice .panic data offset stop
      let (samples, offset) ← takeSamples tooLarge data stop lengths
      .ok (sample :: samples, offset)

/-- `parse_decrypt_samples_payload`. -/
def parseDecryptSamplesPayload (data : Bytes) : Outcome (List Bytes) :=
  let tooLarge : Outcome Nat := invalidData "decrypt response too large"
  if data.length < 4 then invalidData "decrypt response too short"
  else do
    let sampleCount ← readU32 .panic data 0
    let tableEnd ← checkedAdd 4 (← checkedMul sampleCount 4 tooLarge) tooLarge
    if data.length < tableEnd then invalidData "truncated decrypt length table"
    else
      let lengths ←
        forWords .panic data 4 (fun lengths len => .ok (lengths ++ [len])) 0 sampleCount []
      let (samples, offset) ← takeSamples "decrypt response too large" data tableEnd lengths
      if offset ≠ data.length then invalidData "trailing decrypt response bytes"
      else .ok samples

/-! ### Public batches -/

/-- The body of the length loop of the batch parsers. -/
def pushLength (lengths : List Nat) (len : Nat) : Outcome (List Nat) :=
  if len = 0 ∨ len > maxSampleLen then invalidData "invalid decrypt sample length"
  else .ok (lengths ++ [len])

/-- `String::from_utf8` with its error replaced. -/
def fromUtf8 (b : Bytes) (message : String) : Outcome String :=
  match ofUtf8 b with
  | some s => .ok s
  | none => invalidData message

/-- The common code of the batch parsers; `readHeader` returns the lengths of adam_id and URI and
the sample count. -/
def parseBatch (headerLen : Nat) (readHeader : Bytes → Outcome (Nat × Nat × Nat)) (body : Bytes) :
    Outcome Batch :=
  let tooLarge : Outcome Nat := invalidData "decrypt batch too large"
  if body.length < headerLen then invalidData "decrypt batch too short"
  else do
    let (adamLen, uriLen, sampleCount) ← readHeader body
    if adamLen = 0 ∨ uriLen = 0 ∨ sampleCount = 0 then invalidData "empty decrypt batch field"
    else
      let tableEnd ← checkedAdd headerLen (← checkedMul sampleCount 4 tooLarge) tooLarge
      let fixedEnd ← checkedAdd (← checkedAdd tableEnd adamLen tooLarge) uriLen tooLarge
      if body.length < fixedEnd then invalidData "truncated decrypt batch header"
      else
        let lengths ← forWords .panic body headerLen pushLength 0 sampleCount []
        let uriStart := tableEnd + adamLen
        let sampleStart := uriStart + uriLen
        let adam ← fromUtf8 (← slice .panic body tableEnd uriStart) "adam_id is not utf-8"
        let uri ← fromUtf8 (← slice .panic body uriStart sampleStart) "uri is not utf-8"
        let (samples, offset) ← takeSamples "decrypt batch too large" body sampleStart lengths
        if offset ≠ body.length then invalidData "trailing decrypt batch bytes"
        else .ok (adam, uri, samples)

/-- u16 adam_id length, u16 URI length, u32 sample count. -/
def readTcpHeader (body : Bytes) : Outcome (Nat × Nat × Nat) := do
  let adamLen ← readU16 .panic body 0
  let uriLen ← readU16 .panic body 2
  let sampleCount ← readU32 .panic body 4
  .ok (adamLen, uriLen, sampleCount)

/-- u32 adam_id length, u32 URI length, u32 sample count. -/
def readHttpHeader (body : Bytes) : Outcome (Nat × Nat × Nat) := do
  let adamLen ← readU32 .panic body 0
  let uriLen ← readU32 .panic body 4
  let sampleCount ← readU32 .panic body 8
  .ok (adamLen, uriLen, sampleCount)

/-- `parse_decrypt_batch_payload`. -/
def parseDecryptBatchPayload : Bytes → Outcome Batch := parseBatch 8 readTcpHeader

/-- `parse_http_decrypt_batch`. -/
def parseHttpDecryptBatch : Bytes → Outcome Batch := parseBatch 12 readHttpHeader

/-! ### Responses to clients -/

/-- The checks of the response encoders while they add the samples' lengths up. -/
def addPlaintextLen (size : Nat) (sample : Bytes) : Outcome Nat :=
  if sample.length > u32Max then invalidInput "decrypt sample too large"
  else checkedAdd size sample.length (invalidInput "decrypt response too large")

/-- The common code of the response encoders. -/
def buildSamplesPayload (samples : List Bytes) : Outcome Bytes :=
  let tooLarge : Outcome Nat := invalidInput "decrypt response too large"
  if samples.length > u32Max then invalidInput "too many decrypt samples"
  else do
    let size ← checkedAdd 4 (← checkedMul samples.length 4 tooLarge) tooLarge
    let _ ← samples.foldlM addPlaintextLen size
    .ok (be32 samples.length ++ (wordTable (samples.map List.length) ++ samples.flatten))

/-- `build_decrypt_samples_payload`. -/
def buildDecryptSamplesPayload : List Bytes → Outcome Bytes := buildSamplesPayload

/-- `build_http_decrypt_samples_payload`. -/
def buildHttpDecryptSamplesPayload : List Bytes → Outcome Bytes := buildSamplesPayload

end Supervisor

end WrapperPaas
