/-
  The frame formats of the supervisor (`src/rust/protocol.rs` and the timed twins of its reader and
  writer in `src/rust/worker.rs`): WV2I towards the worker process, WV2D towards decrypt clients.

  A reader is generic in the stream it reads from, as the source's `impl Read` is: it is given the
  stream's `read_exact`.  A writer is the byte string it writes.
-/
import Mathlib.Data.List.Basic
import WrapperPaas.Lib.Bytes

namespace WrapperPaas

/-- A WV2I frame, on either side of the pipe. -/
structure Frame where
  kind : UInt16
  requestId : UInt32
  opcode : UInt16
  flags : UInt16
  payload : Bytes
  deriving DecidableEq, Repr

/-- A WV2D frame. -/
structure DecryptFrame where
  kind : UInt16
  requestId : UInt32
  payload : Bytes
  deriving DecidableEq, Repr

namespace Supervisor

/-! ### Failures -/

/-- The `io::ErrorKind`s that the codecs produce or tell apart. -/
inductive ErrorKind where
  | invalidInput
  | invalidData
  | unexpectedEof
  | writeZero
  | timedOut
  | other
  deriving DecidableEq, Repr

/-- An `io::Error`, or the panic of an index or slice out of range. -/
inductive Failure where
  | err (kind : ErrorKind) (message : String)
  | panic
  deriving DecidableEq, Repr

abbrev Outcome (α : Type) := Except Failure α

def invalidData {α : Type} (message : String) : Outcome α := .error (.err .invalidData message)

def invalidInput {α : Type} (message : String) : Outcome α := .error (.err .invalidInput message)

/-- The number of values of a 64-bit `usize`. -/
def usizeSize : Nat := 2 ^ 64

/-- `a.checked_add(b).ok_or_else(|| e)` on `usize`. -/
def checkedAdd (a b : Nat) (e : Outcome Nat) : Outcome Nat :=
  if a + b < usizeSize then .ok (a + b) else e

/-- `a.checked_mul(b).ok_or_else(|| e)` on `usize`. -/
def checkedMul (a b : Nat) (e : Outcome Nat) : Outcome Nat :=
  if a * b < usizeSize then .ok (a * b) else e

/-- `u32::MAX as usize`. -/
def u32Max : Nat := 2 ^ 32 - 1

/-- `u16::MAX as usize`. -/
def u16Max : Nat := 2 ^ 16 - 1

/-! ### Constants -/

/-- The bytes "WV2I". -/
def magic : Nat := 0x57563249
def version : Nat := 1
def kindRequest : UInt16 := 1
def kindResponse : UInt16 := 2

def opHealth : UInt16 := 1
def opDecryptBatch : UInt16 := 7

/-- The bytes "WV2D". -/
def decryptMagic : Nat := 0x57563244
def decryptVersion : Nat := 1
def decryptKindBatch : UInt16 := 1
def decryptKindOk : UInt16 := 2
def decryptKindError : UInt16 := 3
def decryptKindClose : UInt16 := 9

def headerLen : Nat := 20
def decryptHeaderLen : Nat := 16

/-- The request frame that `Worker::request` sends. -/
def requestFrame (id : UInt32) (opcode : UInt16) (payload : Bytes) : Frame where
  kind := kindRequest
  requestId := id
  opcode := opcode
  flags := 0
  payload := payload

/-! ### Writers -/

/-- The 20 header bytes of a WV2I frame. -/
def frameHeader (f : Frame) : Bytes :=
  be32 magic ++ (be16 version ++ (be16 f.kind.toNat ++ (be32 f.requestId.toNat ++
    (be16 f.opcode.toNat ++ (be16 f.flags.toNat ++ (be32 f.payload.length ++ []))))))

/-- What `write_frame` and `write_frame_timeout` write. -/
def writeFrame (f : Frame) : Outcome Bytes :=
  if f.payload.length > u32Max then invalidInput "payload too large"
  else .ok (frameHeader f ++ f.payload)

/-- The 16 header bytes of a WV2D frame. -/
def decryptHeader (f : DecryptFrame) : Bytes :=
  be32 decryptMagic ++ (be16 decryptVersion ++ (be16 f.kind.toNat ++ (be32 f.requestId.toNat ++
    (be32 f.payload.length ++ []))))

/-- What `write_decrypt_frame` writes. -/
def writeDecryptFrame (f : DecryptFrame) : Outcome Bytes :=
  if f.payload.length > u32Max then invalidInput "decrypt payload too large"
  else .ok (decryptHeader f ++ f.payload)

/-! ### Readers -/

section Readers

variable {σ : Type} (readExact : σ → Nat → Outcome (Bytes × σ))

/-- `read_frame` and `read_frame_timeout`. -/
def readFrame (r : σ) : Outcome (Frame × σ) := do
  let (h, r) ← readExact r headerLen
  let magic' ← readU32 .panic h 0
  let version' ← readU16 .panic h 4
  if magic' ≠ magic then invalidData "bad ipc magic"
  else if version' ≠ version then invalidData "bad ipc version"
  else
    let kind ← readU16 .panic h 6
    let requestId ← readU32 .panic h 8
    let opcode ← readU16 .panic h 12
    let flags ← readU16 .panic h 14
    let payloadLen ← readU32 .panic h 16
    let (payload, r) ← readExact r payloadLen
    .ok (⟨.ofNat kind, .ofNat requestId, .ofNat opcode, .ofNat flags, payload⟩, r)

/-- `read_decrypt_frame`. -/
def readDecryptFrame (r : σ) : Outcome (DecryptFrame × σ) := do
  let (h, r) ← readExact r decryptHeaderLen
  let magic' ← readU32 .panic h 0
  let version' ← readU16 .panic h 4
  if magic' ≠ decryptMagic then invalidData "bad decrypt magic"
  else if version' ≠ decryptVersion then invalidData "bad decrypt version"
  else
    let kind ← readU16 .panic h 6
    let requestId ← readU32 .panic h 8
    let payloadLen ← readU32 .panic h 12
    let (payload, r) ← readExact r payloadLen
    .ok (⟨.ofNat kind, .ofNat requestId, payload⟩, r)

end Readers

/-- `read_exact` on a stream whose remaining bytes are given. -/
def readExact (b : Bytes) (n : Nat) : Outcome (Bytes × Bytes) :=
  if n ≤ b.length then .ok (b.take n, b.drop n)
  else .error (.err .unexpectedEof "failed to fill whole buffer")

end Supervisor

end WrapperPaas
