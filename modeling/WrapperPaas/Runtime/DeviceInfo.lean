/-
  `split_device_info` of `src/daemon/apple/runtime.cpp`, which reads WRAPPER_DEVICE_INFO.
-/
import Mathlib.Data.List.Basic
import WrapperPaas.Lib.Bytes

namespace WrapperPaas

namespace Runtime

def kDeviceInfoPartCount : Int := 9

def slash : UInt8 := 47

/-- What is left of a `std::stringstream`, and whether `eofbit` is set. -/
structure StringStream where
  rest : Bytes
  eof : Bool := false

/-- `std::getline`; `none` is the stream that converts to false. -/
def getline (ss : StringStream) (delim : UInt8) : Option (Bytes × StringStream) :=
  if ss.eof then none
  else
    match ss.rest.idxOf? delim with
    | some n => some (ss.rest.take n, { rest := ss.rest.drop (n + 1) })
    | none =>
      -- the end of the stream; nothing extracted is a failure
      if ss.rest = [] then none else some (ss.rest, { rest := [], eof := true })

theorem length_lt_of_getline {ss ss' : StringStream} {delim : UInt8} {part : Bytes}
    (h : getline ss delim = some (part, ss')) : ss'.rest.length < ss.rest.length := by
  unfold getline at h
  split at h
  · cases h
  · split at h
    · next n hn =>
      obtain ⟨-, rfl⟩ := Prod.mk.inj (Option.some.inj h)
      obtain ⟨p, x, hsplit, -, rfl⟩ := append_of_idxOf? hn
      rw [hsplit]
      simp only [List.length_drop, List.length_append, List.length_cons]
      omega
    · split at h
      · cases h
      · next hrest =>
        obtain ⟨-, rfl⟩ := Prod.mk.inj (Option.some.inj h)
        exact List.length_pos_of_ne_nil hrest

/-- The loop of `split_device_info`. -/
def getlines (ss : StringStream) (delim : UInt8) : List Bytes :=
  match _h : getline ss delim with
  | none => []
  | some (part, ss) => part :: getlines ss delim
termination_by ss.rest.length
decreasing_by exact length_lt_of_getline _h

/-- `static_cast<int>` of a `std::size_t`. -/
def castInt (n : Nat) : Int := (BitVec.ofNat 32 n).toInt

def splitDeviceInfo (s : Bytes) : List Bytes :=
  let out := getlines { rest := s } slash
  if castInt out.length ≠ kDeviceInfoPartCount then [] else out

end Runtime

end WrapperPaas
