/-
  `base64url_decode` of `src/daemon/apple/tokens.cpp`, which reads the payload of a JWT.
-/
import WrapperPaas.Lib.Bytes

namespace WrapperPaas

namespace Jwt

/-- The table of the decoder. -/
def T : List Int := [
  -- 0..63 = legal char, else -1
  -1,-1,-1,-1,-1,-1,-1,-1,-1,-1,-1,-1,-1,-1,-1,-1, -1,-1,-1,-1,-1,-1,-1,-1,-1,-1,-1,-1,-1,-1,-1,-1,
  -1,-1,-1,-1,-1,-1,-1,-1,-1,-1,-1,-1,-1,62,-1,-1, 52,53,54,55,56,57,58,59,60,61,-1,-1,-1, 0,-1,-1,
  -1, 0, 1, 2, 3, 4, 5, 6, 7, 8, 9,10,11,12,13,14, 15,16,17,18,19,20,21,22,23,24,25,-1,-1,-1,-1,63,
  -1,26,27,28,29,30,31,32,33,34,35,36,37,38,39,40, 41,42,43,44,45,46,47,48,49,50,51,-1,-1,-1,-1,-1,
  -1,-1,-1,-1,-1,-1,-1,-1,-1,-1,-1,-1,-1,-1,-1,-1, -1,-1,-1,-1,-1,-1,-1,-1,-1,-1,-1,-1,-1,-1,-1,-1,
  -1,-1,-1,-1,-1,-1,-1,-1,-1,-1,-1,-1,-1,-1,-1,-1, -1,-1,-1,-1,-1,-1,-1,-1,-1,-1,-1,-1,-1,-1,-1,-1,
  -1,-1,-1,-1,-1,-1,-1,-1,-1,-1,-1,-1,-1,-1,-1,-1, -1,-1,-1,-1,-1,-1,-1,-1,-1,-1,-1,-1,-1,-1,-1,-1,
  -1,-1,-1,-1,-1,-1,-1,-1,-1,-1,-1,-1,-1,-1,-1,-1, -1,-1,-1,-1,-1,-1,-1,-1,-1,-1,-1,-1,-1,-1,-1,-1]

/-- The entry of a character. -/
def entry (c : UInt8) : Int := T.getD c.toNat (-1)

/-- The variables of the loop; `val` is an `int`, in two's complement. -/
structure Decoder where
  bits : Nat := 0
  val : BitVec 32 := 0
  out : Bytes := []

/-- The accumulator after `(val << 6) | v`. -/
def Decoder.shifted (d : Decoder) (v : Int) : BitVec 32 := (d.val <<< 6) ||| BitVec.ofInt 32 v

/-- The rest of an iteration, for a legal character. -/
def Decoder.push (d : Decoder) (v : Int) : Decoder :=
  let val := d.shifted v
  let bits := d.bits + 6
  if bits ≥ 8 then
    let bits := bits - 8
    ⟨bits, val, d.out ++ [.ofNat (val.sshiftRight bits &&& 0xff).toNat]⟩
  else ⟨bits, val, d.out⟩

/-- The loop over the input. -/
def base64urlDecodeLoop (d : Decoder) : Bytes → Bytes
  | [] => d.out
  | c :: rest =>
    let v := entry c
    if v < 0 then
      if c = 61 ∨ c = 13 ∨ c = 10 then base64urlDecodeLoop d rest
      else []
    else base64urlDecodeLoop (d.push v) rest

def base64urlDecode (s : Bytes) : Bytes := base64urlDecodeLoop {} s

end Jwt

end WrapperPaas
