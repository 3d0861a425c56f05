/-
  `base64_encode` of `src/daemon/apple/playback.cpp`, which makes the CFData payloads of the
  playback dictionaries JSON strings.
-/
import WrapperPaas.Lib.Bytes

namespace WrapperPaas

namespace Playback

/-- The table of the encoder. -/
def tbl : Bytes := utf8 "ABCDEFGHIJKLMNOPQRSTUVWXYZabcdefghijklmnopqrstuvwxyz0123456789+/"

/-- `tbl[(val >> shift) & 0x3F]`. -/
def tblChar (val : UInt32) (shift : Int) : UInt8 :=
  tbl.getD ((val >>> .ofNat shift.toNat) &&& 0x3f).toNat 0

/-- The variables of the loop. -/
structure Encoder where
  ret : Bytes := []
  val : UInt32 := 0
  valb : Int := -6

/-- The inner loop: a character for every six bits there are. -/
def Encoder.emit (e : Encoder) : Encoder :=
  if 0 ≤ e.valb then
    Encoder.emit { e with ret := e.ret ++ [tblChar e.val e.valb], valb := e.valb - 6 }
  else e
termination_by (e.valb + 6).toNat
decreasing_by
  show (e.valb - 6 + 6).toNat < (e.valb + 6).toNat
  omega

/-- One iteration of the loop. -/
def Encoder.push (e : Encoder) (byte : UInt8) : Encoder :=
  Encoder.emit { e with val := (e.val <<< 8) + byte.toUInt32, valb := e.valb + 8 }

/-- A last character for the bits that are left. -/
def Encoder.flush (e : Encoder) : Bytes :=
  if e.valb > -6 then e.ret ++ [tblChar (e.val <<< 8) (e.valb + 8)] else e.ret

/-- The padding loop. -/
def padQuantum (ret : Bytes) : Bytes :=
  if ret.length % 4 ≠ 0 then padQuantum (ret ++ [61]) else ret
termination_by (4 - ret.length % 4) % 4
decreasing_by
  rw [List.length_append, List.length_singleton]
  omega

def base64Encode (data : Bytes) : Bytes :=
  padQuantum (data.foldl Encoder.push {}).flush

end Playback

end WrapperPaas
