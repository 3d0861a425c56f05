/-
  Lossy decoding of UTF-8: a maximal prefix of a character's encoding that cannot be continued, or a
  byte that starts none, is decoded as one replacement character.
-/
import Mathlib.Data.List.Basic
import WrapperPaas.Lib.Bytes

namespace WrapperPaas

/-- The character at the start of the text. -/
def decodeChar? (b : Bytes) : Option Char := b.toByteArray.utf8DecodeChar? 0

def isContinuation (c : UInt8) : Bool := 0x80 ≤ c && c ≤ 0xBF

/-- The second bytes of the encodings of three and four bytes. -/
def isSecond (first second : UInt8) : Bool :=
  if first = 0xE0 then 0xA0 ≤ second && second ≤ 0xBF
  else if first = 0xED then 0x80 ≤ second && second ≤ 0x9F
  else if first = 0xF0 then 0x90 ≤ second && second ≤ 0xBF
  else if first = 0xF4 then 0x80 ≤ second && second ≤ 0x8F
  else (0xE1 ≤ first && first ≤ 0xF3) && isContinuation second

/-- Where no character can be decoded, how many bytes behind the first one belong to the same
sequence. -/
def invalidTail (first : UInt8) : Bytes → Nat
  | second :: third :: _ =>
    if isSecond first second then if 0xF0 ≤ first && isContinuation third then 2 else 1 else 0
  | [second] => if isSecond first second then 1 else 0
  | [] => 0

def lossyChars : Bytes → List Char
  | [] => []
  | first :: rest =>
    match decodeChar? (first :: rest) with
    | some c => c :: lossyChars (rest.drop (c.utf8Size - 1))
    | none => '\uFFFD' :: lossyChars (rest.drop (invalidTail first rest))
termination_by b => b.length
decreasing_by
  all_goals
    rw [List.length_drop, List.length_cons]
    omega

/-- `String::from_utf8_lossy`. -/
def fromUtf8Lossy (b : Bytes) : String := String.ofList (lossyChars b)

theorem utf8_eq_flatMap (s : String) : utf8 s = s.toList.flatMap String.utf8EncodeChar := by
  rw [utf8, ← String.utf8Encode_toList, List.utf8Encode, List.data_toByteArray]

theorem decodeChar?_append (c : Char) (b : Bytes) :
    decodeChar? (String.utf8EncodeChar c ++ b) = some c := by
  rw [decodeChar?, List.toByteArray_append]
  exact ByteArray.utf8DecodeChar?_utf8EncodeChar_append

theorem lossyChars_flatMap (l : List Char) : lossyChars (l.flatMap String.utf8EncodeChar) = l := by
  induction l with
  | nil => rw [List.flatMap_nil, lossyChars]
  | cons c l ih =>
    have hlen := String.length_utf8EncodeChar c
    have hchar := decodeChar?_append c (l.flatMap String.utf8EncodeChar)
    rw [List.flatMap_cons]
    cases hc : String.utf8EncodeChar c with
    | nil =>
      have hpos := c.utf8Size_pos
      rw [hc, List.length_nil] at hlen
      omega
    | cons first tail =>
      have htail : c.utf8Size - 1 = tail.length := by
        rw [← hlen, hc, List.length_cons, Nat.add_sub_cancel]
      rw [hc, List.cons_append] at hchar
      rw [List.cons_append, lossyChars, hchar]
      dsimp only
      rw [htail, List.drop_left, ih]

/-- Nothing is lost of a valid text. -/
theorem fromUtf8Lossy_utf8 (s : String) : fromUtf8Lossy (utf8 s) = s := by
  rw [fromUtf8Lossy, utf8_eq_flatMap, lossyChars_flatMap, String.ofList_toList]

end WrapperPaas
