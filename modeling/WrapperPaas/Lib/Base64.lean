/-
  Base 64.

  Three bytes are the four 6-bit digits of one 24-bit number.  `sextets` writes a byte string in
  these digits, filling the last one up with zero bits, and `octets` reads the bytes back, dropping
  what is left over of the last digit.  An `Alphabet` names the digits by characters; its padded
  encoding is that of RFC 4648 §4.
-/
import Mathlib.Algebra.Order.Group.Nat
import Mathlib.Data.List.FinRange
import WrapperPaas.Lib.Bytes

namespace WrapperPaas

namespace Base64

/-- A digit of base 64. -/
abbrev Sextet := Fin 64

/-- The padding character, `=`. -/
def pad : UInt8 := 61

/-! ### Digits -/

/-- The digits of a byte string, from the high bits of the first byte on. -/
def sextets : Bytes → List Sextet
  | [] => []
  | [a] => [.ofNat 64 (a.toNat / 4), .ofNat 64 (a.toNat % 4 * 16)]
  | [a, b] =>
    [.ofNat 64 (a.toNat / 4), .ofNat 64 (a.toNat % 4 * 16 + b.toNat / 16),
      .ofNat 64 (b.toNat % 16 * 4)]
  | a :: b :: c :: x =>
    .ofNat 64 (a.toNat / 4) :: .ofNat 64 (a.toNat % 4 * 16 + b.toNat / 16) ::
      .ofNat 64 (b.toNat % 16 * 4 + c.toNat / 64) :: .ofNat 64 (c.toNat % 64) :: sextets x

/-- The first byte of two digits, the second of three and the third of four. -/
def octet₁ (p q : Sextet) : UInt8 := .ofNat (p.val * 4 + q.val / 16)
def octet₂ (q r : Sextet) : UInt8 := .ofNat (q.val % 16 * 16 + r.val / 4)
def octet₃ (r s : Sextet) : UInt8 := .ofNat (r.val % 4 * 64 + s.val)

/-- The whole bytes of a list of digits. -/
def octets : List Sextet → Bytes
  | [] => []
  | [_] => []
  | [p, q] => [octet₁ p q]
  | [p, q, r] => [octet₁ p q, octet₂ q r]
  | p :: q :: r :: s :: v => octet₁ p q :: octet₂ q r :: octet₃ r s :: octets v

theorem toNat_octet₁ (p q : Sextet) : (octet₁ p q).toNat = p.val * 4 + q.val / 16 := by
  rw [octet₁, UInt8.toNat_ofNat']
  omega

theorem toNat_octet₂ (q r : Sextet) : (octet₂ q r).toNat = q.val % 16 * 16 + r.val / 4 := by
  rw [octet₂, UInt8.toNat_ofNat']
  omega

theorem toNat_octet₃ (r s : Sextet) : (octet₃ r s).toNat = r.val % 4 * 64 + s.val := by
  rw [octet₃, UInt8.toNat_ofNat']
  omega

/-- The bytes of the digits of a byte string are the byte string. -/
theorem octets_sextets (x : Bytes) : octets (sextets x) = x := by
  induction x using sextets.induct with
  | case1 => rfl
  | case2 a =>
    have ha := a.toNat_lt
    simp only [sextets, octets, List.cons.injEq, and_true]
    apply UInt8.toNat_inj.mp
    rw [toNat_octet₁, Fin.val_ofNat, Fin.val_ofNat]
    omega
  | case3 a b =>
    have ha := a.toNat_lt
    have hb := b.toNat_lt
    simp only [sextets, octets, List.cons.injEq, and_true]
    constructor
    · apply UInt8.toNat_inj.mp
      rw [toNat_octet₁, Fin.val_ofNat, Fin.val_ofNat]
      omega
    · apply UInt8.toNat_inj.mp
      rw [toNat_octet₂, Fin.val_ofNat, Fin.val_ofNat]
      omega
  | case4 a b c x ih =>
    have ha := a.toNat_lt
    have hb := b.toNat_lt
    have hc := c.toNat_lt
    simp only [sextets, octets, List.cons.injEq, ih, and_true]
    refine ⟨?_, ?_, ?_⟩
    · apply UInt8.toNat_inj.mp
      rw [toNat_octet₁, Fin.val_ofNat, Fin.val_ofNat]
      omega
    · apply UInt8.toNat_inj.mp
      rw [toNat_octet₂, Fin.val_ofNat, Fin.val_ofNat]
      omega
    · apply UInt8.toNat_inj.mp
      rw [toNat_octet₃, Fin.val_ofNat, Fin.val_ofNat]
      omega

theorem length_sextets (x : Bytes) : (sextets x).length = (x.length * 4 + 2) / 3 := by
  induction x using sextets.induct with
  | case1 => rfl
  | case2 a => simp [sextets]
  | case3 a b => simp [sextets]
  | case4 a b c x ih =>
    simp only [sextets, List.length_cons, ih]
    omega

theorem length_octets (v : List Sextet) : (octets v).length = v.length * 3 / 4 := by
  induction v using octets.induct with
  | case1 => rfl
  | case2 p => simp [octets]
  | case3 p q => simp [octets]
  | case4 p q r => simp [octets]
  | case5 p q r s v ih =>
    simp only [octets, List.length_cons, ih]
    omega

/-- Whole groups of four digits do not drop any bit. -/
theorem octets_inj {v w : List Sextet} (hv : 4 ∣ v.length) (hw : 4 ∣ w.length)
    (h : octets v = octets w) : v = w := by
  have hlen := congrArg List.length h
  rw [length_octets, length_octets] at hlen
  induction v using octets.induct generalizing w with
  | case1 =>
    rw [List.length_nil] at hlen
    exact (List.length_eq_zero_iff.mp (by omega)).symm
  | case2 p =>
    rw [List.length_singleton] at hv
    omega
  | case3 p q =>
    simp only [List.length_cons, List.length_nil] at hv
    omega
  | case4 p q r =>
    simp only [List.length_cons, List.length_nil] at hv
    omega
  | case5 p q r s v ih =>
    rcases w with _ | ⟨p', _ | ⟨q', _ | ⟨r', _ | ⟨s', w⟩⟩⟩⟩
    all_goals simp only [List.length_cons, List.length_nil] at hv hw hlen
    all_goals try omega
    simp only [octets, List.cons.injEq] at h
    obtain ⟨h₁, h₂, h₃, h⟩ := h
    have h₁ := congrArg UInt8.toNat h₁
    have h₂ := congrArg UInt8.toNat h₂
    have h₃ := congrArg UInt8.toNat h₃
    rw [toNat_octet₁, toNat_octet₁] at h₁
    rw [toNat_octet₂, toNat_octet₂] at h₂
    rw [toNat_octet₃, toNat_octet₃] at h₃
    rw [ih (by omega) (by omega) h (by omega)]
    simp only [List.cons.injEq, and_true]
    refine ⟨?_, ?_, ?_, ?_⟩
    all_goals
      ext
      omega

/-- Bytes behind a whole group of digits do not depend on it. -/
theorem octets_append {v : List Sextet} (hv : 4 ∣ v.length) (w : List Sextet) :
    octets (v ++ w) = octets v ++ octets w := by
  induction v using octets.induct with
  | case1 => rfl
  | case2 p =>
    rw [List.length_singleton] at hv
    omega
  | case3 p q =>
    simp only [List.length_cons, List.length_nil] at hv
    omega
  | case4 p q r =>
    simp only [List.length_cons, List.length_nil] at hv
    omega
  | case5 p q r s v ih =>
    simp only [List.length_cons] at hv
    simp only [List.cons_append, octets, ih (by omega)]

/-! ### Alphabets -/

/-- Distinct characters for the digits, none of them the padding character. -/
structure Alphabet where
  char : Sextet → UInt8
  char_injective : Function.Injective char
  char_ne_pad : ∀ d, char d ≠ pad

/-- `a`..`z` after `A`..`Z`, then the decimal digits, then two more characters. -/
def letters (c₆₂ c₆₃ : UInt8) (d : Sextet) : UInt8 :=
  if d.val < 26 then 65 + .ofNat d.val
  else if d.val < 52 then 97 + .ofNat (d.val - 26)
  else if d.val < 62 then 48 + .ofNat (d.val - 52)
  else if d.val = 62 then c₆₂
  else c₆₃

/-- The digit of one of these characters. -/
def letterDigit (c₆₂ c : UInt8) : Sextet :=
  if 65 ≤ c ∧ c ≤ 90 then .ofNat 64 (c.toNat - 65)
  else if 97 ≤ c ∧ c ≤ 122 then .ofNat 64 (c.toNat - 71)
  else if 48 ≤ c ∧ c ≤ 57 then .ofNat 64 (c.toNat + 4)
  else if c = c₆₂ then 62
  else 63

/-- The alphabet of RFC 4648 §4, with `+` and `/`. -/
def standard : Alphabet where
  char := letters 43 47
  char_injective := Function.LeftInverse.injective (g := letterDigit 43)
    (show ∀ d, letterDigit 43 (letters 43 47 d) = d by decide)
  char_ne_pad := by decide

/-- The URL safe alphabet of RFC 4648 §5, with `-` and `_`. -/
def urlSafe : Alphabet where
  char := letters 45 95
  char_injective := Function.LeftInverse.injective (g := letterDigit 45)
    (show ∀ d, letterDigit 45 (letters 45 95 d) = d by decide)
  char_ne_pad := by decide

namespace Alphabet

variable (A : Alphabet)

/-- The digit of a character. -/
def value (c : UInt8) : Option Sextet := (List.finRange 64).find? fun d => A.char d = c

def encodeUnpadded (x : Bytes) : Bytes := (sextets x).map A.char

/-- The encoding, padded to groups of four characters. -/
def encode (x : Bytes) : Bytes :=
  A.encodeUnpadded x ++ List.replicate ((3 - x.length % 3) % 3) pad

/-- Reads an encoding in groups of four characters, of which the last one may be padded. -/
def decode (text : Bytes) : Option Bytes :=
  let body := text.takeWhile (· ≠ pad)
  let padding := text.drop body.length
  if text.length % 4 = 0 ∧ padding.length ≤ 2 ∧ padding.all (· == pad) = true then
    (body.mapM A.value).map octets
  else none

@[simp] theorem value_char (d : Sextet) : A.value (A.char d) = some d := by
  unfold value
  cases h : (List.finRange 64).find? fun e => A.char e = A.char d with
  | none =>
    have hd := List.find?_eq_none.mp h d (List.mem_finRange d)
    simp at hd
  | some e =>
    have he := List.find?_some h
    rw [A.char_injective (of_decide_eq_true he)]

theorem length_encodeUnpadded (x : Bytes) :
    (A.encodeUnpadded x).length = (x.length * 4 + 2) / 3 := by
  rw [encodeUnpadded, List.length_map, length_sextets]

/-- Every started group of three bytes takes four characters. -/
theorem length_encode (x : Bytes) : (A.encode x).length = 4 * ((x.length + 2) / 3) := by
  rw [encode, List.length_append, List.length_replicate, length_encodeUnpadded]
  omega

theorem ne_pad_of_mem {x : Bytes} {c : UInt8} (h : c ∈ A.encodeUnpadded x) : c ≠ pad := by
  obtain ⟨d, -, rfl⟩ := List.mem_map.mp h
  exact A.char_ne_pad d

theorem mapM_value (v : List Sextet) : (v.map A.char).mapM A.value = some v := by
  rw [List.mapM_map]
  induction v with
  | nil => rfl
  | cons d v ih =>
    simp only [List.mapM_cons, Function.comp_apply, value_char, ih]
    rfl

/-- Decoding the padded encoding of a byte string gives it back. -/
theorem decode_encode (x : Bytes) : A.decode (A.encode x) = some x := by
  have hbody : (A.encode x).takeWhile (· ≠ pad) = A.encodeUnpadded x := by
    unfold encode
    rw [List.takeWhile_append_of_pos]
    · rw [List.takeWhile_replicate, if_neg (by simp), List.append_nil]
    · intro c hc
      simpa using A.ne_pad_of_mem hc
  have hpadding : (A.encode x).drop (A.encodeUnpadded x).length =
      List.replicate ((3 - x.length % 3) % 3) pad := by
    rw [encode, List.drop_left]
  unfold decode
  simp only [hbody, hpadding]
  rw [if_pos, encodeUnpadded, mapM_value, Option.map_some, octets_sextets]
  refine ⟨?_, ?_, ?_⟩
  · rw [length_encode]
    omega
  · rw [List.length_replicate]
    omega
  · simp

end Alphabet

end Base64

end WrapperPaas
