/-
  `base64_encode` is the standard encoding.

  The accumulator takes eight bits for every byte and drops none on purpose, so it wraps from the
  fifth byte on.  Each character is taken from its low fourteen bits, which the last two bytes
  determine (`toNat_accumulate`): after every third byte the encoder has no bits left, whatever the
  accumulator holds, and goes on as from the start (`flush_foldl`).
-/
import WrapperPaas.Lib.Base64
import WrapperPaas.Playback.Base64

namespace WrapperPaas

namespace Playback

open Base64

/-! ### The accumulator -/

theorem toNat_accumulate (val : UInt32) (byte : UInt8) :
    ((val <<< 8) + byte.toUInt32).toNat = val.toNat % 2 ^ 24 * 2 ^ 8 + byte.toNat := by
  have hbyte := byte.toNat_lt
  rw [UInt32.toNat_add, UInt32.toNat_shiftLeft, UInt8.toNat_toUInt32]
  show (val.toNat <<< 8 % 2 ^ 32 + byte.toNat) % 2 ^ 32 = _
  rw [Nat.shiftLeft_eq]
  omega

theorem toNat_shift (val : UInt32) : (val <<< 8).toNat = val.toNat % 2 ^ 24 * 2 ^ 8 := by
  rw [UInt32.toNat_shiftLeft]
  show val.toNat <<< 8 % 2 ^ 32 = _
  rw [Nat.shiftLeft_eq]
  omega

theorem tbl_eq (d : Sextet) : tbl.getD d.val 0 = standard.char d := by
  revert d
  decide

/-- The character is that of the six bits from bit `n` on. -/
theorem tblChar_eq (val : UInt32) {n : Nat} (hn : n < 32) :
    tblChar val n = standard.char (.ofNat 64 (val.toNat / 2 ^ n)) := by
  have hbits : ((val >>> .ofNat n) &&& 0x3f).toNat = val.toNat / 2 ^ n % 64 := by
    have hshift : (UInt32.ofNat n).toNat % 32 = n := by
      rw [UInt32.toNat_ofNat']
      omega
    rw [UInt32.toNat_and, UInt32.toNat_shiftRight, hshift, Nat.shiftRight_eq_div_pow]
    exact Nat.and_two_pow_sub_one_eq_mod _ 6
  unfold tblChar
  rw [Int.toNat_natCast, hbits, ← tbl_eq, Fin.val_ofNat]

/-! ### The loop -/

variable {ret : Bytes} {val : UInt32}

theorem char_congr {m n : Nat} (h : m % 64 = n % 64) :
    standard.char (.ofNat 64 m) = standard.char (.ofNat 64 n) :=
  congrArg standard.char (Fin.ext h)

theorem emit_of_neg {valb : Int} (h : valb < 0) :
    Encoder.emit ⟨ret, val, valb⟩ = ⟨ret, val, valb⟩ := by
  rw [Encoder.emit, if_neg (by simpa using h)]

theorem emit_of_nonneg {n : Nat} (hn : n < 32) : Encoder.emit ⟨ret, val, n⟩ =
    Encoder.emit ⟨ret ++ [standard.char (.ofNat 64 (val.toNat / 2 ^ n))], val, n - 6⟩ := by
  rw [Encoder.emit, if_pos (by simp), tblChar_eq val hn]

/-- The first byte of a group makes one character, and two bits are left. -/
theorem push_first (a : UInt8) : Encoder.push ⟨ret, val, -6⟩ a =
    ⟨ret ++ [standard.char (.ofNat 64 (a.toNat / 4))], (val <<< 8) + a.toUInt32, -4⟩ := by
  show Encoder.emit ⟨ret, (val <<< 8) + a.toUInt32, (2 : Nat)⟩ = _
  rw [emit_of_nonneg (by decide), emit_of_neg (by decide), toNat_accumulate]
  have hbits : (val.toNat % 2 ^ 24 * 2 ^ 8 + a.toNat) / 2 ^ 2 % 64 = a.toNat / 4 % 64 := by omega
  rw [char_congr hbits]
  rfl

/-- The second byte makes another one, and four bits are left. -/
theorem push_second (b : UInt8) : Encoder.push ⟨ret, val, -4⟩ b =
    ⟨ret ++ [standard.char (.ofNat 64 (val.toNat % 4 * 16 + b.toNat / 16))],
      (val <<< 8) + b.toUInt32, -2⟩ := by
  have hb := b.toNat_lt
  show Encoder.emit ⟨ret, (val <<< 8) + b.toUInt32, (4 : Nat)⟩ = _
  rw [emit_of_nonneg (by decide), emit_of_neg (by decide), toNat_accumulate]
  have hbits : (val.toNat % 2 ^ 24 * 2 ^ 8 + b.toNat) / 2 ^ 4 % 64 =
      (val.toNat % 4 * 16 + b.toNat / 16) % 64 := by omega
  rw [char_congr hbits]
  rfl

/-- The third byte makes two characters, and no bits are left. -/
theorem push_third (c : UInt8) : Encoder.push ⟨ret, val, -2⟩ c =
    ⟨ret ++ [standard.char (.ofNat 64 (val.toNat % 16 * 4 + c.toNat / 64)),
      standard.char (.ofNat 64 (c.toNat % 64))], (val <<< 8) + c.toUInt32, -6⟩ := by
  have hc := c.toNat_lt
  show Encoder.emit ⟨ret, (val <<< 8) + c.toUInt32, (6 : Nat)⟩ = _
  rw [emit_of_nonneg (by decide)]
  show Encoder.emit ⟨_, _, (0 : Nat)⟩ = _
  rw [emit_of_nonneg (by decide), emit_of_neg (by decide), toNat_accumulate, List.append_assoc]
  have hhigh : (val.toNat % 2 ^ 24 * 2 ^ 8 + c.toNat) / 2 ^ 6 % 64 =
      (val.toNat % 16 * 4 + c.toNat / 64) % 64 := by omega
  have hlow : (val.toNat % 2 ^ 24 * 2 ^ 8 + c.toNat) / 2 ^ 0 % 64 = c.toNat % 64 % 64 := by omega
  rw [char_congr hhigh, char_congr hlow]
  rfl

/-! ### The end of the input -/

/-- Two bits are left. -/
theorem flush_second : Encoder.flush ⟨ret, val, -4⟩ =
    ret ++ [standard.char (.ofNat 64 (val.toNat % 4 * 16))] := by
  show ret ++ [tblChar (val <<< 8) (4 : Nat)] = _
  rw [tblChar_eq _ (by decide), toNat_shift]
  have hbits : val.toNat % 2 ^ 24 * 2 ^ 8 / 2 ^ 4 % 64 = val.toNat % 4 * 16 % 64 := by omega
  rw [char_congr hbits]

/-- Four bits are left. -/
theorem flush_third : Encoder.flush ⟨ret, val, -2⟩ =
    ret ++ [standard.char (.ofNat 64 (val.toNat % 16 * 4))] := by
  show ret ++ [tblChar (val <<< 8) (6 : Nat)] = _
  rw [tblChar_eq _ (by decide), toNat_shift]
  have hbits : val.toNat % 2 ^ 24 * 2 ^ 8 / 2 ^ 6 % 64 = val.toNat % 16 * 4 % 64 := by omega
  rw [char_congr hbits]

/-- The whole loop, from any accumulator without bits left. -/
theorem flush_foldl (data : Bytes) : (data.foldl Encoder.push ⟨ret, val, -6⟩).flush =
    ret ++ standard.encodeUnpadded data := by
  have low₂ : ∀ (val : UInt32) (a : UInt8), ((val <<< 8) + a.toUInt32).toNat % 4 = a.toNat % 4 := by
    intro val a
    rw [toNat_accumulate]
    omega
  have low₄ : ∀ (val : UInt32) (b : UInt8),
      ((val <<< 8) + b.toUInt32).toNat % 16 = b.toNat % 16 := by
    intro val b
    rw [toNat_accumulate]
    omega
  unfold Alphabet.encodeUnpadded
  induction data using sextets.induct generalizing ret val with
  | case1 => simp [Encoder.flush, sextets]
  | case2 a =>
    rw [List.foldl_cons, List.foldl_nil, push_first, flush_second, low₂, List.append_assoc]
    rfl
  | case3 a b =>
    rw [List.foldl_cons, List.foldl_cons, List.foldl_nil, push_first, push_second, flush_third,
      low₂, low₄, List.append_assoc, List.append_assoc]
    rfl
  | case4 a b c data ih =>
    rw [List.foldl_cons, List.foldl_cons, List.foldl_cons, push_first, push_second, push_third, ih,
      low₂, low₄, List.append_assoc, List.append_assoc, List.append_assoc]
    rfl

theorem padQuantum_eq (ret : Bytes) :
    padQuantum ret = ret ++ List.replicate ((4 - ret.length % 4) % 4) pad := by
  induction ret using padQuantum.induct with
  | case1 ret h ih =>
    have hcount : (4 - ret.length % 4) % 4 = (4 - (ret ++ [61]).length % 4) % 4 + 1 := by
      rw [List.length_append, List.length_singleton]
      omega
    rw [padQuantum, if_pos h, ih, hcount, List.replicate_succ, List.append_assoc]
    rfl
  | case2 ret h =>
    have hcount : (4 - ret.length % 4) % 4 = 0 := by omega
    rw [padQuantum, if_neg h, hcount, List.replicate_zero, List.append_nil]

theorem base64Encode_eq (data : Bytes) : base64Encode data = standard.encode data := by
  unfold base64Encode
  rw [flush_foldl, List.nil_append, padQuantum_eq]
  have hcount :
      (4 - (standard.encodeUnpadded data).length % 4) % 4 = (3 - data.length % 3) % 3 := by
    have hmod : data.length % 3 = 0 ∨ data.length % 3 = 1 ∨ data.length % 3 = 2 := by omega
    rw [Alphabet.length_encodeUnpadded]
    rcases hmod with h | h | h
    all_goals omega
  rw [hcount]
  rfl

/-- **`base64_encode` is the padded encoding of RFC 4648 §4**: four characters for every started
group of three bytes, characters of the alphabet and then at most two `=`, and decoding gives the
input back. -/
theorem base64_encode_standard (data : Bytes) :
    base64Encode data = standard.encode data ∧
      (base64Encode data).length = 4 * ((data.length + 2) / 3) ∧
      (∃ body n, base64Encode data = body ++ List.replicate n pad ∧ n ≤ 2 ∧
        ∀ c ∈ body, ∃ d, standard.char d = c) ∧
      standard.decode (base64Encode data) = some data := by
  rw [base64Encode_eq]
  refine ⟨rfl, standard.length_encode data, ?_, standard.decode_encode data⟩
  refine ⟨standard.encodeUnpadded data, (3 - data.length % 3) % 3, rfl, by omega, ?_⟩
  intro c hc
  obtain ⟨d, -, hd⟩ := List.mem_map.mp hc
  exact ⟨d, hd⟩

end Playback

end WrapperPaas
