/-
  Decoding the payload of a JWT.

  The unpadded encoding of a byte string decodes to it (`decode_encodeUnpadded`): after every
  fourth character no bits are left, whatever the accumulator holds (`foldl_digit`).  The loop
  means to skip line breaks and the padding character, but the table gives `=` the value 0, so the
  test of the skipped characters never sees it and it is decoded as an `A`.
  `base64url_decode_iff` says on which inputs this makes no difference.
-/
import WrapperPaas.Lib.Base64
import WrapperPaas.Tokens.Jwt

namespace WrapperPaas

namespace Jwt

open Base64

/-- The characters that the loop is to skip: `=` and line breaks. -/
def Skipped (c : UInt8) : Prop := c = pad ∨ c = 13 ∨ c = 10

instance (c : UInt8) : Decidable (Skipped c) := inferInstanceAs (Decidable (_ ∨ _ ∨ _))

/-- The input without them. -/
def stripped (s : Bytes) : Bytes := s.filter fun c => ¬ Skipped c

/-- A character that is neither skipped nor one of the alphabet. -/
def Malformed (c : UInt8) : Prop := ¬ Skipped c ∧ ∀ d, urlSafe.char d ≠ c

instance (c : UInt8) : Decidable (Malformed c) := inferInstanceAs (Decidable (_ ∧ _))

/-- The input has at most one `=`, which stands behind whole groups of the other characters or
could be exchanged with those that follow it: they are all `A`s. -/
structure LonePad (s : Bytes) : Prop where
  split : ∃ before after, s = before ++ pad :: after ∧ pad ∉ before ∧ pad ∉ after ∧
    ∀ c ∈ stripped after, c = urlSafe.char 0
  groups : 4 ∣ (stripped s).length

/-! ### The table -/

theorem entry_char : ∀ d, entry (urlSafe.char d) = d.val := by decide

theorem entry_pad : entry pad = 0 := by decide

theorem entry_cases (c : UInt8) : entry c = -1 ∨ c = pad ∨ ∃ d, urlSafe.char d = c := by
  -- the entry itself is the digit
  have htable : ∀ n : Fin 256, entry (.ofNat n) = -1 ∨ UInt8.ofNat n = pad ∨
      urlSafe.char ⟨(entry (.ofNat n)).toNat % 64, Nat.mod_lt _ (by decide)⟩ = .ofNat n := by
    decide +kernel
  have hc := htable ⟨c.toNat, c.toNat_lt⟩
  rw [UInt8.ofNat_toNat] at hc
  exact hc.imp_right (Or.imp_right fun hchar => ⟨_, hchar⟩)

/-- The digit that the table gives a character. -/
def digit? (c : UInt8) : Option Sextet :=
  if entry c < 0 then none else some ⟨(entry c).toNat % 64, Nat.mod_lt _ (by decide)⟩

theorem digit?_char (d : Sextet) : digit? (urlSafe.char d) = some d := by
  unfold digit?
  rw [if_neg (by rw [entry_char]; omega)]
  refine congrArg some (Fin.ext ?_)
  show (entry (urlSafe.char d)).toNat % 64 = d.val
  rw [entry_char]
  exact Nat.mod_eq_of_lt d.isLt

theorem digit?_pad : digit? pad = some 0 := by decide

/-! ### The accumulator -/

theorem toNat_shifted (d : Decoder) (v : Sextet) :
    (d.shifted v.val).toNat = d.val.toNat % 2 ^ 26 * 2 ^ 6 + v.val := by
  have hv := v.isLt
  have hval : (d.val <<< 6).toNat = (d.val.toNat % 2 ^ 26) <<< 6 := by
    rw [BitVec.toNat_shiftLeft, Nat.shiftLeft_eq, Nat.shiftLeft_eq]
    omega
  have hdigit : (BitVec.ofInt 32 v.val).toNat = v.val := by
    rw [BitVec.ofInt_natCast, BitVec.toNat_ofNat]
    omega
  unfold Decoder.shifted
  rw [BitVec.toNat_or, hval, hdigit, ← Nat.shiftLeft_add_eq_or_of_lt hv, Nat.shiftLeft_eq]

/-- The sign bits that an arithmetic shift brings in are above the byte. -/
theorem toNat_byte (val : BitVec 32) {n : Nat} (hn : n ≤ 24) :
    (val.sshiftRight n &&& 0xff).toNat = val.toNat / 2 ^ n % 2 ^ 8 := by
  have hlogical : val.sshiftRight n &&& 0xff = (val >>> n) &&& 0xff := by
    apply BitVec.eq_of_getLsbD_eq
    intro i hi
    rw [BitVec.getLsbD_and, BitVec.getLsbD_and, BitVec.getLsbD_sshiftRight,
      BitVec.getLsbD_ushiftRight]
    by_cases hbyte : i < 8
    · have hlt : n + i < 32 := by omega
      simp [hlt, not_le.mpr hi]
    · have hmask : (0xff : BitVec 32).getLsbD i = false := by
        show Nat.testBit 255 i = false
        have hpow : 2 ^ 8 ≤ 2 ^ i := Nat.pow_le_pow_right (by decide) (by omega)
        exact Nat.testBit_lt_two_pow (lt_of_lt_of_le (by decide) hpow)
      rw [hmask, Bool.and_false, Bool.and_false]
  rw [hlogical, BitVec.toNat_and, BitVec.toNat_ushiftRight, Nat.shiftRight_eq_div_pow]
  exact Nat.and_two_pow_sub_one_eq_mod _ 8

/-! ### The loop -/

/-- One iteration for a digit. -/
def Decoder.digit (d : Decoder) (v : Sextet) : Decoder := d.push v.val

section Loop

variable {val : BitVec 32} {out : Bytes} {p q r : Sextet}

theorem shifted_mod (d : Decoder) (v : Sextet) : (d.shifted v.val).toNat % 2 ^ 6 = v.val := by
  rw [toNat_shifted]
  omega

theorem ofNat_byte {n m : Nat} (hn : n ≤ 24) (h : val.toNat / 2 ^ n % 2 ^ 8 = m % 2 ^ 8) :
    UInt8.ofNat (val.sshiftRight n &&& 0xff).toNat = .ofNat m := by
  apply UInt8.toNat_inj.mp
  rw [UInt8.toNat_ofNat', UInt8.toNat_ofNat', toNat_byte val hn, Nat.mod_mod, h]

/-- The second digit completes the first byte. -/
theorem digit_second (h : val.toNat % 2 ^ 6 = p.val) : Decoder.digit ⟨6, val, out⟩ q =
    ⟨4, Decoder.shifted ⟨6, val, out⟩ q.val, out ++ [octet₁ p q]⟩ := by
  have hbyte : (Decoder.shifted ⟨6, val, out⟩ q.val).toNat / 2 ^ 4 % 2 ^ 8 =
      (p.val * 4 + q.val / 16) % 2 ^ 8 := by
    rw [toNat_shifted]
    dsimp only
    omega
  rw [octet₁, ← ofNat_byte (by decide) hbyte]
  rfl

theorem digit_third (h : val.toNat % 2 ^ 6 = q.val) : Decoder.digit ⟨4, val, out⟩ r =
    ⟨2, Decoder.shifted ⟨4, val, out⟩ r.val, out ++ [octet₂ q r]⟩ := by
  have hbyte : (Decoder.shifted ⟨4, val, out⟩ r.val).toNat / 2 ^ 2 % 2 ^ 8 =
      (q.val % 16 * 16 + r.val / 4) % 2 ^ 8 := by
    rw [toNat_shifted]
    dsimp only
    omega
  rw [octet₂, ← ofNat_byte (by decide) hbyte]
  rfl

theorem digit_fourth {s : Sextet} (h : val.toNat % 2 ^ 6 = r.val) :
    Decoder.digit ⟨2, val, out⟩ s =
      ⟨0, Decoder.shifted ⟨2, val, out⟩ s.val, out ++ [octet₃ r s]⟩ := by
  have hbyte : (Decoder.shifted ⟨2, val, out⟩ s.val).toNat / 2 ^ 0 % 2 ^ 8 =
      (r.val % 4 * 64 + s.val) % 2 ^ 8 := by
    rw [toNat_shifted]
    dsimp only
    omega
  rw [octet₃, ← ofNat_byte (by decide) hbyte]
  rfl

/-- Four digits make three bytes, and no bits are left. -/
theorem foldl_digit (v : List Sextet) :
    (v.foldl Decoder.digit ⟨0, val, out⟩).out = out ++ octets v := by
  have first : ∀ (val : BitVec 32) (out : Bytes) (p : Sextet), Decoder.digit ⟨0, val, out⟩ p =
      ⟨6, Decoder.shifted ⟨0, val, out⟩ p.val, out⟩ := fun _ _ _ => rfl
  induction v using octets.induct generalizing val out with
  | case1 => simp [octets]
  | case2 p => simp [octets, first]
  | case3 p q =>
    simp only [List.foldl_cons, List.foldl_nil, first]
    rw [digit_second (shifted_mod _ p)]
    rfl
  | case4 p q r =>
    simp only [List.foldl_cons, List.foldl_nil, first]
    rw [digit_second (shifted_mod _ p), digit_third (shifted_mod _ q), List.append_assoc]
    rfl
  | case5 p q r s v ih =>
    simp only [List.foldl_cons, first]
    rw [digit_second (shifted_mod _ p), digit_third (shifted_mod _ q),
      digit_fourth (shifted_mod _ r), ih, List.append_assoc, List.append_assoc, List.append_assoc]
    rfl

end Loop

theorem digit?_eq_none {c : UInt8} (h : entry c < 0) :
    digit? c = none ∧ ∀ d, urlSafe.char d ≠ c := by
  refine ⟨if_pos h, ?_⟩
  rintro d rfl
  rw [entry_char] at h
  omega

theorem digit?_eq_some {c : UInt8} (h : ¬ entry c < 0) :
    ∃ v : Sextet, digit? c = some v ∧ entry c = v.val ∧ ¬ Malformed c := by
  rcases entry_cases c with hc | rfl | ⟨d, rfl⟩
  · rw [hc] at h
    exact absurd (by decide) h
  · exact ⟨0, digit?_pad, entry_pad, by decide⟩
  · exact ⟨d, digit?_char d, entry_char d, fun hmal => hmal.2 d rfl⟩

/-- The loop decodes the digits of its input, unless a character is malformed. -/
theorem base64urlDecodeLoop_eq (s : Bytes) (d : Decoder) :
    base64urlDecodeLoop d s = if ∃ c ∈ s, Malformed c then []
      else ((s.filterMap digit?).foldl Decoder.digit d).out := by
  induction s generalizing d with
  | nil => simp [base64urlDecodeLoop]
  | cons c s ih =>
    unfold base64urlDecodeLoop
    dsimp only
    by_cases hv : entry c < 0
    · obtain ⟨hnone, hnot⟩ := digit?_eq_none hv
      rw [if_pos hv, List.filterMap_cons_none hnone]
      by_cases hskip : c = 61 ∨ c = 13 ∨ c = 10
      · have hc : ¬ Malformed c := fun hmal => hmal.1 hskip
        rw [if_pos hskip, ih]
        simp only [List.exists_mem_cons_iff, hc, false_or]
      · rw [if_neg hskip, if_pos ⟨c, List.mem_cons_self, hskip, hnot⟩]
    · obtain ⟨v, hsome, hentry, hc⟩ := digit?_eq_some hv
      rw [if_neg hv, List.filterMap_cons_some hsome, ih, hentry]
      simp only [List.exists_mem_cons_iff, hc, false_or]
      rfl

theorem base64urlDecode_eq (s : Bytes) : base64urlDecode s =
    if ∃ c ∈ s, Malformed c then [] else octets (s.filterMap digit?) := by
  unfold base64urlDecode
  rw [base64urlDecodeLoop_eq]
  show ite _ _ (((s.filterMap digit?).foldl Decoder.digit ⟨0, 0, []⟩).out) = _
  rw [foldl_digit, List.nil_append]

/-! ### Encodings -/

theorem filterMap_digit?_char (v : List Sextet) :
    (v.map urlSafe.char).filterMap digit? = v := by
  induction v with
  | nil => rfl
  | cons d v ih => rw [List.map_cons, List.filterMap_cons_some (digit?_char d), ih]

theorem not_malformed_char (d : Sextet) : ¬ Malformed (urlSafe.char d) := fun h => h.2 d rfl

/-- The unpadded encoding of a byte string decodes to it. -/
theorem decode_encodeUnpadded (x : Bytes) : base64urlDecode (urlSafe.encodeUnpadded x) = x := by
  rw [base64urlDecode_eq, if_neg, Alphabet.encodeUnpadded, filterMap_digit?_char, octets_sextets]
  rintro ⟨c, hc, hmal⟩
  obtain ⟨d, -, rfl⟩ := List.mem_map.mp hc
  exact not_malformed_char d hmal

/-! ### Skipped characters -/

/-- The digits of the input. -/
def digits (s : Bytes) : List Sextet := s.filterMap digit?

theorem digits_append (s t : Bytes) : digits (s ++ t) = digits s ++ digits t :=
  List.filterMap_append

theorem malformed_stripped (s : Bytes) :
    (∃ c ∈ stripped s, Malformed c) ↔ ∃ c ∈ s, Malformed c := by
  constructor
  · rintro ⟨c, hc, hmal⟩
    exact ⟨c, List.mem_of_mem_filter hc, hmal⟩
  · rintro ⟨c, hc, hmal⟩
    refine ⟨c, List.mem_filter.mpr ⟨hc, ?_⟩, hmal⟩
    simpa using hmal.1

theorem stripped_cons_skipped {c : UInt8} (h : Skipped c) (s : Bytes) :
    stripped (c :: s) = stripped s := by
  simp [stripped, h]

theorem stripped_cons_kept {c : UInt8} (h : ¬ Skipped c) (s : Bytes) :
    stripped (c :: s) = c :: stripped s := by
  simp [stripped, h]

/-- What is left of a well-formed input are the characters of its digits. -/
theorem stripped_eq {s : Bytes} (h : ¬ ∃ c ∈ s, Malformed c) :
    stripped s = (digits (stripped s)).map urlSafe.char := by
  induction s with
  | nil => rfl
  | cons c s ih =>
    rw [List.exists_mem_cons_iff, not_or] at h
    have ih := ih h.2
    by_cases hskip : Skipped c
    · rw [stripped_cons_skipped hskip]
      exact ih
    · obtain ⟨d, rfl⟩ : ∃ d, urlSafe.char d = c := by
        by_contra hnot
        exact h.1 ⟨hskip, fun d hd => hnot ⟨d, hd⟩⟩
      rw [stripped_cons_kept hskip, digits, List.filterMap_cons_some (digit?_char d), List.map_cons]
      exact congrArg _ ih

/-- Without `=` nothing that has a digit is skipped. -/
theorem digits_stripped {s : Bytes} (h : pad ∉ s) : digits (stripped s) = digits s := by
  unfold digits stripped
  rw [List.filterMap_filter]
  apply List.filterMap_congr
  intro c hc
  split_ifs with hskip
  · rfl
  · rcases of_not_not (by simpa using hskip : ¬ ¬ Skipped c) with rfl | rfl | rfl
    · exact absurd hc h
    · decide
    · decide

theorem stripped_append (s t : Bytes) : stripped (s ++ t) = stripped s ++ stripped t :=
  List.filter_append ..

/-- Every `=` is one digit too many. -/
theorem length_digits (s : Bytes) :
    (digits s).length = (digits (stripped s)).length + s.count pad := by
  induction s with
  | nil => rfl
  | cons c s ih =>
    by_cases hpad : c = pad
    · rw [hpad, stripped_cons_skipped (.inl rfl), List.count_cons_self, digits,
        List.filterMap_cons_some digit?_pad, List.length_cons]
      rw [← Nat.add_assoc, ← ih]
      rfl
    · rw [List.count_cons_of_ne hpad]
      have hone : digits [c] = digits (stripped [c]) := by
        refine (digits_stripped ?_).symm
        simpa using Ne.symm hpad
      rw [← List.singleton_append, digits_append, stripped_append, digits_append,
        List.length_append, List.length_append, hone, ih, Nat.add_assoc]

/-- The list is not changed by moving a zero from its front to its end. -/
theorem eq_zero_of_rotate {v : List Sextet} (h : (0 :: v).dropLast = v) : ∀ d ∈ v, d = 0 := by
  induction v with
  | nil =>
    intro d hd
    cases hd
  | cons e v ih =>
    rw [List.dropLast_cons_cons, List.cons.injEq] at h
    obtain ⟨rfl, h⟩ := h
    intro d hd
    rcases List.mem_cons.mp hd with rfl | hd
    · rfl
    · exact ih h d hd

theorem rotate_of_eq_zero {v : List Sextet} (h : ∀ d ∈ v, d = 0) : 0 :: v = v ++ [0] := by
  rw [List.eq_replicate_of_mem h, ← List.replicate_succ, List.replicate_succ']

/-- A last digit behind whole groups makes no byte. -/
theorem octets_concat {v : List Sextet} (h : 4 ∣ v.length) (d : Sextet) :
    octets (v ++ [d]) = octets v := by
  rw [octets_append h]
  exact List.append_nil _

/-! ### Inputs with one padding character -/

section LonePad

variable {before after s : Bytes}

theorem digits_split : digits (before ++ pad :: after) = digits before ++ 0 :: digits after := by
  rw [digits_append, digits, digits, List.filterMap_cons_some digit?_pad]
  rfl

theorem digits_stripped_split (hbefore : pad ∉ before) (hafter : pad ∉ after) :
    digits (stripped (before ++ pad :: after)) = digits before ++ digits after := by
  rw [stripped_append, stripped_cons_skipped (.inl rfl), digits_append, digits_stripped hbefore,
    digits_stripped hafter]

theorem length_stripped (hs : ¬ ∃ c ∈ s, Malformed c) :
    (stripped s).length = (digits (stripped s)).length := by
  have hlen := congrArg List.length (stripped_eq hs)
  rwa [List.length_map] at hlen

theorem LonePad.octets_digits (h : LonePad s) (hs : ¬ ∃ c ∈ s, Malformed c) :
    octets (digits s) = octets (digits (stripped s)) := by
  have hgroups := h.groups
  rw [length_stripped hs] at hgroups
  obtain ⟨before, after, rfl, hbefore, hafter, hzero⟩ := h.split
  rw [digits_stripped_split hbefore hafter] at hgroups ⊢
  have hall : ∀ d ∈ digits after, d = 0 := by
    intro d hd
    rw [← digits_stripped hafter] at hd
    obtain ⟨c, hc, hcd⟩ := List.mem_filterMap.mp hd
    rw [hzero c hc, digit?_char] at hcd
    exact (Option.some.inj hcd).symm
  rw [digits_split, rotate_of_eq_zero hall, ← List.append_assoc, octets_concat hgroups]

/-- The padding character makes no difference only if it is one digit behind whole groups, and
those after it are zeros. -/
theorem LonePad.of_octets (hs : ¬ ∃ c ∈ s, Malformed c) (hpad : pad ∈ s)
    (h : octets (digits s) = octets (digits (stripped s))) : LonePad s := by
  have hcount : s.count pad = 1 ∧ 4 ∣ (digits (stripped s)).length := by
    have hlen := congrArg List.length h
    have hpos := List.count_pos_iff.mpr hpad
    rw [length_octets, length_octets, length_digits] at hlen
    have hone : s.count pad = 1 := by omega
    rw [hone] at hlen ⊢
    have hwhole : 4 * ((digits (stripped s)).length * 3 / 4) =
        (digits (stripped s)).length * 3 := by omega
    omega
  obtain ⟨hone, hgroups⟩ := hcount
  obtain ⟨before, after, rfl⟩ := List.append_of_mem hpad
  rw [List.count_append, List.count_cons_self] at hone
  have hbefore : pad ∉ before := List.count_eq_zero.mp (by omega)
  have hafter : pad ∉ after := List.count_eq_zero.mp (by omega)
  refine ⟨⟨before, after, rfl, hbefore, hafter, ?_⟩, ?_⟩
  · -- without the last digit the two lists are the same
    rw [digits_split, digits_stripped_split hbefore hafter] at h
    rw [digits_stripped_split hbefore hafter] at hgroups
    have hlast := List.dropLast_append_getLast (List.cons_ne_nil 0 (digits after))
    have hshift :
        digits before ++ (0 :: digits after).dropLast = digits before ++ digits after := by
      have hlen : (digits before ++ (0 :: digits after).dropLast).length =
          (digits before ++ digits after).length := by simp
      refine octets_inj (by rwa [hlen]) hgroups ?_
      rw [← octets_concat (by rwa [hlen]), List.append_assoc, hlast, h]
    have hzero := eq_zero_of_rotate (List.append_cancel_left hshift)
    intro c hc
    have hmal : ¬ ∃ c ∈ after, Malformed c := by
      rintro ⟨c, hc, hmal⟩
      exact hs ⟨c, List.mem_append_right _ (List.mem_cons_of_mem _ hc), hmal⟩
    rw [stripped_eq hmal, digits_stripped hafter] at hc
    obtain ⟨d, hd, rfl⟩ := List.mem_map.mp hc
    rw [hzero d hd]
  · rwa [length_stripped hs]

end LonePad

theorem base64urlDecode_stripped_iff (s : Bytes) :
    base64urlDecode s = base64urlDecode (stripped s) ↔
      (∃ c ∈ s, Malformed c) ∨ pad ∉ s ∨ LonePad s := by
  have hmal := malformed_stripped s
  rw [base64urlDecode_eq, base64urlDecode_eq]
  by_cases hs : ∃ c ∈ s, Malformed c
  · rw [if_pos hs, if_pos (hmal.mpr hs)]
    exact iff_of_true rfl (.inl hs)
  · rw [if_neg hs, if_neg (mt hmal.mp hs), or_iff_right hs]
    constructor
    · intro h
      by_cases hpad : pad ∈ s
      · exact .inr (.of_octets hs hpad h)
      · exact .inl hpad
    · rintro (hpad | hlone)
      · exact congrArg octets (digits_stripped hpad).symm
      · exact hlone.octets_digits hs

/-- **Decoding the payload of a JWT.**  The unpadded encoding of every byte string `x` decodes to
it; and an input `s` decodes as it does without its `=` and line breaks if and only if it has a
malformed character, no `=` at all or a lone one.  So an encoding of `x` with `=` and line breaks in
it decodes to `x` exactly in the last two cases. -/
theorem base64url_decode_iff (x s : Bytes) :
    base64urlDecode (urlSafe.encodeUnpadded x) = x ∧
      (base64urlDecode s = base64urlDecode (stripped s) ↔
        (∃ c ∈ s, Malformed c) ∨ pad ∉ s ∨ LonePad s) ∧
      (stripped s = urlSafe.encodeUnpadded x → (base64urlDecode s = x ↔ pad ∉ s ∨ LonePad s)) := by
  refine ⟨decode_encodeUnpadded x, base64urlDecode_stripped_iff s, fun hx => ?_⟩
  have hs : ¬ ∃ c ∈ s, Malformed c := by
    rw [← malformed_stripped, hx]
    rintro ⟨c, hc, hmal⟩
    obtain ⟨d, -, rfl⟩ := List.mem_map.mp hc
    exact not_malformed_char d hmal
  have h := base64urlDecode_stripped_iff s
  rwa [hx, decode_encodeUnpadded, or_iff_right hs] at h

/-- The padded encoding of one byte decodes to three. -/
theorem base64url_decode_padded : ¬ ∀ s, base64urlDecode s = base64urlDecode (stripped s) := by
  intro hall
  have h := hall (urlSafe.encode [77])
  revert h
  decide

end Jwt

end WrapperPaas
