/-
  The accumulator of the JWT decoder.

  It is shifted once for every digit and never masked, so it holds all digits so far as one number
  in base 64, which soon does not fit into an `int` any more.  `val_representable_iff` says on
  which inputs the shifts are defined: at most five digits behind the leading zeros, or six of which
  the first is a 1.
-/
import Mathlib.Data.Int.Bitwise
import Mathlib.Data.List.Basic
import WrapperPaas.Tokens.Equiv.Jwt

namespace WrapperPaas

namespace Jwt

open Base64

/-- The value of `(val << 6) | v`, exact. -/
def Decoder.exact (d : Decoder) (v : Int) : Int := Int.lor (d.val.toInt <<< 6) v

/-- The values that the iterations of the loop assign to `val`. -/
def assigned (d : Decoder) : Bytes → List Int
  | [] => []
  | c :: rest =>
    let v := entry c
    if v < 0 then
      if c = 61 ∨ c = 13 ∨ c = 10 then assigned d rest
      else []
    else d.exact v :: assigned (d.push v) rest

/-- The value fits into an `int`. -/
def Representable (x : Int) : Prop := -2 ^ 31 ≤ x ∧ x < 2 ^ 31

/-- The digits in front of the first malformed character. -/
def accepted (s : Bytes) : List Sextet := digits (s.takeWhile fun c => ¬ Malformed c)

/-- Behind leading zeros there are at most five digits, or six of which the first is a 1. -/
def Short (v : List Sextet) : Prop :=
  let significant := v.dropWhile (·.val = 0)
  significant.length ≤ 5 ∨ significant.length = 6 ∧ significant.head?.map Fin.val = some 1

/-! ### Numbers in base 64 -/

/-- The number that `v` continues. -/
def number (n : Nat) (v : List Sextet) : Nat := v.foldl (fun n d => n * 64 + d.val) n

theorem number_cons (n : Nat) (d : Sextet) (v : List Sextet) :
    number n (d :: v) = number (n * 64 + d.val) v := rfl

theorem number_bounds (n : Nat) (v : List Sextet) :
    n * 64 ^ v.length ≤ number n v ∧ number n v < (n + 1) * 64 ^ v.length := by
  induction v generalizing n with
  | nil => exact ⟨(Nat.mul_one n).le, (Nat.mul_one (n + 1)).symm ▸ Nat.lt_succ_self n⟩
  | cons d v ih =>
    have hd := d.isLt
    obtain ⟨hlow, hhigh⟩ := ih (n * 64 + d.val)
    rw [number_cons, List.length_cons, Nat.pow_succ']
    constructor
    · calc n * (64 * 64 ^ v.length) = n * 64 * 64 ^ v.length := (Nat.mul_assoc ..).symm
        _ ≤ (n * 64 + d.val) * 64 ^ v.length := Nat.mul_le_mul_right _ (by omega)
        _ ≤ _ := hlow
    · calc number (n * 64 + d.val) v < (n * 64 + d.val + 1) * 64 ^ v.length := hhigh
        _ ≤ (n + 1) * 64 * 64 ^ v.length := Nat.mul_le_mul_right _ (by omega)
        _ = (n + 1) * (64 * 64 ^ v.length) := Nat.mul_assoc ..

theorem le_number (n : Nat) (v : List Sextet) : n ≤ number n v :=
  (Nat.le_mul_of_pos_right n (Nat.pow_pos (by decide))).trans (number_bounds n v).1

theorem number_zeros (v : List Sextet) : number 0 v = number 0 (v.dropWhile (·.val = 0)) := by
  induction v with
  | nil => rfl
  | cons d v ih =>
    by_cases hd : d.val = 0
    · rw [List.dropWhile_cons_of_pos (by simpa using hd), ← ih, number_cons, hd]
    · rw [List.dropWhile_cons_of_neg (by simpa using hd)]

/-- Five digits are below 2³⁰, which is where a sixth one counts. -/
theorem number_lt_iff (v : List Sextet) : number 0 v < 2 ^ 31 ↔ Short v := by
  rw [number_zeros]
  unfold Short
  dsimp only
  cases hsig : v.dropWhile (·.val = 0) with
  | nil => exact iff_of_true (by decide) (.inl (by decide))
  | cons d w =>
    have hpos : 0 < d.val := by
      have hhead := List.head?_dropWhile_not (fun d : Sextet => decide (d.val = 0)) v
      rw [hsig] at hhead
      simpa [Nat.pos_iff_ne_zero] using hhead
    have hlt := d.isLt
    obtain ⟨hlow, hhigh⟩ := number_bounds (0 * 64 + d.val) w
    rw [number_cons, List.length_cons, List.head?_cons, Option.map_some, Option.some.injEq]
    generalize number (0 * 64 + d.val) w = n at hlow hhigh ⊢
    rw [Nat.zero_mul, Nat.zero_add] at hlow hhigh
    rcases Nat.lt_trichotomy w.length 5 with hw | hw | hw
    · have hpow : 64 ^ w.length ≤ 64 ^ 4 := Nat.pow_le_pow_right (by decide) (by omega)
      have hle : (d.val + 1) * 64 ^ w.length ≤ 64 * 64 ^ 4 := Nat.mul_le_mul (by omega) hpow
      refine iff_of_true ?_ (.inl (by omega))
      exact lt_of_lt_of_le hhigh (hle.trans (by decide))
    · rw [hw] at hlow hhigh ⊢
      omega
    · have hpow : 64 ^ 6 ≤ 64 ^ w.length := Nat.pow_le_pow_right (by decide) hw
      have hle : 1 * 64 ^ 6 ≤ d.val * 64 ^ w.length := Nat.mul_le_mul hpos hpow
      refine iff_of_false ?_ (by omega)
      omega

/-! ### The accumulator -/

theorem exact_eq {d : Decoder} {n : Nat} (hd : d.val.toInt = n) (v : Sextet) :
    d.exact v.val = (n * 64 + v.val : Nat) := by
  unfold Decoder.exact
  rw [hd]
  show ((n <<< 6 ||| v.val : Nat) : Int) = _
  rw [← Nat.shiftLeft_add_eq_or_of_lt v.isLt, Nat.shiftLeft_eq]

/-- A value that fits is the accumulator of the next iteration. -/
theorem toInt_push {d : Decoder} {n : Nat} (hd : d.val.toInt = n) {v : Sextet}
    (hfits : n * 64 + v.val < 2 ^ 31) : (d.push v.val).val.toInt = (n * 64 + v.val : Nat) := by
  have hnat : d.val.toNat = n := by
    have hlt := d.val.isLt
    rw [BitVec.toInt_eq_toNat_cond] at hd
    split_ifs at hd
    · omega
    · omega
  have hval : (d.push v.val).val = d.shifted v.val := by
    unfold Decoder.push
    dsimp only
    split_ifs
    · rfl
    · rfl
  have hshift := toNat_shifted d v
  rw [hnat, Nat.mod_eq_of_lt (by omega)] at hshift
  rw [hval, BitVec.toInt_eq_toNat_cond, hshift, if_pos (by omega)]
  rfl

theorem accepted_cons_malformed {c : UInt8} (h : Malformed c) (s : Bytes) :
    accepted (c :: s) = [] := by
  unfold accepted
  rw [List.takeWhile_cons_of_neg (by simpa using h)]
  rfl

theorem accepted_cons {c : UInt8} (h : ¬ Malformed c) (s : Bytes) :
    accepted (c :: s) = digits (c :: []) ++ accepted s := by
  unfold accepted
  rw [List.takeWhile_cons_of_pos (by simpa using h), ← digits_append]
  rfl

/-- As long as the number of the digits fits, it is what the accumulator holds. -/
theorem assigned_representable_iff (s : Bytes) {d : Decoder} {n : Nat} (hd : d.val.toInt = n)
    (hn : n < 2 ^ 31) :
    (∀ x ∈ assigned d s, Representable x) ↔ number n (accepted s) < 2 ^ 31 := by
  induction s generalizing d n with
  | nil => exact iff_of_true (fun x hx => absurd hx List.not_mem_nil) hn
  | cons c s ih =>
    unfold assigned
    dsimp only
    by_cases hv : entry c < 0
    · obtain ⟨hnone, hnot⟩ := digit?_eq_none hv
      rw [if_pos hv]
      by_cases hskip : c = 61 ∨ c = 13 ∨ c = 10
      · have hdigits : digits [c] = [] := List.filterMap_cons_none hnone
        rw [if_pos hskip, accepted_cons (fun hmal => hmal.1 hskip), hdigits, List.nil_append]
        exact ih hd hn
      · rw [if_neg hskip, accepted_cons_malformed ⟨hskip, hnot⟩]
        exact iff_of_true (fun x hx => absurd hx List.not_mem_nil) hn
    · obtain ⟨v, hsome, hentry, hc⟩ := digit?_eq_some hv
      have hdigits : digits [c] = [v] := List.filterMap_cons_some hsome
      rw [if_neg hv, accepted_cons hc, hdigits, List.singleton_append, number_cons, hentry,
        List.forall_mem_cons, exact_eq hd]
      by_cases hfits : n * 64 + v.val < 2 ^ 31
      · rw [ih (toInt_push hd hfits) hfits]
        exact and_iff_right ⟨by omega, by omega⟩
      · -- the first value that does not fit; the number only grows
        have hle := le_number (n * 64 + v.val) (accepted s)
        refine iff_of_false (fun h => ?_) (by omega)
        have hlt := h.1.2
        omega

/-- **The shifts of the decoder are defined.** -/
theorem val_representable_iff (s : Bytes) :
    (∀ x ∈ assigned {} s, Representable x) ↔ Short (accepted s) :=
  (assigned_representable_iff s (by decide) (by decide)).trans (number_lt_iff _)

/-- `eyJpc3`, with which a payload begins that has an `iss` first. -/
def issPayload : Bytes := [101, 121, 74, 112, 99, 51]

/-- The sixth digit of a payload makes the accumulator overflow. -/
theorem val_overflows : ¬ ∀ s, ∀ x ∈ assigned {} s, Representable x := by
  intro hall
  have hmem : 33053644599 ∈ assigned {} issPayload := by decide
  exact absurd (hall issPayload _ hmem).2 (by decide)

end Jwt

end WrapperPaas
