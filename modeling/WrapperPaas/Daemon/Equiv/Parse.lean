/-
  The worker's batch parser reads in range and computes lengths without wrapping.

  `parseDecryptPayloadExact` is the parser with 64-bit arithmetic that fails where it would wrap; it
  has the same result on every payload, because the counts and lengths are 16- and 32-bit words and
  the running sum is checked against 256 MiB.  The running sum is the sum of the lengths, so the
  check of the payload's size keeps the pointer of the copying loop in range
  (`parseDecryptPayload_cases`).
-/
import Mathlib.Data.List.Basic
import WrapperPaas.Daemon.Equiv.Ipc

namespace WrapperPaas

namespace Daemon

open Supervisor (tcpHeader)

/-! ### Arithmetic that does not wrap -/

/-- Why the parser stops: it returns false or reads out of range, or a 64-bit value would wrap. -/
inductive Trap where
  | failure (e : Failure)
  | overflow
  deriving DecidableEq, Repr

/-- A value of `std::uint64_t` that is not reduced. -/
def exact64 (n : Nat) : Except Trap Nat := if n < 2 ^ 64 then .ok n else .error .overflow

/-- `countSample` with a sum that must not wrap. -/
def countSampleExact (s : List Nat × Nat) (n : Nat) : Except Trap (List Nat × Nat) :=
  if n = 0 then .error (.failure .failed)
  else do
    let sampleBytes ← exact64 (s.2 + n)
    if sampleBytes > 256 * 1024 * 1024 then .error (.failure .failed)
    else .ok (s.1 ++ [n], sampleBytes)

/-- `parseDecryptPayload` with sums and products that must not wrap. -/
def parseDecryptPayloadExact (req : Frame) : Except Trap (Bytes × Bytes × List Bytes) :=
  let p := req.payload
  if p.length < 8 then .error (.failure .failed)
  else do
    let adamLen ← readU16 (.failure .outOfBounds) p 0
    let uriLen ← readU16 (.failure .outOfBounds) p 2
    let sampleCount ← readU32 (.failure .outOfBounds) p 4
    if adamLen = 0 ∨ uriLen = 0 ∨ sampleCount = 0 then .error (.failure .failed)
    else
      let tableBytes ← exact64 (sampleCount * 4)
      let fixed ← exact64 (8 + tableBytes + adamLen + uriLen)
      if fixed > p.length then .error (.failure .failed)
      else
        let (lengths, sampleBytes) ←
          forWords (.failure .outOfBounds) p 8 countSampleExact 0 sampleCount ([], 0)
        let total ← exact64 (fixed + sampleBytes)
        if total ≠ p.length then .error (.failure .failed)
        else
          let s := 8 + tableBytes
          let adamId ← (slice .outOfBounds p s (s + adamLen)).mapError .failure
          let uri ← (slice .outOfBounds p (s + adamLen) (s + adamLen + uriLen)).mapError .failure
          let samples ← (copySamples p (s + adamLen + uriLen) lengths).mapError .failure
          .ok (adamId, uri, samples)

theorem exact64_of_lt {n : Nat} (h : n < 2 ^ 64) : exact64 n = .ok n := if_pos h

theorem wrap64_of_lt {n : Nat} (h : n < 2 ^ 64) : wrap64 n = n := Nat.mod_eq_of_lt h

/-! ### The loops -/

section Loops

variable {p : Bytes} {s : List Nat × Nat}

/-- One more length is refused, or it is added without wrapping. -/
theorem countSample_cases {n : Nat} (hs : s.2 ≤ maxSampleBytes) (hn : n < 2 ^ 32) :
    countSample s n = .error .failed ∧ countSampleExact s n = .error (.failure .failed) ∨
      s.2 + n ≤ maxSampleBytes ∧ countSample s n = .ok (s.1 ++ [n], s.2 + n) ∧
        countSampleExact s n = .ok (s.1 ++ [n], s.2 + n) := by
  have hmax : maxSampleBytes = 2 ^ 28 := by decide
  have hlt : s.2 + n < 2 ^ 64 := by omega
  unfold countSample countSampleExact
  rw [exact64_of_lt hlt, wrap64_of_lt hlt, ok_bind]
  dsimp only
  split_ifs with hzero hbig
  · exact .inl ⟨rfl, rfl⟩
  · exact .inl ⟨rfl, rfl⟩
  · exact .inr ⟨Nat.not_lt.mp hbig, rfl, rfl⟩

/-- The length loop stays in the table; it refuses, or the sum it returns is exact. -/
theorem forWords_countSample {i n : Nat} (hlen : 8 + (i + n) * 4 ≤ p.length)
    (hs : s.2 ≤ maxSampleBytes) (hsum : s.1.sum = s.2) :
    forWords .outOfBounds p 8 countSample i n s = .error .failed ∧
        forWords (.failure .outOfBounds) p 8 countSampleExact i n s = .error (.failure .failed) ∨
      ∃ r, r.1.sum = r.2 ∧ r.2 ≤ maxSampleBytes ∧
        forWords .outOfBounds p 8 countSample i n s = .ok r ∧
        forWords (.failure .outOfBounds) p 8 countSampleExact i n s = .ok r := by
  induction n generalizing i s with
  | zero => exact .inr ⟨s, hsum, hs, rfl, rfl⟩
  | succ n ih =>
    obtain ⟨w, hread⟩ := exists_readU32 (b := p) (i := 8 + i * 4) (by omega)
    have hw : w < 2 ^ 32 := readU32_lt (hread ())
    rw [forWords, forWords, hread, hread, ok_bind, ok_bind]
    rcases countSample_cases hs hw with ⟨hcount, hexact⟩ | ⟨hle, hcount, hexact⟩
    · rw [hcount, hexact]
      exact .inl ⟨rfl, rfl⟩
    · rw [hcount, hexact, ok_bind, ok_bind]
      refine ih (by omega) hle ?_
      rw [List.sum_append, List.sum_singleton, hsum]

/-- The copying loop stays in the payload if the samples do. -/
theorem exists_copySamples {lens : List Nat} {offset : Nat} (h : offset + lens.sum ≤ p.length) :
    ∃ samples, copySamples p offset lens = .ok samples := by
  induction lens generalizing offset with
  | nil => exact ⟨[], rfl⟩
  | cons n lens ih =>
    rw [List.sum_cons, ← Nat.add_assoc] at h
    obtain ⟨samples, hrest⟩ := ih h
    refine ⟨(p.drop offset).take (offset + n - offset) :: samples, ?_⟩
    rw [copySamples, slice, if_pos ⟨Nat.le_add_right .., by omega⟩, ok_bind, hrest]
    rfl

end Loops

/-! ### The parser -/

/-- The parser returns or refuses; it does not read out of range, and no value wraps. -/
theorem parseDecryptPayload_cases (req : Frame) :
    parseDecryptPayload req = .error .failed ∧
        parseDecryptPayloadExact req = .error (.failure .failed) ∨
      ∃ r, parseDecryptPayload req = .ok r ∧ parseDecryptPayloadExact req = .ok r := by
  unfold parseDecryptPayload parseDecryptPayloadExact
  dsimp only
  split_ifs with hshort
  · exact .inl ⟨rfl, rfl⟩
  obtain ⟨a, hreada⟩ := exists_readU16 (b := req.payload) (i := 0) (by omega)
  obtain ⟨u, hreadu⟩ := exists_readU16 (b := req.payload) (i := 2) (by omega)
  obtain ⟨n, hreadn⟩ := exists_readU32 (b := req.payload) (i := 4) (by omega)
  have ha : a < 2 ^ 16 := readU16_lt (hreada ())
  have hu : u < 2 ^ 16 := readU16_lt (hreadu ())
  have hn : n < 2 ^ 32 := readU32_lt (hreadn ())
  have htable : n * 4 < 2 ^ 64 := by omega
  have hfixed : 8 + n * 4 + a + u < 2 ^ 64 := by omega
  simp only [hreada, hreadu, hreadn, ok_bind, exact64_of_lt htable, wrap64_of_lt htable,
    exact64_of_lt hfixed, wrap64_of_lt hfixed]
  split_ifs with hempty hlong
  · exact .inl ⟨rfl, rfl⟩
  · exact .inl ⟨rfl, rfl⟩
  -- the table is in the payload
  rcases forWords_countSample (s := ([], 0)) (p := req.payload) (i := 0) (n := n) (by omega)
    (Nat.zero_le _) rfl with ⟨hwords, hexact⟩ | ⟨r, hsum, hle, hwords, hexact⟩
  · rw [hwords, hexact]
    exact .inl ⟨rfl, rfl⟩
  have hmax : maxSampleBytes = 2 ^ 28 := by decide
  have htotal : 8 + n * 4 + a + u + r.2 < 2 ^ 64 := by omega
  simp only [hwords, hexact, ok_bind, exact64_of_lt htotal, wrap64_of_lt htotal]
  split_ifs with hend
  · exact .inl ⟨rfl, rfl⟩
  -- and so are adam_id, the URI and the samples
  have hslice : ∀ {i j : Nat}, i ≤ j → j ≤ req.payload.length →
      slice .outOfBounds req.payload i j = (.ok ((req.payload.drop i).take (j - i)) : Outcome _) :=
    fun hij hj => if_pos ⟨hij, hj⟩
  have hbound : 8 + n * 4 + a + u + r.1.sum ≤ req.payload.length := by omega
  obtain ⟨samples, hcopy⟩ := exists_copySamples hbound
  rw [hslice (by omega) (by omega), hslice (by omega) (by omega), hcopy]
  exact .inr ⟨_, rfl, rfl⟩

/-- **The worker's batch parser** reads in range and computes without wrapping on every payload, and
it accepts exactly the u16/u16/u32 encodings of the batches with a non-empty adam_id and URI and at
least one sample whose samples are non-empty and have at most 256 MiB together. -/
theorem worker_parser_exact (req : Frame) :
    parseDecryptPayload req ≠ .error .outOfBounds ∧
      parseDecryptPayloadExact req = (parseDecryptPayload req).mapError .failure ∧
      ∀ adam uri samples, parseDecryptPayload req = .ok (adam, uri, samples) ↔
        WellFormed adam uri samples ∧ req.payload = tcpHeader.encode adam uri samples := by
  refine ⟨?_, ?_, fun adam uri samples => parseDecryptPayload_ok_iff⟩
  · intro h
    rcases parseDecryptPayload_cases req with ⟨hparse, -⟩ | ⟨r, hparse, -⟩
    · rw [hparse] at h
      cases h
    · rw [hparse] at h
      cases h
  · rcases parseDecryptPayload_cases req with ⟨hparse, hexact⟩ | ⟨r, hparse, hexact⟩
    · rw [hparse, hexact]
      rfl
    · rw [hparse, hexact]
      rfl

end Daemon

end WrapperPaas
