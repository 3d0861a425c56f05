/-
  The codecs of the supervisor index in range: none of them panics, and the messages of their errors
  are short.

  A parser is a chain of checks, reads and loops.  A chain fails gracefully if every link does
  (`Graceful.bind`); a read does if its offset is in range, and the length checks in front of the
  loops say that it is.
-/
import Mathlib.Data.List.Basic
import WrapperPaas.Protocol.Equiv.Batch

namespace WrapperPaas

namespace Supervisor

/-- The computation returns, or it fails with an `io::Error` whose message fits a frame; it does not
panic. -/
def Graceful {α : Type} (x : Outcome α) : Prop :=
  ∀ e, x = .error e → ∃ kind message, e = .err kind message ∧ (utf8 message).length < 2 ^ 32

section Graceful

variable {α β : Type}

theorem Graceful.ok (a : α) : Graceful (.ok a : Outcome α) := by
  intro e h
  cases h

theorem Graceful.invalidData {m : String} (hm : (utf8 m).length < 2 ^ 32) :
    Graceful (invalidData m : Outcome α) := by
  intro e h
  exact ⟨_, _, (Except.error.inj h).symm, hm⟩

theorem Graceful.invalidInput {m : String} (hm : (utf8 m).length < 2 ^ 32) :
    Graceful (invalidInput m : Outcome α) := by
  intro e h
  exact ⟨_, _, (Except.error.inj h).symm, hm⟩

theorem Graceful.bind {x : Outcome α} {f : α → Outcome β} (hx : Graceful x)
    (hf : ∀ a, x = .ok a → Graceful (f a)) : Graceful (x >>= f) := by
  cases x with
  | error e => exact fun e' h => hx e' (congrArg _ (Except.error.inj h))
  | ok a => exact hf a rfl

theorem Graceful.ite {p : Prop} [Decidable p] {x y : Outcome α} (hx : p → Graceful x)
    (hy : ¬ p → Graceful y) : Graceful (if p then x else y) := by
  split_ifs with h
  · exact hx h
  · exact hy h

theorem Graceful.checkedAdd {a b : Nat} {e : Outcome Nat} (he : Graceful e) :
    Graceful (checkedAdd a b e) := .ite (fun _ => .ok _) (fun _ => he)

theorem Graceful.checkedMul {a b : Nat} {e : Outcome Nat} (he : Graceful e) :
    Graceful (checkedMul a b e) := .ite (fun _ => .ok _) (fun _ => he)

theorem Graceful.foldlM {f : β → α → Outcome β} (hf : ∀ b a, Graceful (f b a)) (l : List α)
    (b : β) : Graceful (l.foldlM f b) := by
  induction l generalizing b with
  | nil => exact .ok b
  | cons a l ih =>
    rw [List.foldlM_cons]
    exact (hf b a).bind fun b' _ => ih b'

end Graceful

/-! ### Reads -/

section Reads

variable {b : Bytes} {i j : Nat}

theorem Graceful.readU16 (h : i + 2 ≤ b.length) :
    Graceful (readU16 .panic b i : Outcome Nat) := by
  obtain ⟨w, hw⟩ := exists_readU16 h
  rw [hw]
  exact .ok w

theorem Graceful.readU32 (h : i + 4 ≤ b.length) :
    Graceful (readU32 .panic b i : Outcome Nat) := by
  obtain ⟨w, hw⟩ := exists_readU32 h
  rw [hw]
  exact .ok w

theorem Graceful.slice (hij : i ≤ j) (hj : j ≤ b.length) :
    Graceful (slice .panic b i j : Outcome Bytes) := by
  rw [WrapperPaas.slice, if_pos ⟨hij, hj⟩]
  exact .ok _

/-- The loop over a length table stays in the table. -/
theorem Graceful.forWords {σ : Type} {f : σ → Nat → Outcome σ} (hf : ∀ s w, Graceful (f s w))
    {base i n : Nat} (h : base + (i + n) * 4 ≤ b.length) (s : σ) :
    Graceful (forWords .panic b base f i n s) := by
  induction n generalizing i s with
  | zero => exact .ok s
  | succ n ih =>
    rw [WrapperPaas.forWords]
    refine (Graceful.readU32 (by omega)).bind fun w _ => (hf s w).bind fun s' _ => ih ?_ s'
    have hsum : i + 1 + n = i + (n + 1) := by omega
    rwa [hsum]

/-- The loop that cuts the samples out stays in the data. -/
theorem Graceful.takeSamples {tooLarge : String} (hm : (utf8 tooLarge).length < 2 ^ 32)
    {lens : List Nat} {offset : Nat} : Graceful (takeSamples tooLarge b offset lens) := by
  induction lens generalizing offset with
  | nil => exact .ok _
  | cons len lens ih =>
    rw [Supervisor.takeSamples]
    refine (Graceful.checkedAdd (.invalidData hm)).bind fun stop hstop => ?_
    have hle : offset ≤ stop := by
      rw [Supervisor.checkedAdd] at hstop
      split_ifs at hstop
      · rw [← Except.ok.inj hstop]
        exact Nat.le_add_right ..
      · cases hstop
    refine .ite (fun _ => .invalidData (by decide)) fun hin => ?_
    refine (Graceful.slice hle (by omega)).bind fun sample _ => ?_
    exact ih.bind fun r _ => .ok _

end Reads

/-! ### Parsers and encoders -/

theorem Graceful.parseBatch {headerLen : Nat} {readHeader : Bytes → Outcome (Nat × Nat × Nat)}
    (hheader : ∀ b : Bytes, headerLen ≤ b.length → Graceful (readHeader b)) (body : Bytes) :
    Graceful (parseBatch headerLen readHeader body) := by
  unfold Supervisor.parseBatch
  refine .ite (fun _ => .invalidData (by decide)) fun hlen => ?_
  refine (hheader body (by omega)).bind fun ⟨a, u, n⟩ _ => ?_
  refine .ite (fun _ => .invalidData (by decide)) fun _ => ?_
  refine (Graceful.checkedMul (.invalidData (by decide))).bind fun words hwords => ?_
  refine (Graceful.checkedAdd (.invalidData (by decide))).bind fun tableEnd htable => ?_
  refine (Graceful.checkedAdd (.invalidData (by decide))).bind fun adamEnd hadam => ?_
  refine (Graceful.checkedAdd (.invalidData (by decide))).bind fun fixedEnd hfixed => ?_
  refine .ite (fun _ => .invalidData (by decide)) fun hin => ?_
  -- the table, adam_id and the URI lie in the body
  have h₁ := eq_of_checkedMul hwords
  have h₂ := eq_of_checkedAdd htable
  have h₃ := eq_of_checkedAdd hadam
  have h₄ := eq_of_checkedAdd hfixed
  have hpush : ∀ lens len, Graceful (pushLength lens len) := fun lens len =>
    .ite (fun _ => .invalidData (by decide)) fun _ => .ok _
  have hutf8 : ∀ b m, (utf8 m).length < 2 ^ 32 → Graceful (fromUtf8 b m) := by
    intro b m hm
    unfold fromUtf8
    cases ofUtf8 b with
    | none => exact .invalidData hm
    | some s => exact .ok s
  refine (Graceful.forWords hpush (by omega) []).bind fun lens _ => ?_
  refine (Graceful.slice (by omega) (by omega)).bind fun ab _ => ?_
  refine (hutf8 ab _ (by decide)).bind fun adam _ => ?_
  refine (Graceful.slice (by omega) (by omega)).bind fun ub _ => ?_
  refine (hutf8 ub _ (by decide)).bind fun uri _ => ?_
  refine (Graceful.takeSamples (by decide)).bind fun ⟨samples, offset⟩ _ => ?_
  exact .ite (fun _ => .invalidData (by decide)) fun _ => .ok _

/-- **The TCP batch parser never indexes out of range.** -/
theorem Graceful.parseDecryptBatchPayload (body : Bytes) :
    Graceful (parseDecryptBatchPayload body) := by
  refine Graceful.parseBatch (fun b hb => ?_) body
  refine (Graceful.readU16 (by omega)).bind fun a _ => ?_
  refine (Graceful.readU16 (by omega)).bind fun u _ => ?_
  exact (Graceful.readU32 (by omega)).bind fun n _ => .ok _

/-- **The HTTP batch parser never indexes out of range.** -/
theorem Graceful.parseHttpDecryptBatch (body : Bytes) : Graceful (parseHttpDecryptBatch body) := by
  refine Graceful.parseBatch (fun b hb => ?_) body
  refine (Graceful.readU32 (by omega)).bind fun a _ => ?_
  refine (Graceful.readU32 (by omega)).bind fun u _ => ?_
  exact (Graceful.readU32 (by omega)).bind fun n _ => .ok _

/-- `decrypt_batch_payload` indexes nothing. -/
theorem Graceful.decryptBatchPayload (adam uri : String) (samples : List Bytes) :
    Graceful (decryptBatchPayload adam uri samples) := by
  unfold Supervisor.decryptBatchPayload
  refine .ite (fun _ => .invalidInput (by decide)) fun _ => ?_
  refine .ite (fun _ => .invalidInput (by decide)) fun _ => ?_
  refine (Graceful.checkedMul (.invalidInput (by decide))).bind fun _ _ => ?_
  refine (Graceful.checkedAdd (.invalidInput (by decide))).bind fun _ _ => ?_
  refine (Graceful.checkedAdd (.invalidInput (by decide))).bind fun _ _ => ?_
  refine (Graceful.checkedAdd (.invalidInput (by decide))).bind fun _ _ => ?_
  refine (Graceful.foldlM (fun size x => ?_) samples _).bind fun _ _ => .ok _
  exact .ite (fun _ => .invalidInput (by decide)) fun _ => .checkedAdd (.invalidInput (by decide))

/-- **The parser of the worker's answers never indexes out of range.** -/
theorem Graceful.parseDecryptSamplesPayload (data : Bytes) :
    Graceful (parseDecryptSamplesPayload data) := by
  unfold Supervisor.parseDecryptSamplesPayload
  refine .ite (fun _ => .invalidData (by decide)) fun hlen => ?_
  refine (Graceful.readU32 (by omega)).bind fun n _ => ?_
  refine (Graceful.checkedMul (.invalidData (by decide))).bind fun words hwords => ?_
  refine (Graceful.checkedAdd (.invalidData (by decide))).bind fun tableEnd htable => ?_
  refine .ite (fun _ => .invalidData (by decide)) fun hin => ?_
  have h₁ := eq_of_checkedMul hwords
  have h₂ := eq_of_checkedAdd htable
  refine (Graceful.forWords (fun _ _ => .ok _) (by omega) []).bind fun lens _ => ?_
  refine (Graceful.takeSamples (by decide)).bind fun ⟨samples, offset⟩ _ => ?_
  exact .ite (fun _ => .invalidData (by decide)) fun _ => .ok _

end Supervisor

end WrapperPaas
