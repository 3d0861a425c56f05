/-
  The sessions of the TCP decrypt listener: the loop of `handle_decrypt_client`
  (`src/rust/main.rs`).

  A session is a function of the bytes that the client sends and of what the calls of
  `decrypt_batch` return, which are numbered from the session's start.  Its writes succeed.
-/
import Mathlib.Data.List.Basic
import WrapperPaas.Protocol.Equiv.Frames
import WrapperPaas.Protocol.Routes

namespace WrapperPaas

namespace Supervisor

/-! ### Termination -/

/-- A frame takes at least its header off the stream. -/
theorem length_lt_of_readDecryptFrame {b rest : Bytes} {f : DecryptFrame}
    (h : readDecryptFrame readExact b = .ok (f, rest)) : rest.length < b.length := by
  have hpos : decryptHeaderLen = 16 := rfl
  rw [(readDecryptFrame_eq_ok.mp h).1, List.length_append, List.length_append, length_decryptHeader]
  omega

theorem sendFrame_next {f : DecryptFrame} {k : Bytes → ClientRound} {sent rest : Bytes}
    (h : sendFrame f k = .next sent rest) : ∃ bytes, k bytes = .next sent rest := by
  unfold sendFrame at h
  split at h
  · exact ⟨_, h⟩
  · cases h

theorem length_lt_of_next {decrypt : String → String → List Bytes → WorkerCall (List Bytes)}
    {input sent rest : Bytes} (h : decryptClientRound decrypt input = .next sent rest) :
    rest.length < input.length := by
  unfold decryptClientRound at h
  split at h
  · cases h
  · cases h
  · next frame more hread =>
    have hlt := length_lt_of_readDecryptFrame hread
    split_ifs at h
    · obtain ⟨bytes, hk⟩ := sendFrame_next h
      cases hk
    · split at h
      · obtain ⟨bytes, hk⟩ := sendFrame_next h
        cases hk
      · cases h
      · split at h
        · cases h
        · cases h
        · split at h
          · cases h
          · obtain ⟨bytes, hk⟩ := sendFrame_next h
            obtain ⟨-, rfl⟩ := ClientRound.next.inj hk
            exact hlt

/-! ### The loop -/

/-- `handle_decrypt_client` from the round on whose call of `decrypt_batch` is the one with number
`call`: the bytes it sends and its result. -/
def handleDecryptClient
    (decrypt : Nat → String → String → List Bytes → WorkerCall (List Bytes)) (call : Nat)
    (input : Bytes) : Bytes × Outcome Unit :=
  match _h : decryptClientRound (decrypt call) input with
  | .ended sent result => (sent, result)
  | .next sent rest =>
    let (more, result) := handleDecryptClient decrypt (call + 1) rest
    (sent ++ more, result)
termination_by input.length
decreasing_by exact length_lt_of_next _h

end Supervisor

end WrapperPaas
