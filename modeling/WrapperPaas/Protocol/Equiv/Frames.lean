/-
  The frame codecs of the supervisor are inverse to each other.

  A frame is read back from two exact reads, one of its header and one of its payload
  (`readFrame_eq`, `readDecryptFrame_eq`); this is independent of the stream.  On a stream of bytes
  they are the ones that the writer wrote, and nothing else is read (`readFrame_eq_ok`,
  `readDecryptFrame_eq_ok`).
-/
import Mathlib.Data.List.Basic
import WrapperPaas.Protocol.Frames

namespace WrapperPaas

namespace Supervisor

@[simp] theorem length_frameHeader (f : Frame) : (frameHeader f).length = headerLen := rfl

@[simp] theorem length_decryptHeader (f : DecryptFrame) :
    (decryptHeader f).length = decryptHeaderLen := rfl

theorem readExact_append {b rest : Bytes} {n : Nat} (h : b.length = n) :
    readExact (b ++ rest) n = .ok (b, rest) := by
  subst h
  rw [readExact, if_pos (by simp), List.take_left, List.drop_left]

theorem length_of_readExact {b p rest : Bytes} {n : Nat} (h : readExact b n = .ok (p, rest)) :
    p.length = n := by
  unfold readExact at h
  split_ifs at h with hn
  obtain ⟨rfl, -⟩ := Prod.mk.inj (Except.ok.inj h)
  exact List.length_take_of_le hn

theorem eq_of_readExact {b p rest : Bytes} {n : Nat} (h : readExact b n = .ok (p, rest)) :
    b = p ++ rest := by
  unfold readExact at h
  split_ifs at h
  obtain ⟨rfl, rfl⟩ := Prod.mk.inj (Except.ok.inj h)
  exact (List.take_append_drop n b).symm

theorem uint16_ofNat_mod (n : UInt16) : UInt16.ofNat (n.toNat % 2 ^ 16) = n := by
  rw [Nat.mod_eq_of_lt n.toNat_lt, UInt16.ofNat_toNat]

theorem uint32_ofNat_mod (n : UInt32) : UInt32.ofNat (n.toNat % 2 ^ 32) = n := by
  rw [Nat.mod_eq_of_lt n.toNat_lt, UInt32.ofNat_toNat]

/-! ### WV2I frames -/

section Ipc

variable {ε : Type} {fault : ε} (f : Frame)

theorem frameHeader_magic : readU32 fault (frameHeader f) 0 = .ok magic := by
  have h : magic = magic % 2 ^ 32 := by decide
  rw [h, ← u32OfBE_be32]
  rfl

theorem frameHeader_version : readU16 fault (frameHeader f) 4 = .ok version := by
  have h : version = version % 2 ^ 16 := by decide
  rw [h, ← u16OfBE_be16]
  rfl

theorem frameHeader_kind :
    readU16 fault (frameHeader f) 6 = .ok (f.kind.toNat % 2 ^ 16) := by
  rw [← u16OfBE_be16]
  rfl

theorem frameHeader_requestId :
    readU32 fault (frameHeader f) 8 = .ok (f.requestId.toNat % 2 ^ 32) := by
  rw [← u32OfBE_be32]
  rfl

theorem frameHeader_opcode :
    readU16 fault (frameHeader f) 12 = .ok (f.opcode.toNat % 2 ^ 16) := by
  rw [← u16OfBE_be16]
  rfl

theorem frameHeader_flags :
    readU16 fault (frameHeader f) 14 = .ok (f.flags.toNat % 2 ^ 16) := by
  rw [← u16OfBE_be16]
  rfl

theorem frameHeader_payloadLen :
    readU32 fault (frameHeader f) 16 = .ok (f.payload.length % 2 ^ 32) := by
  rw [← u32OfBE_be32]
  rfl

/-- A header is determined by its words. -/
theorem eq_frameHeader {h payload : Bytes} {kind requestId opcode flags : Nat}
    (hlen : h.length = headerLen) (hmagic : readU32 fault h 0 = .ok magic)
    (hversion : readU16 fault h 4 = .ok version) (hkind : readU16 fault h 6 = .ok kind)
    (hid : readU32 fault h 8 = .ok requestId) (hopcode : readU16 fault h 12 = .ok opcode)
    (hflags : readU16 fault h 14 = .ok flags)
    (hplen : readU32 fault h 16 = .ok payload.length) :
    h = frameHeader ⟨.ofNat kind, .ofNat requestId, .ofNat opcode, .ofNat flags, payload⟩ := by
  have h₀ : h = be32 magic ++ h.drop 4 := drop_of_readU32 hmagic
  have h₄ : h.drop 4 = be16 version ++ h.drop 6 := drop_of_readU16 hversion
  have h₆ : h.drop 6 = be16 kind ++ h.drop 8 := drop_of_readU16 hkind
  have h₈ : h.drop 8 = be32 requestId ++ h.drop 12 := drop_of_readU32 hid
  have h₁₂ : h.drop 12 = be16 opcode ++ h.drop 14 := drop_of_readU16 hopcode
  have h₁₄ : h.drop 14 = be16 flags ++ h.drop 16 := drop_of_readU16 hflags
  have h₁₆ : h.drop 16 = be32 payload.length ++ h.drop 20 := drop_of_readU32 hplen
  have hend : h.drop 20 = [] := List.drop_of_length_le (Nat.le_of_eq hlen)
  show h = be32 magic ++ (be16 version ++ (be16 (UInt16.ofNat kind).toNat ++
    (be32 (UInt32.ofNat requestId).toNat ++ (be16 (UInt16.ofNat opcode).toNat ++
      (be16 (UInt16.ofNat flags).toNat ++ (be32 payload.length ++ []))))))
  rw [UInt16.toNat_ofNat_of_lt' (readU16_lt hkind), UInt32.toNat_ofNat_of_lt' (readU32_lt hid),
    UInt16.toNat_ofNat_of_lt' (readU16_lt hopcode), UInt16.toNat_ofNat_of_lt' (readU16_lt hflags),
    ← hend, ← h₁₆, ← h₁₄, ← h₁₂, ← h₈, ← h₆, ← h₄, ← h₀]

/-- Two exact reads, of a frame's header and of its payload, give the frame back. -/
theorem readFrame_eq {σ : Type} {rd : σ → Nat → Outcome (Bytes × σ)} {r r₁ r₂ : σ} {f : Frame}
    (hlen : f.payload.length < 2 ^ 32) (hh : rd r headerLen = .ok (frameHeader f, r₁))
    (hp : rd r₁ f.payload.length = .ok (f.payload, r₂)) : readFrame rd r = .ok (f, r₂) := by
  refine bind_eq_ok.mpr ⟨(frameHeader f, r₁), hh, ?_⟩
  refine bind_eq_ok.mpr ⟨magic, frameHeader_magic f, ?_⟩
  refine bind_eq_ok.mpr ⟨version, frameHeader_version f, ?_⟩
  rw [if_neg (not_not.mpr rfl), if_neg (not_not.mpr rfl)]
  refine bind_eq_ok.mpr ⟨_, frameHeader_kind f, ?_⟩
  refine bind_eq_ok.mpr ⟨_, frameHeader_requestId f, ?_⟩
  refine bind_eq_ok.mpr ⟨_, frameHeader_opcode f, ?_⟩
  refine bind_eq_ok.mpr ⟨_, frameHeader_flags f, ?_⟩
  refine bind_eq_ok.mpr ⟨_, frameHeader_payloadLen f, ?_⟩
  rw [Nat.mod_eq_of_lt hlen]
  refine bind_eq_ok.mpr ⟨(f.payload, r₂), hp, ?_⟩
  rw [uint16_ofNat_mod, uint16_ofNat_mod, uint16_ofNat_mod, uint32_ofNat_mod]

/-- A frame whose payload cannot be read in full. -/
theorem readFrame_of_payload_error {σ : Type} {rd : σ → Nat → Outcome (Bytes × σ)} {r r₁ : σ}
    {f : Frame} {e : Failure} (hlen : f.payload.length < 2 ^ 32)
    (hh : rd r headerLen = .ok (frameHeader f, r₁)) (hp : rd r₁ f.payload.length = .error e) :
    readFrame rd r = .error e := by
  rw [readFrame, hh, ok_bind]
  dsimp only
  rw [frameHeader_magic, ok_bind, frameHeader_version, ok_bind, if_neg (not_not.mpr rfl),
    if_neg (not_not.mpr rfl), frameHeader_kind, ok_bind, frameHeader_requestId, ok_bind,
    frameHeader_opcode, ok_bind, frameHeader_flags, ok_bind, frameHeader_payloadLen, ok_bind,
    Nat.mod_eq_of_lt hlen, hp]
  rfl

theorem writeFrame_eq {f : Frame} (hlen : f.payload.length < 2 ^ 32) :
    writeFrame f = .ok (frameHeader f ++ f.payload) := by
  rw [writeFrame, if_neg]
  unfold u32Max
  omega

/-- A frame that is written has a payload of a 32-bit length. -/
theorem lt_of_writeFrame {f : Frame} {b : Bytes} (h : writeFrame f = .ok b) :
    f.payload.length < 2 ^ 32 := by
  unfold writeFrame u32Max at h
  split_ifs at h
  · cases h
  · omega

theorem readFrame_append {f : Frame} {rest : Bytes} (hlen : f.payload.length < 2 ^ 32) :
    readFrame readExact (frameHeader f ++ f.payload ++ rest) = .ok (f, rest) := by
  have hh : readExact (frameHeader f ++ f.payload ++ rest) headerLen =
      .ok (frameHeader f, f.payload ++ rest) := by
    rw [List.append_assoc]
    exact readExact_append (length_frameHeader f)
  exact readFrame_eq hlen hh (readExact_append rfl)

/-- What was read of a stream is the frame as it is written. -/
theorem readFrame_eq_ok {b rest : Bytes} {f : Frame} :
    readFrame readExact b = .ok (f, rest) ↔
      b = frameHeader f ++ f.payload ++ rest ∧ f.payload.length < 2 ^ 32 := by
  refine ⟨fun h => ?_, fun ⟨hb, hlt⟩ => hb ▸ readFrame_append hlt⟩
  obtain ⟨⟨hd, r₁⟩, hhead, h⟩ := bind_eq_ok.mp h
  obtain ⟨magic', hmagic, h⟩ := bind_eq_ok.mp h
  obtain ⟨version', hversion, h⟩ := bind_eq_ok.mp h
  by_cases hm : magic' ≠ magic
  · rw [if_pos hm] at h
    cases h
  by_cases hv : version' ≠ version
  · rw [if_neg hm, if_pos hv] at h
    cases h
  rw [if_neg hm, if_neg hv] at h
  obtain ⟨kind, hkind, h⟩ := bind_eq_ok.mp h
  obtain ⟨requestId, hid, h⟩ := bind_eq_ok.mp h
  obtain ⟨opcode, hopcode, h⟩ := bind_eq_ok.mp h
  obtain ⟨flags, hflags, h⟩ := bind_eq_ok.mp h
  obtain ⟨payloadLen, hplen, h⟩ := bind_eq_ok.mp h
  obtain ⟨⟨payload, r₂⟩, hpayload, h⟩ := bind_eq_ok.mp h
  obtain ⟨rfl, rfl⟩ := Prod.mk.inj (Except.ok.inj h)
  obtain rfl := not_not.mp hm
  obtain rfl := not_not.mp hv
  obtain rfl := length_of_readExact hpayload
  rw [← eq_frameHeader (length_of_readExact hhead) hmagic hversion hkind hid hopcode hflags hplen,
    List.append_assoc, ← eq_of_readExact hpayload]
  exact ⟨eq_of_readExact hhead, readU32_lt hplen⟩

end Ipc

/-! ### WV2D frames -/

section Decrypt

variable {ε : Type} {fault : ε} (f : DecryptFrame)

theorem decryptHeader_magic : readU32 fault (decryptHeader f) 0 = .ok decryptMagic := by
  have h : decryptMagic = decryptMagic % 2 ^ 32 := by decide
  rw [h, ← u32OfBE_be32]
  rfl

theorem decryptHeader_version : readU16 fault (decryptHeader f) 4 = .ok decryptVersion := by
  have h : decryptVersion = decryptVersion % 2 ^ 16 := by decide
  rw [h, ← u16OfBE_be16]
  rfl

theorem decryptHeader_kind :
    readU16 fault (decryptHeader f) 6 = .ok (f.kind.toNat % 2 ^ 16) := by
  rw [← u16OfBE_be16]
  rfl

theorem decryptHeader_requestId :
    readU32 fault (decryptHeader f) 8 = .ok (f.requestId.toNat % 2 ^ 32) := by
  rw [← u32OfBE_be32]
  rfl

theorem decryptHeader_payloadLen :
    readU32 fault (decryptHeader f) 12 = .ok (f.payload.length % 2 ^ 32) := by
  rw [← u32OfBE_be32]
  rfl

/-- A header is determined by its words. -/
theorem eq_decryptHeader {h payload : Bytes} {kind requestId : Nat}
    (hlen : h.length = decryptHeaderLen) (hmagic : readU32 fault h 0 = .ok decryptMagic)
    (hversion : readU16 fault h 4 = .ok decryptVersion) (hkind : readU16 fault h 6 = .ok kind)
    (hid : readU32 fault h 8 = .ok requestId)
    (hplen : readU32 fault h 12 = .ok payload.length) :
    h = decryptHeader ⟨.ofNat kind, .ofNat requestId, payload⟩ := by
  have h₀ : h = be32 decryptMagic ++ h.drop 4 := drop_of_readU32 hmagic
  have h₄ : h.drop 4 = be16 decryptVersion ++ h.drop 6 := drop_of_readU16 hversion
  have h₆ : h.drop 6 = be16 kind ++ h.drop 8 := drop_of_readU16 hkind
  have h₈ : h.drop 8 = be32 requestId ++ h.drop 12 := drop_of_readU32 hid
  have h₁₂ : h.drop 12 = be32 payload.length ++ h.drop 16 := drop_of_readU32 hplen
  have hend : h.drop 16 = [] := List.drop_of_length_le (Nat.le_of_eq hlen)
  show h = be32 decryptMagic ++ (be16 decryptVersion ++ (be16 (UInt16.ofNat kind).toNat ++
    (be32 (UInt32.ofNat requestId).toNat ++ (be32 payload.length ++ []))))
  rw [UInt16.toNat_ofNat_of_lt' (readU16_lt hkind), UInt32.toNat_ofNat_of_lt' (readU32_lt hid),
    ← hend, ← h₁₂, ← h₈, ← h₆, ← h₄, ← h₀]

/-- Two exact reads, of a frame's header and of its payload, give the frame back. -/
theorem readDecryptFrame_eq {σ : Type} {rd : σ → Nat → Outcome (Bytes × σ)} {r r₁ r₂ : σ}
    {f : DecryptFrame} (hlen : f.payload.length < 2 ^ 32)
    (hh : rd r decryptHeaderLen = .ok (decryptHeader f, r₁))
    (hp : rd r₁ f.payload.length = .ok (f.payload, r₂)) :
    readDecryptFrame rd r = .ok (f, r₂) := by
  refine bind_eq_ok.mpr ⟨(decryptHeader f, r₁), hh, ?_⟩
  refine bind_eq_ok.mpr ⟨decryptMagic, decryptHeader_magic f, ?_⟩
  refine bind_eq_ok.mpr ⟨decryptVersion, decryptHeader_version f, ?_⟩
  rw [if_neg (not_not.mpr rfl), if_neg (not_not.mpr rfl)]
  refine bind_eq_ok.mpr ⟨_, decryptHeader_kind f, ?_⟩
  refine bind_eq_ok.mpr ⟨_, decryptHeader_requestId f, ?_⟩
  refine bind_eq_ok.mpr ⟨_, decryptHeader_payloadLen f, ?_⟩
  rw [Nat.mod_eq_of_lt hlen]
  refine bind_eq_ok.mpr ⟨(f.payload, r₂), hp, ?_⟩
  rw [uint16_ofNat_mod, uint32_ofNat_mod]

theorem writeDecryptFrame_eq {f : DecryptFrame} (hlen : f.payload.length < 2 ^ 32) :
    writeDecryptFrame f = .ok (decryptHeader f ++ f.payload) := by
  rw [writeDecryptFrame, if_neg]
  unfold u32Max
  omega

theorem readDecryptFrame_append {f : DecryptFrame} {rest : Bytes}
    (hlen : f.payload.length < 2 ^ 32) :
    readDecryptFrame readExact (decryptHeader f ++ f.payload ++ rest) = .ok (f, rest) := by
  have hh : readExact (decryptHeader f ++ f.payload ++ rest) decryptHeaderLen =
      .ok (decryptHeader f, f.payload ++ rest) := by
    rw [List.append_assoc]
    exact readExact_append (length_decryptHeader f)
  exact readDecryptFrame_eq hlen hh (readExact_append rfl)

/-- What was read of a stream is the frame as it is written. -/
theorem readDecryptFrame_eq_ok {b rest : Bytes} {f : DecryptFrame} :
    readDecryptFrame readExact b = .ok (f, rest) ↔
      b = decryptHeader f ++ f.payload ++ rest ∧ f.payload.length < 2 ^ 32 := by
  refine ⟨fun h => ?_, fun ⟨hb, hlt⟩ => hb ▸ readDecryptFrame_append hlt⟩
  obtain ⟨⟨hd, r₁⟩, hhead, h⟩ := bind_eq_ok.mp h
  obtain ⟨magic', hmagic, h⟩ := bind_eq_ok.mp h
  obtain ⟨version', hversion, h⟩ := bind_eq_ok.mp h
  by_cases hm : magic' ≠ decryptMagic
  · rw [if_pos hm] at h
    cases h
  by_cases hv : version' ≠ decryptVersion
  · rw [if_neg hm, if_pos hv] at h
    cases h
  rw [if_neg hm, if_neg hv] at h
  obtain ⟨kind, hkind, h⟩ := bind_eq_ok.mp h
  obtain ⟨requestId, hid, h⟩ := bind_eq_ok.mp h
  obtain ⟨payloadLen, hplen, h⟩ := bind_eq_ok.mp h
  obtain ⟨⟨payload, r₂⟩, hpayload, h⟩ := bind_eq_ok.mp h
  obtain ⟨rfl, rfl⟩ := Prod.mk.inj (Except.ok.inj h)
  obtain rfl := not_not.mp hm
  obtain rfl := not_not.mp hv
  obtain rfl := length_of_readExact hpayload
  rw [← eq_decryptHeader (length_of_readExact hhead) hmagic hversion hkind hid hplen,
    List.append_assoc, ← eq_of_readExact hpayload]
  exact ⟨eq_of_readExact hhead, readU32_lt hplen⟩

end Decrypt

end Supervisor

end WrapperPaas
