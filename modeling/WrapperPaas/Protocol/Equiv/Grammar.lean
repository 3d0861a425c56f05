/-
  The public batch parsers accept exactly their grammar, and the same batches.

  An encoding has one reading (`BatchHeader.encode_injective`), so a parser that accepts exactly the
  encodings of well-formed batches returns the batch that was encoded.  The two formats differ in
  the width of their length fields only, and on batches that both can write their parsers agree
  (`public_parsers_exact`).
-/
import Mathlib.Data.List.Flatten
import WrapperPaas.Protocol.Equiv.Bounds

namespace WrapperPaas

namespace Supervisor

/-! ### One reading -/

theorem be32_injective {m n : Nat} (hm : m < 2 ^ 32) (hn : n < 2 ^ 32) (h : be32 m = be32 n) :
    m = n := by
  simp only [be32, List.cons.injEq, and_true] at h
  obtain ⟨h₁, h₂, h₃, h₄⟩ := h
  rw [← u32OfBE_be32_of_lt hm, ← u32OfBE_be32_of_lt hn, h₁, h₂, h₃, h₄]

theorem wordTable_injective {ms ns : List Nat} (hms : ∀ m ∈ ms, m < 2 ^ 32)
    (hns : ∀ n ∈ ns, n < 2 ^ 32) (h : wordTable ms = wordTable ns) : ms = ns := by
  induction ms generalizing ns with
  | nil =>
    have hlen := congrArg List.length h
    rw [length_wordTable, length_wordTable, List.length_nil] at hlen
    exact (List.length_eq_zero_iff.mp (by omega)).symm
  | cons m ms ih =>
    cases ns with
    | nil => cases h
    | cons n ns =>
      obtain ⟨hm, hms⟩ := List.forall_mem_cons.mp hms
      obtain ⟨hn, hns⟩ := List.forall_mem_cons.mp hns
      obtain ⟨hword, htable⟩ := List.append_inj h rfl
      rw [be32_injective hm hn hword, ih hms hns htable]

namespace BatchHeader

variable {H : BatchHeader}

/-- The lengths and the count fit the fields of the header and of the length table. -/
structure Fits (H : BatchHeader) (adam uri : Bytes) (samples : List Bytes) : Prop where
  adam : adam.length < H.bound
  uri : uri.length < H.bound
  count : samples.length < 2 ^ 32
  sample : ∀ x ∈ samples, x.length < 2 ^ 32

theorem WellFormed.fits {adam uri : String} {samples : List Bytes}
    (h : H.WellFormed adam uri samples) : H.Fits (utf8 adam) (utf8 uri) samples := by
  refine ⟨h.adam_lt, h.uri_lt, h.samples_lt, fun x hx => ?_⟩
  have hle := (h.sample x hx).2
  have hmax : maxSampleLen = 2 ^ 26 := by decide
  omega

/-- Two batches that fit have different encodings. -/
theorem encode_injective {adam uri adam' uri' : Bytes} {samples samples' : List Bytes}
    (h : H.Fits adam uri samples) (h' : H.Fits adam' uri' samples')
    (heq : H.encode adam uri samples = H.encode adam' uri' samples') :
    adam = adam' ∧ uri = uri' ∧ samples = samples' := by
  -- the headers say where the parts are
  have hread := H.read_enc _ _ _ (wordTable (samples.map List.length) ++
    (adam ++ (uri ++ samples.flatten))) h.adam h.uri h.count
  have hread' := H.read_enc _ _ _ (wordTable (samples'.map List.length) ++
    (adam' ++ (uri' ++ samples'.flatten))) h'.adam h'.uri h'.count
  change H.read (H.encode adam uri samples) = _ at hread
  rw [heq] at hread
  have hlens := Except.ok.inj (hread.symm.trans hread')
  obtain ⟨ha, hrest⟩ := Prod.mk.inj hlens
  obtain ⟨hu, hn⟩ := Prod.mk.inj hrest
  unfold encode at heq
  rw [ha, hu, hn] at heq
  have hbody := List.append_cancel_left heq
  obtain ⟨htable, hparts⟩ := List.append_inj hbody (by
    rw [length_wordTable, length_wordTable, List.length_map, List.length_map, hn])
  obtain ⟨hadam, htail⟩ := List.append_inj hparts ha
  obtain ⟨huri, hflat⟩ := List.append_inj htail hu
  have hlt : ∀ {l : List Bytes}, (∀ x ∈ l, x.length < 2 ^ 32) →
      ∀ n ∈ l.map List.length, n < 2 ^ 32 := by
    intro l hl n hn
    obtain ⟨x, hx, rfl⟩ := List.mem_map.mp hn
    exact hl x hx
  have hmap := wordTable_injective (hlt h.sample) (hlt h'.sample) htable
  exact ⟨hadam, huri, List.eq_iff_flatten_eq.mpr ⟨hflat, hmap⟩⟩

/-- Of a batch that fits the parser accepts the encoding exactly if the batch is well-formed, and
returns this batch. -/
theorem parse_encode_iff {adam uri : Bytes} {samples : List Bytes} (h : H.Fits adam uri samples)
    {b : Batch} : H.parse (H.encode adam uri samples) = .ok b ↔
      utf8 b.1 = adam ∧ utf8 b.2.1 = uri ∧ b.2.2 = samples ∧ H.WellFormed b.1 b.2.1 samples := by
  obtain ⟨a, u, s⟩ := b
  rw [parse_ok_iff]
  constructor
  · rintro ⟨hwf, heq⟩
    obtain ⟨rfl, rfl, rfl⟩ := encode_injective h hwf.fits heq
    exact ⟨rfl, rfl, rfl, hwf⟩
  · rintro ⟨rfl, rfl, rfl, hwf⟩
    exact ⟨hwf, rfl⟩

end BatchHeader

/-! ### The public parsers -/

/-- The byte string is the encoding of this batch, which is well-formed. -/
def BatchHeader.Encodes (H : BatchHeader) (b : Bytes) (t : Batch) : Prop :=
  H.WellFormed t.1 t.2.1 t.2.2 ∧ b = H.encode (utf8 t.1) (utf8 t.2.1) t.2.2

/-- A parser never indexes out of range, and it accepts exactly the encodings of the well-formed
batches, each of which has one reading. -/
structure AcceptsExactly (H : BatchHeader) (parse : Bytes → Outcome Batch) : Prop where
  inRange : ∀ b, parse b ≠ .error .panic
  accepts : ∀ b t, parse b = .ok t ↔ H.Encodes b t
  oneReading : ∀ b t t', H.Encodes b t → H.Encodes b t' → t = t'

/-- Both parsers accept their encoding of the batch and yield it, or both reject theirs. -/
def Agree (adam uri : Bytes) (samples : List Bytes) : Prop :=
  (∃ a u, utf8 a = adam ∧ utf8 u = uri ∧
    parseDecryptBatchPayload (tcpHeader.encode adam uri samples) = .ok (a, u, samples) ∧
    parseHttpDecryptBatch (httpHeader.encode adam uri samples) = .ok (a, u, samples)) ∨
  (∃ e, parseDecryptBatchPayload (tcpHeader.encode adam uri samples) = .error e) ∧
    ∃ e, parseHttpDecryptBatch (httpHeader.encode adam uri samples) = .error e

theorem Graceful.ne_panic {α : Type} {x : Outcome α} (h : Graceful x) : x ≠ .error .panic := by
  intro hx
  obtain ⟨kind, message, he, -⟩ := h _ hx
  cases he

/-- A parser of a header layout that does not panic accepts exactly its grammar. -/
theorem BatchHeader.acceptsExactly (H : BatchHeader) (hparse : ∀ b, Graceful (H.parse b)) :
    AcceptsExactly H H.parse where
  inRange b := (hparse b).ne_panic
  accepts _ _ := parse_ok_iff
  oneReading b t t' h h' := by
    have hok : H.parse b = .ok t := parse_ok_iff.mpr h
    have hok' : H.parse b = .ok t' := parse_ok_iff.mpr h'
    exact Except.ok.inj (hok.symm.trans hok')

/-- A batch that both formats can write is well-formed for both or for none. -/
theorem wellFormed_iff {adam uri : String} {samples : List Bytes}
    (ha : (utf8 adam).length ≤ 65535) (hu : (utf8 uri).length ≤ 65535) :
    tcpHeader.WellFormed adam uri samples ↔ httpHeader.WellFormed adam uri samples := by
  constructor
  · intro h
    exact ⟨h.adam_pos, Nat.lt_of_le_of_lt ha (by decide), h.uri_pos,
      Nat.lt_of_le_of_lt hu (by decide), h.samples_pos, h.samples_lt, h.sample⟩
  · intro h
    exact ⟨h.adam_pos, Nat.lt_of_le_of_lt ha (by decide), h.uri_pos,
      Nat.lt_of_le_of_lt hu (by decide), h.samples_pos, h.samples_lt, h.sample⟩

theorem agree {adam uri : Bytes} {samples : List Bytes} (ha : adam.length ≤ 65535)
    (hu : uri.length ≤ 65535) (hn : samples.length < 2 ^ 32)
    (hlt : ∀ x ∈ samples, x.length < 2 ^ 32) : Agree adam uri samples := by
  have htcp : tcpHeader.Fits adam uri samples :=
    ⟨Nat.lt_of_le_of_lt ha (by decide), Nat.lt_of_le_of_lt hu (by decide), hn, hlt⟩
  have hhttp : httpHeader.Fits adam uri samples :=
    ⟨Nat.lt_of_le_of_lt ha (by decide), Nat.lt_of_le_of_lt hu (by decide), hn, hlt⟩
  -- each parser accepts exactly the triple of strings with these bytes
  have hboth : ∀ t : Batch, tcpHeader.parse (tcpHeader.encode adam uri samples) = .ok t ↔
      httpHeader.parse (httpHeader.encode adam uri samples) = .ok t := by
    intro t
    rw [BatchHeader.parse_encode_iff htcp, BatchHeader.parse_encode_iff hhttp]
    refine and_congr_right fun hadam => and_congr_right fun huri => and_congr_right fun _ => ?_
    exact wellFormed_iff (by rwa [hadam]) (by rwa [huri])
  cases hp : tcpHeader.parse (tcpHeader.encode adam uri samples) with
  | ok t =>
    obtain ⟨hadam, huri, hsamples, -⟩ := (BatchHeader.parse_encode_iff htcp).mp hp
    obtain ⟨a, u, s⟩ := t
    obtain rfl : s = samples := hsamples
    exact .inl ⟨a, u, hadam, huri, hp, (hboth _).mp hp⟩
  | error e =>
    refine .inr ⟨⟨e, hp⟩, ?_⟩
    cases hq : httpHeader.parse (httpHeader.encode adam uri samples) with
    | ok t =>
      rw [(hboth t).mpr hq] at hp
      cases hp
    | error e' => exact ⟨e', hq⟩

/-- Re-encoding what the TCP parser accepts gives the payload back. -/
theorem decryptBatchPayload_of_parse {b : Bytes} {adam uri : String} {samples : List Bytes}
    (h : parseDecryptBatchPayload b = .ok (adam, uri, samples)) :
    decryptBatchPayload adam uri samples = .ok b := by
  obtain ⟨hwf, rfl⟩ := (BatchHeader.parse_ok_iff (H := tcpHeader)).mp h
  have hmax : maxSampleLen = 2 ^ 26 := by decide
  have hu16 : u16Max = 2 ^ 16 - 1 := rfl
  have hu32 : u32Max = 2 ^ 32 - 1 := rfl
  have ha : (utf8 adam).length < 2 ^ 16 := hwf.adam_lt
  have hu : (utf8 uri).length < 2 ^ 16 := hwf.uri_lt
  have hn := hwf.samples_lt
  refine (decryptBatchPayload_ok_iff hwf.length_lt).mpr ⟨⟨by omega, by omega, by omega⟩,
    List.ne_nil_of_length_pos hwf.samples_pos, fun x hx => ?_, rfl⟩
  obtain ⟨hpos, hle⟩ := hwf.sample x hx
  exact ⟨List.ne_nil_of_length_pos hpos, by omega⟩

/-- **The public batch parsers.**  Each accepts exactly its grammar and stays in range; an accepted
TCP payload is what `decrypt_batch_payload` writes for its batch; and the parsers agree on every
batch that both formats can write. -/
theorem public_parsers_exact :
    AcceptsExactly tcpHeader parseDecryptBatchPayload ∧
      AcceptsExactly httpHeader parseHttpDecryptBatch ∧
      (∀ b adam uri samples, parseDecryptBatchPayload b = .ok (adam, uri, samples) →
        decryptBatchPayload adam uri samples = .ok b) ∧
      ∀ (adam uri : Bytes) (samples : List Bytes), adam.length ≤ 65535 → uri.length ≤ 65535 →
        samples.length < 2 ^ 32 → (∀ x ∈ samples, x.length < 2 ^ 32) → Agree adam uri samples := by
  refine ⟨BatchHeader.acceptsExactly tcpHeader Graceful.parseDecryptBatchPayload,
    BatchHeader.acceptsExactly httpHeader Graceful.parseHttpDecryptBatch, ?_, ?_⟩
  · intro b adam uri samples h
    exact decryptBatchPayload_of_parse h
  · intro adam uri samples ha hu hn hlt
    exact agree ha hu hn hlt

end Supervisor

end WrapperPaas
