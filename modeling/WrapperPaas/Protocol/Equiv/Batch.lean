/-
  The batch payloads of the supervisor have exactly one reading.

  A batch is a header, the table of its sample lengths, adam_id, key URI and the samples
  (`BatchHeader.encode`).  `BatchHeader.parse_ok_iff` says that the parser accepts exactly the
  encodings of well-formed batches and returns what was encoded, for both header layouts at once.
  The response payloads are treated the same way (`parseDecryptSamplesPayload_encodeSamples`,
  `buildSamplesPayload_eq`).
-/
import Mathlib.Data.List.Basic
import WrapperPaas.Protocol.Batch
import WrapperPaas.Protocol.Equiv.Frames

namespace WrapperPaas

/-- A string that is long enough begins with any number of bytes. -/
theorem exists_append_of_le {n : Nat} {b : Bytes} (h : n ≤ b.length) :
    ∃ x y, x.length = n ∧ b = x ++ y :=
  ⟨b.take n, b.drop n, List.length_take_of_le h, (List.take_append_drop n b).symm⟩

namespace Supervisor

/-! ### The loops -/

theorem checkedAdd_of_lt {a b : Nat} {e : Outcome Nat} (h : a + b < usizeSize) :
    checkedAdd a b e = .ok (a + b) := if_pos h

theorem checkedMul_of_lt {a b : Nat} {e : Outcome Nat} (h : a * b < usizeSize) :
    checkedMul a b e = .ok (a * b) := if_pos h

/-- What `checked_add` and `checked_mul` return is exact. -/
theorem eq_of_checkedAdd {a b n : Nat} {m : String}
    (h : checkedAdd a b (invalidData m) = .ok n) : n = a + b := by
  unfold checkedAdd at h
  split_ifs at h
  · exact (Except.ok.inj h).symm
  · cases h

theorem eq_of_checkedMul {a b n : Nat} {m : String}
    (h : checkedMul a b (invalidData m) = .ok n) : n = a * b := by
  unfold checkedMul at h
  split_ifs at h
  · exact (Except.ok.inj h).symm
  · cases h

theorem lt_of_checkedAdd {a b n : Nat} {m : String}
    (h : checkedAdd a b (invalidData m) = .ok n) : n < usizeSize := by
  unfold checkedAdd at h
  split_ifs at h with hlt
  · rwa [← Except.ok.inj h]
  · cases h

theorem foldlM_pushLength {lens acc r : List Nat} :
    lens.foldlM pushLength acc = .ok r ↔
      (∀ x ∈ lens, 0 < x ∧ x ≤ maxSampleLen) ∧ r = acc ++ lens := by
  induction lens generalizing acc with
  | nil =>
    rw [List.foldlM_nil, List.append_nil]
    constructor
    · intro h
      exact ⟨fun _ hx => (nomatch hx), (Except.ok.inj h).symm⟩
    · intro h
      exact congrArg _ h.2.symm
  | cons n lens ih =>
    rw [List.foldlM_cons, List.forall_mem_cons, pushLength]
    split_ifs with hn
    · refine ⟨fun h => (nomatch h), fun h => ?_⟩
      omega
    · rw [ok_bind, ih, List.append_assoc, List.singleton_append]
      refine and_congr_left fun _ => ?_
      have hbounds : 0 < n ∧ n ≤ maxSampleLen := by omega
      exact ⟨fun h => ⟨hbounds, h⟩, fun h => h.2⟩

/-- Cutting the samples out succeeds exactly if they are there, one after the other. -/
theorem takeSamples_ok_iff {tooLarge : String} {data : Bytes} {offset offset' : Nat}
    {lens : List Nat} {samples : List Bytes} (hdata : data.length < usizeSize)
    (ho : offset ≤ data.length) :
    takeSamples tooLarge data offset lens = .ok (samples, offset') ↔
      samples.map List.length = lens ∧ offset' = offset + samples.flatten.length ∧
        ∃ post, data.drop offset = samples.flatten ++ post := by
  induction lens generalizing offset samples with
  | nil =>
    rw [takeSamples]
    constructor
    · intro h
      obtain ⟨rfl, rfl⟩ := Prod.mk.inj (Except.ok.inj h)
      exact ⟨rfl, rfl, _, rfl⟩
    · rintro ⟨hs, rfl, -⟩
      rw [List.map_eq_nil_iff.mp hs]
      rfl
  | cons n lens ih =>
    rw [takeSamples]
    constructor
    · intro h
      obtain ⟨stop, hstop, h⟩ := bind_eq_ok.mp h
      rw [checkedAdd] at hstop
      split_ifs at hstop with hsum
      · obtain rfl := Except.ok.inj hstop
        split_ifs at h with hle
        · cases h
        · obtain ⟨sample, hsample, h⟩ := bind_eq_ok.mp h
          obtain ⟨⟨rest, o⟩, hrest, h⟩ := bind_eq_ok.mp h
          obtain ⟨rfl, rfl⟩ := Prod.mk.inj (Except.ok.inj h)
          rw [slice, if_pos (by omega)] at hsample
          obtain rfl := Except.ok.inj hsample
          obtain ⟨hlens, rfl, post, hpost⟩ := (ih (by omega)).mp hrest
          have hn : ((data.drop offset).take (offset + n - offset)).length = n := by
            rw [List.length_take, List.length_drop]
            omega
          refine ⟨?_, ?_, post, ?_⟩
          · rw [List.map_cons, hn, hlens]
          · rw [List.flatten_cons, List.length_append, hn]
            omega
          · rw [List.flatten_cons, List.append_assoc, ← hpost, Nat.add_sub_cancel_left,
              ← List.drop_drop, List.take_append_drop]
      · cases hstop
    · rintro ⟨hlens, rfl, post, hpost⟩
      cases samples with
      | nil => cases hlens
      | cons sample rest =>
        obtain ⟨rfl, hrest⟩ := List.cons.inj hlens
        rw [List.flatten_cons, List.append_assoc] at hpost
        have hlen : data.length - offset = sample.length + (rest.flatten ++ post).length := by
          rw [← List.length_drop, hpost, List.length_append]
        rw [checkedAdd_of_lt (by omega), ok_bind, if_neg (by omega), slice, if_pos (by omega),
          ok_bind, Nat.add_sub_cancel_left, hpost, List.take_left]
        have hdrop : data.drop (offset + sample.length) = rest.flatten ++ post := by
          rw [← List.drop_drop, hpost, List.drop_left]
        have hend : offset + (sample :: rest).flatten.length =
            offset + sample.length + rest.flatten.length := by
          rw [List.flatten_cons, List.length_append, Nat.add_assoc]
        rw [(ih (by omega)).mpr ⟨hrest, hend, post, hdrop⟩]
        rfl

/-! ### Batch layouts -/

/-- A layout of the batch header: what the parser reads and what it encodes.  The length fields
hold values below `bound`. -/
structure BatchHeader where
  len : Nat
  bound : Nat
  read : Bytes → Outcome (Nat × Nat × Nat)
  enc : Nat → Nat → Nat → Bytes
  length_enc : ∀ a u n, (enc a u n).length = len
  read_enc : ∀ a u n rest, a < bound → u < bound → n < 2 ^ 32 →
    read (enc a u n ++ rest) = .ok (a, u, n)
  exists_enc : ∀ b : Bytes, len ≤ b.length →
    ∃ a u n rest, a < bound ∧ u < bound ∧ n < 2 ^ 32 ∧ b = enc a u n ++ rest
  len_le : len ≤ 12
  bound_le : bound ≤ 2 ^ 32

/-- The header of the TCP format and of the worker's batches. -/
def tcpHeader : BatchHeader where
  len := 8
  bound := 2 ^ 16
  read := readTcpHeader
  enc a u n := be16 a ++ (be16 u ++ be32 n)
  length_enc _ _ _ := rfl
  read_enc a u n rest ha hu hn := by
    refine bind_eq_ok.mpr ⟨a, ?_, bind_eq_ok.mpr ⟨u, ?_, bind_eq_ok.mpr ⟨n, ?_, rfl⟩⟩⟩
    · exact congrArg Except.ok (u16OfBE_be16_of_lt ha)
    · exact congrArg Except.ok (u16OfBE_be16_of_lt hu)
    · exact congrArg Except.ok (u32OfBE_be32_of_lt hn)
  exists_enc b hb := by
    match b, hb with
    | b₀ :: b₁ :: b₂ :: b₃ :: b₄ :: b₅ :: b₆ :: b₇ :: rest, _ =>
      refine ⟨_, _, _, rest, u16OfBE_lt b₀ b₁, u16OfBE_lt b₂ b₃, u32OfBE_lt b₄ b₅ b₆ b₇, ?_⟩
      rw [be16_u16OfBE, be16_u16OfBE, be32_u32OfBE]
      rfl
  len_le := by decide
  bound_le := by decide

/-- The header of the HTTP format. -/
def httpHeader : BatchHeader where
  len := 12
  bound := 2 ^ 32
  read := readHttpHeader
  enc a u n := be32 a ++ (be32 u ++ be32 n)
  length_enc _ _ _ := rfl
  read_enc a u n rest ha hu hn := by
    refine bind_eq_ok.mpr ⟨a, ?_, bind_eq_ok.mpr ⟨u, ?_, bind_eq_ok.mpr ⟨n, ?_, rfl⟩⟩⟩
    · exact congrArg Except.ok (u32OfBE_be32_of_lt ha)
    · exact congrArg Except.ok (u32OfBE_be32_of_lt hu)
    · exact congrArg Except.ok (u32OfBE_be32_of_lt hn)
  exists_enc b hb := by
    match b, hb with
    | b₀ :: b₁ :: b₂ :: b₃ :: b₄ :: b₅ :: b₆ :: b₇ :: b₈ :: b₉ :: b₁₀ :: b₁₁ :: rest, _ =>
      refine ⟨_, _, _, rest, u32OfBE_lt b₀ b₁ b₂ b₃, u32OfBE_lt b₄ b₅ b₆ b₇,
        u32OfBE_lt b₈ b₉ b₁₀ b₁₁, ?_⟩
      rw [be32_u32OfBE, be32_u32OfBE, be32_u32OfBE]
      rfl
  len_le := by decide
  bound_le := by decide

namespace BatchHeader

variable (H : BatchHeader)

/-- The documented encoding of a batch. -/
def encode (adam uri : Bytes) (samples : List Bytes) : Bytes :=
  H.enc adam.length uri.length samples.length ++ (wordTable (samples.map List.length) ++
    (adam ++ (uri ++ samples.flatten)))

/-- The parser of the layout. -/
def parse (body : Bytes) : Outcome Batch := parseBatch H.len H.read body

/-- What the parser accepts: no empty field, lengths that fit and samples of 1 to 64 MiB. -/
structure WellFormed (adam uri : String) (samples : List Bytes) : Prop where
  adam_pos : 0 < (utf8 adam).length
  adam_lt : (utf8 adam).length < H.bound
  uri_pos : 0 < (utf8 uri).length
  uri_lt : (utf8 uri).length < H.bound
  samples_pos : 0 < samples.length
  samples_lt : samples.length < 2 ^ 32
  sample : ∀ x ∈ samples, 0 < x.length ∧ x.length ≤ maxSampleLen

variable {H}

theorem length_encode (adam uri : Bytes) (samples : List Bytes) :
    (H.encode adam uri samples).length =
      H.len + 4 * samples.length + adam.length + uri.length + samples.flatten.length := by
  simp only [encode, List.length_append, H.length_enc, length_wordTable, List.length_map]
  omega

theorem fromUtf8_eq_ok {b : Bytes} {message : String} {s : String} :
    fromUtf8 b message = .ok s ↔ utf8 s = b := by
  rw [fromUtf8]
  constructor
  · intro h
    split at h
    · obtain rfl := Except.ok.inj h
      exact utf8_of_ofUtf8 ‹_›
    · cases h
  · rintro rfl
    rw [ofUtf8_utf8]

/-- The parser on a body whose parts are where the header says. -/
theorem parse_layout {a u n : Nat} {lens : List Nat} {ab ub data : Bytes} {adam uri : String}
    {samples : List Bytes} (ha : a < H.bound) (hu : u < H.bound) (hn : n < 2 ^ 32)
    (hlens : lens.length = n) (hlt : ∀ x ∈ lens, x < 2 ^ 32) (hab : ab.length = a)
    (hub : ub.length = u)
    (hbody : (H.enc a u n ++ (wordTable lens ++ (ab ++ (ub ++ data)))).length < usizeSize) :
    H.parse (H.enc a u n ++ (wordTable lens ++ (ab ++ (ub ++ data)))) = .ok (adam, uri, samples) ↔
      (0 < a ∧ 0 < u ∧ 0 < n) ∧ (∀ x ∈ lens, 0 < x ∧ x ≤ maxSampleLen) ∧ utf8 adam = ab ∧
        utf8 uri = ub ∧ samples.map List.length = lens ∧ data = samples.flatten := by
  have hlen : (H.enc a u n ++ (wordTable lens ++ (ab ++ (ub ++ data)))).length =
      H.len + 4 * n + a + u + data.length := by
    simp only [List.length_append, H.length_enc, length_wordTable, hlens, hab, hub]
    omega
  rw [hlen] at hbody
  rw [parse, parseBatch, if_neg (by omega), H.read_enc a u n _ ha hu hn, ok_bind]
  dsimp only
  split_ifs with hz
  · refine ⟨fun h => (nomatch h), fun h => ?_⟩
    omega
  have hpos : 0 < a ∧ 0 < u ∧ 0 < n := by omega
  have hsize : usizeSize = 2 ^ 64 := rfl
  have hH := H.len_le
  have hB := H.bound_le
  rw [checkedMul_of_lt (by omega), ok_bind, checkedAdd_of_lt (by omega), ok_bind,
    checkedAdd_of_lt (by omega), ok_bind, checkedAdd_of_lt (by omega), ok_bind,
    if_neg (by rw [hlen]; omega)]
  generalize hb : H.enc a u n ++ (wordTable lens ++ (ab ++ (ub ++ data))) = body at hlen ⊢
  -- where the parts are
  have hwords : forWords .panic body H.len pushLength 0 n [] = lens.foldlM pushLength [] := by
    rw [← hb, ← hlens]
    exact forWords_wordTable hlt (by rw [H.length_enc]; rfl) []
  have hadam : slice .panic body (H.len + n * 4) (H.len + n * 4 + a) =
      (.ok ab : Outcome Bytes) := by
    rw [← hb, ← List.append_assoc]
    refine slice_append ?_ (by rw [hab])
    rw [List.length_append, H.length_enc, length_wordTable, hlens]
    omega
  have huri : slice .panic body (H.len + n * 4 + a) (H.len + n * 4 + a + u) =
      (.ok ub : Outcome Bytes) := by
    rw [← hb, ← List.append_assoc, ← List.append_assoc]
    refine slice_append ?_ (by rw [hub])
    rw [List.length_append, List.length_append, H.length_enc, length_wordTable, hlens, hab]
    omega
  have hdata : body.drop (H.len + n * 4 + a + u) = data := by
    rw [← hb, ← List.append_assoc, ← List.append_assoc, ← List.append_assoc]
    refine List.drop_left' ?_
    simp only [List.length_append, H.length_enc, length_wordTable, hlens, hab, hub]
    omega
  have htake : ∀ {r : List Bytes × Nat}, takeSamples "decrypt batch too large" body
      (H.len + n * 4 + a + u) lens = .ok r ↔ r.1.map List.length = lens ∧
        r.2 = H.len + n * 4 + a + u + r.1.flatten.length ∧ ∃ post, data = r.1.flatten ++ post := by
    intro r
    rw [← hdata]
    exact takeSamples_ok_iff (by omega) (by omega)
  rw [hwords]
  constructor
  · intro h
    obtain ⟨lengths, hl, h₁⟩ := bind_eq_ok.mp h
    obtain ⟨hvalid, hlengths⟩ := foldlM_pushLength.mp hl
    rw [hadam, ok_bind, hlengths, List.nil_append] at h₁
    obtain ⟨adam', hadam', h₂⟩ := bind_eq_ok.mp h₁
    rw [huri, ok_bind] at h₂
    obtain ⟨uri', huri', h₃⟩ := bind_eq_ok.mp h₂
    obtain ⟨⟨samples', stop⟩, hs, h₄⟩ := bind_eq_ok.mp h₃
    obtain ⟨hmap, hstop, post, hpost⟩ := htake.mp hs
    dsimp only at h₄ hmap hstop hpost
    split_ifs at h₄ with hend
    · cases h₄
    obtain ⟨rfl, h₅⟩ := Prod.mk.inj (Except.ok.inj h₄)
    obtain ⟨rfl, rfl⟩ := Prod.mk.inj h₅
    refine ⟨hpos, hvalid, fromUtf8_eq_ok.mp hadam', fromUtf8_eq_ok.mp huri', hmap, ?_⟩
    -- the samples fill the rest of the body
    have hnil : post = [] := by
      rw [hpost, List.length_append] at hlen
      exact List.length_eq_zero_iff.mp (by omega)
    rw [hpost, hnil, List.append_nil]
  · rintro ⟨-, hvalid, hadam', huri', hmap, rfl⟩
    refine bind_eq_ok.mpr ⟨lens, foldlM_pushLength.mpr ⟨hvalid, rfl⟩, ?_⟩
    rw [hadam, ok_bind, fromUtf8_eq_ok.mpr hadam', ok_bind, huri, ok_bind,
      fromUtf8_eq_ok.mpr huri', ok_bind]
    refine bind_eq_ok.mpr ⟨(samples, H.len + n * 4 + a + u + samples.flatten.length),
      htake.mpr ⟨hmap, rfl, [], (List.append_nil _).symm⟩, ?_⟩
    dsimp only
    rw [if_neg (by omega)]

/-- An accepted body is long enough for its length table, adam_id and URI. -/
theorem le_of_parse_ok {a u n : Nat} {rest : Bytes} {r : Batch} (ha : a < H.bound)
    (hu : u < H.bound) (hn : n < 2 ^ 32) (h : H.parse (H.enc a u n ++ rest) = .ok r) :
    4 * n + (a + u) ≤ rest.length := by
  have hlen : (H.enc a u n ++ rest).length = H.len + rest.length := by
    rw [List.length_append, H.length_enc]
  have hsize : usizeSize = 2 ^ 64 := rfl
  have hH := H.len_le
  have hB := H.bound_le
  rw [parse, parseBatch, if_neg (by omega), H.read_enc a u n _ ha hu hn, ok_bind] at h
  dsimp only at h
  split_ifs at h
  · cases h
  · rw [checkedMul_of_lt (by omega), ok_bind, checkedAdd_of_lt (by omega), ok_bind,
      checkedAdd_of_lt (by omega), ok_bind, checkedAdd_of_lt (by omega), ok_bind, hlen] at h
    split_ifs at h with hfix
    · cases h
    · omega

/-- On a body whose length is a `usize` the parser accepts exactly the encodings. -/
theorem parse_ok_iff_of_lt {body : Bytes} {adam uri : String} {samples : List Bytes}
    (hbody : body.length < usizeSize) :
    H.parse body = .ok (adam, uri, samples) ↔
      H.WellFormed adam uri samples ∧ body = H.encode (utf8 adam) (utf8 uri) samples := by
  constructor
  · intro h
    have hshort : ¬ body.length < H.len := by
      intro hshort
      rw [parse, parseBatch, if_pos hshort] at h
      cases h
    -- cut the body into its parts
    obtain ⟨a, u, n, rest, ha, hu, hn, rfl⟩ := H.exists_enc body (by omega)
    have hrest := le_of_parse_ok ha hu hn h
    obtain ⟨table, rest, htable, rfl⟩ := exists_append_of_le (n := 4 * n) (b := rest) (by omega)
    obtain ⟨lens, hlens, hlt, rfl⟩ := exists_wordTable htable
    rw [List.length_append, htable] at hrest
    obtain ⟨ab, rest, hab, rfl⟩ := exists_append_of_le (n := a) (b := rest) (by omega)
    rw [List.length_append, hab] at hrest
    obtain ⟨ub, data, hub, rfl⟩ := exists_append_of_le (n := u) (b := rest) (by omega)
    obtain ⟨hpos, hvalid, rfl, rfl, rfl, rfl⟩ :=
      (parse_layout ha hu hn hlens hlt hab hub hbody).mp h
    rw [List.length_map] at hlens
    subst hab hub hlens
    refine ⟨⟨hpos.1, ha, hpos.2.1, hu, hpos.2.2, hn, fun x hx => ?_⟩, rfl⟩
    exact hvalid x.length (List.mem_map_of_mem hx)
  · rintro ⟨hwf, rfl⟩
    have hvalid : ∀ x ∈ samples.map List.length, 0 < x ∧ x ≤ maxSampleLen := by
      intro x hx
      obtain ⟨s, hs, rfl⟩ := List.mem_map.mp hx
      exact hwf.sample s hs
    have hlt : ∀ x ∈ samples.map List.length, x < 2 ^ 32 := by
      intro x hx
      have := (hvalid x hx).2
      unfold maxSampleLen at this
      omega
    exact (parse_layout hwf.adam_lt hwf.uri_lt hwf.samples_lt (List.length_map ..) hlt rfl rfl
      hbody).mpr ⟨⟨hwf.adam_pos, hwf.uri_pos, hwf.samples_pos⟩, hvalid, rfl, rfl, rfl, rfl⟩

theorem length_flatten_le {n : Nat} {l : List Bytes} (h : ∀ x ∈ l, x.length ≤ n) :
    l.flatten.length ≤ l.length * n := by
  induction l with
  | nil => exact Nat.zero_le _
  | cons x l ih =>
    obtain ⟨hx, hl⟩ := List.forall_mem_cons.mp h
    have hrest := ih hl
    rw [List.flatten_cons, List.length_append, List.length_cons, Nat.succ_mul]
    omega

/-- The encoding of a well-formed batch has a length that is a `usize`. -/
theorem WellFormed.length_lt {adam uri : String} {samples : List Bytes}
    (h : H.WellFormed adam uri samples) :
    (H.encode (utf8 adam) (utf8 uri) samples).length < usizeSize := by
  have hflat := length_flatten_le fun x hx => (h.sample x hx).2
  have hsize : usizeSize = 2 ^ 64 := rfl
  have hmax : maxSampleLen = 2 ^ 26 := by decide
  rw [hmax] at hflat
  have hH := H.len_le
  have hB := H.bound_le
  have ha := h.adam_lt
  have hu := h.uri_lt
  have hn := h.samples_lt
  rw [length_encode]
  omega

/-- The offset that the samples end at is a `usize`. -/
theorem takeSamples_lt {tooLarge : String} {data : Bytes} {lens : List Nat} {offset : Nat}
    {samples : List Bytes} {offset' : Nat} (ho : offset < usizeSize)
    (h : takeSamples tooLarge data offset lens = .ok (samples, offset')) : offset' < usizeSize := by
  induction lens generalizing offset samples with
  | nil =>
    obtain ⟨-, rfl⟩ := Prod.mk.inj (Except.ok.inj h)
    exact ho
  | cons len lens ih =>
    rw [takeSamples] at h
    obtain ⟨stop, hstop, h⟩ := bind_eq_ok.mp h
    split_ifs at h
    · cases h
    · obtain ⟨sample, -, h⟩ := bind_eq_ok.mp h
      obtain ⟨⟨rest, offset''⟩, hrest, h⟩ := bind_eq_ok.mp h
      obtain ⟨-, rfl⟩ := Prod.mk.inj (Except.ok.inj h)
      exact ih (lt_of_checkedAdd hstop) hrest

/-- The parser accepts no body whose length is not a `usize`. -/
theorem length_lt_of_parse_ok {body : Bytes} {r : Batch} (h : H.parse body = .ok r) :
    body.length < usizeSize := by
  unfold parse parseBatch at h
  dsimp only at h
  split_ifs at h
  · cases h
  obtain ⟨⟨a, u, n⟩, -, h⟩ := bind_eq_ok.mp h
  dsimp only at h
  split_ifs at h
  · cases h
  obtain ⟨words, -, h⟩ := bind_eq_ok.mp h
  obtain ⟨tableEnd, -, h⟩ := bind_eq_ok.mp h
  obtain ⟨adamEnd, hadamEnd, h⟩ := bind_eq_ok.mp h
  obtain ⟨fixedEnd, hfixedEnd, h⟩ := bind_eq_ok.mp h
  split_ifs at h
  · cases h
  obtain ⟨lengths, -, h⟩ := bind_eq_ok.mp h
  obtain ⟨ab, -, h⟩ := bind_eq_ok.mp h
  obtain ⟨adam, -, h⟩ := bind_eq_ok.mp h
  obtain ⟨ub, -, h⟩ := bind_eq_ok.mp h
  obtain ⟨uri, -, h⟩ := bind_eq_ok.mp h
  obtain ⟨⟨samples, offset⟩, htake, h⟩ := bind_eq_ok.mp h
  dsimp only at h
  split_ifs at h with hend
  · cases h
  -- the samples end where the body does
  obtain rfl := not_not.mp hend
  refine takeSamples_lt ?_ htake
  rw [← eq_of_checkedAdd hadamEnd, ← eq_of_checkedAdd hfixedEnd]
  exact lt_of_checkedAdd hfixedEnd

/-- **The parsers accept exactly their grammar**, and return what was encoded. -/
theorem parse_ok_iff {body : Bytes} {adam uri : String} {samples : List Bytes} :
    H.parse body = .ok (adam, uri, samples) ↔
      H.WellFormed adam uri samples ∧ body = H.encode (utf8 adam) (utf8 uri) samples := by
  constructor
  · intro h
    exact (parse_ok_iff_of_lt (length_lt_of_parse_ok h)).mp h
  · rintro ⟨hwf, rfl⟩
    exact (parse_ok_iff_of_lt hwf.length_lt).mpr ⟨hwf, rfl⟩

end BatchHeader

/-! ### Encoders -/

/-- A loop that checks each sample and adds its length up succeeds exactly if every check does. -/
theorem foldlM_addLen (bad : Bytes → Prop) [DecidablePred bad] {e e' : Outcome Nat} {size r : Nat}
    {samples : List Bytes} (herr : ∀ n, e ≠ .ok n)
    (hsize : size + samples.flatten.length < usizeSize) :
    samples.foldlM (fun size x => if bad x then e else checkedAdd size x.length e') size = .ok r ↔
      (∀ x ∈ samples, ¬ bad x) ∧ r = size + samples.flatten.length := by
  induction samples generalizing size with
  | nil =>
    rw [List.foldlM_nil]
    constructor
    · intro h
      exact ⟨fun _ hx => (nomatch hx), (Except.ok.inj h).symm⟩
    · intro h
      exact congrArg _ h.2.symm
  | cons x samples ih =>
    rw [List.flatten_cons, List.length_append] at hsize
    rw [List.foldlM_cons, List.forall_mem_cons, List.flatten_cons, List.length_append,
      ← Nat.add_assoc]
    split_ifs with hx
    · constructor
      · intro h
        obtain ⟨n, hn, -⟩ := bind_eq_ok.mp h
        exact absurd hn (herr n)
      · exact fun h => absurd hx h.1.1
    · rw [checkedAdd_of_lt (by omega), ok_bind, ih (by omega)]
      exact and_congr_left fun _ => ⟨fun h => ⟨hx, h⟩, fun h => h.2⟩

theorem invalidInput_ne_ok {α : Type} {m : String} (a : α) : invalidInput m ≠ .ok a :=
  fun h => (nomatch h)

/-- `decrypt_batch_payload` writes the worker's batch encoding, or refuses for a length. -/
theorem decryptBatchPayload_ok_iff {adam uri : String} {samples : List Bytes} {p : Bytes}
    (hsize : (tcpHeader.encode (utf8 adam) (utf8 uri) samples).length < usizeSize) :
    decryptBatchPayload adam uri samples = .ok p ↔
      ((utf8 adam).length ≤ u16Max ∧ (utf8 uri).length ≤ u16Max ∧ samples.length ≤ u32Max) ∧
        samples ≠ [] ∧ (∀ x ∈ samples, x ≠ [] ∧ x.length ≤ u32Max) ∧
        p = tcpHeader.encode (utf8 adam) (utf8 uri) samples := by
  rw [BatchHeader.length_encode] at hsize
  change 8 + _ + _ + _ + _ < usizeSize at hsize
  rw [decryptBatchPayload]
  split_ifs with hbig hnil
  · refine ⟨fun h => (nomatch h), fun h => ?_⟩
    omega
  · exact ⟨fun h => (nomatch h), fun h => absurd hnil h.2.1⟩
  · have hlens : (utf8 adam).length ≤ u16Max ∧ (utf8 uri).length ≤ u16Max ∧
        samples.length ≤ u32Max := by omega
    have hloop : ∀ r, samples.foldlM addSampleLen (8 + samples.length * 4 + (utf8 adam).length +
        (utf8 uri).length) = .ok r ↔ (∀ x ∈ samples, ¬ (x = [] ∨ x.length > u32Max)) ∧
          r = 8 + samples.length * 4 + (utf8 adam).length + (utf8 uri).length +
            samples.flatten.length :=
      fun r => foldlM_addLen (fun x => x = [] ∨ x.length > u32Max)
        (fun n => invalidInput_ne_ok n) (by omega)
    rw [checkedMul_of_lt (by omega), ok_bind, checkedAdd_of_lt (by omega), ok_bind,
      checkedAdd_of_lt (by omega), ok_bind, checkedAdd_of_lt (by omega), ok_bind]
    constructor
    · intro h
      obtain ⟨r, hr, h⟩ := bind_eq_ok.mp h
      refine ⟨hlens, hnil, fun x hx => ?_, (Except.ok.inj h).symm⟩
      have := ((hloop r).mp hr).1 x hx
      exact ⟨fun h => this (.inl h), by omega⟩
    · rintro ⟨-, -, hx, rfl⟩
      refine bind_eq_ok.mpr ⟨_, (hloop _).mpr ⟨fun x hmem => ?_, rfl⟩, rfl⟩
      obtain ⟨hne, hle⟩ := hx x hmem
      rintro (h | h)
      · exact hne h
      · omega

/-! ### Response payloads -/

/-- The encoding of the samples of a response. -/
def encodeSamples (samples : List Bytes) : Bytes :=
  be32 samples.length ++ (wordTable (samples.map List.length) ++ samples.flatten)

theorem length_encodeSamples (samples : List Bytes) :
    (encodeSamples samples).length = 4 + 4 * samples.length + samples.flatten.length := by
  simp only [encodeSamples, List.length_append, length_be32, length_wordTable, List.length_map]
  omega

theorem foldlM_push (lens acc : List Nat) :
    lens.foldlM (fun lengths len => (.ok (lengths ++ [len]) : Outcome (List Nat))) acc =
      .ok (acc ++ lens) := by
  induction lens generalizing acc with
  | nil => rw [List.append_nil]; rfl
  | cons n lens ih => rw [List.foldlM_cons, ok_bind, ih, List.append_assoc, List.singleton_append]

/-- `parse_decrypt_samples_payload` reads back what was encoded. -/
theorem parseDecryptSamplesPayload_encodeSamples {samples : List Bytes}
    (hn : samples.length < 2 ^ 32) (hlt : ∀ x ∈ samples, x.length < 2 ^ 32)
    (hsize : (encodeSamples samples).length < usizeSize) :
    parseDecryptSamplesPayload (encodeSamples samples) = .ok samples := by
  have hlen := length_encodeSamples samples
  have husize : usizeSize = 2 ^ 64 := rfl
  have hcount : readU32 .panic (encodeSamples samples) 0 = (.ok samples.length : Outcome Nat) :=
    congrArg Except.ok (u32OfBE_be32_of_lt hn)
  have hlt' : ∀ n ∈ samples.map List.length, n < 2 ^ 32 := by
    intro n hmem
    obtain ⟨x, hx, rfl⟩ := List.mem_map.mp hmem
    exact hlt x hx
  have hwords : forWords .panic (encodeSamples samples) 4
      (fun lengths len => (.ok (lengths ++ [len]) : Outcome (List Nat))) 0 samples.length [] =
        .ok (samples.map List.length) := by
    rw [← List.nil_append (samples.map List.length), ← foldlM_push]
    have hl : (samples.map List.length).length = samples.length := List.length_map ..
    rw [← hl]
    exact forWords_wordTable hlt' rfl []
  have hdrop : (encodeSamples samples).drop (4 + samples.length * 4) = samples.flatten := by
    rw [encodeSamples, ← List.append_assoc]
    refine List.drop_left' ?_
    rw [List.length_append, length_be32, length_wordTable, List.length_map]
    omega
  have htake : takeSamples "decrypt response too large" (encodeSamples samples)
      (4 + samples.length * 4) (samples.map List.length) =
        .ok (samples, 4 + samples.length * 4 + samples.flatten.length) :=
    (takeSamples_ok_iff hsize (by omega)).mpr
      ⟨rfl, rfl, [], by rw [hdrop, List.append_nil]⟩
  rw [parseDecryptSamplesPayload, if_neg (by omega), hcount, ok_bind,
    checkedMul_of_lt (by omega), ok_bind, checkedAdd_of_lt (by omega), ok_bind,
    if_neg (by omega), hwords, ok_bind, htake, ok_bind]
  dsimp only
  rw [if_neg (by omega)]

/-- What `parse_decrypt_samples_payload` accepts is the encoding of what it returns. -/
theorem eq_encodeSamples_of_parse {data : Bytes} {samples : List Bytes}
    (hsize : data.length < usizeSize) (h : parseDecryptSamplesPayload data = .ok samples) :
    (samples.length < 2 ^ 32 ∧ ∀ x ∈ samples, x.length < 2 ^ 32) ∧
      data = encodeSamples samples := by
  have husize : usizeSize = 2 ^ 64 := rfl
  unfold parseDecryptSamplesPayload at h
  split_ifs at h with hshort
  · cases h
  -- cut the payload into its parts
  obtain ⟨b₀, b₁, b₂, b₃, rest, rfl⟩ : ∃ b₀ b₁ b₂ b₃ rest,
      data = b₀ :: b₁ :: b₂ :: b₃ :: rest := by
    match data, hshort with
    | b₀ :: b₁ :: b₂ :: b₃ :: rest, _ => exact ⟨b₀, b₁, b₂, b₃, rest, rfl⟩
    | [], hshort | [_], hshort | [_, _], hshort | [_, _, _], hshort =>
      exact absurd (by simp) hshort
  have hlen : (b₀ :: b₁ :: b₂ :: b₃ :: rest).length = 4 + rest.length := by
    simp only [List.length_cons]
    omega
  have hn := u32OfBE_lt b₀ b₁ b₂ b₃
  obtain ⟨n, hread, h⟩ := bind_eq_ok.mp h
  obtain rfl : u32OfBE b₀ b₁ b₂ b₃ = n := Except.ok.inj hread
  rw [checkedMul_of_lt (by omega), ok_bind, checkedAdd_of_lt (by omega), ok_bind] at h
  split_ifs at h with htable
  · cases h
  obtain ⟨table, post, hpost, rfl⟩ := exists_append_of_le (n := 4 * u32OfBE b₀ b₁ b₂ b₃)
    (b := rest) (by omega)
  obtain ⟨lens, hlens, hlt, rfl⟩ := exists_wordTable hpost
  have hwords : forWords .panic (b₀ :: b₁ :: b₂ :: b₃ :: (wordTable lens ++ post)) 4
      (fun lengths len => (.ok (lengths ++ [len]) : Outcome (List Nat))) 0 lens.length [] =
        .ok lens := by
    rw [← List.nil_append lens, ← foldlM_push, List.nil_append]
    change forWords Failure.panic ([b₀, b₁, b₂, b₃] ++ (wordTable lens ++ post)) 4 _ 0 _ [] = _
    exact forWords_wordTable hlt rfl []
  rw [← hlens, hwords, ok_bind] at h
  obtain ⟨⟨samples', stop⟩, htake, h⟩ := bind_eq_ok.mp h
  have hdrop : (b₀ :: b₁ :: b₂ :: b₃ :: (wordTable lens ++ post)).drop (4 + lens.length * 4) =
      post := by
    change ([b₀, b₁, b₂, b₃] ++ (wordTable lens ++ post)).drop _ = _
    rw [← List.append_assoc]
    refine List.drop_left' ?_
    rw [List.length_append, length_wordTable]
    change 4 + _ = _
    omega
  obtain ⟨hmap, rfl, more, hmore⟩ := (takeSamples_ok_iff hsize (by omega)).mp htake
  rw [hdrop] at hmore
  dsimp only at h
  split_ifs at h with hend
  · cases h
  obtain rfl := Except.ok.inj h
  -- the samples fill the rest of the payload
  have hnil : more = [] := by
    have hrest : (wordTable lens ++ post).length =
        4 * lens.length + (samples'.flatten.length + more.length) := by
      rw [List.length_append, length_wordTable, hmore, List.length_append]
    exact List.length_eq_zero_iff.mp (by omega)
  have hcount : samples'.length = u32OfBE b₀ b₁ b₂ b₃ := by
    rw [← hlens, ← hmap, List.length_map]
  refine ⟨⟨by omega, fun x hx => hlt _ (hmap ▸ List.mem_map_of_mem hx)⟩, ?_⟩
  rw [encodeSamples, hmap, hcount, be32_u32OfBE, hmore, hnil, List.append_nil]
  rfl

/-- The response encoders write the encoding of the samples. -/
theorem buildSamplesPayload_eq {samples : List Bytes} (hn : samples.length < 2 ^ 32)
    (hlt : ∀ x ∈ samples, x.length < 2 ^ 32)
    (hsize : (encodeSamples samples).length < usizeSize) :
    buildSamplesPayload samples = .ok (encodeSamples samples) := by
  rw [length_encodeSamples] at hsize
  have hmax : u32Max = 2 ^ 32 - 1 := rfl
  have husize : usizeSize = 2 ^ 64 := rfl
  have hloop : samples.foldlM addPlaintextLen (4 + samples.length * 4) =
      .ok (4 + samples.length * 4 + samples.flatten.length) :=
    (foldlM_addLen (fun x => x.length > u32Max) (fun n => invalidInput_ne_ok n)
      (by omega)).mpr ⟨fun x hx => by have := hlt x hx; omega, rfl⟩
  rw [buildSamplesPayload, if_neg (by omega), checkedMul_of_lt (by omega), ok_bind,
    checkedAdd_of_lt (by omega), ok_bind, hloop, ok_bind]
  rfl

end Supervisor

end WrapperPaas
