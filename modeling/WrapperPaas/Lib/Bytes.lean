/-
  Byte strings, big-endian words and the UTF-8 encoding of strings.

  A byte string is a list, so that encodings are appends and a decoder's offsets are lengths.
  Words are encoded from their value: `be16` and `be32` take the low bytes of a natural number, as
  a narrowing cast followed by a big-endian store does, and reading gives the value back modulo the
  word size (`u16OfBE_be16`, `u32OfBE_be32`).
-/
import Mathlib.Algebra.Group.Nat.Defs
import Mathlib.Data.List.Basic
import WrapperPaas.Lib.Fields

namespace WrapperPaas

/-- A byte string. -/
abbrev Bytes := List UInt8

/-- What a C string is read as. -/
def cString (b : Bytes) : Bytes := b.takeWhile (· ≠ 0)

/-! ### Big-endian words -/

/-- The low 16 bits of `n`, most significant byte first. -/
def be16 (n : Nat) : Bytes := [UInt8.ofNat (n / 2 ^ 8), UInt8.ofNat n]

/-- The low 32 bits of `n`, most significant byte first. -/
def be32 (n : Nat) : Bytes :=
  [UInt8.ofNat (n / 2 ^ 24), UInt8.ofNat (n / 2 ^ 16), UInt8.ofNat (n / 2 ^ 8), UInt8.ofNat n]

/-- The value of two bytes, most significant first. -/
def u16OfBE (a b : UInt8) : Nat := a.toNat * 2 ^ 8 + b.toNat

/-- The value of four bytes, most significant first. -/
def u32OfBE (a b c d : UInt8) : Nat :=
  a.toNat * 2 ^ 24 + b.toNat * 2 ^ 16 + c.toNat * 2 ^ 8 + d.toNat

@[simp] theorem length_be32 (n : Nat) : (be32 n).length = 4 := rfl

theorem u16OfBE_lt (a b : UInt8) : u16OfBE a b < 2 ^ 16 := by
  have ha := a.toNat_lt
  have hb := b.toNat_lt
  unfold u16OfBE
  omega

theorem u32OfBE_lt (a b c d : UInt8) : u32OfBE a b c d < 2 ^ 32 := by
  have ha := a.toNat_lt
  have hb := b.toNat_lt
  have hc := c.toNat_lt
  have hd := d.toNat_lt
  unfold u32OfBE
  omega

theorem u16OfBE_be16 (n : Nat) :
    u16OfBE (UInt8.ofNat (n / 2 ^ 8)) (UInt8.ofNat n) = n % 2 ^ 16 := by
  simp only [u16OfBE, UInt8.toNat_ofNat']
  omega

theorem u32OfBE_be32 (n : Nat) :
    u32OfBE (UInt8.ofNat (n / 2 ^ 24)) (UInt8.ofNat (n / 2 ^ 16)) (UInt8.ofNat (n / 2 ^ 8))
      (UInt8.ofNat n) = n % 2 ^ 32 := by
  simp only [u32OfBE, UInt8.toNat_ofNat']
  omega

theorem u16OfBE_be16_of_lt {n : Nat} (h : n < 2 ^ 16) :
    u16OfBE (UInt8.ofNat (n / 2 ^ 8)) (UInt8.ofNat n) = n :=
  (u16OfBE_be16 n).trans (Nat.mod_eq_of_lt h)

theorem u32OfBE_be32_of_lt {n : Nat} (h : n < 2 ^ 32) :
    u32OfBE (UInt8.ofNat (n / 2 ^ 24)) (UInt8.ofNat (n / 2 ^ 16)) (UInt8.ofNat (n / 2 ^ 8))
      (UInt8.ofNat n) = n :=
  (u32OfBE_be32 n).trans (Nat.mod_eq_of_lt h)

theorem be16_u16OfBE (a b : UInt8) : be16 (u16OfBE a b) = [a, b] := by
  have ha := a.toNat_lt
  have hb := b.toNat_lt
  have h₁ : u16OfBE a b / 2 ^ 8 % 2 ^ 8 = a.toNat := by
    unfold u16OfBE
    omega
  have h₂ : u16OfBE a b % 2 ^ 8 = b.toNat := by
    unfold u16OfBE
    omega
  rw [be16, List.cons.injEq, List.cons.injEq]
  refine ⟨UInt8.toNat_inj.mp ?_, UInt8.toNat_inj.mp ?_, rfl⟩
  · rw [UInt8.toNat_ofNat', h₁]
  · rw [UInt8.toNat_ofNat', h₂]

theorem be32_u32OfBE (a b c d : UInt8) : be32 (u32OfBE a b c d) = [a, b, c, d] := by
  have ha := a.toNat_lt
  have hb := b.toNat_lt
  have hc := c.toNat_lt
  have hd := d.toNat_lt
  have h₁ : u32OfBE a b c d / 2 ^ 24 % 2 ^ 8 = a.toNat := by
    unfold u32OfBE
    omega
  have h₂ : u32OfBE a b c d / 2 ^ 16 % 2 ^ 8 = b.toNat := by
    unfold u32OfBE
    omega
  have h₃ : u32OfBE a b c d / 2 ^ 8 % 2 ^ 8 = c.toNat := by
    unfold u32OfBE
    omega
  have h₄ : u32OfBE a b c d % 2 ^ 8 = d.toNat := by
    unfold u32OfBE
    omega
  rw [be32, List.cons.injEq, List.cons.injEq, List.cons.injEq, List.cons.injEq]
  refine ⟨UInt8.toNat_inj.mp ?_, UInt8.toNat_inj.mp ?_, UInt8.toNat_inj.mp ?_,
    UInt8.toNat_inj.mp ?_, rfl⟩
  · rw [UInt8.toNat_ofNat', h₁]
  · rw [UInt8.toNat_ofNat', h₂]
  · rw [UInt8.toNat_ofNat', h₃]
  · rw [UInt8.toNat_ofNat', h₄]

/-! ### UTF-8 -/

/-- The UTF-8 bytes of a string. -/
def utf8 (s : String) : Bytes := s.toByteArray.data.toList

/-- The string with these UTF-8 bytes, if they are valid. -/
def ofUtf8 (b : Bytes) : Option String := String.fromUTF8? ⟨b.toArray⟩

theorem length_utf8 (s : String) : (utf8 s).length = s.utf8ByteSize := rfl

theorem utf8_injective {s t : String} (h : utf8 s = utf8 t) : s = t :=
  String.toByteArray_inj.mp (ByteArray.ext (Array.toList_inj.mp h))

theorem ofUtf8_utf8 (s : String) : ofUtf8 (utf8 s) = some s := by
  rw [ofUtf8, String.fromUTF8?, utf8, Array.toArray_toList, dif_pos s.isValidUTF8]
  rfl

theorem utf8_of_ofUtf8 {b : Bytes} {s : String} (h : ofUtf8 b = some s) : utf8 s = b := by
  rw [ofUtf8, String.fromUTF8?] at h
  split_ifs at h
  obtain rfl := Option.some.inj h
  exact List.toList_toArray

/-! ### Searching -/

/-- A fixed text is checked character by character. -/
theorem forall_mem_of_all {P : UInt8 → Prop} [DecidablePred P] {b : Bytes}
    (h : b.all (fun c => decide (P c)) = true) : ∀ c ∈ b, P c :=
  fun c hc => of_decide_eq_true (List.all_eq_true.mp h c hc)

/-! ### Reads at an offset -/

/-- A computation that succeeds with `b` succeeds at every step. -/
theorem bind_eq_ok {ε α β : Type} {x : Except ε α} {f : α → Except ε β} {b : β} :
    (x >>= f) = .ok b ↔ ∃ a, x = .ok a ∧ f a = .ok b := by
  cases x with
  | error e => exact ⟨fun h => (nomatch h), fun ⟨_, h, _⟩ => (nomatch h)⟩
  | ok a => exact ⟨fun h => ⟨a, rfl, h⟩, fun ⟨_, h, hf⟩ => by cases h; exact hf⟩

/-- A computation fails at its first step or behind it. -/
theorem ok_bind {ε α β : Type} (a : α) (f : α → Except ε β) : (Except.ok a >>= f) = f a := rfl

theorem toOption_eq_some {ε α : Type} {x : Except ε α} {a : α} :
    x.toOption = some a ↔ x = .ok a := by
  cases x with
  | error e => exact ⟨fun h => (nomatch h), fun h => (nomatch h)⟩
  | ok b => exact ⟨fun h => congrArg _ (Option.some.inj h), fun h => congrArg _ (Except.ok.inj h)⟩

section Reads

variable {ε : Type} (fault : ε)

/-- The 16-bit word at offset `i`. -/
def readU16 (b : Bytes) (i : Nat) : Except ε Nat :=
  match b.drop i with
  | b₀ :: b₁ :: _ => .ok (u16OfBE b₀ b₁)
  | _ => .error fault

/-- The 32-bit word at offset `i`. -/
def readU32 (b : Bytes) (i : Nat) : Except ε Nat :=
  match b.drop i with
  | b₀ :: b₁ :: b₂ :: b₃ :: _ => .ok (u32OfBE b₀ b₁ b₂ b₃)
  | _ => .error fault

/-- The bytes from offset `i` up to offset `j`. -/
def slice (b : Bytes) (i j : Nat) : Except ε Bytes :=
  if i ≤ j ∧ j ≤ b.length then .ok ((b.drop i).take (j - i)) else .error fault

variable {fault}

theorem readU32_append {pre post : Bytes} {n i : Nat} (hi : i = pre.length) :
    readU32 fault (pre ++ (be32 n ++ post)) i = .ok (n % 2 ^ 32) := by
  subst hi
  rw [readU32, List.drop_left, ← u32OfBE_be32]
  rfl

theorem readU32_lt {b : Bytes} {i n : Nat} (h : readU32 fault b i = .ok n) : n < 2 ^ 32 := by
  unfold readU32 at h
  split at h
  · obtain rfl := Except.ok.inj h
    exact u32OfBE_lt ..
  · cases h

theorem readU16_lt {b : Bytes} {i n : Nat} (h : readU16 fault b i = .ok n) : n < 2 ^ 16 := by
  unfold readU16 at h
  split at h
  · obtain rfl := Except.ok.inj h
    exact u16OfBE_lt ..
  · cases h

/-- The word that was read stands at its offset. -/
theorem drop_of_readU32 {b : Bytes} {i n : Nat} (h : readU32 fault b i = .ok n) :
    b.drop i = be32 n ++ b.drop (i + 4) := by
  unfold readU32 at h
  split at h
  · next b₀ b₁ b₂ b₃ rest hdrop =>
    obtain rfl := Except.ok.inj h
    rw [be32_u32OfBE, ← List.drop_drop, hdrop]
    rfl
  · cases h

theorem drop_of_readU16 {b : Bytes} {i n : Nat} (h : readU16 fault b i = .ok n) :
    b.drop i = be16 n ++ b.drop (i + 2) := by
  unfold readU16 at h
  split at h
  · next b₀ b₁ rest hdrop =>
    obtain rfl := Except.ok.inj h
    rw [be16_u16OfBE, ← List.drop_drop, hdrop]
    rfl
  · cases h

/-- A read in range succeeds. -/
theorem exists_readU16 {b : Bytes} {i : Nat} (h : i + 2 ≤ b.length) :
    ∃ w, ∀ {ε : Type} (fault : ε), readU16 fault b i = .ok w := by
  have hlen : 2 ≤ (b.drop i).length := by
    rw [List.length_drop]
    omega
  unfold readU16
  match b.drop i, hlen with
  | _ :: _ :: _, _ => exact ⟨_, fun _ => rfl⟩

theorem exists_readU32 {b : Bytes} {i : Nat} (h : i + 4 ≤ b.length) :
    ∃ w, ∀ {ε : Type} (fault : ε), readU32 fault b i = .ok w := by
  have hlen : 4 ≤ (b.drop i).length := by
    rw [List.length_drop]
    omega
  unfold readU32
  match b.drop i, hlen with
  | _ :: _ :: _ :: _ :: _, _ => exact ⟨_, fun _ => rfl⟩

theorem slice_append {pre mid post : Bytes} {i j : Nat} (hi : i = pre.length)
    (hj : j = i + mid.length) : slice fault (pre ++ (mid ++ post)) i j = .ok mid := by
  subst hi hj
  rw [slice, if_pos (by simp), List.drop_left, Nat.add_sub_cancel_left, List.take_left]

/-! ### Tables of words -/

/-- Consecutive 32-bit words. -/
def wordTable (ns : List Nat) : Bytes := ns.flatMap be32

theorem wordTable_cons (n : Nat) (ns : List Nat) :
    wordTable (n :: ns) = be32 n ++ wordTable ns := rfl

@[simp] theorem length_wordTable (ns : List Nat) : (wordTable ns).length = 4 * ns.length := by
  induction ns with
  | nil => rfl
  | cons n ns ih =>
    rw [wordTable_cons, List.length_append, ih, length_be32, List.length_cons]
    omega

/-- Every string of the right length is a table. -/
theorem exists_wordTable {n : Nat} {b : Bytes} (h : b.length = 4 * n) :
    ∃ ns, ns.length = n ∧ (∀ x ∈ ns, x < 2 ^ 32) ∧ b = wordTable ns := by
  induction n generalizing b with
  | zero => exact ⟨[], rfl, fun _ hx => (nomatch hx), List.length_eq_zero_iff.mp h⟩
  | succ n ih =>
    obtain ⟨b₀, b₁, b₂, b₃, rest, rfl⟩ : ∃ b₀ b₁ b₂ b₃ rest, b = b₀ :: b₁ :: b₂ :: b₃ :: rest := by
      match b, h with
      | b₀ :: b₁ :: b₂ :: b₃ :: rest, _ => exact ⟨b₀, b₁, b₂, b₃, rest, rfl⟩
    obtain ⟨ns, hn, hlt, rfl⟩ := ih (b := rest) (by simp only [List.length_cons] at h; omega)
    refine ⟨u32OfBE b₀ b₁ b₂ b₃ :: ns, by rw [List.length_cons, hn], fun x hx => ?_, ?_⟩
    · rcases List.mem_cons.mp hx with rfl | hx
      · exact u32OfBE_lt ..
      · exact hlt x hx
    · rw [wordTable_cons, be32_u32OfBE]
      rfl

variable (fault)

/-- The loop `for i in i..i + n` over the words of a table that starts at `base`; `f` is the body
and its state. -/
def forWords {σ : Type} (b : Bytes) (base : Nat) (f : σ → Nat → Except ε σ) :
    (i n : Nat) → σ → Except ε σ
  | _, 0, s => .ok s
  | i, n + 1, s => do
    let w ← readU32 fault b (base + i * 4)
    let s ← f s w
    forWords b base f (i + 1) n s

variable {fault}

/-- On a table that is there, the loop is a fold over the entries. -/
theorem forWords_wordTable {σ : Type} {f : σ → Nat → Except ε σ} {pre post : Bytes}
    {ns : List Nat} (hlt : ∀ x ∈ ns, x < 2 ^ 32) {base i : Nat} (hi : base + i * 4 = pre.length)
    (s : σ) :
    forWords fault (pre ++ (wordTable ns ++ post)) base f i ns.length s = ns.foldlM f s := by
  induction ns generalizing pre i s with
  | nil => rfl
  | cons n ns ih =>
    have hsplit : pre ++ (wordTable (n :: ns) ++ post) =
        pre ++ (be32 n ++ (wordTable ns ++ post)) := by rw [wordTable_cons, List.append_assoc]
    have hshift : pre ++ (be32 n ++ (wordTable ns ++ post)) =
        (pre ++ be32 n) ++ (wordTable ns ++ post) := by rw [List.append_assoc]
    have hn : n % 2 ^ 32 = n := Nat.mod_eq_of_lt (hlt n List.mem_cons_self)
    rw [hsplit, List.length_cons, forWords, readU32_append hi, hn, List.foldlM_cons]
    change (f s n >>= fun s => _) = _
    congr 1
    funext s'
    rw [hshift]
    refine ih (fun x hx => hlt x (List.mem_cons_of_mem _ hx)) ?_ s'
    rw [List.length_append, length_be32, ← hi]
    omega

/-! ### Sequences -/

section Sequences

variable {α σ : Type}

/-- The values that these readers read, one after the other. -/
def readEach : (rds : List (σ → Except ε (α × σ))) → σ → Except ε (List α × σ)
  | [], s => .ok ([], s)
  | rd :: rds, s => do
    let (a, s) ← rd s
    let (as, s) ← readEach rds s
    .ok (a :: as, s)

/-- `n` values, read one after the other. -/
def readMany (rd : σ → Except ε (α × σ)) (n : Nat) : σ → Except ε (List α × σ) :=
  readEach (List.replicate n rd)

/-- A sequence of encoded values is read back, with the rest of the stream left over. -/
theorem readEach_flatMap {ι : Type} {rd : ι → Bytes → Except ε (α × Bytes)} {enc : ι → Bytes}
    {val : ι → α} {l : List ι} (h : ∀ i ∈ l, ∀ rest, rd i (enc i ++ rest) = .ok (val i, rest))
    (rest : Bytes) : readEach (l.map rd) (l.flatMap enc ++ rest) = .ok (l.map val, rest) := by
  induction l with
  | nil => rfl
  | cons i l ih =>
    rw [List.flatMap_cons, List.append_assoc, List.map_cons, List.map_cons, readEach]
    refine bind_eq_ok.mpr ⟨(val i, l.flatMap enc ++ rest), h i List.mem_cons_self _, ?_⟩
    have htail := ih fun j hj => h j (List.mem_cons_of_mem _ hj)
    exact bind_eq_ok.mpr ⟨(l.map val, rest), htail, rfl⟩

theorem readMany_flatMap {rd : Bytes → Except ε (α × Bytes)} {enc : α → Bytes} {l : List α}
    (h : ∀ a ∈ l, ∀ rest, rd (enc a ++ rest) = .ok (a, rest)) (rest : Bytes) :
    readMany rd l.length (l.flatMap enc ++ rest) = .ok (l, rest) := by
  have heach : readEach (l.map fun _ => rd) (l.flatMap enc ++ rest) =
      .ok (l.map fun a => a, rest) := readEach_flatMap h rest
  rwa [List.map_const', List.map_id'] at heach

end Sequences

end Reads

end WrapperPaas
