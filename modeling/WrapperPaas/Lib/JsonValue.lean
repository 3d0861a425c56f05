/-
  JSON values, their compact texts, and the words in them.

  `compact` writes a value without whitespace; in its strings it escapes the quotation mark, the
  backslash and the control characters, and nothing else.  A word of two lower-case letters or more
  is in such a text only if it is in one of the strings, or if the last letter of an escape sequence
  is its first one (`infix_escaped`): every other token ends with a character that no word has.
-/
import Mathlib.Data.List.Induction
import Mathlib.Data.List.Infix
import WrapperPaas.Lib.Json

namespace WrapperPaas

namespace Json

/-! ### Words -/

/-- A lower-case letter. -/
def IsLetter (c : UInt8) : Prop := 97 ≤ c ∧ c ≤ 122

instance (c : UInt8) : Decidable (IsLetter c) := inferInstanceAs (Decidable (_ ∧ _))

/-- Two or more lower-case letters. -/
structure Word where
  first : UInt8
  second : UInt8
  more : Bytes
  letters : ∀ c ∈ first :: second :: more, IsLetter c

def Word.bytes (w : Word) : Bytes := w.first :: w.second :: w.more

section Separators

variable {p x y : Bytes} {c : UInt8}

theorem prefix_of_append_cons (hc : c ∉ p) (h : p <+: x ++ c :: y) : p <+: x := by
  induction x generalizing p with
  | nil =>
    rcases List.prefix_cons_iff.mp h with rfl | ⟨t, rfl, -⟩
    · exact List.nil_prefix
    · exact absurd List.mem_cons_self hc
  | cons d x ih =>
    rcases List.prefix_cons_iff.mp h with rfl | ⟨t, rfl, ht⟩
    · exact List.nil_prefix
    · exact List.cons_prefix_cons.mpr ⟨rfl, ih (fun hmem => hc (List.mem_cons_of_mem _ hmem)) ht⟩

/-- A character that is not in the word separates two texts. -/
theorem infix_append_cons (hc : c ∉ p) : p <:+: x ++ c :: y ↔ p <:+: x ∨ p <:+: y := by
  constructor
  · intro h
    induction x with
    | nil =>
      rcases List.infix_cons_iff.mp h with h | h
      · have hnil := prefix_of_append_cons (x := []) hc h
        exact .inl hnil.isInfix
      · exact .inr h
    | cons d x ih =>
      rcases List.infix_cons_iff.mp h with h | h
      · exact .inl (prefix_of_append_cons hc h).isInfix
      · exact (ih h).imp_left fun hx => List.infix_cons_iff.mpr (.inr hx)
  · rintro (h | h)
    · exact h.trans (List.prefix_append x (c :: y)).isInfix
    · exact h.trans (List.suffix_append (x ++ [c]) y |>.isInfix.trans (by simp))

/-- Texts in a row, with separators between them. -/
theorem infix_intercalate (hne : p ≠ []) (hc : c ∉ p) (texts : List Bytes) :
    p <:+: [c].intercalate texts ↔ ∃ t ∈ texts, p <:+: t := by
  induction texts with
  | nil => simp [hne]
  | cons t texts ih =>
    cases texts with
    | nil => simp
    | cons t' texts =>
      rw [List.intercalate_cons_cons, List.append_assoc, List.singleton_append,
        infix_append_cons hc, ih]
      simp only [List.exists_mem_cons_iff]

/-- A text in brackets. -/
theorem infix_enclosed (hne : p ≠ []) {c' : UInt8} (hc : c ∉ p) (hc' : c' ∉ p) :
    p <:+: c :: (x ++ [c']) ↔ p <:+: x := by
  rw [← List.nil_append (c :: (x ++ [c'])), infix_append_cons hc, infix_append_cons hc',
    List.infix_nil]
  simp [hne]

end Separators

namespace Word

variable (w : Word)

theorem bytes_ne_nil : w.bytes ≠ [] := List.cons_ne_nil _ _

theorem not_mem {c : UInt8} (hc : ¬ IsLetter c) : c ∉ w.bytes := fun hmem => hc (w.letters c hmem)

end Word

/-! ### Strings -/

def hexDigit (n : UInt8) : UInt8 := if n < 10 then 48 + n else 87 + n

/-- A byte of a string as it is written. -/
def escapeByte (c : UInt8) : Bytes :=
  if c = quote then [backslash, quote]
  else if c = backslash then [backslash, backslash]
  else if c = 8 then [backslash, 98]
  else if c = 9 then [backslash, 116]
  else if c = 10 then [backslash, 110]
  else if c = 12 then [backslash, 102]
  else if c = 13 then [backslash, 114]
  else if c < 32 then [backslash, 117, 48, 48, hexDigit (c / 16), hexDigit (c % 16)]
  else [c]

def escaped (b : Bytes) : Bytes := b.flatMap escapeByte

/-- A byte that is written as it is. -/
def Raw (c : UInt8) : Prop := c ≠ quote ∧ c ≠ backslash ∧ 32 ≤ c

instance (c : UInt8) : Decidable (Raw c) := inferInstanceAs (Decidable (_ ∧ _ ∧ _))

theorem escapeByte_raw {c : UInt8} (h : Raw c) : escapeByte c = [c] := by
  have hctl : ∀ k : UInt8, k < 32 → c ≠ k := by
    rintro k hk rfl
    exact absurd h.2.2 (UInt8.not_le.mpr hk)
  unfold escapeByte
  rw [if_neg h.1, if_neg h.2.1, if_neg (hctl 8 (by decide)), if_neg (hctl 9 (by decide)),
    if_neg (hctl 10 (by decide)), if_neg (hctl 12 (by decide)), if_neg (hctl 13 (by decide)),
    if_neg (UInt8.not_lt.mpr h.2.2)]

/-- An escape sequence is a backslash, characters of which no letter stands before another one, and
a last character. -/
theorem escapeByte_cases {c : UInt8} (h : ¬ Raw c) : ∃ l, (escapeByte c).getLast? = some l ∧
    (escapeByte c = [backslash, l] ∨
      ∃ d, ¬ IsLetter d ∧ escapeByte c = [backslash, 117, 48, 48, d, l]) := by
  rcases eq_or_ne c quote with rfl | hquote
  · exact ⟨quote, rfl, .inl rfl⟩
  rcases eq_or_ne c backslash with rfl | hbackslash
  · exact ⟨backslash, rfl, .inl rfl⟩
  -- a control character, with an escape of its own or by its code
  have hctl : c < 32 := UInt8.not_le.mp fun hle => h ⟨hquote, hbackslash, hle⟩
  have hshort : (c = 8 ∨ c = 9 ∨ c = 10 ∨ c = 12 ∨ c = 13) ∨
      escapeByte c = [backslash, 117, 48, 48, hexDigit (c / 16), hexDigit (c % 16)] := by
    by_cases hc : c = 8 ∨ c = 9 ∨ c = 10 ∨ c = 12 ∨ c = 13
    · exact .inl hc
    · simp only [not_or] at hc
      obtain ⟨h8, h9, h10, h12, h13⟩ := hc
      unfold escapeByte
      rw [if_neg hquote, if_neg hbackslash, if_neg h8, if_neg h9, if_neg h10, if_neg h12,
        if_neg h13, if_pos hctl]
      exact .inr rfl
  rcases hshort with (rfl | rfl | rfl | rfl | rfl) | hcode
  · exact ⟨98, rfl, .inl rfl⟩
  · exact ⟨116, rfl, .inl rfl⟩
  · exact ⟨110, rfl, .inl rfl⟩
  · exact ⟨102, rfl, .inl rfl⟩
  · exact ⟨114, rfl, .inl rfl⟩
  · have hdigit : ∀ n : Fin 32, ¬ IsLetter (hexDigit (.ofNat n / 16)) := by decide
    have hc := hdigit ⟨c.toNat, hctl⟩
    rw [UInt8.ofNat_toNat] at hc
    rw [hcode]
    exact ⟨_, rfl, .inr ⟨_, hc, rfl⟩⟩

section Escapes

variable (w : Word) {p b : Bytes} {c : UInt8}

theorem IsLetter.raw (h : IsLetter c) : Raw c := by
  refine ⟨?_, ?_, UInt8.le_trans (by decide) h.1⟩
  all_goals
    rintro rfl
    exact absurd h (by decide)

/-- Letters are written as they are. -/
theorem prefix_escaped (hp : ∀ c ∈ p, IsLetter c) : p <+: escaped b ↔ p <+: b := by
  induction p generalizing b with
  | nil => simp
  | cons l p ih =>
    have hl := hp l List.mem_cons_self
    have ih := @ih
    cases b with
    | nil => rfl
    | cons c b =>
      show l :: p <+: escapeByte c ++ escaped b ↔ _
      by_cases hc : Raw c
      · rw [escapeByte_raw hc, List.singleton_append, List.cons_prefix_cons, List.cons_prefix_cons,
          ih fun c hc => hp c (List.mem_cons_of_mem _ hc)]
      · have hne : l ≠ c := fun heq => hc (heq ▸ hl.raw)
        have hne' : l ≠ backslash := fun heq => absurd (heq ▸ hl) (by decide)
        obtain ⟨l', -, hshort | ⟨d, -, hlong⟩⟩ := escapeByte_cases hc
        · simp [hshort, hne, hne']
        · simp [hlong, hne, hne']

/-- Where a word is behind an escape sequence. -/
theorem infix_escapeByte (hc : ¬ Raw c) (y : Bytes) : w.bytes <:+: escapeByte c ++ y ↔
    ((escapeByte c).getLast? = some w.first ∧ w.second :: w.more <+: y) ∨ w.bytes <:+: y := by
  have hfirst : ∀ {k}, ¬ IsLetter k → w.first ≠ k := by
    rintro k hk rfl
    exact hk (w.letters _ List.mem_cons_self)
  have hsecond : w.second ≠ 48 := by
    intro heq
    have hletter := w.letters w.second (by simp)
    rw [heq] at hletter
    exact absurd hletter (by decide)
  have hbackslash := hfirst (by decide : ¬ IsLetter backslash)
  have hzero := hfirst (by decide : ¬ IsLetter 48)
  obtain ⟨l, hlast, hshort | ⟨d, hd, hlong⟩⟩ := escapeByte_cases hc
  · rw [hlast, hshort]
    simp [Word.bytes, List.infix_cons_iff, hbackslash, eq_comm]
  · rw [hlast, hlong]
    simp [Word.bytes, List.infix_cons_iff, hbackslash, hzero, hsecond, hfirst hd, eq_comm]

/-- Where a word is in the escaped text of a string. -/
theorem infix_escaped : w.bytes <:+: escaped b ↔ w.bytes <:+: b ∨
    ∃ c, ¬ Raw c ∧ (escapeByte c).getLast? = some w.first ∧ c :: w.second :: w.more <:+: b := by
  induction b with
  | nil => simp [escaped, Word.bytes]
  | cons d b ih =>
    show w.bytes <:+: escapeByte d ++ escaped b ↔ _
    have hraw := (w.letters w.first List.mem_cons_self).raw
    by_cases hd : Raw d
    · have hprefix : w.bytes <+: d :: escaped b ↔ w.bytes <+: d :: b := by
        have h := prefix_escaped (b := d :: b) w.letters
        rwa [show escaped (d :: b) = escapeByte d ++ escaped b from rfl, escapeByte_raw hd] at h
      have hescape : ∀ c, ¬ Raw c → (c :: w.second :: w.more <:+: d :: b ↔
          c :: w.second :: w.more <:+: b) := by
        intro c hc
        have hne : c ≠ d := fun heq => hc (heq ▸ hd)
        simp [List.infix_cons_iff, hne]
      rw [escapeByte_raw hd, List.singleton_append, List.infix_cons_iff, hprefix, ih, ← or_assoc,
        ← List.infix_cons_iff]
      refine or_congr_right (exists_congr fun c => ?_)
      exact and_congr_right fun hc => and_congr_right fun _ => (hescape c hc).symm
    · -- the word may begin with the last character of the escape sequence
      have hne : w.first ≠ d := fun heq => hd (heq ▸ hraw)
      have hword : w.bytes <:+: d :: b ↔ w.bytes <:+: b := by
        simp [Word.bytes, List.infix_cons_iff, hne]
      have hrest : w.second :: w.more <+: escaped b ↔ w.second :: w.more <+: b :=
        prefix_escaped fun c hc => w.letters c (List.mem_cons_of_mem _ hc)
      rw [infix_escapeByte w hd, ih, hword, hrest]
      constructor
      · rintro (⟨hlast, h⟩ | h | ⟨c, hc, hlast, h⟩)
        · exact .inr ⟨d, hd, hlast, (List.cons_prefix_cons.mpr ⟨rfl, h⟩).isInfix⟩
        · exact .inl h
        · exact .inr ⟨c, hc, hlast, List.infix_cons_iff.mpr (.inr h)⟩
      · rintro (h | ⟨c, hc, hlast, h⟩)
        · exact .inr (.inl h)
        · rcases List.infix_cons_iff.mp h with h | h
          · obtain ⟨rfl, hrest⟩ := List.cons_prefix_cons.mp h
            exact .inl ⟨hlast, hrest⟩
          · exact .inr (.inr ⟨c, hc, hlast, h⟩)

end Escapes

/-! ### Values -/

/-- A JSON value.  A number that is no integer of 64 bits is kept as its text.  The members of an
object are in the order of their keys, which are distinct. -/
inductive Value where
  | null
  | bool (b : Bool)
  | num (i : Int)
  | real (text : Bytes)
  | str (s : String)
  | arr (elements : List Value)
  | obj (members : List (String × Value))

/-- Assigns a member of an object. -/
def setMember (key : String) (v : Value) : List (String × Value) → List (String × Value)
  | [] => [(key, v)]
  | m :: ms =>
    if key < m.1 then (key, v) :: m :: ms
    else if key = m.1 then (key, v) :: ms
    else m :: setMember key v ms

/-- Assigns the members one after the other. -/
def assignMembers (members : List (String × Value)) : List (String × Value) :=
  members.foldl (fun ms m => setMember m.1 m.2 ms) []

/-- The object with these members. -/
def Value.object (members : List (String × Value)) : Value := .obj (assignMembers members)

def Value.get (v : Value) (key : String) : Option Value :=
  match v with
  | .obj members => members.lookup key
  | _ => none

/-! ### Compact texts -/

def compactString (s : String) : Bytes := quote :: (escaped (utf8 s) ++ [quote])

/-- The decimal digits of a number. -/
def decimal (n : Nat) : Bytes := (Nat.toDigits 10 n).map fun c => .ofNat c.toNat

def compactInt (i : Int) : Bytes := if i < 0 then 45 :: decimal i.natAbs else decimal i.natAbs

mutual

/-- The text of a value without whitespace. -/
def compact : Value → Bytes
  | .null => utf8 "null"
  | .bool true => utf8 "true"
  | .bool false => utf8 "false"
  | .num i => compactInt i
  | .real text => text
  | .str s => compactString s
  | .arr elements =>
    openBracket :: ([comma].intercalate (compactElements elements) ++ [closeBracket])
  | .obj members => openBrace :: ([comma].intercalate (compactMembers members) ++ [closeBrace])

def compactElements : List Value → List Bytes
  | [] => []
  | v :: vs => compact v :: compactElements vs

def compactMembers : List (String × Value) → List Bytes
  | [] => []
  | (key, v) :: ms => (compactString key ++ colon :: compact v) :: compactMembers ms

end

/-! ### Members -/

section Members

variable {key : String} {v : Value} {ms members : List (String × Value)}

theorem lookup_cons (k : String) :
    ((key, v) :: ms).lookup k = if k = key then some v else ms.lookup k := by
  rw [List.lookup_cons]
  split_ifs with hk
  · rw [beq_iff_eq.mpr hk]
  · rw [beq_eq_false_iff_ne.mpr hk]

theorem lookup_setMember (k : String) :
    (setMember key v ms).lookup k = if k = key then some v else ms.lookup k := by
  induction ms with
  | nil => exact lookup_cons k
  | cons m ms ih =>
    obtain ⟨key', v'⟩ := m
    unfold setMember
    by_cases hlt : key < key'
    · rw [if_pos hlt]
      exact lookup_cons k
    · rw [if_neg hlt]
      by_cases heq : key = key'
      · rw [if_pos heq, lookup_cons, lookup_cons, ← heq]
        split_ifs
        · rfl
        · rfl
      · rw [if_neg heq, lookup_cons, lookup_cons, ih]
        by_cases hk : k = key'
        · have hne : k ≠ key := fun h => heq (h.symm.trans hk)
          rw [if_pos hk, if_neg hne, if_pos hk]
        · rw [if_neg hk, if_neg hk]

theorem mem_setMember (hnew : ∀ m ∈ ms, m.1 ≠ key) {m : String × Value} :
    m ∈ setMember key v ms ↔ m = (key, v) ∨ m ∈ ms := by
  induction ms with
  | nil => simp [setMember]
  | cons m' ms ih =>
    have hne : ¬ key = m'.1 := fun heq => hnew m' List.mem_cons_self heq.symm
    have ih := ih fun m hm => hnew m (List.mem_cons_of_mem _ hm)
    unfold setMember
    rw [if_neg hne]
    split_ifs
    · rw [List.mem_cons]
    · rw [List.mem_cons, ih, List.mem_cons, or_left_comm]

/-- An object has the members that it is made of. -/
theorem mem_assignMembers (hkeys : (members.map Prod.fst).Nodup) {m : String × Value} :
    m ∈ assignMembers members ↔ m ∈ members := by
  induction members using List.reverseRecOn generalizing m with
  | nil => rfl
  | append_singleton members last ih =>
    rw [List.map_append, List.nodup_append] at hkeys
    obtain ⟨hkeys, -, hdisjoint⟩ := hkeys
    have hnew : ∀ m ∈ assignMembers members, m.1 ≠ last.1 := by
      intro m hm
      exact hdisjoint m.1 (List.mem_map_of_mem ((ih hkeys).mp hm)) last.1 (by simp)
    unfold assignMembers at hnew ih ⊢
    rw [List.foldl_concat, mem_setMember hnew, ih hkeys, List.mem_append, List.mem_singleton,
      or_comm]

end Members

/-! ### Words in compact texts -/

section Words

variable (w : Word)

theorem infix_compactString (s : String) :
    w.bytes <:+: compactString s ↔ w.bytes <:+: escaped (utf8 s) :=
  infix_enclosed w.bytes_ne_nil (w.not_mem (by decide)) (w.not_mem (by decide))

/-- No character of a number is a letter. -/
theorem not_infix_compactInt (i : Int) : ¬ w.bytes <:+: compactInt i := by
  have hdecimal : ∀ n, ∀ c ∈ decimal n, ¬ IsLetter c := by
    intro n c hc
    obtain ⟨d, hd, rfl⟩ := List.mem_map.mp hc
    have hdigit := Nat.isDigit_of_mem_toDigits (by decide) (by decide) hd
    have hle : d.toNat ≤ 57 := by
      simp only [Char.isDigit, Bool.and_eq_true, decide_eq_true_eq] at hdigit
      exact hdigit.2
    intro hletter
    have hle' : 97 ≤ (UInt8.ofNat d.toNat).toNat := hletter.1
    rw [UInt8.toNat_ofNat'] at hle'
    omega
  intro h
  have hmem := h.subset (List.mem_cons_self : w.first ∈ w.bytes)
  have hletter := w.letters w.first List.mem_cons_self
  unfold compactInt at hmem
  split_ifs at hmem
  · rcases List.mem_cons.mp hmem with heq | hmem
    · rw [heq] at hletter
      exact absurd hletter (by decide)
    · exact hdecimal _ _ hmem hletter
  · exact hdecimal _ _ hmem hletter

theorem infix_compact_obj (ms : List (String × Value)) : w.bytes <:+: compact (.obj ms) ↔
    ∃ m ∈ ms, w.bytes <:+: escaped (utf8 m.1) ∨ w.bytes <:+: compact m.2 := by
  have hmembers : (∃ t ∈ compactMembers ms, w.bytes <:+: t) ↔
      ∃ m ∈ ms, w.bytes <:+: escaped (utf8 m.1) ∨ w.bytes <:+: compact m.2 := by
    induction ms with
    | nil => simp [compactMembers]
    | cons m ms ih =>
      obtain ⟨key, v⟩ := m
      simp only [compactMembers, List.exists_mem_cons_iff, ih]
      rw [infix_append_cons (w.not_mem (by decide)), infix_compactString]
  show w.bytes <:+: openBrace :: ([comma].intercalate (compactMembers ms) ++ [closeBrace]) ↔ _
  rw [infix_enclosed w.bytes_ne_nil (w.not_mem (by decide)) (w.not_mem (by decide)),
    infix_intercalate w.bytes_ne_nil (w.not_mem (by decide)), hmembers]

end Words

end Json

end WrapperPaas
