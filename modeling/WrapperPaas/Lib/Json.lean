/-
  The grammar of JSON texts, RFC 8259, on bytes.

  `Derives s n b` says that `b` is a text of the nonterminal `s` in which objects are nested `n`
  deep.  Bytes from 0x80 on are those of UTF-8 sequences; they occur in strings only, and the
  grammar does not look into the sequences.
-/
import Mathlib.Data.List.Basic
import WrapperPaas.Lib.Bytes

namespace WrapperPaas

namespace Json

/-! ### Terminals -/

def quote : UInt8 := 34
def comma : UInt8 := 44
def colon : UInt8 := 58
def backslash : UInt8 := 92
def openBracket : UInt8 := 91
def closeBracket : UInt8 := 93
def openBrace : UInt8 := 123
def closeBrace : UInt8 := 125

/-- A space, a tab, a line feed or a carriage return. -/
def IsWs (c : UInt8) : Prop := c = 32 ∨ c = 9 ∨ c = 10 ∨ c = 13

def IsDigit (c : UInt8) : Prop := 48 ≤ c ∧ c ≤ 57

def IsHexDigit (c : UInt8) : Prop := IsDigit c ∨ 65 ≤ c ∧ c ≤ 70 ∨ 97 ≤ c ∧ c ≤ 102

/-- Whitespace between the tokens. -/
def Ws (b : Bytes) : Prop := ∀ c ∈ b, IsWs c

/-- A sequence of digits. -/
def Digits (b : Bytes) : Prop := b ≠ [] ∧ ∀ c ∈ b, IsDigit c

/-- A number: a sign, an integer without leading zeros, a fraction and an exponent. -/
def Number (b : Bytes) : Prop :=
  ∃ sign int frac exp, b = sign ++ int ++ frac ++ exp ∧
    (sign = [] ∨ sign = utf8 "-") ∧
    (int = utf8 "0" ∨ Digits int ∧ int.head? ≠ some 48) ∧
    (frac = [] ∨ ∃ ds, frac = utf8 "." ++ ds ∧ Digits ds) ∧
    (exp = [] ∨ ∃ e s ds, exp = e ++ s ++ ds ∧ (e = utf8 "e" ∨ e = utf8 "E") ∧
      (s = [] ∨ s = utf8 "+" ∨ s = utf8 "-") ∧ Digits ds)

/-- A literal name or a number. -/
def Scalar (b : Bytes) : Prop :=
  b = utf8 "true" ∨ b = utf8 "false" ∨ b = utf8 "null" ∨ Number b

/-- What stands between the quotes of a string. -/
inductive StringChars : Bytes → Prop
  | nil : StringChars []
  | unescaped {c : UInt8} {b : Bytes} (hctl : 32 ≤ c) (hquote : c ≠ quote)
      (hbackslash : c ≠ backslash) (h : StringChars b) : StringChars (c :: b)
  /-- one of `"`, `\`, `/`, `b`, `f`, `n`, `r` and `t` -/
  | escaped {c : UInt8} {b : Bytes} (hc : c ∈ [34, 92, 47, 98, 102, 110, 114, 116])
      (h : StringChars b) : StringChars (backslash :: c :: b)
  /-- `u` and four hexadecimal digits -/
  | codeUnit {ds b : Bytes} (hlen : ds.length = 4) (hds : ∀ c ∈ ds, IsHexDigit c)
      (h : StringChars b) : StringChars (backslash :: 117 :: (ds ++ b))

/-- A string with its quotes. -/
def StringText (b : Bytes) : Prop := ∃ chars, StringChars chars ∧ b = quote :: (chars ++ [quote])

/-! ### Nonterminals -/

inductive Symbol where
  | value
  | object
  /-- one or more members of an object, with the commas between them -/
  | members
  /-- one or more elements of an array -/
  | elements
  deriving DecidableEq, Repr

inductive Derives : Symbol → Nat → Bytes → Prop
  | scalar {b : Bytes} (h : Scalar b) : Derives .value 0 b
  | string {b : Bytes} (h : StringText b) : Derives .value 0 b
  | emptyArray {w : Bytes} (hw : Ws w) : Derives .value 0 (openBracket :: (w ++ [closeBracket]))
  | array {n : Nat} {b : Bytes} (h : Derives .elements n b) :
      Derives .value n (openBracket :: (b ++ [closeBracket]))
  | object {n : Nat} {b : Bytes} (h : Derives .object n b) : Derives .value n b
  | emptyObject {w : Bytes} (hw : Ws w) : Derives .object 1 (openBrace :: (w ++ [closeBrace]))
  | members {n : Nat} {b : Bytes} (h : Derives .members n b) :
      Derives .object (n + 1) (openBrace :: (b ++ [closeBrace]))
  | member {n : Nat} {w₁ k w₂ w₃ b w₄ : Bytes} (hw₁ : Ws w₁) (hk : StringText k) (hw₂ : Ws w₂)
      (hw₃ : Ws w₃) (h : Derives .value n b) (hw₄ : Ws w₄) :
      Derives .members n (w₁ ++ k ++ w₂ ++ colon :: (w₃ ++ b ++ w₄))
  | nextMember {n m : Nat} {a b : Bytes} (ha : Derives .members n a) (hb : Derives .members m b) :
      Derives .members (max n m) (a ++ comma :: b)
  | element {n : Nat} {w₁ b w₂ : Bytes} (hw₁ : Ws w₁) (h : Derives .value n b) (hw₂ : Ws w₂) :
      Derives .elements n (w₁ ++ b ++ w₂)
  | nextElement {n m : Nat} {a b : Bytes} (ha : Derives .elements n a)
      (hb : Derives .elements m b) : Derives .elements (max n m) (a ++ comma :: b)

/-- A text of an object. -/
structure ObjectText where
  text : Bytes
  /-- how deep objects are nested in it; an object without objects in it has 1 -/
  nesting : Nat
  derived : Derives .object nesting text

/-! ### Characters -/

/-- A character outside strings that is not a brace. -/
def Plain (c : UInt8) : Prop := c ≠ quote ∧ c ≠ openBrace ∧ c ≠ closeBrace

instance (c : UInt8) : Decidable (Plain c) := inferInstanceAs (Decidable (_ ∧ _ ∧ _))

theorem IsWs.plain {c : UInt8} (h : IsWs c) : Plain c := by
  rcases h with rfl | rfl | rfl | rfl
  all_goals decide

theorem IsDigit.plain {c : UInt8} (h : IsDigit c) : Plain c := by
  refine ⟨?_, ?_, ?_⟩
  all_goals
    rintro rfl
    revert h
    unfold IsDigit
    decide

/-- A hexadecimal digit neither ends a string nor begins an escape. -/
theorem IsHexDigit.unescaped {c : UInt8} (h : IsHexDigit c) : c ≠ quote ∧ c ≠ backslash := by
  constructor
  all_goals
    rintro rfl
    revert h
    unfold IsHexDigit IsDigit
    decide

theorem Ws.plain {b : Bytes} (h : Ws b) : ∀ c ∈ b, Plain c := fun c hc => (h c hc).plain

theorem Digits.plain {b : Bytes} (h : Digits b) : ∀ c ∈ b, Plain c :=
  fun c hc => (h.2 c hc).plain

/-- All characters of a literal name or a number are plain. -/
theorem Scalar.plain {b : Bytes} (h : Scalar b) : ∀ c ∈ b, Plain c := by
  have happend : ∀ {a b : Bytes}, (∀ c ∈ a, Plain c) → (∀ c ∈ b, Plain c) →
      ∀ c ∈ a ++ b, Plain c := by
    intro a b ha hb c hc
    rcases List.mem_append.mp hc with hc | hc
    · exact ha c hc
    · exact hb c hc
  rcases h with rfl | rfl | rfl | ⟨sign, int, frac, exp, rfl, hsign, hint, hfrac, hexp⟩
  · exact forall_mem_of_all (by decide)
  · exact forall_mem_of_all (by decide)
  · exact forall_mem_of_all (by decide)
  · refine happend (happend (happend ?_ ?_) ?_) ?_
    · rcases hsign with rfl | rfl
      all_goals exact forall_mem_of_all (by decide)
    · rcases hint with rfl | ⟨hint, -⟩
      · exact forall_mem_of_all (by decide)
      · exact hint.plain
    · rcases hfrac with rfl | ⟨ds, rfl, hds⟩
      · exact forall_mem_of_all (by decide)
      · exact happend (forall_mem_of_all (by decide)) hds.plain
    · rcases hexp with rfl | ⟨e, s, ds, rfl, he, hs, hds⟩
      · exact forall_mem_of_all (by decide)
      · refine happend (happend ?_ ?_) hds.plain
        · rcases he with rfl | rfl
          all_goals exact forall_mem_of_all (by decide)
        · rcases hs with rfl | rfl | rfl
          all_goals exact forall_mem_of_all (by decide)

/-- The text of an object is in braces. -/
theorem Derives.exists_braces {n : Nat} {b : Bytes} (h : Derives .object n b) :
    ∃ inner, b = openBrace :: (inner ++ [closeBrace]) := by
  cases h with
  | emptyObject hw => exact ⟨_, rfl⟩
  | members h => exact ⟨_, rfl⟩

theorem ObjectText.text_ne_nil (o : ObjectText) : o.text ≠ [] := by
  obtain ⟨inner, htext⟩ := o.derived.exists_braces
  rw [htext]
  exact List.cons_ne_nil _ _

end Json

end WrapperPaas
