/-
  Parsing a query undoes its form encoding.

  Every byte of a text may be written literally or as an escape, and a space as a plus sign
  (`Written`).  Decoding a written text gives the text back, whichever way it was written
  (`Written.decode`), and what is not an escape is left alone (`percentDecodeBytes_append`).
  `parse_query_undoes` has the whole query.
-/
import Mathlib.Data.List.Induction
import WrapperPaas.Http.Query
import WrapperPaas.Lib.Fields

namespace WrapperPaas

namespace Http

/-! ### Escapes -/

/-- A hexadecimal digit with the value `n`, in either case. -/
def IsDigitOf (n : Fin 16) (c : UInt8) : Prop :=
  if n < 10 then c = 48 + .ofNat n else c = 87 + .ofNat n ∨ c = 55 + .ofNat n

/-- Two hexadecimal digits, and anything behind them. -/
def StartsEscape (t : Bytes) : Prop :=
  ∃ a b rest, t = a :: b :: rest ∧ (hex a).isSome ∧ (hex b).isSome

theorem IsDigitOf.cases {n : Fin 16} {c : UInt8} (h : IsDigitOf n c) :
    hex c = some (.ofNat n) ∧ c ≠ ampersand ∧ c ≠ equals := by
  have htable : ∀ n : Fin 16, (n < 10 → hex (48 + .ofNat n) = some (.ofNat n)) ∧
      (¬ n < 10 → hex (87 + .ofNat n) = some (.ofNat n) ∧
        hex (55 + .ofNat n) = some (.ofNat n)) := by decide
  have hhex : hex c = some (.ofNat n) := by
    unfold IsDigitOf at h
    split_ifs at h with hn
    · rw [h]
      exact (htable n).1 hn
    · rcases h with rfl | rfl
      · exact ((htable n).2 hn).1
      · exact ((htable n).2 hn).2
  refine ⟨hhex, ?_, ?_⟩
  · rintro rfl
    cases hhex
  · rintro rfl
    cases hhex

theorem decode_escape {a b x y : UInt8} (ha : hex a = some x) (hb : hex b = some y)
    (rest : Bytes) : percentDecodeBytes (percent :: a :: b :: rest) =
      ((x <<< 4) ||| y) :: percentDecodeBytes rest := by
  rw [percentDecodeBytes, if_pos rfl, ha, hb]

/-- A byte that does not start an escape is decoded on its own. -/
theorem decode_byte {c : UInt8} {rest : Bytes} (h : c = percent → ¬ StartsEscape rest) :
    percentDecodeBytes (c :: rest) = decodeByte c :: percentDecodeBytes rest := by
  rcases rest with _ | ⟨a, _ | ⟨b, rest⟩⟩
  · rfl
  · rfl
  · rw [percentDecodeBytes]
    split_ifs with hc
    · split
      · next x y hx hy =>
        exact absurd ⟨a, b, rest, rfl, by rw [hx]; rfl, by rw [hy]; rfl⟩ (h hc)
      · rfl
    · rfl

/-- A percent sign ends what could be an escape before it. -/
theorem percentDecodeBytes_append (s t : Bytes) : percentDecodeBytes (s ++ percent :: t) =
    percentDecodeBytes s ++ percentDecodeBytes (percent :: t) := by
  induction hn : s.length using Nat.strongRecOn generalizing s with
  | ind n ih =>
    cases s with
    | nil => rfl
    | cons c s =>
      rw [List.length_cons] at hn
      by_cases hescape : c = percent ∧ StartsEscape s
      · obtain ⟨rfl, a, b, rest, rfl, ha, hb⟩ := hescape
        obtain ⟨x, hx⟩ := Option.isSome_iff_exists.mp ha
        obtain ⟨y, hy⟩ := Option.isSome_iff_exists.mp hb
        simp only [List.length_cons] at hn
        simp only [List.cons_append, decode_escape hx hy]
        rw [ih rest.length (by omega) rest rfl]
      · have hlonger : c = percent → ¬ StartsEscape (s ++ percent :: t) := by
          rintro hc ⟨a, b, rest, heq, ha, hb⟩
          -- the percent sign would have to be one of the two digits
          rcases s with _ | ⟨a', _ | ⟨b', rest'⟩⟩
          · obtain ⟨rfl, -⟩ := List.cons.inj heq
            cases ha
          · obtain ⟨-, heq⟩ := List.cons.inj heq
            obtain ⟨rfl, -⟩ := List.cons.inj heq
            cases hb
          · simp only [List.cons_append, List.cons.injEq] at heq
            obtain ⟨rfl, rfl, -⟩ := heq
            exact hescape ⟨hc, a', b', rest', rfl, ha, hb⟩
        rw [List.cons_append, decode_byte hlonger, decode_byte fun hc hs => hescape ⟨hc, hs⟩,
          ih s.length (by omega) s rfl, List.cons_append]

/-- What has no escape and no plus sign is left as it is. -/
theorem percentDecodeBytes_eq_self {s : Bytes} (hplus : plus ∉ s)
    (hescape : ∀ a t, s = a ++ percent :: t → ¬ StartsEscape t) : percentDecodeBytes s = s := by
  induction s with
  | nil => rfl
  | cons c s ih =>
    obtain ⟨hc, hs⟩ := not_or.mp (mt List.mem_cons.mpr hplus)
    have hbyte : decodeByte c = c := if_neg (Ne.symm hc)
    rw [decode_byte fun hc => hescape [] s (by rw [hc]; rfl), hbyte,
      ih hs fun a t heq => hescape (c :: a) t (by rw [heq]; rfl)]

/-! ### Written texts -/

/-- The bytes `t` write the bytes `b`; those of `lit` may stand for themselves. -/
inductive Written (lit : UInt8 → Prop) : (b t : Bytes) → Prop
  | nil : Written lit [] []
  | literal {c : UInt8} {b t : Bytes} (hc : lit c) (h : Written lit b t) :
      Written lit (c :: b) (c :: t)
  | plus {b t : Bytes} (h : Written lit b t) : Written lit (space :: b) (Http.plus :: t)
  | escape {hi lo : Fin 16} {x y : UInt8} {b t : Bytes} (hx : IsDigitOf hi x)
      (hy : IsDigitOf lo y) (h : Written lit b t) :
      Written lit (.ofNat (hi * 16 + lo) :: b) (percent :: x :: y :: t)

/-- The bytes that may stand for themselves in a value. -/
def ValueLiteral (c : UInt8) : Prop := c ≠ percent ∧ c ≠ plus ∧ c ≠ ampersand

/-- The same in a key, where an equals sign has to be escaped. -/
def KeyLiteral (c : UInt8) : Prop := ValueLiteral c ∧ c ≠ equals

namespace Written

variable {lit : UInt8 → Prop} {b t : Bytes}

theorem decode (h : Written lit b t) (hlit : ∀ c, lit c → ValueLiteral c) :
    percentDecodeBytes t = b := by
  induction h with
  | nil => rfl
  | @literal c b t hc h ih =>
    obtain ⟨hpercent, hplus, -⟩ := hlit c hc
    have hbyte : decodeByte c = c := if_neg hplus
    rw [decode_byte fun h => absurd h hpercent, hbyte, ih]
  | @plus b t h ih =>
    rw [decode_byte fun h => absurd h (by decide), ih]
    rfl
  | @escape hi lo x y b t hx hy h ih =>
    have hbyte : ∀ hi lo : Fin 16, ((UInt8.ofNat hi) <<< 4 ||| UInt8.ofNat lo) =
        .ofNat (hi * 16 + lo) := by decide
    rw [decode_escape hx.cases.1 hy.cases.1, ih, hbyte]

/-- Separators are not written. -/
theorem not_mem (h : Written lit b t) {delim : UInt8} (hdelim : delim = ampersand ∨ delim = equals)
    (hlit : ∀ c, lit c → c ≠ delim) : delim ∉ t := by
  have hdigit : ∀ {n : Fin 16} {c : UInt8}, IsDigitOf n c → delim ≠ c := by
    intro n c hc
    rcases hdelim with rfl | rfl
    · exact Ne.symm hc.cases.2.1
    · exact Ne.symm hc.cases.2.2
  have hplus : delim ≠ Http.plus := by rcases hdelim with rfl | rfl <;> decide
  have hpercent : delim ≠ percent := by rcases hdelim with rfl | rfl <;> decide
  induction h with
  | nil => exact List.not_mem_nil
  | @literal c b t hc h ih => exact List.not_mem_cons_of_ne_of_not_mem (Ne.symm (hlit c hc)) ih
  | plus h ih => exact List.not_mem_cons_of_ne_of_not_mem hplus ih
  | escape hx hy h ih =>
    simp only [List.mem_cons, not_or]
    exact ⟨hpercent, hdigit hx, hdigit hy, ih⟩

end Written

/-! ### Queries -/

/-- A pair and the way it is written. -/
structure Pair where
  key : String
  value : String
  keyText : Bytes
  valueText : Bytes
  key_written : Written KeyLiteral (utf8 key) keyText
  value_written : Written ValueLiteral (utf8 value) valueText

namespace Pair

def text (p : Pair) : Bytes := p.keyText ++ equals :: p.valueText

theorem text_ne_nil (p : Pair) : p.text ≠ [] := by
  unfold text
  exact List.append_ne_nil_of_right_ne_nil _ (List.cons_ne_nil _ _)

theorem ampersand_not_mem (p : Pair) : ampersand ∉ p.text := by
  have hkey := p.key_written.not_mem (.inl rfl) fun c hc => hc.1.2.2
  have hvalue := p.value_written.not_mem (.inl rfl) fun c hc => hc.2.2
  unfold text
  rw [List.mem_append, List.mem_cons]
  rintro (h | h | h)
  · exact hkey h
  · cases h
  · exact hvalue h

/-- The first equals sign is the one between the key and the value. -/
theorem insertPair_text (p : Pair) (out : Params) :
    insertPair out p.text = Function.update out p.key (some p.value) := by
  have hkey := p.key_written.not_mem (.inr rfl) fun c hc => hc.2
  have hsplit : splitOnce equals p.text = some (p.keyText, p.valueText) := by
    unfold splitOnce text
    rw [idxOf?_append_cons hkey, Option.map_some, List.take_left, List.drop_length_add_append]
    rfl
  unfold insertPair percentDecode
  rw [hsplit]
  dsimp only [Option.getD_some]
  rw [p.key_written.decode fun c hc => hc.1, p.value_written.decode fun c hc => hc,
    fromUtf8Lossy_utf8, fromUtf8Lossy_utf8]

end Pair

/-- A query, with empty segments between its pairs. -/
def queryText (segments : List (Option Pair)) : Bytes :=
  [ampersand].intercalate (segments.map fun p => (p.map Pair.text).getD [])

/-- The value of the last pair with a key. -/
def lastValue (pairs : List Pair) : Params := fun k =>
  (pairs.reverse.find? fun p => p.key = k).map Pair.value

theorem foldl_insertPair (pairs : List Pair) :
    (pairs.map Pair.text).foldl insertPair (fun _ => none) = lastValue pairs := by
  induction pairs using List.reverseRecOn with
  | nil => rfl
  | append_singleton pairs p ih =>
    rw [List.map_append, List.map_singleton, List.foldl_concat, ih, p.insertPair_text]
    funext k
    unfold lastValue
    rw [List.reverse_append, List.reverse_singleton, List.singleton_append, List.find?_cons]
    by_cases hk : p.key = k
    · subst hk
      simp
    · rw [Function.update_of_ne (Ne.symm hk), decide_eq_false hk]

theorem parseQuery_queryText (segments : List (Option Pair)) :
    parseQuery (queryText segments) = lastValue (segments.filterMap id) := by
  have hfilter : (segments.map fun p => (p.map Pair.text).getD []).filter (fun p => p ≠ []) =
      (segments.filterMap id).map Pair.text := by
    induction segments with
    | nil => rfl
    | cons p segments ih =>
      cases p with
      | none => exact ih
      | some p =>
        rw [List.map_cons, Option.map_some, Option.getD_some,
          List.filter_cons_of_pos (by simpa using p.text_ne_nil), ih]
        rfl
  rw [← foldl_insertPair, ← hfilter]
  unfold parseQuery queryText
  by_cases hnil : segments = []
  · subst hnil
    rw [List.map_nil, List.intercalate_nil, List.splitOn_nil]
    rfl
  · rw [List.splitOn_intercalate]
    · intro text htext
      obtain ⟨p, -, rfl⟩ := List.mem_map.mp htext
      cases p with
      | none => exact List.not_mem_nil
      | some p => exact p.ampersand_not_mem
    · exact fun h => hnil (List.map_eq_nil_iff.mp h)

/-- **Query parsing undoes form encoding.** -/
theorem parse_query_undoes (segments : List (Option Pair)) :
    parseQuery (queryText segments) = lastValue (segments.filterMap id) ∧
      (∀ s t, ¬ StartsEscape t → percentDecodeBytes (s ++ percent :: t) =
        percentDecodeBytes s ++ percent :: percentDecodeBytes t) ∧
      ∀ s : String, plus ∉ utf8 s →
        (∀ a t, utf8 s = a ++ percent :: t → ¬ StartsEscape t) → percentDecode (utf8 s) = s := by
  refine ⟨parseQuery_queryText segments, fun s t ht => ?_, fun s hplus hescape => ?_⟩
  · rw [percentDecodeBytes_append, decode_byte fun _ => ht]
    rfl
  · rw [percentDecode, percentDecodeBytes_eq_self hplus hescape, fromUtf8Lossy_utf8]

/-- A space written as a plus sign, and escapes with either kind of letters. -/
def escapedPair : Pair where
  key := "a b"
  value := "k+/"
  keyText := utf8 "a+b"
  valueText := utf8 "k%2B%2f"
  key_written := by
    have hliteral : KeyLiteral 97 ∧ KeyLiteral 98 :=
      ⟨⟨⟨by decide, by decide, by decide⟩, by decide⟩, ⟨by decide, by decide, by decide⟩, by decide⟩
    show Written KeyLiteral [97, 32, 98] [97, 43, 98]
    exact .literal hliteral.1 (.plus (.literal hliteral.2 .nil))
  value_written := by
    have hliteral : ValueLiteral 107 := ⟨by decide, by decide, by decide⟩
    have hdigit : IsDigitOf 2 50 ∧ IsDigitOf 11 66 ∧ IsDigitOf 15 102 := by
      unfold IsDigitOf
      decide
    obtain ⟨htwo, hb, hf⟩ := hdigit
    exact .literal hliteral (.escape htwo hb (.escape htwo hf .nil))

example : queryText [none, some escapedPair, none] = utf8 "&a+b=k%2B%2f&" := by decide

example : parseQuery (utf8 "&a+b=old&&a+b=k%2B%2f&") "a b" = some "k+/" := by decide +kernel

end Http

end WrapperPaas
