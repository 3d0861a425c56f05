/-
  How deep the braces of a text are nested, and what the scan finds.

  The scan counts open braces in an `int`, so it is defined as long as fewer than 2³¹ of them are
  open before the first one is closed (`scan_eq_none_iff`).  Then it finds the object at the start
  of a text (`first_json_object_iff`), and whatever it finds is in braces (`scan_some`).
-/
import Mathlib.Algebra.Group.Int.Defs
import Mathlib.Data.List.Basic
import Mathlib.Data.List.TakeWhile
import WrapperPaas.Tokens.Equiv.Response

namespace WrapperPaas

namespace AppleResponse

open Json

/-! ### Open braces -/

/-- Where a character stands with respect to strings. -/
inductive Place where
  | outside
  | inside
  /-- behind a backslash in a string -/
  | escaped
  deriving DecidableEq, Repr

def Place.next : Place → UInt8 → Place
  | .outside, c => if c = quote then .inside else .outside
  | .inside, c => if c = backslash then .escaped else if c = quote then .outside else .inside
  | .escaped, _ => .inside

/-- How many braces more are open behind the character. -/
def Place.delta : Place → UInt8 → Int
  | .outside, c => if c = openBrace then 1 else if c = closeBrace then -1 else 0
  | .inside, _ => 0
  | .escaped, _ => 0

/-- The braces that are opened in a text minus those that are closed; braces in strings do not
count. -/
def level (q : Place) : Bytes → Int
  | [] => 0
  | c :: rest => q.delta c + level (q.next c) rest

/-- 2³¹ of the braces of the text are open at once before its first one is closed. -/
def TooDeep (s : Bytes) : Prop :=
  ∃ t, t <+: s.dropWhile (· ≠ openBrace) ∧ 2 ^ 31 ≤ level .outside t ∧
    ∀ t', t' <+: t → t' ≠ [] → 0 < level .outside t'

/-- 2³¹ braces are open at once, `d` of them from before the text, and they are never all closed
before. -/
def Overflows (d : Nat) (q : Place) (b : Bytes) : Prop :=
  ∃ t, t <+: b ∧ 2 ^ 31 ≤ d + level q t ∧ ∀ t', t' <+: t → 0 < d + level q t'

theorem not_overflows_nil {d : Nat} (hd : d ≤ intMax) (q : Place) : ¬ Overflows d q [] := by
  rintro ⟨t, ht, hlevel, -⟩
  obtain rfl := List.prefix_nil.mp ht
  unfold intMax at hd
  unfold level at hlevel
  omega

/-- An overflow behind the first character. -/
theorem overflows_cons {d : Nat} (hpos : 0 < d) (hd : d ≤ intMax) (q : Place) (c : UInt8)
    (rest : Bytes) : Overflows d q (c :: rest) ↔ ∃ t, t <+: rest ∧
      2 ^ 31 ≤ d + q.delta c + level (q.next c) t ∧
        ∀ t', t' <+: t → 0 < d + q.delta c + level (q.next c) t' := by
  have hcons : ∀ t, d + level q (c :: t) = d + q.delta c + level (q.next c) t := fun t =>
    (Int.add_assoc ..).symm
  constructor
  · rintro ⟨t, ht, hlevel, hopen⟩
    rcases List.prefix_cons_iff.mp ht with rfl | ⟨u, rfl, hu⟩
    · unfold intMax at hd
      unfold level at hlevel
      omega
    · refine ⟨u, hu, hcons u ▸ hlevel, fun u' hu' => ?_⟩
      rw [← hcons]
      exact hopen _ ((List.prefix_cons_inj c).mpr hu')
  · rintro ⟨t, ht, hlevel, hopen⟩
    refine ⟨c :: t, (List.prefix_cons_inj c).mpr ht, (hcons t).symm ▸ hlevel, fun t' ht' => ?_⟩
    rcases List.prefix_cons_iff.mp ht' with rfl | ⟨u, rfl, hu⟩
    · unfold level
      omega
    · rw [hcons]
      exact hopen u hu

/-! ### The scan -/

/-- The variables of the loop at a place with `d` open braces. -/
def Place.scan (q : Place) (d : Nat) : Scan :=
  match q with
  | .outside => ⟨d, false, false⟩
  | .inside => ⟨d, true, false⟩
  | .escaped => ⟨d, true, true⟩

section Scan

variable {q : Place} {c : UInt8} {d : Nat}

theorem Place.delta_cases (q : Place) (c : UInt8) :
    q = .outside ∧ c = openBrace ∨ q = .outside ∧ c = closeBrace ∨ q.delta c = 0 := by
  cases q with
  | outside =>
    by_cases hopen : c = openBrace
    · exact .inl ⟨rfl, hopen⟩
    · by_cases hclose : c = closeBrace
      · exact .inr (.inl ⟨rfl, hclose⟩)
      · exact .inr (.inr ((if_neg hopen).trans (if_neg hclose)))
  | inside => exact .inr (.inr rfl)
  | escaped => exact .inr (.inr rfl)

/-- A character that is not a brace, or one of a string. -/
theorem scan_other (h : q.delta c = 0) (d j : Nat) (rest : Bytes) :
    AppleResponse.scan (q.scan d) j (c :: rest) =
      AppleResponse.scan ((q.next c).scan d) (j + 1) rest := by
  cases q with
  | outside =>
    have hopen : c ≠ openBrace := by
      rintro rfl
      cases h
    have hclose : c ≠ closeBrace := by
      rintro rfl
      cases h
    by_cases hquote : c = quote
    · subst hquote
      exact scan_open d j rest
    · have hnext : Place.outside.next c = .outside := if_neg hquote
      rw [hnext]
      exact scan_plain ⟨hquote, hopen, hclose⟩ d j rest
  | inside =>
    by_cases hbackslash : c = backslash
    · subst hbackslash
      rfl
    · by_cases hquote : c = quote
      · subst hquote
        rfl
      · have hnext : Place.inside.next c = .inside := (if_neg hbackslash).trans (if_neg hquote)
        rw [hnext]
        exact scan_unescaped hquote hbackslash d j rest
  | escaped => rfl

/-- The scan is undefined exactly if too many braces are open at once. -/
theorem scan_eq_none_iff (b : Bytes) (q : Place) (hpos : 0 < d) (hd : d ≤ intMax) (j : Nat) :
    AppleResponse.scan (q.scan d) j b = none ↔ Overflows d q b := by
  induction b generalizing q d j with
  | nil => exact iff_of_false (fun h => by cases h) (not_overflows_nil hd q)
  | cons c rest ih =>
    rw [overflows_cons hpos hd]
    rcases q.delta_cases c with ⟨rfl, rfl⟩ | ⟨rfl, rfl⟩ | hother
    · have hdelta : (d : Int) + Place.outside.delta openBrace = (d + 1 : Nat) := rfl
      rw [hdelta]
      by_cases hlt : d < intMax
      · exact (scan_openBrace hlt j rest) ▸ ih .outside (Nat.succ_pos d) hlt (j + 1)
      · refine iff_of_true (scan_overflow hlt j rest) ⟨[], List.nil_prefix, ?_, fun t ht => ?_⟩
        · unfold intMax at hlt
          unfold level
          omega
        · obtain rfl := List.prefix_nil.mp ht
          unfold level
          omega
    · have hdelta : (d : Int) + Place.outside.delta closeBrace = (d - 1 : Nat) := by
        show (d : Int) + -1 = _
        omega
      rw [hdelta]
      obtain rfl | hlarge : d = 1 ∨ 1 < d := by omega
      · -- the brace that closes the first one ends the scan
        refine iff_of_false (fun h => ?_) fun ⟨t, ht, _, hopen⟩ => ?_
        · rw [show Place.outside.scan 1 = outside 1 from rfl, scan_end] at h
          cases h
        · exact absurd (hopen [] List.nil_prefix) (by decide)
      · obtain ⟨k, rfl⟩ : ∃ k, d = k + 1 := ⟨d - 1, by omega⟩
        have hk : 0 < k := by omega
        exact (scan_closeBrace hk j rest) ▸ ih .outside hk (by omega) (j + 1)
    · rw [hother, Int.add_zero, scan_other hother]
      exact ih (q.next c) hpos hd (j + 1)

/-- A scan that ends before the end of the text ends at a closing brace. -/
theorem scan_some {b : Bytes} {j n : Nat} (hpos : 0 < d) (hd : d ≤ intMax)
    (h : AppleResponse.scan (q.scan d) j b = some n) :
    n = 0 ∨ ∃ t u, b = t ++ closeBrace :: u ∧ n = j + (t.length + 1) := by
  induction b generalizing q d j with
  | nil => exact .inl (Option.some.inj h).symm
  | cons c rest ih =>
    -- what is found in the rest is found behind `c`
    have hrest : (n = 0 ∨ ∃ t u, rest = t ++ closeBrace :: u ∧ n = j + 1 + (t.length + 1)) →
        n = 0 ∨ ∃ t u, c :: rest = t ++ closeBrace :: u ∧ n = j + (t.length + 1) := by
      rintro (hn | ⟨t, u, rfl, hn⟩)
      · exact .inl hn
      · exact .inr ⟨c :: t, u, rfl, by rw [hn, List.length_cons]; omega⟩
    rcases q.delta_cases c with ⟨rfl, rfl⟩ | ⟨rfl, rfl⟩ | hother
    · by_cases hlt : d < intMax
      · exact hrest (ih (q := .outside) (Nat.succ_pos d) hlt ((scan_openBrace hlt j rest) ▸ h))
      · cases (scan_overflow hlt j rest).symm.trans h
    · obtain rfl | hlarge : d = 1 ∨ 1 < d := by omega
      · exact .inr ⟨[], rest, rfl, (Option.some.inj h).symm⟩
      · obtain ⟨k, rfl⟩ : ∃ k, d = k + 1 := ⟨d - 1, by omega⟩
        have hk : 0 < k := by omega
        exact hrest (ih (q := .outside) hk (by omega) ((scan_closeBrace hk j rest) ▸ h))
    · exact hrest (ih hpos hd (scan_other hother d j rest ▸ h))

end Scan

/-! ### The first object -/

theorem firstJsonObject_of_not_mem {s : Bytes} (h : openBrace ∉ s) :
    firstJsonObject s = some [] := by
  have hfind : s.idxOf? 123 = none := idxOf?_eq_none.mpr h
  unfold firstJsonObject
  rw [hfind]

theorem firstJsonObject_of_mem {p : Bytes} (hp : openBrace ∉ p) (x : Bytes) :
    firstJsonObject (p ++ openBrace :: x) =
      (AppleResponse.scan (Place.outside.scan 1) 1 x).map fun n => (openBrace :: x).take n := by
  have hfind : (p ++ openBrace :: x).idxOf? 123 = some p.length := idxOf?_append_cons hp x
  have hscan : AppleResponse.scan {} 0 (openBrace :: x) =
      AppleResponse.scan (Place.outside.scan 1) 1 x := scan_openBrace (d := 0) (by decide) 0 x
  unfold firstJsonObject
  rw [hfind]
  dsimp only
  rw [List.drop_left, hscan]

theorem tooDeep_iff {p : Bytes} (hp : openBrace ∉ p) (x : Bytes) :
    TooDeep (p ++ openBrace :: x) ↔ Overflows 1 .outside x := by
  have hdrop : (p ++ openBrace :: x).dropWhile (· ≠ openBrace) = openBrace :: x := by
    rw [List.dropWhile_append_of_pos, List.dropWhile_cons_of_neg (by decide)]
    intro c hc
    exact decide_eq_true fun h => hp (h ▸ hc)
  have hcons : ∀ t, level .outside (openBrace :: t) = (1 : Nat) + level .outside t := fun _ => rfl
  unfold TooDeep
  rw [hdrop]
  constructor
  · rintro ⟨t, ht, hlevel, hopen⟩
    rcases List.prefix_cons_iff.mp ht with rfl | ⟨u, rfl, hu⟩
    · exact absurd hlevel (by decide)
    · refine ⟨u, hu, hcons u ▸ hlevel, fun u' hu' => ?_⟩
      rw [← hcons]
      exact hopen _ ((List.prefix_cons_inj _).mpr hu') (List.cons_ne_nil _ _)
  · rintro ⟨t, ht, hlevel, hopen⟩
    refine ⟨openBrace :: t, (List.prefix_cons_inj _).mpr ht, (hcons t).symm ▸ hlevel,
      fun t' ht' hne => ?_⟩
    rcases List.prefix_cons_iff.mp ht' with rfl | ⟨u, rfl, hu⟩
    · exact absurd rfl hne
    · rw [hcons]
      exact hopen u hu

/-- Nothing, or a piece of the text from its first opening brace to a closing one. -/
def Located (s r : Bytes) : Prop :=
  r = [] ∨ ∃ p inner g, openBrace ∉ p ∧ r = openBrace :: (inner ++ [closeBrace]) ∧ s = p ++ r ++ g

/-- What is returned is located, and the scan fails on texts that are too deep only. -/
theorem located_iff (s : Bytes) :
    (∃ r, firstJsonObject s = some r ∧ Located s r) ↔ ¬ TooDeep s := by
  by_cases hmem : openBrace ∈ s
  · obtain ⟨p, x, rfl, hp⟩ := List.eq_append_cons_of_mem hmem
    rw [firstJsonObject_of_mem hp, tooDeep_iff hp,
      ← scan_eq_none_iff x .outside Nat.one_pos (by decide) 1]
    cases hscan : AppleResponse.scan (Place.outside.scan 1) 1 x with
    | none => exact iff_of_false (fun ⟨r, h, _⟩ => by cases h) (fun h => h rfl)
    | some n =>
      refine iff_of_true ⟨_, rfl, ?_⟩ (fun h => by cases h)
      rcases scan_some Nat.one_pos (by decide) hscan with rfl | ⟨t, u, rfl, rfl⟩
      · exact .inl rfl
      · have htake : (openBrace :: (t ++ closeBrace :: u)).take (1 + (t.length + 1)) =
            openBrace :: (t ++ [closeBrace]) := by
          rw [Nat.add_comm 1, List.take_succ_cons, List.take_length_add_append]
          rfl
        exact .inr ⟨p, t, u, hp, htake, by dsimp only; rw [htake]; simp⟩
  · have hdrop : s.dropWhile (· ≠ openBrace) = [] := by
      rw [List.dropWhile_eq_nil_iff]
      intro c hc
      exact decide_eq_true fun h => hmem (h ▸ hc)
    refine iff_of_true ⟨[], firstJsonObject_of_not_mem hmem, .inl rfl⟩ ?_
    rintro ⟨t, ht, hlevel, -⟩
    rw [hdrop] at ht
    obtain rfl := List.prefix_nil.mp ht
    exact absurd hlevel (by decide)

/-- **The first object of a text.**  An object is found behind any prefix without an opening brace
if fewer than 2³¹ objects are nested in it, and what is found in a text is located unless the
text is too deep; there the counter overflows. -/
theorem first_json_object_iff (o : ObjectText) {p : Bytes} (hp : openBrace ∉ p) (g s : Bytes) :
    (firstJsonObject (p ++ o.text ++ g) = some o.text ↔ o.nesting < 2 ^ 31) ∧
      ((∃ r, firstJsonObject s = some r ∧ Located s r) ↔ ¬ TooDeep s) := by
  refine ⟨?_, located_iff s⟩
  have hint : o.nesting < 2 ^ 31 ↔ o.nesting ≤ intMax := by
    unfold intMax
    omega
  rw [firstJsonObject_text o hp, hint]
  split_ifs with hdeep
  · exact iff_of_true rfl hdeep
  · exact iff_of_false (fun h => by cases h) hdeep

/-- The empty object behind a bracket. -/
theorem first_json_object_bracket :
    firstJsonObject ([openBracket] ++ emptyObjectText.text ++ []) = some emptyObjectText.text :=
  (first_json_object_iff emptyObjectText (p := [openBracket]) (by decide) [] []).1.mpr (by decide)

/-- Objects are nested arbitrarily deep. -/
theorem exists_nesting (n : Nat) : ∃ o : ObjectText, o.nesting = n + 1 := by
  induction n with
  | zero => exact ⟨emptyObjectText, rfl⟩
  | succ n ih =>
    obtain ⟨o, ho⟩ := ih
    have hws : Ws [] := List.forall_mem_nil IsWs
    have hkey : StringText [quote, quote] := ⟨[], .nil, rfl⟩
    exact ⟨⟨_, _, .members (.member hws hkey hws hws (.object o.derived) hws)⟩,
      congrArg Nat.succ ho⟩

/-- An object in which 2³¹ objects are nested is not found. -/
theorem first_json_object_too_deep : ¬ ∀ (o : ObjectText) (p g : Bytes), openBrace ∉ p →
    firstJsonObject (p ++ o.text ++ g) = some o.text := by
  intro hall
  obtain ⟨o, ho⟩ := exists_nesting intMax
  have h := hall o [] [] List.not_mem_nil
  rw [firstJsonObject_text o List.not_mem_nil, if_neg (by omega)] at h
  cases h

end AppleResponse

end WrapperPaas
