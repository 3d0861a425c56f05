/-
  Finding the object in a response.

  The scan of `first_json_object` goes through a text of the grammar without a trace
  (`passes_of_derives`): its braces are balanced, and those in strings are not counted.  So the
  text of an object is found behind any prefix without an opening brace (`firstJsonObject_text`).

  Normalisation does not leave such a prefix when the guard `)]}'` stands directly before the
  object: it looks for the line break behind the guard in the whole body, and drops the object up to
  its first line break or altogether.  `normalized_object_iff` says when the object survives.
-/
import WrapperPaas.Lib.Json
import WrapperPaas.Tokens.Response

namespace WrapperPaas

namespace AppleResponse

open Json

/-! ### Texts the scan goes through -/

/-- Between two tokens. -/
def outside (d : Nat) : Scan := ⟨d, false, false⟩

/-- In a string. -/
def inside (d : Nat) : Scan := ⟨d, true, false⟩

/-- In an object, the scan goes through the text to the same depth; on the way `depth` gets `n`
higher, if it can. -/
def Passes (n : Nat) (b : Bytes) : Prop :=
  ∀ d j rest, 0 < d → d ≤ intMax → scan (outside d) j (b ++ rest) =
    if d + n ≤ intMax then scan (outside d) (j + b.length) rest else none

theorem scan_plain {c : UInt8} (hc : Plain c) (d j : Nat) (rest : Bytes) :
    scan (outside d) j (c :: rest) = scan (outside d) (j + 1) rest := by
  have hquote : c ≠ 34 := hc.1
  have hopen : c ≠ 123 := hc.2.1
  have hclose : c ≠ 125 := hc.2.2
  rw [scan]
  simp [outside, hquote, hopen, hclose]

theorem scan_unescaped {c : UInt8} (hquote : c ≠ quote) (hbackslash : c ≠ backslash) (d j : Nat)
    (rest : Bytes) : scan (inside d) j (c :: rest) = scan (inside d) (j + 1) rest := by
  have hquote : c ≠ 34 := hquote
  have hbackslash : c ≠ 92 := hbackslash
  rw [scan]
  simp [inside, hquote, hbackslash]

/-- A backslash takes the next character with it. -/
theorem scan_escaped (c : UInt8) (d j : Nat) (rest : Bytes) :
    scan (inside d) j (backslash :: c :: rest) = scan (inside d) (j + 2) rest := rfl

/-- The quote that opens a string. -/
theorem scan_open (d j : Nat) (rest : Bytes) :
    scan (outside d) j (quote :: rest) = scan (inside d) (j + 1) rest := rfl

/-- The scan stays in a string up to its closing quote. -/
theorem scan_chars {chars : Bytes} (h : StringChars chars) (d j : Nat) (rest : Bytes) :
    scan (inside d) j (chars ++ rest) = scan (inside d) (j + chars.length) rest := by
  induction h generalizing j with
  | nil => rfl
  | @unescaped c b hctl hquote hbackslash h ih =>
    rw [List.cons_append, scan_unescaped hquote hbackslash, ih, List.length_cons]
    congr 1
    omega
  | @escaped c b hc h ih =>
    rw [List.cons_append, List.cons_append, scan_escaped, ih, List.length_cons, List.length_cons]
    congr 1
    omega
  | @codeUnit ds b hlen hds h ih =>
    -- `\u` is an escape of two characters for the scan, and its digits are ordinary ones
    have hdigits : ∀ (ds : Bytes) (j : Nat), (∀ c ∈ ds, IsHexDigit c) →
        scan (inside d) j (ds ++ (b ++ rest)) = scan (inside d) (j + ds.length) (b ++ rest) := by
      intro ds
      induction ds with
      | nil => exact fun _ _ => rfl
      | cons c ds ihds =>
        intro j hds
        obtain ⟨hquote, hbackslash⟩ := (hds c List.mem_cons_self).unescaped
        rw [List.cons_append, scan_unescaped hquote hbackslash,
          ihds _ (fun c hc => hds c (List.mem_cons_of_mem _ hc)), List.length_cons]
        congr 1
        omega
    rw [List.cons_append, List.cons_append, List.append_assoc, scan_escaped, hdigits _ _ hds, ih,
      List.length_cons, List.length_cons, List.length_append]
    congr 1
    omega

theorem scan_openBrace {d : Nat} (hd : d < intMax) (j : Nat) (rest : Bytes) :
    scan (outside d) j (openBrace :: rest) = scan (outside (d + 1)) (j + 1) rest := by
  rw [scan]
  simp [outside, openBrace, hd]

theorem scan_overflow {d : Nat} (hd : ¬ d < intMax) (j : Nat) (rest : Bytes) :
    scan (outside d) j (openBrace :: rest) = none := by
  rw [scan]
  simp [outside, openBrace, hd]

/-- The brace that closes an inner object. -/
theorem scan_closeBrace {d : Nat} (hd : 0 < d) (j : Nat) (rest : Bytes) :
    scan (outside (d + 1)) j (closeBrace :: rest) = scan (outside d) (j + 1) rest := by
  rw [scan]
  simp [outside, closeBrace, Nat.pos_iff_ne_zero.mp hd]

/-- The brace that closes the object itself. -/
theorem scan_end (j : Nat) (rest : Bytes) :
    scan (outside 1) j (closeBrace :: rest) = some (j + 1) := rfl

namespace Passes

variable {n m : Nat} {a b : Bytes}

theorem nil : Passes 0 [] := by
  intro d j rest _ hd
  exact (if_pos hd).symm

theorem append (ha : Passes n a) (hb : Passes m b) : Passes (max n m) (a ++ b) := by
  intro d j rest hpos hd
  rw [List.append_assoc, ha d j _ hpos hd, hb d _ _ hpos hd, List.length_append, Nat.add_assoc]
  split_ifs
  all_goals first | rfl | omega

theorem plain (h : ∀ c ∈ b, Plain c) : Passes 0 b := by
  intro d j rest hpos hd
  rw [Nat.add_zero, if_pos hd]
  induction b generalizing j with
  | nil => rfl
  | cons c b ih =>
    rw [List.cons_append, scan_plain (h c List.mem_cons_self),
      ih (fun c hc => h c (List.mem_cons_of_mem _ hc)), List.length_cons]
    congr 1
    omega

theorem string (h : StringText b) : Passes 0 b := by
  obtain ⟨chars, hchars, rfl⟩ := h
  intro d j rest hpos hd
  rw [Nat.add_zero, if_pos hd, List.cons_append, scan_open, List.append_assoc, scan_chars hchars]
  show scan (outside d) _ rest = _
  rw [List.length_cons, List.length_append, List.length_singleton]
  congr 1
  omega

theorem plain_append (ha : ∀ c ∈ a, Plain c) (hb : Passes n b) : Passes n (a ++ b) := by
  have h := (plain ha).append hb
  rwa [Nat.zero_max] at h

theorem cons_plain {c : UInt8} (hc : Plain c) (hb : Passes n b) : Passes n (c :: b) := by
  have hall : ∀ c' ∈ [c], Plain c' := by
    intro c' hmem
    rwa [List.mem_singleton.mp hmem]
  exact plain_append hall hb

theorem append_plain (ha : Passes n a) (hb : ∀ c ∈ b, Plain c) : Passes n (a ++ b) := by
  have h := ha.append (plain hb)
  rwa [Nat.max_zero] at h

theorem braces (h : Passes n b) : Passes (n + 1) (openBrace :: (b ++ [closeBrace])) := by
  intro d j rest hpos hd
  rw [List.cons_append, List.append_assoc]
  by_cases hd' : d < intMax
  · rw [scan_openBrace hd', h (d + 1) _ _ (Nat.succ_pos d) hd', Nat.add_assoc, Nat.add_comm 1 n]
    split_ifs
    · -- back at the depth before the brace, which is not 0: the object goes on
      rw [List.singleton_append, scan_closeBrace hpos, List.length_cons, List.length_append,
        List.length_singleton]
      congr 1
      omega
    · rfl
  · -- `++depth` overflows at the brace itself
    rw [scan_overflow hd', if_neg (by omega)]

end Passes

/-- The scan goes through every text of the grammar. -/
theorem passes_of_derives {s : Symbol} {n : Nat} {b : Bytes} (h : Derives s n b) : Passes n b := by
  have hbrackets : ∀ {n : Nat} {b : Bytes}, Passes n b →
      Passes n (openBracket :: (b ++ [closeBracket])) := by
    intro n b hb
    have hclose : ∀ c ∈ [closeBracket], Plain c := forall_mem_of_all (by decide)
    exact .cons_plain (by decide) (hb.append_plain hclose)
  induction h with
  | scalar h => exact .plain h.plain
  | string h => exact .string h
  | emptyArray hw => exact hbrackets (.plain hw.plain)
  | array h ih => exact hbrackets ih
  | object h ih => exact ih
  | emptyObject hw => exact (Passes.plain hw.plain).braces
  | members h ih => exact ih.braces
  | @member n w₁ k w₂ w₃ b w₄ hw₁ hk hw₂ hw₃ h hw₄ ih =>
    have hkey := (Passes.plain_append hw₁.plain (.string hk)).append_plain hw₂.plain
    have hvalue := (Passes.plain_append hw₃.plain ih).append_plain hw₄.plain
    have hmember := hkey.append (hvalue.cons_plain (by decide : Plain colon))
    rwa [Nat.zero_max] at hmember
  | nextMember ha hb iha ihb => exact iha.append (ihb.cons_plain (by decide))
  | element hw₁ h hw₂ ih => exact (Passes.plain_append hw₁.plain ih).append_plain hw₂.plain
  | nextElement ha hb iha ihb => exact iha.append (ihb.cons_plain (by decide))

/-! ### The first object -/

/-- From its opening brace on, an object is scanned to its end. -/
theorem scan_object (o : ObjectText) (rest : Bytes) : scan {} 0 (o.text ++ rest) =
    if o.nesting ≤ intMax then some o.text.length else none := by
  have hinner : ∃ n inner, o.nesting = n + 1 ∧ o.text = openBrace :: (inner ++ [closeBrace]) ∧
      Passes n inner := by
    obtain ⟨text, nesting, h⟩ := o
    cases h with
    | emptyObject hw => exact ⟨0, _, rfl, rfl, .plain hw.plain⟩
    | members h => exact ⟨_, _, rfl, rfl, passes_of_derives h⟩
  obtain ⟨n, inner, hn, htext, hinner⟩ := hinner
  rw [hn, htext, List.cons_append, List.append_assoc]
  show scan (outside 0) 0 _ = _
  rw [scan_openBrace (by decide), hinner _ _ _ Nat.one_pos (by decide), Nat.add_comm 1 n]
  split_ifs
  · rw [List.singleton_append, scan_end, List.length_cons, List.length_append,
      List.length_singleton, Nat.zero_add, Nat.add_comm 1]
  · rfl

/-- The object is found behind every prefix without an opening brace. -/
theorem firstJsonObject_text (o : ObjectText) {p : Bytes} (hp : openBrace ∉ p) (g : Bytes) :
    firstJsonObject (p ++ o.text ++ g) = if o.nesting ≤ intMax then some o.text else none := by
  obtain ⟨inner, htext⟩ := o.derived.exists_braces
  have hstart : (p ++ (o.text ++ g)).idxOf? 123 = some p.length := by
    rw [htext, List.cons_append]
    exact idxOf?_append_cons hp _
  rw [List.append_assoc]
  unfold firstJsonObject
  simp only [hstart, List.drop_left, scan_object]
  split_ifs
  · rw [Option.map_some, List.take_left]
  · rfl

/-- What is found is found behind such a prefix. -/
theorem eq_of_firstJsonObject {s r : Bytes} (h : firstJsonObject s = some r) (hr : r ≠ []) :
    ∃ p g, openBrace ∉ p ∧ s = p ++ r ++ g := by
  unfold firstJsonObject at h
  cases hstart : s.idxOf? 123 with
  | none =>
    rw [hstart] at h
    exact absurd (Option.some.inj h).symm hr
  | some start =>
    simp only [hstart] at h
    obtain ⟨n, -, rfl⟩ := Option.map_eq_some_iff.mp h
    obtain ⟨p, x, rfl, hp, rfl⟩ := append_of_idxOf? hstart
    refine ⟨p, (openBrace :: x).drop n, hp, ?_⟩
    rw [List.drop_left, List.append_assoc]
    exact congrArg (p ++ ·) (List.take_append_drop n (openBrace :: x)).symm

/-! ### Normalisation -/

/-- What stands before the object, behind an optional byte order mark. -/
inductive Guard where
  | absent
  /-- the guard on a line of its own -/
  | line
  /-- the guard directly before the object -/
  | direct
  deriving DecidableEq, Repr

def Guard.bytes : Guard → Bytes
  | absent => []
  | line => xssiGuard ++ [10]
  | direct => xssiGuard

/-- A response with the object `o` and `g` behind it. -/
def responseBody (bom : Bool) (guard : Guard) (o : ObjectText) (g : Bytes) : Bytes :=
  (if bom then utf8Bom else []) ++ (guard.bytes ++ (o.text ++ g))

/-- The guard does not stand directly before the object, or there is no line break in the object and
behind it, or what follows the first one has the object again behind other characters than `{`. -/
def Kept (guard : Guard) (o : ObjectText) (g : Bytes) : Prop :=
  guard = .direct → ∀ before after, o.text ++ g = before ++ 10 :: after → 10 ∉ before →
    ∃ p g', openBrace ∉ p ∧ after = p ++ o.text ++ g'

section Normalize

variable {o : ObjectText} {g : Bytes}

/-- The byte order mark is taken off. -/
theorem normalize_bom (bom : Bool) (guard : Guard) :
    normalizeAppleJsonBody (responseBody bom guard o g) =
      normalizeAppleJsonBody (responseBody false guard o g) := by
  obtain ⟨inner, htext⟩ := o.derived.exists_braces
  cases bom with
  | false => rfl
  | true =>
    unfold responseBody
    rw [htext]
    cases guard with
    | absent => rfl
    | line => rfl
    | direct => rfl

theorem normalize_absent :
    normalizeAppleJsonBody (responseBody false .absent o g) = o.text ++ g := by
  obtain ⟨inner, htext⟩ := o.derived.exists_braces
  unfold responseBody
  rw [htext]
  rfl

theorem normalize_line : normalizeAppleJsonBody (responseBody false .line o g) = o.text ++ g := rfl

theorem guard_isPrefixOf (x : Bytes) : xssiGuard.isPrefixOf (xssiGuard ++ x) = true := rfl

theorem guard_not_bom (x : Bytes) : ¬ utf8Bom.isPrefixOf (xssiGuard ++ x) = true :=
  Bool.false_ne_true

/-- Without a line break only the guard is taken off. -/
theorem normalize_unbroken {x : Bytes} (hx : 10 ∉ x) :
    normalizeAppleJsonBody (xssiGuard ++ x) = x := by
  have hfind : (xssiGuard ++ x).idxOf? 10 = none :=
    idxOf?_eq_none.mpr (List.not_mem_append (by decide) hx)
  unfold normalizeAppleJsonBody
  dsimp only
  rw [if_neg (guard_not_bom x), if_pos (guard_isPrefixOf x), hfind]
  rfl

/-- With one, everything up to the first goes. -/
theorem normalize_broken {before : Bytes} (hbefore : 10 ∉ before) (after : Bytes) :
    normalizeAppleJsonBody (xssiGuard ++ (before ++ 10 :: after)) = after := by
  have hfind : (xssiGuard ++ before ++ 10 :: after).idxOf? 10 =
      some (xssiGuard ++ before).length :=
    idxOf?_append_cons (List.not_mem_append (by decide) hbefore) after
  rw [List.append_assoc] at hfind
  unfold normalizeAppleJsonBody
  dsimp only
  rw [if_neg (guard_not_bom _), if_pos (guard_isPrefixOf _), hfind]
  dsimp only
  rw [← List.append_assoc, List.drop_length_add_append]
  rfl

end Normalize

theorem firstJsonObject_eq_iff (o : ObjectText) (s : Bytes) : firstJsonObject s = some o.text ↔
    o.nesting ≤ intMax ∧ ∃ p g, openBrace ∉ p ∧ s = p ++ o.text ++ g := by
  constructor
  · intro h
    obtain ⟨p, g, hp, rfl⟩ := eq_of_firstJsonObject h o.text_ne_nil
    rw [firstJsonObject_text o hp] at h
    split_ifs at h with hdeep
    exact ⟨hdeep, p, g, hp, rfl⟩
  · rintro ⟨hdeep, p, g, hp, rfl⟩
    rw [firstJsonObject_text o hp, if_pos hdeep]

/-- An object that is found is what is parsed. -/
theorem parseAppleResponseJson_of_found {o : ObjectText} {body : Bytes}
    (h : firstJsonObject (normalizeAppleJsonBody body) = some o.text) {α : Type}
    (parse : Bytes → Option α) : parseAppleResponseJson parse body = some (parse o.text) := by
  unfold parseAppleResponseJson
  rw [h, Option.map_some, if_neg o.text_ne_nil]

/-- **The object of a response.**  It is found, and its value is what is parsed, if and only if
fewer than 2³¹ objects are nested in it and normalisation keeps it. -/
theorem normalized_object_iff (bom : Bool) (guard : Guard) (o : ObjectText) (g : Bytes) :
    (firstJsonObject (normalizeAppleJsonBody (responseBody bom guard o g)) = some o.text ∧
      ∀ (α : Type) (parse : Bytes → Option α),
        parseAppleResponseJson parse (responseBody bom guard o g) = some (parse o.text)) ↔
      o.nesting < 2 ^ 31 ∧ Kept guard o g := by
  have hint : o.nesting < 2 ^ 31 ↔ o.nesting ≤ intMax := by
    unfold intMax
    omega
  rw [and_iff_left_of_imp fun h _ => parseAppleResponseJson_of_found h, normalize_bom,
    firstJsonObject_eq_iff, hint]
  apply and_congr_right
  intro _
  have hwhole : ∃ p g', openBrace ∉ p ∧ o.text ++ g = p ++ o.text ++ g' :=
    ⟨[], g, List.not_mem_nil, rfl⟩
  cases guard with
  | absent =>
    rw [normalize_absent]
    exact iff_of_true hwhole (fun h => by cases h)
  | line =>
    rw [normalize_line]
    exact iff_of_true hwhole (fun h => by cases h)
  | direct =>
    show (∃ p g', openBrace ∉ p ∧
      normalizeAppleJsonBody (xssiGuard ++ (o.text ++ g)) = p ++ o.text ++ g') ↔ _
    by_cases hnl : 10 ∈ o.text ++ g
    · obtain ⟨before, after, hsplit, hbefore⟩ := List.eq_append_cons_of_mem hnl
      rw [hsplit, normalize_broken hbefore]
      constructor
      · intro h _ before' after' hsplit' hbefore'
        -- the first line break is at one place only
        have hafter := normalize_broken hbefore' after'
        rw [← hsplit', hsplit, normalize_broken hbefore] at hafter
        exact hafter ▸ h
      · intro h
        exact h rfl before after hsplit hbefore
    · rw [normalize_unbroken hnl]
      refine iff_of_true hwhole fun _ before after hsplit _ => ?_
      rw [hsplit] at hnl
      exact absurd (List.mem_append_right before List.mem_cons_self) hnl

/-- An empty object. -/
def emptyObjectText : ObjectText where
  text := [openBrace, closeBrace]
  nesting := 1
  derived := .emptyObject (List.forall_mem_nil IsWs)

/-- The object between the guard and a line break is dropped. -/
theorem normalized_object_lost : ¬ ∀ bom guard (o : ObjectText) g,
    firstJsonObject (normalizeAppleJsonBody (responseBody bom guard o g)) = some o.text := by
  intro hall
  have h := hall false .direct emptyObjectText [10]
  revert h
  decide

end AppleResponse

end WrapperPaas
