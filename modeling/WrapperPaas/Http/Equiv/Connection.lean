/-
  Where the head of an HTTP request ends.

  The head is read line by line until it ends with `\r\n\r\n` or `\n\n`, which is what an empty line
  makes of it in three of four cases: a `\r\n` behind a line that ends with a bare `\n` is
  not seen (`endsHead_empty`).  Then the head goes on into the body.  In the other cases the head
  and the body are cut at the right places, however the stream is cut into pieces
  (`head_boundary_iff`).
-/
import Mathlib.Data.List.Basic
import WrapperPaas.Http.Connection

namespace WrapperPaas

namespace Http

open Supervisor

/-! ### Streams -/

/-- The end of a line. -/
def lineEnd (crlf : Bool) : Bytes := if crlf then [carriageReturn, lineFeed] else [lineFeed]

/-- A line of the head that is not empty, without its end. -/
structure HeaderLine where
  content : Bytes
  crlf : Bool
  ne_nil : content ≠ []
  lineFeed_not_mem : lineFeed ∉ content
  /-- such a carriage return is part of the line's end -/
  getLast?_ne : content.getLast? ≠ some carriageReturn

def HeaderLine.bytes (l : HeaderLine) : Bytes := l.content ++ lineEnd l.crlf

/-- The lines of a head up to its empty line, and the end of that. -/
structure HeadText where
  lines : List HeaderLine
  ne_nil : lines ≠ []
  crlf : Bool

def HeadText.bytes (h : HeadText) : Bytes := h.lines.flatMap HeaderLine.bytes ++ lineEnd h.crlf

/-- A connection on which a request comes in, with the bytes behind its head. -/
structure Incoming where
  head : HeadText
  rest : Bytes
  reader : Reader
  httparse : Bytes → Except String (Option Request)
  apiKey : Option String
  request : Request
  pending_eq : reader.pending = head.bytes ++ rest
  length_lt : head.bytes.length < 64 * 1024
  parses : httparse head.bytes = .ok (some request)
  enough : contentLength request.headers ≤ rest.length

/-- The head is read up to its empty line, and the body is what the Content-Length says. -/
structure Incoming.Delimited (x : Incoming) : Prop where
  head_read : ∃ r, readHead [] x.reader = .ok (.complete x.head.bytes r) ∧ r.pending = x.rest
  body_read : ∀ d r, handleHttpConnection x.httparse x.apiKey x.reader = .ok (.dispatched d r) →
    d.body = x.rest.take (contentLength x.request.headers) ∧
      r.pending = x.rest.drop (contentLength x.request.headers)
  dispatched : authorized x.apiKey x.request.headers = true →
    contentLength x.request.headers ≤ maxHttpBody →
      ∃ d r, handleHttpConnection x.httparse x.apiKey x.reader = .ok (.dispatched d r)

/-- The empty line does not end with `\r\n`, or the line before it does. -/
def HeadText.Seen (h : HeadText) : Prop :=
  h.crlf = true → ∀ l, h.lines.getLast? = some l → l.crlf = true

/-! ### The end of the head -/

/-- The last character of a line is no part of a line's end. -/
theorem HeaderLine.exists_last (l : HeaderLine) :
    ∃ b c, l.content = b ++ [c] ∧ c ≠ lineFeed ∧ c ≠ carriageReturn := by
  obtain ⟨b, c, hbc⟩ : ∃ b c, l.content = b ++ [c] :=
    ⟨_, _, (List.dropLast_append_getLast l.ne_nil).symm⟩
  refine ⟨b, c, hbc, ?_, ?_⟩
  · rintro rfl
    exact l.lineFeed_not_mem (hbc ▸ List.mem_append_right b List.mem_cons_self)
  · rintro rfl
    exact l.getLast?_ne (by rw [hbc, List.getLast?_append_of_ne_nil _ (List.cons_ne_nil _ _)]; rfl)

section EndsHead

variable {c : UInt8} (hlf : c ≠ lineFeed) (hcr : c ≠ carriageReturn) (b : Bytes)

include hlf hcr

theorem endsHead_line (crlf : Bool) : endsHead (b ++ c :: lineEnd crlf) = false := by
  have hlf' : (10 == c) = false := beq_eq_false_iff_ne.mpr (Ne.symm hlf)
  have hcr' : (13 == c) = false := beq_eq_false_iff_ne.mpr (Ne.symm hcr)
  cases crlf with
  | true =>
    simp [endsHead, lineEnd, lineFeed, carriageReturn, List.isSuffixOf, List.isPrefixOf, hlf']
  | false =>
    simp [endsHead, lineEnd, lineFeed, carriageReturn, List.isSuffixOf, List.isPrefixOf, hlf', hcr']

theorem endsHead_empty (first second : Bool) :
    endsHead (b ++ c :: (lineEnd first ++ lineEnd second)) = (first || !second) := by
  have hlf' : (10 == c) = false := beq_eq_false_iff_ne.mpr (Ne.symm hlf)
  have hcr' : (13 == c) = false := beq_eq_false_iff_ne.mpr (Ne.symm hcr)
  cases first with
  | true =>
    cases second with
    | true => simp [endsHead, lineEnd, lineFeed, carriageReturn, List.isSuffixOf]
    | false => simp [endsHead, lineEnd, lineFeed, carriageReturn, List.isSuffixOf]
  | false =>
    cases second with
    | true =>
      simp [endsHead, lineEnd, lineFeed, carriageReturn, List.isSuffixOf, List.isPrefixOf, hcr']
    | false => simp [endsHead, lineEnd, lineFeed, carriageReturn, List.isSuffixOf]

end EndsHead

/-- The empty line is seen unless it ends with `\r\n` behind a line that does not. -/
theorem endsHead_bytes (h : HeadText) : endsHead h.bytes = true ↔ h.Seen := by
  obtain ⟨init, l, hlines⟩ : ∃ init l, h.lines = init ++ [l] :=
    ⟨_, _, (List.dropLast_append_getLast h.ne_nil).symm⟩
  obtain ⟨b, c, hbc, hlf, hcr⟩ := l.exists_last
  have hbytes : h.bytes = (init.flatMap HeaderLine.bytes ++ b) ++
      c :: (lineEnd l.crlf ++ lineEnd h.crlf) := by
    unfold HeadText.bytes
    rw [hlines, List.flatMap_append, List.flatMap_singleton, HeaderLine.bytes, hbc]
    simp
  have hlast : h.lines.getLast? = some l := by
    rw [hlines, List.getLast?_append_of_ne_nil _ (List.cons_ne_nil _ _)]
    rfl
  rw [hbytes, endsHead_empty hlf hcr, Bool.or_eq_true, Bool.not_eq_true', ← Bool.not_eq_true]
  unfold HeadText.Seen
  rw [hlast]
  constructor
  · rintro (hl | hnot) hcrlf l' hl'
    · exact Option.some.inj hl' ▸ hl
    · exact absurd hcrlf hnot
  · intro hseen
    by_cases hcrlf : h.crlf = true
    · exact .inl (hseen hcrlf l rfl)
    · exact .inr hcrlf

/-! ### The loop -/

/-- A line of the stream, with its end. -/
theorem readHead_line {r : Reader} {content rest : Bytes} (hcontent : lineFeed ∉ content)
    (crlf : Bool) (h : r.pending = content ++ lineEnd crlf ++ rest) (head : Bytes) :
    ∃ r', r'.pending = rest ∧ readHead head r =
      if endsHead (head ++ (content ++ lineEnd crlf)) then
        .ok (.complete (head ++ (content ++ lineEnd crlf)) r')
      else if (head ++ (content ++ lineEnd crlf)).length > 64 * 1024 then .ok .tooLarge
      else readHead (head ++ (content ++ lineEnd crlf)) r' := by
  obtain ⟨line, hline, heq⟩ : ∃ line, lineFeed ∉ line ∧
      content ++ lineEnd crlf = line ++ [lineFeed] := by
    cases crlf with
    | true =>
      refine ⟨content ++ [carriageReturn], List.not_mem_append hcontent (by decide), ?_⟩
      rw [List.append_assoc]
      rfl
    | false => exact ⟨content, hcontent, rfl⟩
  rw [heq, List.append_assoc, List.singleton_append] at h
  obtain ⟨r', hread, hrest⟩ := BufReader.readUntil_eq hline h
  refine ⟨r', hrest, ?_⟩
  rw [heq, readHead]
  split
  · next h' => cases hread.symm.trans h'
  · next h' =>
    obtain ⟨rfl, rfl⟩ := Prod.mk.inj (Except.ok.inj (hread.symm.trans h'))
    rw [if_neg (List.append_ne_nil_of_right_ne_nil _ (List.cons_ne_nil _ _))]

/-- The lines before the empty one are read. -/
theorem readHead_lines (lines : List HeaderLine) {r : Reader} {head rest : Bytes}
    (h : r.pending = lines.flatMap HeaderLine.bytes ++ rest)
    (hlength : (head ++ lines.flatMap HeaderLine.bytes).length ≤ 64 * 1024) :
    ∃ r', r'.pending = rest ∧
      readHead head r = readHead (head ++ lines.flatMap HeaderLine.bytes) r' := by
  induction lines generalizing head r with
  | nil => exact ⟨r, h, by rw [List.flatMap_nil, List.append_nil]⟩
  | cons l lines ih =>
    rw [List.flatMap_cons, List.append_assoc] at h
    rw [List.flatMap_cons, ← List.append_assoc] at hlength ⊢
    obtain ⟨r', hrest, hread⟩ := readHead_line l.lineFeed_not_mem l.crlf h head
    obtain ⟨b, c, hbc, hlf, hcr⟩ := l.exists_last
    -- a line of the head does not end it, whatever was read before
    have hopen : endsHead (head ++ (l.content ++ lineEnd l.crlf)) = false := by
      rw [hbc, List.append_assoc, List.singleton_append, ← List.append_assoc]
      exact endsHead_line hlf hcr (head ++ b) l.crlf
    have hshort : ¬ (head ++ (l.content ++ lineEnd l.crlf)).length > 64 * 1024 := by
      rw [List.length_append] at hlength
      exact Nat.not_lt.mpr (Nat.le_of_add_right_le hlength)
    rw [hread, hopen, if_neg Bool.false_ne_true, if_neg hshort]
    exact ih hrest hlength

/-- A head that is read is longer than what was read of it before. -/
theorem length_lt_of_readHead {head done : Bytes} {r r' : Reader}
    (h : readHead head r = .ok (.complete done r')) : head.length < done.length := by
  induction hn : r.pending.length using Nat.strongRecOn generalizing head r with
  | ind n ih =>
    rw [readHead] at h
    split at h
    · cases h
    · next line rest hread =>
      split at h
      · cases h
      · next hne =>
        have hpos := List.length_pos_of_ne_nil hne
        split at h
        · obtain ⟨rfl, rfl⟩ := HeadResult.complete.inj (Except.ok.inj h)
          rw [List.length_append]
          omega
        · split at h
          · cases h
          · have hlt : rest.pending.length < n := by
              rw [← hn, BufReader.pending_readUntil hread, List.length_append]
              omega
            have hlonger := ih _ hlt h rfl
            rw [List.length_append] at hlonger
            omega

/-- At the empty line the loop stops if it sees it, and goes on otherwise. -/
theorem readHead_head (x : Incoming) : ∃ r, r.pending = x.rest ∧
    (x.head.Seen → readHead [] x.reader = .ok (.complete x.head.bytes r)) ∧
      (¬ x.head.Seen → readHead [] x.reader = readHead x.head.bytes r) := by
  have hpending := x.pending_eq
  have hlength := x.length_lt
  unfold HeadText.bytes at hpending hlength
  rw [List.append_assoc] at hpending
  rw [List.length_append] at hlength
  have hstart : ([] ++ x.head.lines.flatMap HeaderLine.bytes).length ≤ 64 * 1024 := by
    rw [List.nil_append]
    omega
  obtain ⟨r, hr, hlines⟩ := readHead_lines x.head.lines hpending hstart
  obtain ⟨r', hr', hempty⟩ := readHead_line List.not_mem_nil x.head.crlf hr
    (x.head.lines.flatMap HeaderLine.bytes)
  have hshort : ¬ x.head.bytes.length > 64 * 1024 := by
    have hlt := x.length_lt
    omega
  rw [List.nil_append] at hlines hempty
  change readHead (x.head.lines.flatMap HeaderLine.bytes) r =
    if endsHead x.head.bytes then .ok (.complete x.head.bytes r')
    else if x.head.bytes.length > 64 * 1024 then .ok .tooLarge
    else readHead x.head.bytes r' at hempty
  rw [if_neg hshort] at hempty
  -- the empty line is a line for the loop, whether it sees it or not
  refine ⟨r', hr', fun hseen => ?_, fun hseen => ?_⟩
  · rw [hlines, hempty, if_pos ((endsHead_bytes x.head).mpr hseen)]
  · rw [hlines, hempty, if_neg (mt (endsHead_bytes x.head).mp hseen)]

/-! ### The request -/

/-- The body is what the Content-Length says, of what is pending. -/
theorem readBody_eq {apiKey : Option String} {req : Request} {r : Reader}
    (hauth : authorized apiKey req.headers = true) (hmax : contentLength req.headers ≤ maxHttpBody)
    (henough : contentLength req.headers ≤ r.pending.length) :
    ∃ d r', readBody apiKey req r = .ok (.dispatched d r') ∧
      d.body = r.pending.take (contentLength req.headers) ∧
        r'.pending = r.pending.drop (contentLength req.headers) := by
  have hsplit := (List.take_append_drop (contentLength req.headers) r.pending).symm
  obtain ⟨r', hread, hrest⟩ := BufReader.readExact_eq
    (.err .unexpectedEof "failed to fill whole buffer") hsplit
  rw [List.length_take, Nat.min_eq_left henough] at hread
  refine ⟨⟨req.method.getD "", (splitTarget (utf8 (req.path.getD "/"))).1,
    (splitTarget (utf8 (req.path.getD "/"))).2, _⟩, r', ?_, rfl, hrest⟩
  unfold readBody
  rw [hauth, Bool.not_true, if_neg Bool.false_ne_true]
  dsimp only
  rw [if_neg (Nat.not_lt.mpr hmax), hread]

/-- Nothing is dispatched otherwise. -/
theorem readBody_dispatched {apiKey : Option String} {req : Request} {r r' : Reader} {d : Dispatch}
    (h : readBody apiKey req r = .ok (.dispatched d r')) :
    authorized apiKey req.headers = true ∧ contentLength req.headers ≤ maxHttpBody := by
  unfold readBody at h
  split at h
  · cases h
  · next hauth =>
    dsimp only at h
    split at h
    · cases h
    · next hmax => exact ⟨by simpa using hauth, Nat.not_lt.mp hmax⟩

/-- An empty line that is not seen does not end the head. -/
theorem not_delimited {x : Incoming} (h : ¬ x.head.Seen) : ¬ x.Delimited := by
  intro hdelimited
  obtain ⟨r, -, -, hunseen⟩ := readHead_head x
  obtain ⟨r', hread, -⟩ := hdelimited.head_read
  rw [hunseen h] at hread
  exact Nat.lt_irrefl _ (length_lt_of_readHead hread)

/-- **The boundary between the head and the body.** -/
theorem head_boundary_iff (x : Incoming) : x.Delimited ↔ x.head.Seen := by
  obtain ⟨r, hr, hseen, -⟩ := readHead_head x
  constructor
  · exact fun h => of_not_not fun hnot => not_delimited hnot h
  · intro h
    have hhandle : handleHttpConnection x.httparse x.apiKey x.reader =
        readBody x.apiKey x.request r := by
      unfold handleHttpConnection
      rw [hseen h]
      dsimp only
      rw [x.parses]
    have hdispatch := fun (hauth : authorized x.apiKey x.request.headers = true) hmax =>
      readBody_eq (r := r) hauth hmax (hr.symm ▸ x.enough)
    rw [hr, ← hhandle] at hdispatch
    refine ⟨⟨r, hseen h, hr⟩, fun d r' hd => ?_, fun hauth hmax => ?_⟩
    · obtain ⟨hauth, hmax⟩ := readBody_dispatched (hhandle ▸ hd)
      obtain ⟨d', r'', hd', hbody, hrest⟩ := hdispatch hauth hmax
      obtain ⟨rfl, rfl⟩ := Handled.dispatched.inj (Except.ok.inj (hd.symm.trans hd'))
      exact ⟨hbody, hrest⟩
    · obtain ⟨d, r', hd, -⟩ := hdispatch hauth hmax
      exact ⟨d, r', hd⟩

/-- `GET /me HTTP/1.1` and a line feed, and an empty line that ends with `\r\n`. -/
def mixedHead : HeadText where
  lines := [{
    content := [71, 69, 84, 32, 47, 109, 101, 32, 72, 84, 84, 80, 47, 49, 46, 49]
    crlf := false
    ne_nil := List.cons_ne_nil _ _
    lineFeed_not_mem := by decide
    getLast?_ne := by decide }]
  ne_nil := List.cons_ne_nil _ _
  crlf := true

def getMe : Request := ⟨some "GET", some "/me", []⟩

/-- The request with this head, in one piece. -/
def mixedRequest : Incoming where
  head := mixedHead
  rest := []
  reader := { pieces := [mixedHead.bytes] }
  httparse b := .ok (if b = mixedHead.bytes then some getMe else none)
  apiKey := none
  request := getMe
  pending_eq := rfl
  length_lt := by decide
  parses := congrArg Except.ok (if_pos rfl)
  enough := Nat.le_refl 0

/-- The empty line is taken for a header line. -/
theorem head_boundary_missed : ¬ ∀ x : Incoming, x.Delimited := fun hall =>
  not_delimited (x := mixedRequest) (fun h => by cases h rfl _ rfl) (hall mixedRequest)

end Http

end WrapperPaas
