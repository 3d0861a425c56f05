/-
  HTTP responses and a client's reader of them.

  A response is a status line, fields, an empty line and a body whose length is in a field.  `read`
  is strict: lines end with CRLF, the status has three digits and there is exactly one
  Content-Length.  It reads back what is written of a well-formed response and takes nothing of what
  follows on it (`read_bytes`).
-/
import WrapperPaas.Lib.Fields
import WrapperPaas.Lib.JsonReader

namespace WrapperPaas

namespace HttpMessage

open Json (colon decimal readNat)

structure Field where
  name : Bytes
  value : Bytes
  deriving DecidableEq, Repr

structure Message where
  status : Nat
  reason : Bytes
  fields : List Field
  body : Bytes
  deriving DecidableEq, Repr

def cr : UInt8 := 13
def lf : UInt8 := 10
def blank : UInt8 := 32

def crlf : Bytes := [cr, lf]

/-! ### Writing -/

def Field.line (f : Field) : Bytes := f.name ++ colon :: blank :: f.value

def Message.statusLine (m : Message) : Bytes :=
  utf8 "HTTP/1.1 " ++ (decimal m.status ++ blank :: m.reason)

def Message.bytes (m : Message) : Bytes :=
  m.statusLine ++ crlf ++ ((m.fields.flatMap fun f => f.line ++ crlf) ++ (crlf ++ m.body))

/-! ### Reading -/

/-- A line and what follows on its CRLF. -/
def readLine : Bytes → Option (Bytes × Bytes)
  | c :: d :: rest =>
    if c = cr ∧ d = lf then some ([], rest)
    else (readLine (d :: rest)).map fun p => (c :: p.1, p.2)
  | _ => none

def readStatusLine (line : Bytes) : Option (Nat × Bytes) := do
  if !(utf8 "HTTP/1.1 ").isPrefixOf line then none
  else
    let (status, rest) ← readNat (line.drop 9)
    let reason ← Json.expect blank rest
    if 100 ≤ status ∧ status < 1000 then some (status, reason) else none

def isBlank (c : UInt8) : Bool := c = blank || c = 9

def trimBlanks (b : Bytes) : Bytes :=
  ((b.dropWhile isBlank).reverse.dropWhile isBlank).reverse

def readField (line : Bytes) : Option Field :=
  (line.idxOf? colon).bind fun n =>
    if n = 0 then none else some ⟨line.take n, trimBlanks (line.drop (n + 1))⟩

/-- The fields up to the empty line, at most as many as `fuel`. -/
def readFields : (fuel : Nat) → Bytes → Option (List Field × Bytes)
  | 0, _ => none
  | fuel + 1, b => do
    let (line, rest) ← readLine b
    if line = [] then some ([], rest)
    else
      let f ← readField line
      let (fs, rest) ← readFields fuel rest
      some (f :: fs, rest)

def lowercase (c : UInt8) : UInt8 := if 65 ≤ c ∧ c ≤ 90 then c + 32 else c

def Field.isLength (f : Field) : Bool := f.name.map lowercase = utf8 "content-length"

def bodyLength (fs : List Field) : Option Nat :=
  match fs.filter Field.isLength with
  | [f] => (readNat f.value).bind fun p => if p.2 = [] then some p.1 else none
  | _ => none

def read (b : Bytes) : Option (Message × Bytes) := do
  let (line, b) ← readLine b
  let (status, reason) ← readStatusLine line
  let (fields, b) ← readFields (b.length + 1) b
  let n ← bodyLength fields
  if n ≤ b.length then some (⟨status, reason, fields, b.take n⟩, b.drop n) else none

/-! ### Well-formed responses -/

/-- There is no end of a line in a text. -/
def Unbroken (b : Bytes) : Prop := cr ∉ b ∧ lf ∉ b

instance (b : Bytes) : Decidable (Unbroken b) := inferInstanceAs (Decidable (_ ∧ _))

structure Field.WellFormed (f : Field) : Prop where
  name_ne_nil : f.name ≠ []
  separable : colon ∉ f.name
  name : Unbroken f.name
  value : Unbroken f.value
  trimmed : trimBlanks f.value = f.value

structure Message.WellFormed (m : Message) : Prop where
  status : 100 ≤ m.status ∧ m.status < 1000
  reason : Unbroken m.reason
  fields : ∀ f ∈ m.fields, f.WellFormed
  length : ∃ name, m.fields.filter Field.isLength = [⟨name, decimal m.body.length⟩]

/-! ### Lines -/

section Lines

variable {b rest : Bytes}

theorem Unbroken.append {b' : Bytes} (h : Unbroken b) (h' : Unbroken b') : Unbroken (b ++ b') :=
  ⟨fun hmem => (List.mem_append.mp hmem).elim h.1 h'.1,
    fun hmem => (List.mem_append.mp hmem).elim h.2 h'.2⟩

theorem Unbroken.cons {c : UInt8} (hc : c ≠ cr ∧ c ≠ lf) (h : Unbroken b) : Unbroken (c :: b) :=
  ⟨fun hmem => (List.mem_cons.mp hmem).elim (fun heq => hc.1 heq.symm) h.1,
    fun hmem => (List.mem_cons.mp hmem).elim (fun heq => hc.2 heq.symm) h.2⟩

theorem unbroken_decimal (n : Nat) : Unbroken (decimal n) := by
  refine ⟨fun h => ?_, fun h => ?_⟩
  all_goals exact absurd (Json.isDigit_decimal h) (by decide)

theorem readLine_crlf (h : Unbroken b) : readLine (b ++ (crlf ++ rest)) = some (b, rest) := by
  induction b with
  | nil => rfl
  | cons c b ih =>
    have hc : c ≠ cr := fun heq => h.1 (heq ▸ List.mem_cons_self)
    have ih := ih ⟨fun hmem => h.1 (List.mem_cons_of_mem _ hmem),
      fun hmem => h.2 (List.mem_cons_of_mem _ hmem)⟩
    cases b with
    | nil =>
      show readLine (c :: cr :: (lf :: rest)) = _
      rw [readLine, if_neg (fun h => hc h.1)]
      rfl
    | cons d b =>
      show readLine (c :: d :: (b ++ (crlf ++ rest))) = _
      have ih : readLine (d :: (b ++ (crlf ++ rest))) = some (d :: b, rest) := ih
      rw [readLine, if_neg (fun h => hc h.1), ih]
      rfl

theorem stops_blank : Json.Stops (blank :: rest) := by
  intro c hc
  obtain rfl := Option.some.inj hc
  decide

theorem readStatusLine_statusLine {m : Message} (h : 100 ≤ m.status ∧ m.status < 1000) :
    readStatusLine m.statusLine = some (m.status, m.reason) := by
  have hversion : (utf8 "HTTP/1.1 ").isPrefixOf m.statusLine = true :=
    List.isPrefixOf_iff_prefix.mpr (List.prefix_append _ _)
  have hdrop : m.statusLine.drop 9 = decimal m.status ++ blank :: m.reason := rfl
  unfold readStatusLine
  rw [hversion, hdrop, Json.readNat_decimal m.status stops_blank]
  show (if 100 ≤ m.status ∧ m.status < 1000 then _ else _) = _
  rw [if_pos h]

theorem readField_line {f : Field} (h : f.WellFormed) : readField f.line = some f := by
  have hvalue : trimBlanks (blank :: f.value) = f.value := by
    have hblank : isBlank blank = true := rfl
    unfold trimBlanks
    rw [List.dropWhile_cons_of_pos hblank]
    exact h.trimmed
  have hlength : f.name.length ≠ 0 := fun heq => h.name_ne_nil (List.length_eq_zero_iff.mp heq)
  unfold readField Field.line
  rw [idxOf?_append_cons h.separable, Option.bind_some, if_neg hlength, List.take_left,
    List.drop_length_add_append]
  show some (Field.mk f.name (trimBlanks (blank :: f.value))) = _
  rw [hvalue]

theorem unbroken_line {f : Field} (h : f.WellFormed) : Unbroken f.line :=
  h.name.append ((h.value.cons (by decide)).cons (by decide))

/-- The fields of a response, up to the empty line. -/
theorem readFields_lines {fs : List Field} (h : ∀ f ∈ fs, f.WellFormed) {fuel : Nat}
    (hfuel : fs.length < fuel) (rest : Bytes) :
    readFields fuel ((fs.flatMap fun f => f.line ++ crlf) ++ (crlf ++ rest)) =
      some (fs, rest) := by
  induction fs generalizing fuel with
  | nil =>
    cases fuel with
    | zero => exact absurd hfuel (Nat.not_lt_zero _)
    | succ fuel => rfl
  | cons f fs ih =>
    cases fuel with
    | zero => exact absurd hfuel (Nat.not_lt_zero _)
    | succ fuel =>
      have hf := h f List.mem_cons_self
      have ih := ih (fun g hg => h g (List.mem_cons_of_mem _ hg)) (Nat.lt_of_succ_lt_succ hfuel)
      have hne : f.line ≠ [] := by
        unfold Field.line
        simp
      rw [List.flatMap_cons, List.append_assoc, List.append_assoc, readFields,
        readLine_crlf (unbroken_line hf)]
      show (if f.line = [] then _ else _) = _
      rw [if_neg hne, readField_line hf, Option.bind_eq_bind, Option.bind_some, ih]
      rfl

theorem length_le_flatMap (fs : List Field) :
    fs.length ≤ (fs.flatMap fun f => f.line ++ crlf).length := by
  induction fs with
  | nil => exact Nat.zero_le _
  | cons f fs ih =>
    have hcrlf : crlf.length = 2 := rfl
    rw [List.flatMap_cons, List.length_cons, List.length_append, List.length_append]
    omega

theorem bodyLength_eq {fs : List Field} {name : Bytes} {n : Nat}
    (h : fs.filter Field.isLength = [⟨name, decimal n⟩]) : bodyLength fs = some n := by
  have hread : readNat (decimal n ++ []) = some (n, []) :=
    Json.readNat_decimal n (by decide)
  rw [List.append_nil] at hread
  unfold bodyLength
  rw [h]
  dsimp only
  rw [hread]
  rfl

end Lines

/-- A well-formed response is read back. -/
theorem read_bytes {m : Message} (h : m.WellFormed) (rest : Bytes) :
    read (m.bytes ++ rest) = some (m, rest) := by
  have hstatus : Unbroken m.statusLine := by
    have hversion : Unbroken (utf8 "HTTP/1.1 ") := by decide
    exact hversion.append ((unbroken_decimal _).append (h.reason.cons (by decide)))
  obtain ⟨name, hlength⟩ := h.length
  have hline : readLine (m.bytes ++ rest) = some (m.statusLine,
      (m.fields.flatMap fun f => f.line ++ crlf) ++ (crlf ++ (m.body ++ rest))) := by
    unfold Message.bytes
    simp only [List.append_assoc]
    exact readLine_crlf hstatus
  have hfuel : m.fields.length <
      ((m.fields.flatMap fun f => f.line ++ crlf) ++ (crlf ++ (m.body ++ rest))).length + 1 := by
    have hle := length_le_flatMap m.fields
    rw [List.length_append]
    omega
  have hle : m.body.length ≤ (m.body ++ rest).length := by
    rw [List.length_append]
    omega
  refine Option.bind_eq_some_iff.mpr ⟨_, hline, ?_⟩
  refine Option.bind_eq_some_iff.mpr ⟨_, readStatusLine_statusLine h.status, ?_⟩
  refine Option.bind_eq_some_iff.mpr ⟨_, readFields_lines h.fields hfuel _, ?_⟩
  refine Option.bind_eq_some_iff.mpr ⟨_, bodyLength_eq hlength, ?_⟩
  rw [if_pos hle, List.take_left, List.drop_left]

end HttpMessage

end WrapperPaas
