/-
  Loops that move a byte string through a descriptor piece by piece.

  An iteration of such a loop makes its system calls, and then it has moved something, or it goes on
  without having moved anything, or it gives up (`Progress`).  A loop is run on a script: what its
  iterations meet, in order.  When the script is over, the next call moves everything that is left.
  A script thus says which calls do not, and every run that comes to its end has one.

  A loop that does not give up moves exactly what it should, for every script
  (`writeLoop_eq`, `readLoop_eq`).
-/
import Mathlib.Data.List.Basic

namespace WrapperPaas

/-- What an iteration of a transfer loop comes to. -/
inductive Progress (ε : Type*) where
  /-- at least one element is moved, and no more than `n + 1` -/
  | moved (n : Nat)
  /-- nothing is moved, and the loop goes on -/
  | again
  | stopped (e : ε)

/-- The loop does not give up here. -/
def Progress.Continues {ε : Type*} : Progress ε → Prop
  | .moved _ | .again => True
  | .stopped _ => False

section Loops

variable {α β ε : Type*} (progress : α → Progress ε)

/-- Write `b`: what is written, and the rest of the script or the error. -/
def writeLoop : (script : List α) → (b : List β) → List β × Except ε (List α)
  | script, [] => ([], .ok script)
  | [], b => (b, .ok [])
  | a :: script, b =>
    match progress a with
    | .moved n =>
      let (more, result) := writeLoop script (b.drop (n + 1))
      (b.take (n + 1) ++ more, result)
    | .again => writeLoop script b
    | .stopped e => ([], .error e)

/-- Read `n` elements off the stream: what is read, with the rest of the script and of the stream.
At the end of the stream the loop fails with `eof`. -/
def readLoop (eof : ε) : (script : List α) → (stream : List β) → (n : Nat) →
    Except ε (List β × List α × List β)
  | script, stream, 0 => .ok ([], script, stream)
  | [], stream, n =>
    if n ≤ stream.length then .ok (stream.take n, [], stream.drop n) else .error eof
  | a :: script, stream, n =>
    match progress a with
    | .moved k =>
      let chunk := (stream.take n).take (k + 1)
      if chunk = [] then .error eof
      else do
        let (more, rest) ← readLoop eof script (stream.drop chunk.length) (n - chunk.length)
        .ok (chunk ++ more, rest)
    | .again => readLoop eof script stream n
    | .stopped e => .error e

variable {progress}

@[simp] theorem readLoop_zero (eof : ε) (script : List α) (stream : List β) :
    readLoop progress eof script stream 0 = .ok ([], script, stream) := by
  cases script with
  | nil => rfl
  | cons a script => rfl

section Iteration

variable {eof : ε} {a : α} {script : List α} {stream : List β} {n : Nat}

theorem readLoop_again (ha : progress a = .again) (hn : n ≠ 0) :
    readLoop progress eof (a :: script) stream n = readLoop progress eof script stream n := by
  cases n with
  | zero => exact absurd rfl hn
  | succ n =>
    rw [readLoop, ha]
    · simp

theorem readLoop_stopped {e : ε} (ha : progress a = .stopped e) (hn : n ≠ 0) :
    readLoop progress eof (a :: script) stream n = .error e := by
  cases n with
  | zero => exact absurd rfl hn
  | succ n =>
    rw [readLoop, ha]
    · simp

/-- An iteration that reads the next piece leaves the bytes behind it to the rest of the loop. -/
theorem readLoop_moved {piece : List β} (hne : piece ≠ [])
    (ha : progress a = .moved (piece.length - 1)) (more rest : List β) :
    readLoop progress eof (a :: script) (piece ++ more ++ rest) (piece ++ more).length = (do
      let (b, r) ← readLoop progress eof script (more ++ rest) more.length
      .ok (piece ++ b, r)) := by
  have hpos : piece.length - 1 + 1 = piece.length :=
    Nat.sub_add_cancel (List.length_pos_of_ne_nil hne)
  obtain ⟨x, tail, hx⟩ := List.exists_cons_of_ne_nil (List.append_ne_nil_of_left_ne_nil hne more)
  have hlen : (piece ++ more).length = tail.length + 1 := by rw [hx, List.length_cons]
  rw [hlen, readLoop, ha]
  · dsimp only
    rw [hpos, ← hlen, List.take_left, List.take_left, if_neg hne, List.append_assoc,
      List.drop_left, List.length_append, Nat.add_sub_cancel_left]
  · simp

end Iteration

/-- A loop that does not give up writes everything. -/
theorem writeLoop_eq {script : List α} (h : ∀ a ∈ script, (progress a).Continues) (b : List β) :
    ∃ rest, writeLoop progress script b = (b, .ok rest) ∧ rest <:+ script := by
  induction script generalizing b with
  | nil =>
    cases b with
    | nil => exact ⟨[], rfl, List.suffix_rfl⟩
    | cons x b => exact ⟨[], rfl, List.suffix_rfl⟩
  | cons a script ih =>
    have ha := h a List.mem_cons_self
    have hrest := fun b => ih (fun a' ha' => h a' (List.mem_cons_of_mem _ ha')) b
    cases b with
    | nil => exact ⟨a :: script, rfl, List.suffix_rfl⟩
    | cons x b =>
      rw [writeLoop]
      · cases hprogress : progress a with
        | moved n =>
          obtain ⟨rest, heq, hsuffix⟩ := hrest ((x :: b).drop (n + 1))
          refine ⟨rest, ?_, hsuffix.trans (List.suffix_cons a script)⟩
          dsimp only
          rw [heq, List.take_append_drop]
        | again =>
          obtain ⟨rest, heq, hsuffix⟩ := hrest (x :: b)
          exact ⟨rest, heq, hsuffix.trans (List.suffix_cons a script)⟩
        | stopped e =>
          rw [hprogress] at ha
          exact ha.elim
      · exact List.cons_ne_nil x b

/-- A loop that does not give up reads exactly what it is asked for. -/
theorem readLoop_eq {eof : ε} {script : List α} (h : ∀ a ∈ script, (progress a).Continues)
    (b rest : List β) : ∃ script', script' <:+ script ∧
      readLoop progress eof script (b ++ rest) b.length = .ok (b, script', rest) := by
  induction script generalizing b with
  | nil =>
    refine ⟨[], List.suffix_rfl, ?_⟩
    cases b with
    | nil => rfl
    | cons x b =>
      rw [readLoop]
      · rw [if_pos (by simp), List.take_left, List.drop_left]
      · simp
  | cons a script ih =>
    have ha := h a List.mem_cons_self
    have hrest := fun b => ih (fun a' ha' => h a' (List.mem_cons_of_mem _ ha')) b
    cases b with
    | nil => exact ⟨a :: script, List.suffix_rfl, rfl⟩
    | cons x b =>
      rw [readLoop]
      · cases hprogress : progress a with
        | moved k =>
          obtain ⟨script', hsuffix, heq⟩ := hrest ((x :: b).drop (k + 1))
          refine ⟨script', hsuffix.trans (List.suffix_cons a script), ?_⟩
          dsimp only
          rw [List.take_left]
          have hne : (x :: b).take (k + 1) ≠ [] := by simp
          generalize hc : (x :: b).take (k + 1) = c at hne
          generalize hd : (x :: b).drop (k + 1) = d at heq
          have hsplit : c ++ d = x :: b := by rw [← hc, ← hd, List.take_append_drop]
          rw [if_neg hne, ← hsplit, List.append_assoc, List.drop_left, List.length_append,
            Nat.add_sub_cancel_left, heq]
          rfl
        | again =>
          obtain ⟨script', hsuffix, heq⟩ := hrest (x :: b)
          exact ⟨script', hsuffix.trans (List.suffix_cons a script), heq⟩
        | stopped e =>
          rw [hprogress] at ha
          exact ha.elim
      · simp

end Loops

end WrapperPaas
