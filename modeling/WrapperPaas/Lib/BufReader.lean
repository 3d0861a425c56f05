/-
  A buffered reader over a descriptor that delivers a stream piece by piece.

  Whatever the pieces are, the reader goes through the same stream: reading up to a delimiter and
  reading a number of elements depend on what is pending only (`readUntil_eq`, `readExact_eq`).
-/
import Mathlib.Data.List.Basic
import WrapperPaas.Lib.Fields

namespace WrapperPaas

/-- The elements in the buffer that are not read yet, and what the reads of the descriptor deliver
one after the other: an empty piece is a read that a signal interrupts, and behind the last one the
stream ends, or the reads fail with `fault`. -/
structure BufReader (α ε : Type*) where
  buf : List α := []
  pieces : List (List α)
  fault : Option ε := none

namespace BufReader

variable {α ε : Type*}

/-- The size of the buffer. -/
def capacity : Nat := 8192

/-- What is left of the stream. -/
def pending (r : BufReader α ε) : List α := r.buf ++ r.pieces.flatten

/-- A read of up to `limit` elements of the piece `p`. -/
def receive (r : BufReader α ε) (limit : Nat) (p : List α) (ps : List (List α)) : BufReader α ε :=
  { r with
    buf := p.take limit
    pieces := if p.length ≤ limit then ps else p.drop limit :: ps }

theorem pending_receive (r : BufReader α ε) (limit : Nat) (p : List α) (ps : List (List α)) :
    (r.receive limit p ps).pending = p ++ ps.flatten := by
  unfold pending receive
  dsimp only
  split_ifs with h
  · rw [List.take_of_length_le h]
  · rw [List.flatten_cons, ← List.append_assoc, List.take_append_drop]

/-- What is not received yet. -/
def left (r : BufReader α ε) : Nat := r.pieces.flatten.length + r.pieces.length

theorem left_receive_lt {r : BufReader α ε} {p : List α} {ps : List (List α)}
    (h : r.pieces = p :: ps) {limit : Nat} (hlimit : 0 < limit) :
    (r.receive limit p ps).left < r.left := by
  unfold left receive
  rw [h]
  dsimp only
  split_ifs
  · simp only [List.flatten_cons, List.length_append, List.length_cons]
    omega
  · simp only [List.flatten_cons, List.length_append, List.length_cons, List.length_drop]
    omega

section ReadUntil

variable [DecidableEq α]

/-- `read_until`: what is read, with the delimiter. -/
def readUntil (delim : α) (r : BufReader α ε) : Except ε (List α × BufReader α ε) :=
  match r.buf.idxOf? delim with
  | some n => .ok (r.buf.take (n + 1), { r with buf := r.buf.drop (n + 1) })
  | none =>
    match _h : r.pieces with
    | p :: ps =>
      (readUntil delim (r.receive capacity p ps)).map fun (more, r') => (r.buf ++ more, r')
    | [] =>
      match r.fault with
      | some e => .error e
      | none => .ok (r.buf, { r with buf := [] })
termination_by r.left
decreasing_by exact left_receive_lt _h (by decide)

end ReadUntil

/-- `read_exact`; a read that the buffer cannot serve is made directly if it is large. -/
def readExact (eof : ε) (n : Nat) (r : BufReader α ε) : Except ε (List α × BufReader α ε) :=
  if n ≤ r.buf.length then .ok (r.buf.take n, { r with buf := r.buf.drop n })
  else
    match _h : r.pieces with
    | p :: ps =>
      (readExact eof (n - r.buf.length)
        (r.receive (max capacity (n - r.buf.length)) p ps)).map fun (more, r') =>
          (r.buf ++ more, r')
    | [] => .error (r.fault.getD eof)
termination_by r.left
decreasing_by exact left_receive_lt _h (Nat.lt_of_lt_of_le (by decide) (Nat.le_max_left _ _))

/-! ### Reading is independent of the pieces -/

section Equations

variable {r : BufReader α ε} {p : List α} {ps : List (List α)}

theorem readUntil_more [DecidableEq α] {delim : α} (hfind : r.buf.idxOf? delim = none)
    (hpieces : r.pieces = p :: ps) : readUntil delim r =
      (readUntil delim (r.receive capacity p ps)).map fun (more, r') => (r.buf ++ more, r') := by
  rw [readUntil, hfind]
  dsimp only
  split
  · next h =>
    obtain ⟨rfl, rfl⟩ := List.cons.inj (hpieces.symm.trans h)
    rfl
  · next h => cases hpieces.symm.trans h

theorem readUntil_end [DecidableEq α] {delim : α} (hfind : r.buf.idxOf? delim = none)
    (hpieces : r.pieces = []) : readUntil delim r =
      match r.fault with
      | some e => .error e
      | none => .ok (r.buf, { r with buf := [] }) := by
  rw [readUntil, hfind]
  dsimp only
  split
  · next h => cases hpieces.symm.trans h
  · rfl

theorem readExact_more {eof : ε} {n : Nat} (hn : ¬ n ≤ r.buf.length)
    (hpieces : r.pieces = p :: ps) : readExact eof n r =
      (readExact eof (n - r.buf.length)
        (r.receive (max capacity (n - r.buf.length)) p ps)).map fun (more, r') =>
          (r.buf ++ more, r') := by
  rw [readExact, if_neg hn]
  split
  · next h =>
    obtain ⟨rfl, rfl⟩ := List.cons.inj (hpieces.symm.trans h)
    rfl
  · next h => cases hpieces.symm.trans h

end Equations

theorem pending_of_pieces {r : BufReader α ε} {p : List α} {ps : List (List α)}
    (h : r.pieces = p :: ps) (limit : Nat) :
    r.pending = r.buf ++ (r.receive limit p ps).pending := by
  rw [pending_receive, pending, h, List.flatten_cons]

theorem mem_of_pending {r : BufReader α ε} {delim : α} {line rest : List α}
    (hpieces : r.pieces = []) (h : r.pending = line ++ delim :: rest) : delim ∈ r.buf := by
  rw [pending, hpieces, List.flatten_nil, List.append_nil] at h
  rw [h]
  exact List.mem_append_right line List.mem_cons_self

/-- What is read is taken off the stream. -/
theorem pending_readUntil [DecidableEq α] {delim : α} {r r' : BufReader α ε} {line : List α}
    (h : readUntil delim r = .ok (line, r')) : r.pending = line ++ r'.pending := by
  induction r using readUntil.induct delim generalizing line with
  | case1 r n hfind =>
    rw [readUntil, hfind] at h
    obtain ⟨rfl, rfl⟩ := Prod.mk.inj (Except.ok.inj h)
    rw [pending, pending, ← List.append_assoc, List.take_append_drop]
  | case2 r hfind p ps hpieces ih =>
    rw [readUntil_more hfind hpieces] at h
    cases hmore : readUntil delim (r.receive capacity p ps) with
    | error e =>
      rw [hmore] at h
      cases h
    | ok result =>
      obtain ⟨more, r''⟩ := result
      rw [hmore] at h
      obtain ⟨rfl, rfl⟩ := Prod.mk.inj (Except.ok.inj h)
      rw [pending_of_pieces hpieces capacity, ih hmore, List.append_assoc]
  | case3 r hfind hpieces e hfault =>
    rw [readUntil_end hfind hpieces, hfault] at h
    cases h
  | case4 r hfind hpieces hfault =>
    rw [readUntil_end hfind hpieces, hfault] at h
    obtain ⟨rfl, rfl⟩ := Prod.mk.inj (Except.ok.inj h)
    rfl

/-- The next line of the stream is read, with its delimiter. -/
theorem readUntil_eq [DecidableEq α] {delim : α} {r : BufReader α ε} {line rest : List α}
    (hline : delim ∉ line) (h : r.pending = line ++ delim :: rest) :
    ∃ r', readUntil delim r = .ok (line ++ [delim], r') ∧ r'.pending = rest := by
  induction r using readUntil.induct delim generalizing line with
  | case1 r n hfind =>
    obtain ⟨x, y, hbuf, hx, rfl⟩ := append_of_idxOf? hfind
    have hread : readUntil delim r = .ok (x ++ [delim], { r with buf := y }) := by
      rw [readUntil, hfind, hbuf]
      dsimp only
      rw [List.take_length_add_append, List.drop_length_add_append]
      rfl
    rw [pending, hbuf, List.append_assoc, List.cons_append] at h
    -- the first delimiter is at one place only
    obtain ⟨t, rfl, ht⟩ := exists_append_of_append_eq hx h
    cases t with
    | nil =>
      rw [List.append_nil]
      exact ⟨_, hread, (List.cons.inj ht).2⟩
    | cons d t =>
      obtain ⟨rfl, -⟩ := List.cons.inj ht
      exact absurd (List.mem_append_right x List.mem_cons_self) hline
  | case2 r hfind p ps hpieces ih =>
    rw [pending_of_pieces hpieces capacity] at h
    obtain ⟨t, rfl, ht⟩ := exists_append_of_append_eq (idxOf?_eq_none.mp hfind) h
    obtain ⟨r', hread, hrest⟩ := ih (mt (List.mem_append_right r.buf) hline) ht
    refine ⟨r', ?_, hrest⟩
    rw [readUntil_more hfind hpieces, hread, List.append_assoc]
    rfl
  | case3 r hfind hpieces e hfault =>
    exact absurd (mem_of_pending hpieces h) (idxOf?_eq_none.mp hfind)
  | case4 r hfind hpieces hfault =>
    exact absurd (mem_of_pending hpieces h) (idxOf?_eq_none.mp hfind)

/-- The next elements of the stream are read. -/
theorem readExact_eq (eof : ε) {r : BufReader α ε} {b rest : List α}
    (h : r.pending = b ++ rest) :
    ∃ r', readExact eof b.length r = .ok (b, r') ∧ r'.pending = rest := by
  induction hn : b.length, r using readExact.induct generalizing b with
  | case1 n r hle =>
    subst hn
    have hprefix : b <+: r.buf := List.prefix_of_prefix_length_le ⟨rest, h.symm⟩ ⟨_, rfl⟩ hle
    obtain ⟨x, hx⟩ := hprefix
    refine ⟨{ r with buf := x }, ?_, ?_⟩
    · rw [readExact, if_pos hle, ← hx, List.take_left, List.drop_left]
    · rw [pending, ← hx, List.append_assoc] at h
      exact List.append_cancel_left h
  | case2 n r hlt p ps hpieces ih =>
    subst hn
    have hprefix : r.buf <+: b :=
      List.prefix_of_prefix_length_le ⟨_, rfl⟩ ⟨rest, h.symm⟩ (Nat.le_of_not_le hlt)
    obtain ⟨t, rfl⟩ := hprefix
    have hmissing : t.length = (r.buf ++ t).length - r.buf.length := by
      rw [List.length_append, Nat.add_sub_cancel_left]
    rw [pending_of_pieces hpieces, List.append_assoc] at h
    obtain ⟨r', hread, hrest⟩ := ih (List.append_cancel_left h) hmissing
    refine ⟨r', ?_, hrest⟩
    rw [readExact_more hlt hpieces, hread]
    rfl
  | case3 n r hlt hpieces =>
    subst hn
    have hlen := congrArg List.length h
    rw [pending, hpieces, List.flatten_nil, List.append_nil, List.length_append] at hlen
    omega

end BufReader

end WrapperPaas
