/-
  A client and a server joined by a byte pipe in each direction.

  `Link` keeps totals: all that the client has written and how much of it the server has taken, the
  requests the server has read with its answer to each, and how far the answers got.  What is in a
  pipe is the difference of two totals.  `asked` records the requests that the client has begun to
  write, each with a tag; the server never sees it.

  The server reads requests with a `Decoder` and the client reads answers with another one.  A
  client with at most one request outstanding is in one of three phases, `Idle`, `Sending` and
  `Awaiting`.  The server's steps keep the phase (`Idle.decode_pending`, `Sending.decode_pending`,
  `Awaiting.serve`), and the client's steps go through the phases in turn (`Idle.ask`,
  `Sending.send`, `Sending.sent`, `Awaiting.receive`, `Awaiting.finish`): what is read in the end is
  the answer to the request that was asked.
-/
import Mathlib.Data.List.Basic

namespace WrapperPaas

/-! ### Decoders -/

/-- A decoder of frames at the front of a stream: bytes that arrive later do not change a frame that
was found, and no frame is found in nothing. -/
structure Decoder (β φ : Type*) where
  /-- The first frame, and the bytes after it. -/
  decode : List β → Option (φ × List β)
  nil : decode [] = none
  append {b rest : List β} {f : φ} (x : List β) :
    decode b = some (f, rest) → decode (b ++ x) = some (f, rest ++ x)

namespace Decoder

variable {β φ : Type*} (d : Decoder β φ)

/-- There is nothing after a frame in `b`. -/
def Single (b : List β) : Prop := ∀ f rest, d.decode b = some (f, rest) → rest = []

/-- `b` is read as `f` if it is read at all. -/
def Encodes (f : φ) (b : List β) : Prop := ∀ g rest, d.decode b = some (g, rest) → g = f ∧ rest = []

variable {d} {f : φ} {b : List β}

theorem Encodes.single (h : d.Encodes f b) : d.Single b := fun g rest hg => (h g rest hg).2

/-- A frame is not found before its last byte. -/
theorem Single.decode_eq_none {x y : List β} (h : d.Single (x ++ y)) (hy : y ≠ []) :
    d.decode x = none := by
  cases hx : d.decode x with
  | none => rfl
  | some r =>
    have hnil := h _ _ (d.append y hx)
    exact absurd (List.append_eq_nil_iff.mp hnil).2 hy

/-- A frame that is found in a prefix of a single frame takes all of it. -/
theorem Single.eq_of_decode {x rest : List β} (h : d.Single b) (hx : x <+: b)
    (hf : d.decode x = some (f, rest)) : x = b ∧ rest = [] := by
  obtain ⟨y, rfl⟩ := hx
  by_cases hy : y = []
  · subst hy
    rw [List.append_nil] at h ⊢
    exact ⟨rfl, h _ _ hf⟩
  · rw [h.decode_eq_none hy] at hf
    cases hf

end Decoder

/-! ### Links -/

/-- Both pipes of a client and a server, as totals since the server was started. -/
structure Link (β τ φ : Type*) where
  /-- the requests whose writing has begun -/
  asked : List (τ × φ) := []
  /-- the bytes the client has written -/
  written : List β := []
  /-- how many of them the server has taken -/
  taken : Nat := 0
  /-- the requests the server has read, with its answers -/
  answers : List (φ × List β) := []
  /-- how many bytes of the answers the server has written -/
  emitted : Nat := 0
  /-- how many of them the client has read -/
  received : Nat := 0
  deriving DecidableEq, Repr

namespace Link

variable {β τ φ ψ : Type*}

/-- The bytes in the pipe to the server. -/
def pending (l : Link β τ φ) : List β := l.written.drop l.taken

/-- All answers in a row. -/
def answerBytes (l : Link β τ φ) : List β := (l.answers.map Prod.snd).flatten

/-- The bytes in the pipe to the client. -/
def available (l : Link β τ φ) : List β := (l.answerBytes.take l.emitted).drop l.received

/-- The client begins to write a request. -/
def ask (l : Link β τ φ) (x : τ × φ) : Link β τ φ := { l with asked := l.asked ++ [x] }

/-- The client writes some bytes. -/
def send (l : Link β τ φ) (b : List β) : Link β τ φ := { l with written := l.written ++ b }

/-- The server takes bytes up to `rest`, and answers with `new`. -/
def serve (l : Link β τ φ) (rest : List β) (new : List (φ × List β)) : Link β τ φ :=
  { l with taken := l.written.length - rest.length, answers := l.answers ++ new }

/-- The server writes `n` bytes of its answers. -/
def emit (l : Link β τ φ) (n : Nat) : Link β τ φ := { l with emitted := l.emitted + n }

/-- The client reads `n` bytes. -/
def receive (l : Link β τ φ) (n : Nat) : Link β τ φ := { l with received := l.received + n }

/-! ### What only grows -/

/-- `l'` is `l` some time later: no request and no answer has been dropped. -/
def Le (l l' : Link β τ φ) : Prop := l.asked <+: l'.asked ∧ l.answers <+: l'.answers

theorem Le.refl (l : Link β τ φ) : l.Le l := ⟨List.prefix_rfl, List.prefix_rfl⟩

theorem le_ask (l : Link β τ φ) (x : τ × φ) : l.Le (l.ask x) :=
  ⟨List.prefix_append .., List.prefix_rfl⟩

theorem le_serve (l : Link β τ φ) (rest : List β) (new : List (φ × List β)) :
    l.Le (l.serve rest new) :=
  ⟨List.prefix_rfl, List.prefix_append ..⟩

/-- What stands at a position stays there. -/
theorem getElem?_of_prefix {α : Type*} {xs ys : List α} (h : xs <+: ys) {i : Nat} {a : α}
    (ha : xs[i]? = some a) : ys[i]? = some a := by
  obtain ⟨zs, rfl⟩ := h
  rw [List.getElem?_append_left (List.getElem?_eq_some_iff.mp ha).1, ha]

/-- Answers do not overtake each other: only bytes that were answered are written, and only bytes
that were written are read. -/
structure Flows (l : Link β τ φ) : Prop where
  received_le : l.received ≤ l.emitted
  emitted_le : l.emitted ≤ l.answerBytes.length

theorem length_available {l : Link β τ φ} (h : l.Flows) :
    l.available.length = l.emitted - l.received := by
  rw [available, List.length_drop, List.length_take_of_le h.emitted_le]

namespace Flows

variable {l : Link β τ φ}

theorem empty : ({} : Link β τ φ).Flows := ⟨Nat.le_refl _, Nat.zero_le _⟩

theorem serve (h : l.Flows) (rest : List β) (new : List (φ × List β)) :
    (l.serve rest new).Flows := by
  refine ⟨h.received_le, Nat.le_trans h.emitted_le ?_⟩
  simp [answerBytes, Link.serve]

theorem emit (h : l.Flows) {n : Nat} (hn : l.emitted + n ≤ l.answerBytes.length) :
    (l.emit n).Flows :=
  ⟨Nat.le_trans h.received_le (Nat.le_add_right ..), hn⟩

theorem receive (h : l.Flows) {n : Nat} (hn : n ≤ l.available.length) : (l.receive n).Flows := by
  rw [length_available h] at hn
  have := h.received_le
  refine ⟨?_, h.emitted_le⟩
  change l.received + n ≤ l.emitted
  omega

end Flows

/-! ### Phases -/

variable (enc : φ → List β)

/-- The encodings of the requests in a row. -/
def encodeAll (qs : List (τ × φ)) : List β := (qs.map fun q => enc q.2).flatten

/-- No request is outstanding: each is written in full and answered, and all answers are read. -/
structure Idle (l : Link β τ φ) : Prop where
  written : l.written = encodeAll enc l.asked
  taken : l.taken = l.written.length
  answered : l.answers.map Prod.fst = l.asked.map Prod.snd
  received : l.received = l.answerBytes.length

/-- After `qs`, the client is writing `q` and has `rest` of it left. -/
structure Sending (qs : List (τ × φ)) (q : τ × φ) (rest : List β) (l : Link β τ φ) : Prop where
  asked : l.asked = qs ++ [q]
  written : l.written ++ rest = encodeAll enc qs ++ enc q.2
  taken : l.taken = (encodeAll enc qs).length
  taken_le : l.taken ≤ l.written.length
  answered : l.answers.map Prod.fst = qs.map Prod.snd
  received : l.received = l.answerBytes.length

/-- After `qs`, the client has written `q` and has read `buf` of the answer.  Either the server has
not read `q` yet, or its answer is the last one. -/
inductive Awaiting (dc : Decoder β ψ) (qs : List (τ × φ)) (q : τ × φ) (buf : List β)
    (l : Link β τ φ) : Prop
  | unread (asked : l.asked = qs ++ [q]) (written : l.written = encodeAll enc qs ++ enc q.2)
      (taken : l.taken = (encodeAll enc qs).length)
      (answered : l.answers.map Prod.fst = qs.map Prod.snd)
      (received : l.received = l.answerBytes.length) (buf : buf = [])
  | answered (asked : l.asked = qs ++ [q]) (written : l.written = encodeAll enc qs ++ enc q.2)
      (taken : l.taken = l.written.length) (done : List (φ × List β)) (b tail : List β)
      (answers : l.answers = done ++ [(q.2, b)]) (done_fst : done.map Prod.fst = qs.map Prod.snd)
      (single : dc.Single b)
      (received : l.received = (done.map Prod.snd).flatten.length + buf.length)
      (buf : buf ++ tail = b)

variable {enc} {ds : Decoder β φ} {dc : Decoder β ψ} {l : Link β τ φ} {qs : List (τ × φ)}
  {q : τ × φ}

theorem encodeAll_append (qs : List (τ × φ)) (q : τ × φ) :
    encodeAll enc (qs ++ [q]) = encodeAll enc qs ++ enc q.2 := by
  simp [encodeAll]

theorem Idle.empty : Idle enc ({} : Link β τ φ) := ⟨rfl, rfl, rfl, rfl⟩

/-- The server finds nothing to read while no request is outstanding. -/
theorem Idle.decode_pending (h : Idle enc l) : ds.decode l.pending = none := by
  rw [pending, h.taken, List.drop_length, ds.nil]

theorem Idle.ask (h : Idle enc l) (q : τ × φ) : Sending enc l.asked q (enc q.2) (l.ask q) where
  asked := rfl
  written := congrArg (· ++ enc q.2) h.written
  taken := h.taken.trans (congrArg List.length h.written)
  taken_le := Nat.le_of_eq h.taken
  answered := h.answered
  received := h.received

/-- The server finds nothing to read while a request is not complete. -/
theorem Sending.decode_pending {rest : List β} (h : Sending enc qs q rest l)
    (hq : ds.Encodes q.2 (enc q.2)) (hrest : rest ≠ []) : ds.decode l.pending = none := by
  have hpending : l.pending ++ rest = enc q.2 := by
    rw [pending, ← List.drop_append_of_le_length h.taken_le, h.written, h.taken, List.drop_left]
  rw [← hpending] at hq
  exact hq.single.decode_eq_none hrest

theorem Sending.send {b rest : List β} (h : Sending enc qs q (b ++ rest) l) :
    Sending enc qs q rest (l.send b) where
  asked := h.asked
  written := by
    rw [Link.send, List.append_assoc]
    exact h.written
  taken := h.taken
  taken_le := Nat.le_trans h.taken_le (by simp [Link.send])
  answered := h.answered
  received := h.received

theorem Idle.emit (h : Idle enc l) (n : Nat) : Idle enc (l.emit n) :=
  ⟨h.written, h.taken, h.answered, h.received⟩

theorem Sending.emit {rest : List β} (h : Sending enc qs q rest l) (n : Nat) :
    Sending enc qs q rest (l.emit n) :=
  ⟨h.asked, h.written, h.taken, h.taken_le, h.answered, h.received⟩

theorem Awaiting.emit {buf : List β} (h : Awaiting enc dc qs q buf l) (n : Nat) :
    Awaiting enc dc qs q buf (l.emit n) := by
  cases h with
  | unread asked written taken answered received hbuf =>
    exact .unread asked written taken answered received hbuf
  | answered asked written taken done b tail answers done_fst single received hbuf =>
    exact .answered asked written taken done b tail answers done_fst single received hbuf

/-- The last byte of the request is written. -/
theorem Sending.sent (h : Sending enc qs q [] l) : Awaiting enc dc qs q [] l := by
  have hwritten := h.written
  rw [List.append_nil] at hwritten
  exact .unread h.asked hwritten h.taken h.answered h.received rfl

/-- What the server reads is the request that is outstanding, and its answer is the last one. -/
theorem Awaiting.serve {buf rest : List β} {f : φ} (h : Awaiting enc dc qs q buf l)
    (hq : ds.Encodes q.2 (enc q.2)) (hf : ds.decode l.pending = some (f, rest)) :
    f = q.2 ∧ ∀ b, dc.Single b → Awaiting enc dc qs q buf (l.serve rest [(q.2, b)]) := by
  cases h with
  | unread asked written taken answered received hbuf =>
    rw [pending, written, taken, List.drop_left] at hf
    obtain ⟨hfq, rfl⟩ := hq _ _ hf
    refine ⟨hfq, fun b hb => .answered asked written rfl _ b b rfl answered hb ?_ ?_⟩
    · rw [hbuf]
      exact received
    · rw [hbuf, List.nil_append]
  | answered asked written taken =>
    rw [pending, taken, List.drop_length, ds.nil] at hf
    cases hf

/-- What the client reads next is the rest of the answer. -/
theorem Awaiting.receive {buf : List β} (h : Awaiting enc dc qs q buf l) (hl : l.Flows) {n : Nat}
    (hn : n ≤ l.available.length) :
    Awaiting enc dc qs q (buf ++ l.available.take n) (l.receive n) := by
  have hlen := length_available hl
  have hle := hl.received_le
  have hle' := hl.emitted_le
  cases h with
  | unread asked written taken answered received hbuf =>
    -- nothing was answered yet, so nothing can be read
    obtain rfl : n = 0 := by omega
    rw [List.take_zero, List.append_nil]
    exact .unread asked written taken answered received hbuf
  | answered asked written taken done b tail answers done_fst single received hbuf =>
    have hbytes : l.answerBytes = (done.map Prod.snd).flatten ++ b := by
      simp [answerBytes, answers]
    -- the bytes read are a prefix of the rest of the answer
    have hchunk : l.available.take n = tail.take n := by
      rw [available, List.drop_take, List.take_take, Nat.min_eq_left (by omega), hbytes, received,
        ← hbuf, ← List.append_assoc, ← List.length_append, List.drop_left]
    refine .answered asked written taken done b (tail.drop n) answers done_fst single ?_ ?_
    · rw [List.length_append, List.length_take_of_le hn, Link.receive, received, Nat.add_assoc]
    · rw [hchunk, List.append_assoc, List.take_append_drop, hbuf]

/-- When the client has read a frame it has read the whole answer to its request, and no request is
outstanding. -/
theorem Awaiting.finish {buf rest : List β} {g : ψ} (h : Awaiting enc dc qs q buf l)
    (hg : dc.decode buf = some (g, rest)) :
    Idle enc l ∧ ∃ b, l.asked[qs.length]? = some q ∧ l.answers[qs.length]? = some (q.2, b) ∧
      dc.decode b = some (g, []) := by
  cases h with
  | unread asked written taken answered received hbuf =>
    rw [hbuf, dc.nil] at hg
    cases hg
  | answered asked written taken done b tail answers done_fst single received hbuf =>
    obtain ⟨rfl, rfl⟩ := single.eq_of_decode ⟨tail, hbuf⟩ hg
    have hlen : qs.length = done.length := by
      rw [← List.length_map (f := Prod.snd), ← done_fst, List.length_map]
    refine ⟨⟨?_, taken, ?_, ?_⟩, buf, ?_, ?_, hg⟩
    · rw [written, asked, encodeAll_append]
    · rw [answers, asked, List.map_append, List.map_append, done_fst]
      rfl
    · rw [received, answerBytes, answers]
      simp
    · rw [asked, List.getElem?_concat_length]
    · rw [answers, hlen, List.getElem?_concat_length]

end Link

end WrapperPaas
