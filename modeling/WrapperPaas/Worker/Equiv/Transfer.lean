/-
  One frame over the pipes of a worker process.

  The readers of both sides are decoders in the sense of `Lib/Link.lean`: bytes behind a frame do
  not change it.  `Exchange` says that a process has an outstanding request of which a transfer has
  written, or read back, as much as the transfer knows.  Neither the worker's steps
  (`Exchange.serve`, `Exchange.emit`) nor a round of the transfer (`Exchange.step`) leave it, until
  the transfer has read a frame; then nothing is outstanding any more.
-/
import Mathlib.Data.List.Basic
import WrapperPaas.Daemon.Equiv.Ipc
import WrapperPaas.Worker.Threads

namespace WrapperPaas

/-! ### The decoders -/

namespace Supervisor

theorem readFrame_append_right {b rest : Bytes} {f : Frame} (x : Bytes)
    (h : readFrame readExact b = .ok (f, rest)) :
    readFrame readExact (b ++ x) = .ok (f, rest ++ x) := by
  obtain ⟨rfl, hlt⟩ := readFrame_eq_ok.mp h
  rw [List.append_assoc]
  exact readFrame_append hlt

/-- The supervisor's reader of responses. -/
def responseDecoder : Decoder UInt8 Frame where
  decode b := (readFrame readExact b).toOption
  nil := rfl
  append x h := toOption_eq_some.mpr (readFrame_append_right x (toOption_eq_some.mp h))

theorem responseDecoder_eq_some {b : Bytes} {x : Frame × Bytes} :
    responseDecoder.decode b = some x ↔ readFrame readExact b = .ok x :=
  toOption_eq_some

theorem isAnswer_single {b : Bytes} (h : isAnswer b = true) : responseDecoder.Single b := by
  intro f rest hf
  rw [isAnswer, responseDecoder_eq_some.mp hf] at h
  cases rest with
  | nil => rfl
  | cons x rest => cases h

end Supervisor

namespace Daemon

/-- The worker's reader of requests. -/
def requestDecoder : Decoder UInt8 Frame where
  decode b := (readFrame readFull b).toOption
  nil := rfl
  append x h := toOption_eq_some.mpr (readFrame_append_right x (toOption_eq_some.mp h))

theorem requestDecoder_eq_some {b : Bytes} {x : Frame × Bytes} :
    requestDecoder.decode b = some x ↔ readFrame readFull b = .ok x :=
  toOption_eq_some

/-- The worker reads a frame that was written as that frame, or not at all. -/
theorem requestDecoder_encodes {f : Frame} (hlt : f.payload.length < 2 ^ 32) :
    requestDecoder.Encodes f (Supervisor.frameBytes f) := by
  intro g rest hg
  have hok : readFrame readFull (Supervisor.frameBytes f) = .ok (g, rest) :=
    requestDecoder_eq_some.mp hg
  have hread := readFrame_append f [] hlt
  rw [List.append_nil, frameHeader_eq] at hread
  have hread := hok.symm.trans hread
  split_ifs at hread
  obtain ⟨rfl, rfl⟩ := Prod.mk.inj (Except.ok.inj hread)
  exact ⟨rfl, rfl⟩

end Daemon

namespace Supervisor

open Daemon (requestDecoder requestDecoder_eq_some requestDecoder_encodes)

/-! ### Exchanges -/

/-- Every request is written in full, and every byte of every answer is read. -/
abbrev Synced (l : Pipes) : Prop := Link.Idle frameBytes l

/-- How far the transfer of `q` is, after the requests `qs`. -/
def Transfer.Phase (l : Pipes) (qs : List (Asker × Frame)) (q : Asker × Frame) : Transfer → Prop
  | .writing rest _ => rest ≠ [] ∧ Link.Sending frameBytes qs q rest l
  | .reading buf _ => Link.Awaiting frameBytes responseDecoder qs q buf l

/-- The request frame `f` of `who` is outstanding, and its transfer is at `x`. -/
structure Exchange (l : Pipes) (who : Asker) (f : Frame) (x : Transfer) : Prop where
  kind : f.kind = kindRequest
  payload_lt : f.payload.length < 2 ^ 32
  phase : ∃ qs, x.Phase l qs (who, f)

/-- The worker answered the request frame `f` of `who` with the frame `resp`: they stand at the same
position among all requests and all answers. -/
def AnsweredWith (l : Pipes) (who : Asker) (f resp : Frame) : Prop :=
  ∃ (i : Nat) (b : Bytes), l.asked[i]? = some (who, f) ∧ l.answers[i]? = some (f, b) ∧
    readFrame readExact b = .ok (resp, [])

/-- What holds after a round of a transfer. -/
def RoundDone (l : Pipes) (who : Asker) (f : Frame) : IoResult → Prop
  | .more x => Exchange l who f x
  | .frame resp => Synced l ∧ AnsweredWith l who f resp
  | .failed _ _ => True

theorem AnsweredWith.mono {l l' : Pipes} {who : Asker} {f resp : Frame} (hl : l.Le l')
    (h : AnsweredWith l who f resp) : AnsweredWith l' who f resp := by
  obtain ⟨i, b, hasked, hanswers, hb⟩ := h
  exact ⟨i, b, Link.getElem?_of_prefix hl.1 hasked, Link.getElem?_of_prefix hl.2 hanswers, hb⟩

/-- A request begins on synced pipes. -/
theorem Synced.ask {l : Pipes} (h : Synced l) (who : Asker) {f : Frame}
    (kind : f.kind = kindRequest) (hlt : f.payload.length < 2 ^ 32) (now : Instant) :
    Exchange (l.ask (who, f)) who f (.writing (frameBytes f) now) where
  kind := kind
  payload_lt := hlt
  phase := ⟨l.asked, List.cons_ne_nil _ _, Link.Idle.ask h (who, f)⟩

section Server

variable {l l' : Pipes} {who : Asker} {f : Frame} {x : Transfer} {answer : Bytes}

theorem serve_eq_some (h : System.serve l answer = some l') :
    ∃ req rest, requestDecoder.decode l.pending = some (req, rest) ∧
      l' = l.serve rest (if req.kind ≠ Daemon.kKindRequest then [] else [(req, answer)]) := by
  unfold System.serve at h
  split at h
  · exact ⟨_, _, requestDecoder_eq_some.mpr ‹_›, (Option.some.inj h).symm⟩
  · cases h

/-- A worker has nothing to read on synced pipes. -/
theorem Synced.serve (h : Synced l) : System.serve l answer = none := by
  cases hs : System.serve l answer with
  | none => rfl
  | some l' =>
    obtain ⟨req, rest, hreq, -⟩ := serve_eq_some hs
    rw [Link.Idle.decode_pending h] at hreq
    cases hreq

/-- What a worker reads during an exchange is its request, and the answer is to it. -/
theorem Exchange.serve (h : Exchange l who f x) (ha : isAnswer answer = true)
    (hs : System.serve l answer = some l') : Exchange l' who f x := by
  obtain ⟨req, rest, hreq, rfl⟩ := serve_eq_some hs
  obtain ⟨kind, hlt, qs, hphase⟩ := h
  have hq := requestDecoder_encodes hlt
  refine ⟨kind, hlt, qs, ?_⟩
  cases x with
  | writing rest' since =>
    rw [hphase.2.decode_pending hq hphase.1] at hreq
    cases hreq
  | reading buf since =>
    obtain ⟨rfl, hserve⟩ := Link.Awaiting.serve hphase hq hreq
    have hkind : ¬ req.kind ≠ Daemon.kKindRequest := not_not.mpr kind
    rw [if_neg hkind]
    exact hserve answer (isAnswer_single ha)

theorem Exchange.emit (h : Exchange l who f x) (n : Nat) : Exchange (l.emit n) who f x := by
  obtain ⟨kind, hlt, qs, hphase⟩ := h
  refine ⟨kind, hlt, qs, ?_⟩
  cases x with
  | writing rest since => exact ⟨hphase.1, hphase.2.emit n⟩
  | reading buf since => exact Link.Awaiting.emit hphase n

end Server

/-- A round of a transfer goes on with the exchange, fails, or ends with the answer to the request
read in full. -/
theorem Exchange.step {l l' : Pipes} {who : Asker} {f : Frame} {x : Transfer} {a : IoAct}
    {result : IoResult} {deadline now : Instant} (hl : l.Flows) (h : Exchange l who f x)
    (hs : x.step deadline now l a = some (l', result)) :
    l'.Flows ∧ l.Le l' ∧ RoundDone l' who f result := by
  obtain ⟨kind, hlt, qs, hphase⟩ := h
  cases a with
  | write n =>
    cases x with
    | reading buf since => cases hs
    | writing rest since =>
      simp only [Transfer.step] at hs
      split_ifs at hs with hc hdone
      · -- the frame is written
        obtain ⟨rfl, rfl⟩ := Prod.mk.inj (Option.some.inj hs)
        have hsend := hphase.2
        rw [← List.take_append_drop n rest, hdone] at hsend
        exact ⟨⟨hl.received_le, hl.emitted_le⟩, .refl l, kind, hlt, qs, hsend.send.sent⟩
      · obtain ⟨rfl, rfl⟩ := Prod.mk.inj (Option.some.inj hs)
        have hsend := hphase.2
        rw [← List.take_append_drop n rest] at hsend
        exact ⟨⟨hl.received_le, hl.emitted_le⟩, .refl l, kind, hlt, qs, hdone, hsend.send⟩
  | read n =>
    cases x with
    | writing rest since => cases hs
    | reading buf since =>
      simp only [Transfer.step] at hs
      split_ifs at hs with hc
      have hrecv := Link.Awaiting.receive hphase hl hc.2.2.2
      have hflows := hl.receive hc.2.2.2
      split at hs
      · obtain ⟨rfl, rfl⟩ := Prod.mk.inj (Option.some.inj hs)
        obtain ⟨hidle, b, hasked, hanswers, hb⟩ :=
          hrecv.finish (responseDecoder_eq_some.mpr ‹_›)
        exact ⟨hflows, .refl l, hidle, _, b, hasked, hanswers, responseDecoder_eq_some.mp hb⟩
      · obtain ⟨rfl, rfl⟩ := Prod.mk.inj (Option.some.inj hs)
        exact ⟨hflows, .refl l, kind, hlt, qs, hrecv⟩
      · obtain ⟨rfl, rfl⟩ := Prod.mk.inj (Option.some.inj hs)
        exact ⟨hflows, .refl l, trivial⟩
      · cases hs
  | again =>
    cases x with
    | writing rest since =>
      obtain ⟨rfl, rfl⟩ := Prod.mk.inj (Option.some.inj hs)
      exact ⟨hl, .refl l, kind, hlt, qs, hphase⟩
    | reading buf since =>
      obtain ⟨rfl, rfl⟩ := Prod.mk.inj (Option.some.inj hs)
      exact ⟨hl, .refl l, kind, hlt, qs, hphase⟩
  | timeOut =>
    have hs : (if pollExpiry deadline x.since ≤ now then
        some (l, .failed .timedOut "worker ipc response timed out") else none) =
          some (l', result) := by
      cases x <;> exact hs
    split_ifs at hs
    obtain ⟨rfl, rfl⟩ := Prod.mk.inj (Option.some.inj hs)
    exact ⟨hl, .refl l, trivial⟩
  | fail errorKind message =>
    have hs : (if errorKind = .timedOut then none else some (l, .failed errorKind message)) =
        some (l', result) := by
      cases x <;> exact hs
    split_ifs at hs
    obtain ⟨rfl, rfl⟩ := Prod.mk.inj (Option.some.inj hs)
    exact ⟨hl, .refl l, trivial⟩

end Supervisor

end WrapperPaas
