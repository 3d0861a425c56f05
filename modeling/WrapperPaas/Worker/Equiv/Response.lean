/-
  How a response arrives.

  A transfer whose worker answers with a known frame reads a prefix of that frame until it has all
  of it (`Exchange.unread_or_answered`).  A round in time leads on or ends with the response
  (`Arriving.round`), and there is always a next one: the request can be written, the worker can
  read it, and what it answers can be read to the end (`Transfer.step_write_all`,
  `System.serve_of_pending`, `Arriving.step_read_one`).
-/
import Mathlib.Data.List.Basic
import Mathlib.Data.List.Infix
import WrapperPaas.Protocol.Equiv.Frames
import WrapperPaas.Worker.Equiv.Transfer

namespace WrapperPaas

namespace Supervisor

/-! ### Part of a frame -/

section Frame

variable {f : Frame} {buf tail : Bytes}

theorem readFrame_frameBytes (hlt : f.payload.length < 2 ^ 32) :
    readFrame readExact (frameBytes f) = .ok (f, []) := by
  have h : readFrame readExact (frameHeader f ++ f.payload ++ []) = .ok (f, []) :=
    readFrame_append hlt
  rwa [List.append_nil] at h

theorem isAnswer_frameBytes (hlt : f.payload.length < 2 ^ 32) : isAnswer (frameBytes f) = true := by
  rw [isAnswer, readFrame_frameBytes hlt]

/-- What has come of a frame begins with its header, once there is enough of it. -/
theorem eq_frameHeader_append (h : buf ++ tail = frameBytes f) (hle : headerLen ≤ buf.length) :
    ∃ part, buf = frameHeader f ++ part ∧ part ++ tail = f.payload := by
  have hprefix : frameHeader f <+: buf := by
    apply List.prefix_of_prefix_length_le (List.prefix_append _ f.payload)
    · rw [show frameHeader f ++ f.payload = buf ++ tail from h.symm]
      exact List.prefix_append ..
    · exact hle
  obtain ⟨part, rfl⟩ := hprefix
  refine ⟨part, rfl, ?_⟩
  rw [List.append_assoc] at h
  exact List.append_cancel_left h

/-- A frame is not read before its last byte has come. -/
theorem readFrame_of_part (hlt : f.payload.length < 2 ^ 32) (h : buf ++ tail = frameBytes f)
    (htail : tail ≠ []) :
    readFrame readExact buf = .error (.err .unexpectedEof "failed to fill whole buffer") := by
  have hpos : 0 < tail.length := List.length_pos_of_ne_nil htail
  by_cases hle : headerLen ≤ buf.length
  · obtain ⟨part, rfl, hpart⟩ := eq_frameHeader_append h hle
    apply readFrame_of_payload_error hlt (readExact_append (length_frameHeader f))
    rw [readExact, if_neg]
    rw [← hpart, List.length_append]
    omega
  · rw [readFrame, readExact, if_neg hle]
    rfl

/-- As long as bytes of a frame are missing, `read_exact_timeout` asks for more. -/
theorem wanted_pos_of_part (hlt : f.payload.length < 2 ^ 32) (h : buf ++ tail = frameBytes f)
    (htail : tail ≠ []) : 0 < wanted buf := by
  have hpos : 0 < tail.length := List.length_pos_of_ne_nil htail
  unfold wanted
  split_ifs with hlen
  · omega
  · obtain ⟨part, rfl, hpart⟩ := eq_frameHeader_append h (Nat.not_lt.mp hlen)
    have hread : readU32 () (frameHeader f ++ part) 16 = .ok (f.payload.length % 2 ^ 32) := by
      rw [← u32OfBE_be32]
      rfl
    rw [hread]
    dsimp only
    rw [Nat.mod_eq_of_lt hlt, ← hpart, List.length_append, List.length_append, length_frameHeader]
    omega

end Frame

/-! ### Answers -/

/-- The worker has answered the request of call `t` with `resp`, if it has answered it. -/
def RepliesWith (l : Pipes) (t : CallId) (resp : Frame) : Prop :=
  ∀ x ∈ l.asked.zip l.answers, x.1.1 = .request t → x.2.2 = frameBytes resp

instance (l : Pipes) (t : CallId) (resp : Frame) : Decidable (RepliesWith l t resp) :=
  inferInstanceAs (Decidable (∀ x ∈ l.asked.zip l.answers, _))

namespace RepliesWith

variable {l : Pipes} {t : CallId} {resp : Frame}

/-- Nothing is answered before it is read. -/
theorem ask (h : RepliesWith l t resp) (hlen : l.answers.length ≤ l.asked.length)
    (x : Asker × Frame) : RepliesWith (l.ask x) t resp := by
  intro y hy htag
  obtain ⟨i, hi⟩ := List.mem_iff_getElem?.mp hy
  obtain ⟨hasked, hanswer⟩ := List.getElem?_zip_eq_some.mp hi
  have hlt : i < l.answers.length := (List.getElem?_eq_some_iff.mp hanswer).1
  rw [Link.ask, List.getElem?_append_left (Nat.lt_of_lt_of_le hlt hlen)] at hasked
  exact h y (List.mem_of_getElem? (List.getElem?_zip_eq_some.mpr ⟨hasked, hanswer⟩)) htag

theorem serve (h : RepliesWith l t resp) (rest : Bytes) (f : Frame) :
    RepliesWith (l.serve rest [(f, frameBytes resp)]) t resp := by
  intro y hy htag
  obtain ⟨i, hi⟩ := List.mem_iff_getElem?.mp hy
  obtain ⟨hasked, hanswer⟩ := List.getElem?_zip_eq_some.mp hi
  rw [Link.serve, List.getElem?_append] at hanswer
  split_ifs at hanswer
  · exact h y (List.mem_of_getElem? (List.getElem?_zip_eq_some.mpr ⟨hasked, hanswer⟩)) htag
  · rw [List.mem_singleton.mp (List.mem_of_getElem? hanswer)]

/-- What the worker answered the call with is the response. -/
theorem eq_of_getElem? (h : RepliesWith l t resp) {i : Nat} {f : Frame} {x : Frame × Bytes}
    (hasked : l.asked[i]? = some (.request t, f)) (hanswer : l.answers[i]? = some x) :
    x.2 = frameBytes resp :=
  h (_, x) (List.mem_of_getElem? (List.getElem?_zip_eq_some.mpr ⟨hasked, hanswer⟩)) rfl

end RepliesWith

section Exchange

variable {l l' : Pipes} {t : CallId} {f resp : Frame} {x : Transfer} {buf : Bytes}
  {since deadline now : Instant}

/-- What is read next belongs to the same exchange. -/
theorem Exchange.receive {who : Asker} (h : Exchange l who f (.reading buf since)) (hl : l.Flows)
    {n : Nat} (hn : n ≤ l.available.length) (now : Instant) :
    Exchange (l.receive n) who f (.reading (buf ++ l.available.take n) now) := by
  obtain ⟨kind, hlt, qs, hphase⟩ := h
  exact ⟨kind, hlt, qs, Link.Awaiting.receive hphase hl hn⟩

/-- The worker has the request before it, or what has been read is part of the response and the rest
is on its way. -/
theorem Exchange.unread_or_answered (h : Exchange l (.request t) f (.reading buf since))
    (hr : RepliesWith l t resp) :
    (buf = [] ∧ l.pending = frameBytes f ∧ l.answers.length + 1 = l.asked.length) ∨
      l.answers.length = l.asked.length ∧ ∃ tail, buf ++ tail = frameBytes resp ∧
        l.answerBytes.length = l.received + tail.length := by
  obtain ⟨kind, hlt, qs, hphase⟩ := h
  cases hphase with
  | unread asked written taken answered received hbuf =>
    have hlen : l.answers.length = qs.length := by
      simpa using congrArg List.length answered
    refine .inl ⟨hbuf, ?_, ?_⟩
    · rw [Link.pending, written, taken, List.drop_left]
    · rw [hlen, asked, List.length_append]
      rfl
  | answered asked written taken done b tail answers done_fst single received hbuf =>
    have hlen : done.length = qs.length := by
      simpa using congrArg List.length done_fst
    have hasked : l.asked[qs.length]? = some (.request t, f) := by
      rw [asked, List.getElem?_concat_length]
    have hanswer : l.answers[qs.length]? = some (f, b) := by
      rw [answers, ← hlen, List.getElem?_concat_length]
    refine .inr ⟨?_, tail, ?_, ?_⟩
    · rw [asked, answers, List.length_append, List.length_append, hlen]
      rfl
    · rw [hbuf]
      exact hr.eq_of_getElem? hasked hanswer
    · have hbytes : l.answerBytes = (done.map Prod.snd).flatten ++ b := by
        simp [Link.answerBytes, answers]
      rw [hbytes, received, ← hbuf, List.length_append, List.length_append, Nat.add_assoc]

/-- No frame is complete in what has been read. -/
def Transfer.Incomplete : Transfer → Prop
  | .writing _ _ => True
  | .reading buf _ => ∀ y, readFrame readExact buf ≠ .ok y

/-- The transfer of the request of call `t` to a worker that answers with `resp`. -/
structure Arriving (l : Pipes) (t : CallId) (f resp : Frame) (x : Transfer) : Prop where
  exchange : Exchange l (.request t) f x
  flows : l.Flows
  replies : RepliesWith l t resp
  response_lt : resp.payload.length < 2 ^ 32
  incomplete : x.Incomplete

namespace Arriving

theorem unread_or_missing (h : Arriving l t f resp (.reading buf since)) :
    (buf = [] ∧ l.pending = frameBytes f ∧ l.answers.length + 1 = l.asked.length) ∨
      l.answers.length = l.asked.length ∧ ∃ tail, tail ≠ [] ∧ buf ++ tail = frameBytes resp ∧
        l.answerBytes.length = l.received + tail.length := by
  apply (h.exchange.unread_or_answered h.replies).imp_right
  rintro ⟨hlen, tail, htail, hreceived⟩
  refine ⟨hlen, tail, fun hnil => ?_, htail, hreceived⟩
  rw [hnil, List.append_nil] at htail
  have hread := readFrame_frameBytes h.response_lt
  rw [← htail] at hread
  exact h.incomplete _ hread

/-- What is read next completes the response or is still part of it. -/
theorem readFrame_receive (h : Arriving l t f resp (.reading buf since)) {n : Nat} (hpos : 0 < n)
    (hn : n ≤ l.available.length) :
    readFrame readExact (buf ++ l.available.take n) = .ok (resp, []) ∨
      readFrame readExact (buf ++ l.available.take n) =
        .error (.err .unexpectedEof "failed to fill whole buffer") := by
  have hreceive := h.exchange.receive h.flows hn since
  obtain ⟨hnil, -⟩ | ⟨-, tail, htail, -⟩ := hreceive.unread_or_answered h.replies
  · -- something has been read
    have hlen := congrArg List.length hnil
    rw [List.length_append, List.length_take_of_le hn, List.length_nil] at hlen
    omega
  · by_cases hend : tail = []
    · rw [hend, List.append_nil] at htail
      rw [htail]
      exact .inl (readFrame_frameBytes h.response_lt)
    · exact .inr (readFrame_of_part h.response_lt htail hend)

/-- **A round in time** leads on, or ends with the response. -/
theorem round {a : IoAct} {result : IoResult} (h : Arriving l t f resp x)
    (hs : x.step deadline now l a = some (l', result))
    (hfail : ∀ kind message, a ≠ .fail kind message) (htime : now < pollExpiry deadline x.since) :
    result = .frame resp ∨ ∃ x', result = .more x' ∧ x'.since = now ∧ x'.Incomplete := by
  cases a with
  | write n =>
    cases x with
    | reading buf since => cases hs
    | writing rest since =>
      simp only [Transfer.step] at hs
      split_ifs at hs
      · obtain ⟨-, rfl⟩ := Prod.mk.inj (Option.some.inj hs)
        exact .inr ⟨_, rfl, rfl, fun y hy => by cases hy⟩
      · obtain ⟨-, rfl⟩ := Prod.mk.inj (Option.some.inj hs)
        exact .inr ⟨_, rfl, rfl, trivial⟩
  | read n =>
    cases x with
    | writing rest since => cases hs
    | reading buf since =>
      simp only [Transfer.step] at hs
      split_ifs at hs with hc
      obtain ⟨-, hpos, -, hn⟩ := hc
      obtain hread | hread := h.readFrame_receive hpos hn
      · rw [hread] at hs
        obtain ⟨-, rfl⟩ := Prod.mk.inj (Option.some.inj hs)
        exact .inl rfl
      · rw [hread] at hs
        obtain ⟨-, rfl⟩ := Prod.mk.inj (Option.some.inj hs)
        refine .inr ⟨_, rfl, rfl, fun y hy => ?_⟩
        rw [hread] at hy
        cases hy
  | again =>
    have hinc := h.incomplete
    cases x with
    | writing rest since =>
      obtain ⟨-, rfl⟩ := Prod.mk.inj (Option.some.inj hs)
      exact .inr ⟨_, rfl, rfl, hinc⟩
    | reading buf since =>
      obtain ⟨-, rfl⟩ := Prod.mk.inj (Option.some.inj hs)
      exact .inr ⟨_, rfl, rfl, hinc⟩
  | timeOut =>
    have hexpired : pollExpiry deadline x.since ≤ now := by
      cases x with
      | writing rest since | reading buf since =>
        simp only [Transfer.step] at hs
        split_ifs at hs with hle
        exact hle
    exact absurd hexpired (Nat.not_le.mpr htime)
  | fail kind message => exact absurd rfl (hfail kind message)

end Arriving

/-! ### The next round -/

theorem Transfer.step_write_all {rest : Bytes} (hsince : since < deadline) (hrest : rest ≠ []) :
    (Transfer.writing rest since).step deadline now l (.write rest.length) =
      some (l.send rest, .more (.reading [] now)) := by
  simp only [Transfer.step]
  rw [if_pos ⟨hsince, List.length_pos_of_ne_nil hrest, Nat.le_refl _⟩, List.take_length,
    List.drop_length, if_pos rfl]

/-- The worker reads a request that it has before it. -/
theorem System.serve_of_pending {answer : Bytes} (h : l.pending = frameBytes f)
    (kind : f.kind = kindRequest) (hle : f.payload.length ≤ Daemon.kMaxPayload) :
    System.serve l answer = some (l.serve [] [(f, answer)]) := by
  have hmax : Daemon.kMaxPayload = 2 ^ 28 := by decide
  have hread := Daemon.readFrame_append f [] (by omega)
  rw [if_neg (Nat.not_lt.mpr hle), List.append_nil, Daemon.frameHeader_eq] at hread
  have hkind : ¬ f.kind ≠ Daemon.kKindRequest := not_not.mpr kind
  unfold System.serve
  rw [h, frameBytes, hread]
  dsimp only
  rw [if_neg hkind]

/-- What is missing of an answer that is written can be read. -/
theorem Arriving.available_pos (h : Arriving l t f resp (.reading buf since))
    (hlen : l.answers.length = l.asked.length) (hemitted : l.emitted = l.answerBytes.length) :
    1 ≤ l.available.length := by
  obtain ⟨-, -, hlt⟩ | ⟨-, tail, htail, -, hreceived⟩ := h.unread_or_missing
  · omega
  · have hpos : 0 < tail.length := List.length_pos_of_ne_nil htail
    rw [Link.length_available h.flows, hemitted]
    omega

/-- The next byte is read; it is the last one or it is not. -/
theorem Arriving.step_read_one (h : Arriving l t f resp (.reading buf since)) (now : Instant)
    (hsince : since < deadline) (hlen : l.answers.length = l.asked.length)
    (hemitted : l.emitted = l.answerBytes.length) :
    (Transfer.reading buf since).step deadline now l (.read 1) =
        some (l.receive 1, .frame resp) ∨
      (Transfer.reading buf since).step deadline now l (.read 1) =
        some (l.receive 1, .more (.reading (buf ++ l.available.take 1) now)) := by
  have havailable := h.available_pos hlen hemitted
  obtain ⟨-, -, hlt⟩ | ⟨-, tail, htail, hprefix, -⟩ := h.unread_or_missing
  · omega
  · have hwanted := wanted_pos_of_part h.response_lt hprefix htail
    simp only [Transfer.step]
    rw [if_pos ⟨hsince, Nat.one_pos, hwanted, havailable⟩]
    obtain hread | hread := h.readFrame_receive Nat.one_pos havailable
    · rw [hread]
      exact .inl rfl
    · rw [hread]
      exact .inr rfl

end Exchange

end Supervisor

end WrapperPaas
