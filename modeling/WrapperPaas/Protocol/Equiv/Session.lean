/-
  What a decrypt session sends.

  A session answers the frames of the client in order, each with the frame's own request id, until
  one of them is not answered; this one gets an error frame, unless it closes the session, and
  nothing is sent after it (`decrypt_session`).  A round of the loop treats a frame in one of three
  ways (`frame_cases`), and the session follows by induction on the frames.

  The frames that a session sends can be read back: the plaintexts of a call come from a payload
  that fitted a frame, and their encoding is this payload again (`eq_encodeSamples_of_parse`).
-/
import Mathlib.Data.List.Basic
import WrapperPaas.Protocol.Equiv.Bounds
import WrapperPaas.Protocol.Equiv.Fidelity
import WrapperPaas.Protocol.Session

namespace WrapperPaas

open Supervisor

/-- The bytes of a WV2D frame. -/
def decryptFrameBytes (f : DecryptFrame) : Bytes := decryptHeader f ++ f.payload

/-! ### Calls of `decrypt_batch` -/

/-- The plaintexts fit the payload of a frame. -/
structure FitsFrame (plaintexts : List Bytes) : Prop where
  count : plaintexts.length < 2 ^ 32
  sample : ∀ x ∈ plaintexts, x.length < 2 ^ 32
  encoded : (encodeSamples plaintexts).length < 2 ^ 32

/-- The call returns plaintexts that fit a frame, or it fails; it does not panic. -/
structure Sendable (result : Call (List Bytes)) : Prop where
  noPanic : result ≠ .error .panic
  fits : ∀ {p}, result = .ok p → FitsFrame p

/-- A frame that came in over the pipe; its length field has 32 bits. -/
structure ReceivedFrame extends Frame where
  payload_lt : payload.length < 2 ^ 32

/-- `decrypt_batch` when `Worker::request` returns `answer`. -/
def answeredBatch (answer : Except WorkerError ReceivedFrame)
    (parseWorkerResponse : Frame → Except WorkerError WorkerResponse) (adam uri : String)
    (samples : List Bytes) : WorkerCall (List Bytes) :=
  decryptBatch (fun _ _ => (answer.map ReceivedFrame.toFrame).mapError .worker)
    (fun f => (parseWorkerResponse f).mapError .worker) adam uri samples

theorem mapErr_ne_panic {α : Type} {g : String → WorkerError} {x : Outcome α}
    (hx : Graceful x) : mapErr g x ≠ .error .panic := by
  cases x with
  | ok a => exact fun h => (nomatch h)
  | error e =>
    obtain ⟨kind, message, rfl, -⟩ := hx e rfl
    unfold mapErr
    simp

theorem mapErr_eq_ok {α : Type} {g : String → WorkerError} {x : Outcome α} {a : α}
    (h : mapErr g x = .ok a) : x = .ok a := by
  unfold mapErr at h
  split at h
  · exact congrArg _ (Except.ok.inj h)
  · cases h
  · cases h

theorem Sendable.failed (e : WorkerError) : Sendable (.error (.worker e)) where
  noPanic := by simp
  fits h := by cases h

/-- What a call returns fits a frame, as it came in one. -/
theorem sendable_answeredBatch (answer : Except WorkerError ReceivedFrame)
    (parseWorkerResponse : Frame → Except WorkerError WorkerResponse) (adam uri : String)
    (samples : List Bytes) :
    Sendable (answeredBatch answer parseWorkerResponse adam uri samples).result := by
  have hbatch : mapErr .protocol (decryptBatchPayload adam uri samples) ≠ .error .panic :=
    mapErr_ne_panic (Graceful.decryptBatchPayload adam uri samples)
  unfold answeredBatch decryptBatch
  cases hpayload : mapErr WorkerError.protocol (decryptBatchPayload adam uri samples) with
  | error e =>
    dsimp only
    refine ⟨fun h => hbatch ?_, fun h => (nomatch h)⟩
    rw [hpayload, Except.error.inj h]
  | ok payload =>
    cases answer with
    | error e => exact Sendable.failed e
    | ok frame =>
      dsimp only [Except.map, Except.mapError]
      split_ifs
      · have hlt := frame.payload_lt
        have husize : usizeSize = 2 ^ 64 := rfl
        refine ⟨mapErr_ne_panic (Graceful.parseDecryptSamplesPayload _), fun {p} h => ?_⟩
        obtain ⟨⟨hcount, hsample⟩, heq⟩ := eq_encodeSamples_of_parse (by omega) (mapErr_eq_ok h)
        exact ⟨hcount, hsample, heq ▸ hlt⟩
      · cases parseWorkerResponse frame.toFrame with
        | error e => exact Sendable.failed e
        | ok r => exact Sendable.failed _

/-! ### Rounds -/

section Rounds

variable (decrypt : String → String → List Bytes → WorkerCall (List Bytes)) (f : DecryptFrame)

/-- The frame is a batch that parses and is decrypted. -/
def Answered (plaintexts : List Bytes) : Prop :=
  f.kind = decryptKindBatch ∧ ∃ adam uri samples,
    parseDecryptBatchPayload f.payload = .ok (adam, uri, samples) ∧
      (decrypt adam uri samples).result = .ok plaintexts

/-- The frame fails, with this message. -/
inductive Refused : String → Prop where
  | kind : f.kind ≠ decryptKindBatch → f.kind ≠ decryptKindClose →
      Refused "unsupported decrypt frame kind"
  | payload {kind message} : f.kind = decryptKindBatch →
      parseDecryptBatchPayload f.payload = .error (.err kind message) → Refused message
  | decrypt {adam uri samples e} : f.kind = decryptKindBatch →
      parseDecryptBatchPayload f.payload = .ok (adam, uri, samples) →
      (decrypt adam uri samples).result = .error (.worker e) → Refused e.toText

/-- What a session sends when it does not answer the next frame: nothing at the end of the stream
or for a frame that closes the session, else one error frame.  The text of a failed call that does
not fit a frame is not sent. -/
inductive Closes : List DecryptFrame → Option DecryptFrame → Prop where
  | done : Closes [] none
  | close {f rest} : f.kind = decryptKindClose → Closes (f :: rest) none
  | error {f rest message} : Refused decrypt f message →
      Closes (f :: rest) (some (decryptError f.requestId message))
  | unsent {f rest adam uri samples e} : f.kind = decryptKindBatch →
      parseDecryptBatchPayload f.payload = .ok (adam, uri, samples) →
      (decrypt adam uri samples).result = .error (.worker e) → 2 ^ 32 ≤ (utf8 e.toText).length →
      Closes (f :: rest) none

variable {decrypt f}

/-- What a session does with a frame. -/
theorem frame_cases (hdecrypt : ∀ a u s, Sendable (decrypt a u s).result) :
    f.kind = decryptKindClose ∨ (∃ p, Answered decrypt f p) ∨ ∃ m, Refused decrypt f m := by
  by_cases hclose : f.kind = decryptKindClose
  · exact .inl hclose
  by_cases hkind : f.kind = decryptKindBatch
  · refine .inr ?_
    have hgraceful := Graceful.parseDecryptBatchPayload f.payload
    cases hparse : parseDecryptBatchPayload f.payload with
    | error e =>
      obtain ⟨kind, message, rfl, -⟩ := hgraceful e hparse
      exact .inr ⟨message, .payload hkind hparse⟩
    | ok batch =>
      obtain ⟨adam, uri, samples⟩ := batch
      cases hresult : (decrypt adam uri samples).result with
      | ok p => exact .inl ⟨p, hkind, adam, uri, samples, hparse, hresult⟩
      | error e =>
        cases e with
        | worker e => exact .inr ⟨e.toText, .decrypt hkind hparse hresult⟩
        | panic => exact absurd hresult (hdecrypt adam uri samples).noPanic
  · exact .inr (.inr ⟨_, .kind hkind hclose⟩)

theorem Refused.not_answered {m : String} (h : Refused decrypt f m) (p : List Bytes) :
    ¬ Answered decrypt f p := by
  rintro ⟨hkind, adam, uri, samples, hparse, hresult⟩
  cases h with
  | kind hne => exact hne hkind
  | payload _ hfail =>
    rw [hparse] at hfail
    cases hfail
  | decrypt _ hparse' hfail =>
    obtain ⟨rfl, h⟩ := Prod.mk.inj (Except.ok.inj (hparse.symm.trans hparse'))
    obtain ⟨rfl, rfl⟩ := Prod.mk.inj h
    rw [hresult] at hfail
    cases hfail

theorem Closes.not_answered {rest : List DecryptFrame} {closing : Option DecryptFrame}
    (h : Closes decrypt rest closing) : ∀ f ∈ rest.head?, ∀ p, ¬ Answered decrypt f p := by
  intro f hf p
  cases h with
  | done => cases hf
  | close hclose =>
    obtain rfl := Option.some.inj hf
    rintro ⟨hkind, -⟩
    rw [hclose] at hkind
    exact absurd hkind (by decide)
  | error href =>
    obtain rfl := Option.some.inj hf
    exact href.not_answered p
  | unsent hkind hparse hresult =>
    obtain rfl := Option.some.inj hf
    exact (Refused.decrypt hkind hparse hresult).not_answered p

variable {rest : Bytes}

theorem round_close (hlen : f.payload.length < 2 ^ 32) (hkind : f.kind = decryptKindClose) :
    decryptClientRound decrypt (decryptFrameBytes f ++ rest) = .ended [] (.ok ()) := by
  rw [decryptClientRound, decryptFrameBytes, readDecryptFrame_append hlen]
  exact if_pos hkind

/-- An answered frame gets its plaintexts, and the session goes on behind it. -/
theorem round_answered {p : List Bytes} (hdecrypt : ∀ a u s, Sendable (decrypt a u s).result)
    (hlen : f.payload.length < 2 ^ 32) (h : Answered decrypt f p) :
    decryptClientRound decrypt (decryptFrameBytes f ++ rest) =
      .next (decryptFrameBytes (okFrame f.requestId (encodeSamples p))) rest := by
  obtain ⟨hkind, adam, uri, samples, hparse, hresult⟩ := h
  have hfits := (hdecrypt adam uri samples).fits hresult
  have husize : usizeSize = 2 ^ 64 := rfl
  have hlt := hfits.encoded
  exact decryptClientRound_eq hkind hlen hparse hresult
    (buildSamplesPayload_eq hfits.count hfits.sample (by omega)) hlt

theorem writeDecryptFrame_decryptError {id : UInt32} {m : String}
    (hm : (utf8 m).length < 2 ^ 32) :
    writeDecryptFrame (decryptError id m) = .ok (decryptFrameBytes (decryptError id m)) :=
  writeDecryptFrame_eq hm

/-- A frame that fails ends the session, after an error frame if one can be sent. -/
theorem round_refused {m : String} (hlen : f.payload.length < 2 ^ 32) (h : Refused decrypt f m)
    (more : List DecryptFrame) : ∃ closing result, Closes decrypt (f :: more) closing ∧
      (∀ e ∈ closing, e.payload.length < 2 ^ 32) ∧
      decryptClientRound decrypt (decryptFrameBytes f ++ rest) =
        .ended (closing.toList.flatMap decryptFrameBytes) result := by
  have hround : readDecryptFrame readExact (decryptHeader f ++ f.payload ++ rest) = .ok (f, rest) :=
    readDecryptFrame_append hlen
  -- an error frame with a message that fits
  have herror : (utf8 m).length < 2 ^ 32 →
      (∀ e ∈ some (decryptError f.requestId m), e.payload.length < 2 ^ 32) ∧
        (some (decryptError f.requestId m)).toList.flatMap decryptFrameBytes =
          decryptFrameBytes (decryptError f.requestId m) := by
    intro hm
    constructor
    · intro e he
      obtain rfl := Option.some.inj he
      exact hm
    · rw [Option.toList_some, List.flatMap_singleton]
  rw [decryptClientRound, decryptFrameBytes, hround]
  dsimp only
  cases h with
  | kind hkind hclose =>
    have hm : (utf8 "unsupported decrypt frame kind").length < 2 ^ 32 := by decide
    refine ⟨some _, .ok (), .error (.kind hkind hclose), (herror hm).1, ?_⟩
    rw [if_neg hclose, if_pos hkind, sendFrame, writeDecryptFrame_decryptError hm, (herror hm).2]
  | payload hkind hfail =>
    obtain ⟨kind, message, heq, hm⟩ := Graceful.parseDecryptBatchPayload f.payload _ hfail
    obtain ⟨rfl, rfl⟩ := Failure.err.inj heq
    refine ⟨some _, .ok (), .error (.payload hkind hfail), (herror hm).1, ?_⟩
    rw [if_neg (by rw [hkind]; decide), if_neg (not_not.mpr hkind), hfail]
    dsimp only
    rw [sendFrame, writeDecryptFrame_decryptError hm, (herror hm).2]
  | @decrypt adam uri samples e hkind hparse hfail =>
    rw [if_neg (by rw [hkind]; decide), if_neg (not_not.mpr hkind), hparse]
    dsimp only
    rw [hfail]
    dsimp only
    by_cases hm : (utf8 e.toText).length < 2 ^ 32
    · refine ⟨some _, .error (.err .other e.toText), .error (.decrypt hkind hparse hfail),
        (herror hm).1, ?_⟩
      rw [writeDecryptFrame_decryptError hm, (herror hm).2]
      rfl
    · refine ⟨none, .error (.err .other e.toText), .unsent hkind hparse hfail (by omega),
        fun e he => (by cases he), ?_⟩
      rw [writeDecryptFrame, if_pos (by unfold u32Max; change (utf8 _).length > _; omega)]
      rfl

end Rounds

/-! ### Sessions -/

section Sessions

variable {decrypt : Nat → String → String → List Bytes → WorkerCall (List Bytes)} {call : Nat}
  {input sent rest : Bytes}

theorem handleDecryptClient_ended {result : Outcome Unit}
    (h : decryptClientRound (decrypt call) input = .ended sent result) :
    handleDecryptClient decrypt call input = (sent, result) := by
  rw [handleDecryptClient]
  split
  · next heq =>
    obtain ⟨rfl, rfl⟩ := ClientRound.ended.inj (h.symm.trans heq)
    rfl
  · next heq => exact ClientRound.noConfusion (h.symm.trans heq)

theorem handleDecryptClient_next
    (h : decryptClientRound (decrypt call) input = .next sent rest) :
    (handleDecryptClient decrypt call input).1 =
      sent ++ (handleDecryptClient decrypt (call + 1) rest).1 := by
  rw [handleDecryptClient]
  split
  · next heq => exact ClientRound.noConfusion (h.symm.trans heq)
  · next heq =>
    obtain ⟨rfl, rfl⟩ := ClientRound.next.inj (h.symm.trans heq)
    rfl

/-- The session ends at a stream without a complete frame. -/
theorem handleDecryptClient_tail
    (h : ∀ f rest, readDecryptFrame readExact input ≠ .ok (f, rest)) :
    (handleDecryptClient decrypt call input).1 = [] := by
  obtain ⟨result, hround⟩ : ∃ result, decryptClientRound (decrypt call) input =
      .ended [] result := by
    unfold decryptClientRound
    split
    · exact ⟨_, rfl⟩
    · exact ⟨_, rfl⟩
    · next f rest heq => exact absurd heq (h f rest)
  rw [handleDecryptClient_ended hround]

/-- What the session sends for these frames, if its next call of `decrypt_batch` is the one with
number `call`.  The frames `served` are the longest prefix that is answered, each by a call of its
own. -/
structure SessionSends
    (decrypt : Nat → String → String → List Bytes → WorkerCall (List Bytes)) (call : Nat)
    (frames sent : List DecryptFrame) (served : List (DecryptFrame × List Bytes))
    (rest : List DecryptFrame) (closing : Option DecryptFrame) : Prop where
  split : frames = served.map Prod.fst ++ rest
  answered : ∀ i f p, served[i]? = some (f, p) → Answered (decrypt (call + i)) f p
  longest : ∀ f ∈ rest.head?, ∀ p, ¬ Answered (decrypt (call + served.length)) f p
  closes : Closes (decrypt (call + served.length)) rest closing
  sent_eq : sent = served.map (fun x => okFrame x.1.requestId (encodeSamples x.2)) ++
    closing.toList

theorem SessionSends.of_closes {rest : List DecryptFrame} {closing : Option DecryptFrame}
    (h : Closes (decrypt call) rest closing) :
    SessionSends decrypt call rest closing.toList [] rest closing where
  split := rfl
  answered i f p hi := by simp at hi
  longest := h.not_answered
  closes := h
  sent_eq := rfl

theorem SessionSends.cons {f : DecryptFrame} {p : List Bytes} {frames sent : List DecryptFrame}
    {served : List (DecryptFrame × List Bytes)} {rest : List DecryptFrame}
    {closing : Option DecryptFrame} (hf : Answered (decrypt call) f p)
    (h : SessionSends decrypt (call + 1) frames sent served rest closing) :
    SessionSends decrypt call (f :: frames) (okFrame f.requestId (encodeSamples p) :: sent)
      ((f, p) :: served) rest closing where
  split := by rw [h.split, List.map_cons, List.cons_append]
  answered i f' p' hi := by
    cases i with
    | zero =>
      obtain ⟨rfl, rfl⟩ := Prod.mk.inj (Option.some.inj hi)
      exact hf
    | succ i =>
      have := h.answered i f' p' hi
      rwa [Nat.add_right_comm] at this
  longest := by
    have := h.longest
    rwa [Nat.add_right_comm] at this
  closes := by
    have := h.closes
    rwa [Nat.add_right_comm] at this
  sent_eq := by rw [h.sent_eq, List.map_cons, List.cons_append]

/-- The run lemma of the session loop: induction on the client's frames. -/
theorem session_sends (hdecrypt : ∀ n a u s, Sendable (decrypt n a u s).result)
    {frames : List DecryptFrame} (hframes : ∀ f ∈ frames, f.payload.length < 2 ^ 32)
    {tail : Bytes} (htail : ∀ f rest, readDecryptFrame readExact tail ≠ .ok (f, rest))
    (call : Nat) :
    ∃ sent served rest closing, SessionSends decrypt call frames sent served rest closing ∧
      (∀ f ∈ sent, f.payload.length < 2 ^ 32) ∧
      (handleDecryptClient decrypt call (frames.flatMap decryptFrameBytes ++ tail)).1 =
        sent.flatMap decryptFrameBytes := by
  induction frames generalizing call with
  | nil =>
    refine ⟨[], [], [], none, .of_closes .done, fun f hf => (nomatch hf), ?_⟩
    exact handleDecryptClient_tail htail
  | cons f frames ih =>
    have hlen := hframes f List.mem_cons_self
    rw [List.flatMap_cons, List.append_assoc]
    obtain hclose | ⟨p, hf⟩ | ⟨m, href⟩ := frame_cases (f := f) (hdecrypt call)
    · refine ⟨[], [], f :: frames, none, .of_closes (.close hclose), fun f hf => (nomatch hf), ?_⟩
      rw [handleDecryptClient_ended (round_close hlen hclose)]
      rfl
    · obtain ⟨sent, served, rest, closing, hsends, hfits, heq⟩ :=
        ih (fun g hg => hframes g (List.mem_cons_of_mem _ hg)) (call + 1)
      refine ⟨_, _, rest, closing, hsends.cons hf, ?_, ?_⟩
      · intro g hg
        rcases List.mem_cons.mp hg with rfl | hg
        · obtain ⟨-, adam, uri, samples, -, hresult⟩ := hf
          exact ((hdecrypt call adam uri samples).fits hresult).encoded
        · exact hfits g hg
      · rw [handleDecryptClient_next (round_answered (hdecrypt call) hlen hf), heq,
          List.flatMap_cons]
    · obtain ⟨closing, result, hcloses, hfits, hround⟩ := round_refused hlen href frames
      refine ⟨closing.toList, [], f :: frames, closing, .of_closes hcloses, ?_, ?_⟩
      · intro e he
        exact hfits e (Option.mem_toList.mp he)
      · rw [handleDecryptClient_ended hround]

end Sessions

/-- Every stream is a sequence of frames and a rest without a complete frame. -/
theorem exists_frames (input : Bytes) : ∃ (frames : List DecryptFrame) (tail : Bytes),
    (∀ f ∈ frames, f.payload.length < 2 ^ 32) ∧
      (∀ f rest, readDecryptFrame readExact tail ≠ .ok (f, rest)) ∧
      input = frames.flatMap decryptFrameBytes ++ tail := by
  induction hn : input.length using Nat.strong_induction_on generalizing input with
  | _ n ih =>
    by_cases hread : ∃ f rest, readDecryptFrame readExact input = .ok (f, rest)
    · obtain ⟨f, rest, hread⟩ := hread
      have hlt := length_lt_of_readDecryptFrame hread
      obtain ⟨frames, tail, hframes, htail, heq⟩ := ih rest.length (hn ▸ hlt) rest rfl
      refine ⟨f :: frames, tail, ?_, htail, ?_⟩
      · intro g hg
        rcases List.mem_cons.mp hg with rfl | hg
        · exact (readDecryptFrame_eq_ok.mp hread).2
        · exact hframes g hg
      · rw [List.flatMap_cons, List.append_assoc, ← heq]
        exact (readDecryptFrame_eq_ok.mp hread).1
    · refine ⟨[], input, fun f hf => (nomatch hf), fun f rest h => hread ⟨f, rest, h⟩, rfl⟩

/-- **What a decrypt session sends.**  For every sequence of frames, however the stream ends, and
every sequence of worker answers: one OK frame for each frame of the longest prefix that is
decrypted, in order and with its request id, then at most one error frame for the first frame that
fails, and nothing after it.  The client reads exactly these frames back. -/
theorem decrypt_session (answers : Nat → Except WorkerError ReceivedFrame)
    (parseWorkerResponse : Frame → Except WorkerError WorkerResponse)
    {frames : List DecryptFrame} (hframes : ∀ f ∈ frames, f.payload.length < 2 ^ 32)
    {tail : Bytes} (htail : ∀ f rest, readDecryptFrame readExact tail ≠ .ok (f, rest)) :
    let decrypt := fun n => answeredBatch (answers n) parseWorkerResponse
    let output := (handleDecryptClient decrypt 0 (frames.flatMap decryptFrameBytes ++ tail)).1
    ∃ sent served rest closing, SessionSends decrypt 0 frames sent served rest closing ∧
      output = sent.flatMap decryptFrameBytes ∧
      readMany (readDecryptFrame readExact) sent.length output = .ok (sent, []) := by
  intro decrypt output
  obtain ⟨sent, served, rest, closing, hsends, hfits, heq⟩ :=
    session_sends (fun n => sendable_answeredBatch (answers n) parseWorkerResponse) hframes htail 0
  refine ⟨sent, served, rest, closing, hsends, heq, ?_⟩
  change output = _ at heq
  rw [heq, ← List.append_nil (sent.flatMap _)]
  exact readMany_flatMap (fun f hf rest => readDecryptFrame_append (hfits f hf)) []

/-- A worker that answers every batch with one sample of one byte. -/
def oneSampleAnswer : ReceivedFrame where
  kind := kindResponse
  requestId := 1
  opcode := opDecryptBatch
  flags := 1
  payload := encodeSamples [[0]]
  payload_lt := by decide

/-- A batch, a frame of an unknown kind, another batch and half a header. -/
theorem decrypt_session_unknownKind :
    let decrypt := fun _ : Nat => answeredBatch (.ok oneSampleAnswer) fun _ => .error (.io "")
    let frames : List DecryptFrame :=
      [batchFrame 7 "1" "u" [[1]], ⟨4, 8, []⟩, batchFrame 9 "1" "u" [[1]]]
    let output := (handleDecryptClient decrypt 0
      (frames.flatMap decryptFrameBytes ++ be32 decryptMagic)).1
    ∃ sent served rest closing, SessionSends decrypt 0 frames sent served rest closing ∧
      output = sent.flatMap decryptFrameBytes ∧
      readMany (readDecryptFrame readExact) sent.length output = .ok (sent, []) :=
  decrypt_session (fun _ => .ok oneSampleAnswer) (fun _ => .error (.io "")) (by decide)
    (fun f rest h => (nomatch h))

end WrapperPaas
