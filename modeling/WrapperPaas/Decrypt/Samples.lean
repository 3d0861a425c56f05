/-
  Decrypting a batch (`decrypt_samples` of `src/daemon/apple/decrypt.cpp`): the checks of the
  arguments, the key context from the cache or from Apple, the samples, and what is left in the
  cache.

  Apple's library is outside the repository.  The three calls that derive a key context may return
  null or throw (`FootHill`); the one that decrypts a sample depends on the context and the sample,
  and does not throw (`Engine`).
-/
import WrapperPaas.Daemon.Ipc
import WrapperPaas.Decrypt.Batch
import WrapperPaas.Decrypt.KdCache

namespace WrapperPaas

namespace Decrypt

open Daemon (DecryptResult)

/-! ### Key contexts -/

/-- Why there is no key context. -/
inductive Refusal where
  /-- `*error` is assigned -/
  | error (message : String)
  /-- an exception; one that is no `std::exception` has no text -/
  | thrown (what : Option String)
  deriving DecidableEq, Repr

/-- What `first_error` becomes. -/
def Refusal.firstError : Refusal → String
  | .error message => message
  | .thrown (some what) => what
  | .thrown none => "native FPS decrypt threw an unknown exception"

/-- Apple's calls; a null pointer is `none`. -/
structure FootHill where
  /-- `foot_hill_get_persistent_key` with the default id and the URI; the other arguments are
  constants -/
  getPersistentKey : Bytes → Bytes → Except Refusal (Option Nat)
  decryptContext : Nat → Except Refusal (Option Nat)
  /-- the pointer that `kdContext` returns, the one that it points to, and so on -/
  kdContext : Nat → Except Refusal (Option (Option (Option Kd)))

/-- The text is assigned to `*error` if a pointer is null. -/
def nonNull {α : Type} (message : String) : Option α → Except Refusal α
  | none => .error (.error message)
  | some a => .ok a

/-- The derivation of `decrypt_once`. -/
def FootHill.derive (fh : FootHill) (adamId keyUri : Bytes) : Except Refusal Kd := do
  let persist ← nonNull "getPersistentKey failed (key or lease?)"
    (← fh.getPersistentKey (cString adamId) (cString keyUri))
  let svCtx ← nonNull "decryptContext failed" (← fh.decryptContext persist)
  let kdPp ← nonNull "kdContext is null" (← fh.kdContext svCtx)
  let kdP ← nonNull "kdContext is null" kdPp
  nonNull "kdContext inner pointer is null" kdP

/-! ### Calls -/

/-- `fp_sample_decrypt`, the thread pool and the schedule of the tasks of every batch. -/
structure Engine where
  fpSampleDecrypt : Kd → Bytes → Int × Bytes
  workers : UInt32
  schedule : Job → Tasks × BatchLog
  scheduled : ∀ j : Job, j.observed.Reach Machine.anyStep (schedule j)
  finished : ∀ j : Job, j.Finished (schedule j).1

/-- The arguments of a call, and what it finds. -/
structure SampleCall where
  loaderOk : Bool
  fpsDecryptAvailable : Bool
  playbackReady : Bool
  adamId : Bytes
  keyUri : Bytes
  ciphertexts : List Bytes
  footHill : FootHill

def SampleCall.track (x : SampleCall) : TrackKey := (x.adamId, x.keyUri)

/-- The check that fails. -/
def SampleCall.refused (x : SampleCall) : Option String :=
  if !x.loaderOk || !x.fpsDecryptAvailable then some "FPS decrypt chain not loaded"
  else if !x.playbackReady then some "playback stack not ready"
  else if x.adamId = [] ∨ x.keyUri = [] then some "adam_id and uri are required"
  else if x.ciphertexts = [] then some "at least one sample required"
  else none

def prefetchRefusal : Refusal :=
  .error "prefetch decrypt context is not cached; decrypt prefetch samples locally"

/-- The first half of `decrypt_once`: the key context, and the cache with it. -/
def SampleCall.context (x : SampleCall) (c : KdCache) : Except Refusal Kd × KdCache :=
  match c.findCachedKd x.adamId x.keyUri with
  | some kd => (.ok kd, c)
  | none =>
    if x.adamId = kPrefetchAdam then (.error prefetchRefusal, c)
    else
      match x.footHill.derive x.adamId x.keyUri with
      | .error e => (.error e, c)
      | .ok kd => (.ok kd, c.storeCachedKd x.adamId x.keyUri kd)

section Samples

variable (e : Engine)

/-- The batch with a key context. -/
def Engine.job (kd : Kd) (chunks : List Bytes) : Job := ⟨chunks, e.fpSampleDecrypt kd, e.workers⟩

/-- The attempt and `first_error`. -/
def Engine.decryptOnce (x : SampleCall) (c : KdCache) : Attempt × String × KdCache :=
  match x.context c with
  | (.error refusal, c) => ({}, refusal.firstError, c)
  | (.ok kd, c) =>
    let s := (e.schedule (e.job kd x.ciphertexts)).1
    (s.attempt, s.error, c)

/-- What `out.error` becomes. -/
def failedText (firstError : String) : String :=
  "FPS decrypt failed" ++ if firstError = "" then "" else " (first: " ++ firstError ++ ")"

/-- `decrypt_samples`. -/
def Engine.decryptSamples (x : SampleCall) (c : KdCache) : DecryptResult × KdCache :=
  match x.refused with
  | some error => (⟨false, error, []⟩, c)
  | none =>
    let (attempt, firstError, c) := e.decryptOnce x c
    if attempt.ok then (⟨true, "", attempt.plaintexts⟩, c)
    else (⟨false, failedText firstError, []⟩, c.eraseCachedKd x.adamId x.keyUri)

/-- The calls from the start of the process on with their results, and the cache after them; a call
holds `playback_mutex`. -/
def Engine.run (xs : List SampleCall) : List (SampleCall × DecryptResult) × KdCache :=
  xs.foldl (fun p x =>
    let (r, c) := e.decryptSamples x p.2
    (p.1 ++ [(x, r)], c)) ([], {})

end Samples

end Decrypt

end WrapperPaas
