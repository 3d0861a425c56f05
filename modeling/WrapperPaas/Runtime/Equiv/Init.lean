/-
  The runtime is initialised once.

  However the calls of `initialize`, the accessors and Apple's callbacks interleave
  (`runtime_settles`): no thread waits for `mu_` for ever, also not in a callback on a thread that
  holds it; once `initialized_` is set everything is there and nothing changes any more; and an
  accessor returns its zero value or what is there from then on.
-/
import WrapperPaas.Runtime.Init

namespace WrapperPaas

namespace Runtime

open Prog

section Libs

variable (libs : Handle → Loader)

/-- What `initialized_` promises. -/
structure Complete (r : Members) : Prop where
  loader : ∃ l, r.loader = some l ∧ (libs l).ok = true
  requestCtx : r.requestCtx ≠ nullptr
  deviceGuid : r.deviceGuid ≠ nullptr
  presentationInterface : r.presentationInterface ≠ nullptr
  deviceInfo : splitDeviceInfo r.deviceInfo ≠ []

/-- What `playback_ready_` promises. -/
structure Playable (r : Members) : Prop where
  loader : ∃ l, r.loader = some l ∧ (libs l).ok = true ∧ (libs l).fpsDecryptAvailable = true
  foothill : r.foothill ≠ nullptr

structure Consistent (r : Members) : Prop where
  complete : r.initialized = true → Complete libs r
  playable : r.playbackReady = true → Playable libs r

/-- What is true of a result from when it is returned on. -/
def Holds (m : Method) (v : Value) (r : Members) : Prop :=
  match m with
  | .initializeRuntime _ _ | .initialized => v = .flag true → r.initialized = true
  | .baseDir | .deviceInfo => v = .text [] ∨ r.initialized = true ∧ v = m.read r
  | .requestCtxCopy | .deviceGuidCopy | .presentationInterfaceCopy =>
    v = .pointer nullptr ∨ r.initialized = true ∧ v = m.read r
  | .loader => v = .loader none ∨ v = m.read r
  | .playbackReady => v = .flag false ∨ v = m.read r
  | .foothillSession => v = .pointer nullptr ∨ v = m.read r

/-- The members that are read without `mu_` and without a test of `initialized_` are set once. -/
structure Grows (r r' : Members) : Prop where
  loader : r.loader = none ∨ r'.loader = r.loader
  foothill : r.foothill = nullptr ∨ r'.foothill = r.foothill
  playbackReady : r.playbackReady = false ∨ r'.playbackReady = r.playbackReady

/-- Of the members that are set once, none is. -/
structure Unset (r : Members) : Prop where
  loader : r.loader = none
  foothill : r.foothill = nullptr
  playbackReady : r.playbackReady = false

/-- The state is changed and Apple is called only before `initialized_` is set. -/
def spec : Monitor.Spec Members Value Method where
  opened r := r.initialized = false
  inv := Consistent libs
  grows := Grows
  idle r := r.initialized = false → Unset r
  entry m r := (∃ l cfg, m = .initializeRuntime l cfg) ∨ r.initialized = true
  post := Holds

/-! ### The parts of `initialize` -/

/-- As long as `initialize` is at work. -/
structure Fresh (r : Members) : Prop where
  initialized : r.initialized = false
  playbackReady : r.playbackReady = false

variable {libs} {r : Members}

/-- A change of other members. -/
theorem Grows.same {r' : Members} (loader : r'.loader = r.loader)
    (foothill : r'.foothill = r.foothill) (playbackReady : r'.playbackReady = r.playbackReady) :
    Grows r r' :=
  ⟨.inr loader, .inr foothill, .inr playbackReady⟩

theorem Fresh.consistent (h : Fresh r) : Consistent libs r where
  complete hinit := by
    rw [h.initialized] at hinit
    cases hinit
  playable hready := by
    rw [h.playbackReady] at hready
    cases hready

/-- The program is safe, from this state on. -/
abbrev SafeFrom {α : Type} (libs : Handle → Loader) (Q : α → Members → Prop) (p : Locked α)
    (r : Members) : Prop :=
  p.Safe (spec libs).opened (spec libs).inv (spec libs).grows Q r

section Parts

variable {α : Type} {Q : α → Members → Prop}

theorem safe_apple {Q : Unit → Members → Prop} (h : Fresh r) {symbol : Symbol} {args : List Arg}
    (hQ : Q () r) : SafeFrom libs Q (apple symbol args) r := by
  simp only [SafeFrom, apple, safe_bind, safe_ask]
  exact ⟨h.initialized, fun _ => hQ⟩

/-- A call, and what follows. -/
theorem safe_apple_bind (h : Fresh r) {symbol : Symbol} {args : List Arg} {f : Unit → Locked α}
    (hf : SafeFrom libs Q (f ()) r) : SafeFrom libs Q (apple symbol args >>= f) r :=
  safe_bind.mpr (safe_apple h hf)

theorem safe_ask_bind (h : Fresh r) {c : AppleCall} {f : Ptr → Locked α}
    (hf : ∀ p, SafeFrom libs Q (f p) r) : SafeFrom libs Q (ask c >>= f) r :=
  safe_bind.mpr (safe_ask.mpr ⟨h.initialized, hf⟩)

theorem safe_modify_bind (h : Fresh r) {g : Members → Members} {f : Unit → Locked α}
    (hg : Consistent libs (g r)) (hgrows : Grows r (g r)) (hf : SafeFrom libs Q (f ()) (g r)) :
    SafeFrom libs Q (modify g >>= f) r :=
  safe_bind.mpr (safe_modify.mpr ⟨h.initialized, ⟨hg, hgrows⟩, hf⟩)

theorem safe_initDnsAndFoothill (h : Fresh r) (parts : List Bytes) :
    SafeFrom libs
      (fun ok r' => ∃ guid, r' = { r with deviceGuid := guid } ∧ (ok = true → guid ≠ nullptr))
      (initDnsAndFoothill parts) r := by
  refine safe_apple_bind h (safe_apple_bind h (safe_ask_bind h fun guid => ?_))
  have hguid : Fresh { r with deviceGuid := guid } := ⟨h.initialized, h.playbackReady⟩
  refine safe_modify_bind h hguid.consistent (.same rfl rfl rfl)
    (safe_ite.mpr ⟨fun _ => ?_, fun hne => ?_⟩)
  · exact ⟨guid, rfl, fun hok => absurd hok Bool.false_ne_true⟩
  · exact safe_apple_bind hguid ⟨guid, rfl, fun _ => hne⟩

theorem safe_setConfig (h : Fresh r) {Q : Unit → Members → Prop} (hQ : Q () r)
    (parts : List Bytes) (setters : List (Symbol × Nat)) :
    SafeFrom libs Q (setConfig parts setters) r := by
  induction setters with
  | nil => exact hQ
  | cons x setters ih => exact safe_apple_bind h ih

theorem safe_initRequestContext (h : Fresh r) (cfg : RuntimeConfig) (parts : List Bytes) :
    SafeFrom libs
      (fun ok r' => ∃ ctx, r' = { r with requestCtx := ctx } ∧ (ok = true → ctx ≠ nullptr))
      (initRequestContext cfg parts) r := by
  refine safe_ask_bind h fun ctx => ?_
  have hctx : Fresh { r with requestCtx := ctx } := ⟨h.initialized, h.playbackReady⟩
  refine safe_modify_bind h hctx.consistent (.same rfl rfl rfl)
    (safe_ite.mpr ⟨fun _ => ?_, fun hne => ?_⟩)
  · exact ⟨ctx, rfl, fun hok => absurd hok Bool.false_ne_true⟩
  · refine safe_apple_bind hctx (safe_apple_bind hctx (safe_bind.mpr ?_))
    refine safe_setConfig hctx ?_ parts configSetters
    refine safe_apple_bind hctx (safe_apple_bind hctx (safe_apple_bind hctx ?_))
    exact ⟨ctx, rfl, fun _ => hne⟩

theorem safe_initPresentationInterface (h : Fresh r) :
    SafeFrom libs
      (fun ok r' => ∃ apInf,
        r' = { r with presentationInterface := apInf } ∧ (ok = true → apInf ≠ nullptr))
      initPresentationInterface r := by
  refine safe_ask_bind h fun apInf => ?_
  have hap : Fresh { r with presentationInterface := apInf } := ⟨h.initialized, h.playbackReady⟩
  refine safe_modify_bind h hap.consistent (.same rfl rfl rfl)
    (safe_ite.mpr ⟨fun _ => ?_, fun hne => ?_⟩)
  · exact ⟨apInf, rfl, fun hok => absurd hok Bool.false_ne_true⟩
  · refine safe_apple_bind hap (safe_apple_bind hap (safe_bind.mpr (safe_get.mpr ?_)))
    exact safe_apple_bind hap ⟨apInf, rfl, fun _ => hne⟩

theorem safe_initPlaybackSession (h : Fresh r) (hfoothill : r.foothill = nullptr) :
    SafeFrom libs
      (fun ok r' => ∃ foothill, r' = { r with foothill := foothill } ∧
        (ok = true → foothill ≠ nullptr))
      initPlaybackSession r := by
  refine safe_apple_bind h (safe_apple_bind h (safe_apple_bind h (safe_ask_bind h fun fh => ?_)))
  have hfh : Fresh { r with foothill := fh } := ⟨h.initialized, h.playbackReady⟩
  exact safe_modify_bind h hfh.consistent ⟨.inr rfl, .inl hfoothill, .inr rfl⟩
    ⟨fh, rfl, fun hok => of_decide_eq_true hok⟩

/-- With the loader stored, `playback_ready_` is set for a session that can be used. -/
theorem safe_initPlayback (h : Fresh r) (hfoothill : r.foothill = nullptr) {l : Handle}
    (hl : r.loader = some l) (hok : (libs l).ok = true) :
    SafeFrom libs
      (fun _ r' => ∃ foothill ready,
        r' = { r with foothill := foothill, playbackReady := ready } ∧
          (ready = true → Playable libs r'))
      (initPlayback libs l) r := by
  refine safe_ite.mpr ⟨fun hfps => ?_, fun _ => ?_⟩
  · refine safe_bind.mpr ((safe_initPlaybackSession h hfoothill).mono ?_)
    rintro ready r' ⟨fh, rfl, hfh⟩
    have hplayable : ready = true →
        Playable libs { r with foothill := fh, playbackReady := ready } :=
      fun hready => ⟨⟨l, hl, hok, hfps⟩, hfh hready⟩
    refine safe_modify.mpr ⟨h.initialized, ⟨⟨fun hinit => ?_, hplayable⟩,
      .inr rfl, .inr rfl, .inl h.playbackReady⟩, fh, ready, rfl, hplayable⟩
    rw [h.initialized] at hinit
    cases hinit
  · refine safe_modify.mpr ⟨h.initialized, ⟨⟨fun hinit => ?_, fun hready => ?_⟩,
      .inr rfl, .inr rfl, .inl h.playbackReady⟩, r.foothill, false, rfl, fun hready => ?_⟩
    · rw [h.initialized] at hinit
      cases hinit
    · cases hready
    · cases hready

/-- `initialize` stops here. -/
theorem safe_fail (h : Unset r) :
    SafeFrom libs (fun ok r' => (spec libs).idle r' ∧ (ok = true → r'.initialized = true))
      (pure false) r :=
  ⟨fun _ => h, fun hok => absurd hok Bool.false_ne_true⟩

theorem safe_initializeRuntime (hidle : (spec libs).idle r) (l : Handle) (cfg : RuntimeConfig) :
    SafeFrom libs (fun ok r' => (spec libs).idle r' ∧ (ok = true → r'.initialized = true))
      (initializeRuntime libs l cfg) r := by
  refine safe_bind.mpr (safe_get.mpr (safe_ite.mpr ⟨fun hinit => ?_, fun hinit => ?_⟩))
  · exact ⟨hidle, fun _ => hinit⟩
  have hinit : r.initialized = false := by simpa using hinit
  obtain ⟨hloader, hfoothill, hready⟩ := hidle hinit
  have h : Fresh r := ⟨hinit, hready⟩
  have hunset : ∀ {r' : Members}, r'.loader = r.loader → r'.foothill = r.foothill →
      r'.playbackReady = r.playbackReady → Unset r' :=
    fun h₁ h₂ h₃ => ⟨h₁.trans hloader, h₂.trans hfoothill, h₃.trans hready⟩
  refine safe_ite.mpr ⟨fun _ => safe_fail (hunset rfl rfl rfl), fun hok => ?_⟩
  have hok : (libs l).ok = true := by simpa using hok
  refine safe_ite.mpr ⟨fun _ => safe_fail (hunset rfl rfl rfl), fun hparts => ?_⟩
  refine safe_bind.mpr ((safe_initDnsAndFoothill h _).mono ?_)
  rintro ok r' ⟨guid, rfl, hguid⟩
  have h : Fresh { r with deviceGuid := guid } := ⟨h.initialized, h.playbackReady⟩
  refine safe_ite.mpr ⟨fun _ => safe_fail (hunset rfl rfl rfl), fun hok₁ => ?_⟩
  refine safe_bind.mpr ((safe_initRequestContext h cfg _).mono ?_)
  rintro ok r' ⟨ctx, rfl, hctx⟩
  have h : Fresh { r with deviceGuid := guid, requestCtx := ctx } :=
    ⟨h.initialized, h.playbackReady⟩
  refine safe_ite.mpr ⟨fun _ => safe_fail (hunset rfl rfl rfl), fun hok₂ => ?_⟩
  refine safe_bind.mpr ((safe_initPresentationInterface h).mono ?_)
  rintro ok r' ⟨apInf, rfl, hap⟩
  have h : Fresh { r with deviceGuid := guid, requestCtx := ctx, presentationInterface := apInf } :=
    ⟨h.initialized, h.playbackReady⟩
  refine safe_ite.mpr ⟨fun _ => safe_fail (hunset rfl rfl rfl), fun hok₃ => ?_⟩
  -- everything is there; what is left cannot fail
  have hrest : ∀ baseDir deviceInfo loader, Fresh { r with
      deviceGuid := guid, requestCtx := ctx, presentationInterface := apInf
      baseDir := baseDir, deviceInfo := deviceInfo, loader := loader } :=
    fun _ _ _ => ⟨h.initialized, h.playbackReady⟩
  refine safe_modify_bind h (hrest ..).consistent (.same rfl rfl rfl) ?_
  refine safe_modify_bind (hrest ..) (hrest ..).consistent (.same rfl rfl rfl) ?_
  refine safe_modify_bind (hrest ..) (hrest ..).consistent ⟨.inl hloader, .inr rfl, .inr rfl⟩ ?_
  refine safe_bind.mpr ((safe_initPlayback (hrest ..) hfoothill rfl hok).mono ?_)
  rintro _ r' ⟨fh, ready, rfl, hplayable⟩
  refine safe_bind.mpr (safe_modify.mpr
    ⟨h.initialized, ⟨⟨fun _ => ?_, fun hr => ?_⟩, .same rfl rfl rfl⟩, ?_⟩)
  · exact ⟨⟨l, rfl, hok⟩, hctx (by simpa using hok₂), hguid (by simpa using hok₁),
      hap (by simpa using hok₃), hparts⟩
  · exact ⟨(hplayable hr).loader, (hplayable hr).foothill⟩
  · exact ⟨fun hno => (by cases hno), fun _ => rfl⟩

end Parts

/-! ### The monitor -/

theorem holds_read (m : Method) (h : r.initialized = true) : Holds m (m.read r) r := by
  cases m with
  | initializeRuntime l cfg => exact fun _ => h
  | initialized => exact fun _ => h
  | baseDir => exact .inr ⟨h, rfl⟩
  | deviceInfo => exact .inr ⟨h, rfl⟩
  | requestCtxCopy => exact .inr ⟨h, rfl⟩
  | deviceGuidCopy => exact .inr ⟨h, rfl⟩
  | presentationInterfaceCopy => exact .inr ⟨h, rfl⟩
  | loader => exact .inr rfl
  | playbackReady => exact .inr rfl
  | foothillSession => exact .inr rfl

theorem holds_peek {m : Method} {v : Value} (h : peek m r = some v) : Holds m v r := by
  have hzero : ∀ {w : Value}, (if r.initialized = true then none else some w) = some v → v = w := by
    intro w hw
    split_ifs at hw
    exact (Option.some.inj hw).symm
  cases m with
  | initializeRuntime l cfg => cases h
  | initialized =>
    rintro rfl
    exact Value.flag.inj (Option.some.inj h)
  | baseDir => exact .inl (hzero h)
  | deviceInfo => exact .inl (hzero h)
  | requestCtxCopy => exact .inl (hzero h)
  | deviceGuidCopy => exact .inl (hzero h)
  | presentationInterfaceCopy => exact .inl (hzero h)
  | loader => exact .inr (Option.some.inj h).symm
  | playbackReady => exact .inr (Option.some.inj h).symm
  | foothillSession => exact .inr (Option.some.inj h).symm

theorem holds_stays {m : Method} {v : Value} {r' : Members} (hopened : r.initialized = false)
    (hgrows : Grows r r') (h : Holds m v r) : Holds m v r' := by
  have hne : ¬ r.initialized = true := by simp [hopened]
  cases m with
  | initializeRuntime l cfg => exact fun hv => absurd (h hv) hne
  | initialized => exact fun hv => absurd (h hv) hne
  | baseDir => exact .inl (h.resolve_right fun hr => hne hr.1)
  | deviceInfo => exact .inl (h.resolve_right fun hr => hne hr.1)
  | requestCtxCopy => exact .inl (h.resolve_right fun hr => hne hr.1)
  | deviceGuidCopy => exact .inl (h.resolve_right fun hr => hne hr.1)
  | presentationInterfaceCopy => exact .inl (h.resolve_right fun hr => hne hr.1)
  | loader =>
    rcases h with h | rfl
    · exact .inl h
    · exact hgrows.loader.imp (congrArg Value.loader) fun heq => congrArg Value.loader heq.symm
  | playbackReady =>
    rcases h with h | rfl
    · exact .inl h
    · exact hgrows.playbackReady.imp (congrArg Value.flag) fun heq => congrArg Value.flag heq.symm
  | foothillSession =>
    rcases h with h | rfl
    · exact .inl h
    · exact hgrows.foothill.imp (congrArg Value.pointer) fun heq => congrArg Value.pointer heq.symm

variable (libs)

theorem proper : Monitor.Proper (runtime libs) (spec libs) where
  init := ⟨fun h => (by cases h), fun h => (by cases h)⟩
  idle _ := ⟨rfl, rfl, rfl⟩
  enters m r _ hpeek := by
    by_cases hinit : r.initialized = true
    · exact .inr hinit
    · have hne : ∀ {v : Value}, (if r.initialized = true then none else some v) ≠ none := by
        intro v
        rw [if_neg hinit]
        exact Option.some_ne_none v
      cases m with
      | initializeRuntime l cfg => exact .inl ⟨l, cfg, rfl⟩
      | initialized => cases hpeek
      | baseDir => exact absurd hpeek hne
      | deviceInfo => exact absurd hpeek hne
      | requestCtxCopy => exact absurd hpeek hne
      | deviceGuidCopy => exact absurd hpeek hne
      | presentationInterfaceCopy => exact absurd hpeek hne
      | loader => cases hpeek
      | playbackReady => cases hpeek
      | foothillSession => cases hpeek
  stays m r r' hopened _ hentry := by
    refine hentry.imp_right fun hinit => ?_
    rw [show r.initialized = false from hopened] at hinit
    cases hinit
  body m r _ hidle hentry := by
    by_cases hm : ∃ l cfg, m = .initializeRuntime l cfg
    · obtain ⟨l, cfg, rfl⟩ := hm
      refine safe_bind.mpr ((safe_initializeRuntime hidle l cfg).mono ?_)
      rintro ok r' ⟨hidle, hinit⟩
      exact ⟨hidle, fun hv => hinit (Value.flag.inj hv)⟩
    · have hinit := hentry.resolve_left hm
      have hread : (spec libs).ends m (m.read r) r := ⟨hidle, holds_read m hinit⟩
      cases m with
      | initializeRuntime l cfg => exact absurd ⟨l, cfg, rfl⟩ hm
      | _ => exact hread
  callback m r hback hopened := by
    have hopened : r.initialized = false := hopened
    rcases of_decide_eq_true hback with rfl | rfl
    · exact Option.some_ne_none _
    · show (if r.initialized = true then none else some _) ≠ none
      rw [if_neg (by simp [hopened])]
      exact Option.some_ne_none _

theorem lasting : Monitor.Lasting (runtime libs) (spec libs) Holds where
  peek _ _ _ _ h := holds_peek h
  body _ _ _ _ h := h
  stays _ _ _ _ hopened hgrows h := holds_stays hopened hgrows h

/-- A reachable state of the runtime, with what has happened. -/
def Reached : Type :=
  { q : Monitor.State Members AppleCall Ptr Value Method × Monitor.Log AppleCall Value Method //
    (runtime libs).observed.Reach Machine.anyStep q }

/-- **The runtime.**  In every interleaving of `initialize`, the accessors and the callbacks: while
a call is not finished, some thread can go on, whatever Apple's library answers; what
`initialized_` and `playback_ready_` promise is there; every result holds from when it is returned
on; and once `initialized_` is set, no member changes and Apple's library is not called again. -/
theorem runtime_settles (q : Reached libs) :
    let (s, log) := q.1
    (∀ t, s.stack t ≠ [] → ∀ answer, ∃ u s',
      (runtime libs).machine.step s (.step u answer) = some s') ∧
    (s.shared.initialized = true → Complete libs s.shared) ∧
    (s.shared.playbackReady = true → Playable libs s.shared) ∧
    (∀ x ∈ log.results, Holds x.1 x.2 s.shared) ∧
    (s.shared.initialized = true → ∀ a s', (runtime libs).machine.step s a = some s' →
      s'.shared = s.shared ∧ ((runtime libs).note log s a).calls = log.calls) := by
  have hsound := Monitor.Sound.reach (proper libs) q.2
  have hresults := (lasting libs).results (proper libs) q.2
  refine ⟨fun t ht answer => hsound.exists_step ht answer, hsound.inv.complete,
    hsound.inv.playable, hresults, fun hinit a s' hstep => ?_⟩
  have hclosed : ¬ (spec libs).opened q.1.1.shared := by
    show ¬ q.1.1.shared.initialized = false
    rw [hinit]
    exact Bool.noConfusion
  obtain ⟨hshared, hcalls⟩ := hsound.shared_of_step (Monitor.move_of_step hstep) hclosed
  exact ⟨hshared, hcalls q.1.2⟩

end Libs

end Runtime

end WrapperPaas
