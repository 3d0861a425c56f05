/-
  **The pipes stay in step with the requests.**

  Whenever the `proc` mutex is free, every request that was ever begun with the worker in the slot
  is written in full and every byte of every answer is read, and `request` returns only the answer
  to its own request (`pipes_synced`).  This holds in every interleaving, whatever the timeouts,
  partial transfers, failures and answers; a worker is assumed to answer a request with at most one
  frame.

  The invariant is `InStep`.  Only the owner of the mutex is in the middle of something, its stage
  says how far (`View.Ok`), and every way out of an exchange either has read the answer or gives the
  worker up.
-/
import Mathlib.Data.List.Basic
import WrapperPaas.Worker.Equiv.Transfer
import WrapperPaas.Worker.Equiv.View

namespace WrapperPaas

namespace Supervisor

/-! ### One process among many -/

section Links

variable {links : List Pipes} {p : ProcId} {l l' : Pipes}

theorem getElem?_set_same (hl : links[p]? = some l) : (links.set p l')[p]? = some l' :=
  List.getElem?_set_self (List.getElem?_eq_some_iff.mp hl).1

/-- Process `p` changes, but keeps `P`. -/
theorem exists_set {P : Pipes → Prop} (hl : links[p]? = some l) (hP : P l → P l') {p' : ProcId}
    (h : ∃ m, links[p']? = some m ∧ P m) : ∃ m, (links.set p l')[p']? = some m ∧ P m := by
  obtain ⟨m, hm, hPm⟩ := h
  by_cases hp : p = p'
  · subst hp
    obtain rfl := Option.some.inj (hl.symm.trans hm)
    exact ⟨l', getElem?_set_same hl, hP hPm⟩
  · exact ⟨m, by rw [List.getElem?_set_ne hp, hm], hPm⟩

theorem flows_set (hlinks : ∀ m ∈ links, m.Flows) (hl' : l'.Flows) :
    ∀ m ∈ links.set p l', m.Flows := by
  intro m hm
  rcases List.mem_or_eq_of_mem_set hm with hm | rfl
  · exact hlinks m hm
  · exact hl'

end Links

/-- The response `resp` that thread `t` holds is the answer to its request. -/
def Answered (links : List Pipes) (t : CallId) (r : Request) (resp : Frame) : Prop :=
  ∃ (p : ProcId) (l : Pipes), links[p]? = some l ∧ AnsweredWith l (.request t) r.frame resp

/-- Processes come, and their pipes carry more. -/
def Grows (links links' : List Pipes) : Prop :=
  ∀ (p : ProcId) l, links[p]? = some l → ∃ l', links'[p]? = some l' ∧ l.Le l'

theorem Grows.refl (links : List Pipes) : Grows links links := fun _ l hl => ⟨l, hl, .refl l⟩

theorem Grows.set {links : List Pipes} {p : ProcId} {l l' : Pipes} (hl : links[p]? = some l)
    (hle : l.Le l') : Grows links (links.set p l') := by
  intro p' m hm
  by_cases hp : p = p'
  · subst hp
    obtain rfl := Option.some.inj (hl.symm.trans hm)
    exact ⟨l', getElem?_set_same hl, hle⟩
  · exact ⟨m, by rw [List.getElem?_set_ne hp, hm], .refl m⟩

/-- A process is started. -/
theorem Grows.append (links : List Pipes) (l : Pipes) : Grows links (links ++ [l]) :=
  fun _ m hm => ⟨m, Link.getElem?_of_prefix (List.prefix_append ..) hm, .refl m⟩

theorem Answered.mono {links links' : List Pipes} {t : CallId} {r : Request} {resp : Frame}
    (hg : Grows links links') (h : Answered links t r resp) : Answered links' t r resp := by
  obtain ⟨p, l, hl, ha⟩ := h
  obtain ⟨l', hl', hle⟩ := hg p l hl
  exact ⟨p, l', hl', ha.mono hle⟩

/-! ### The invariant -/

namespace View

/-- Nothing is outstanding for the worker in the slot. -/
def SlotSynced (v : View) : Prop :=
  ∀ p : ProcId, v.slot = some p → ∃ l, v.links[p]? = some l ∧ Synced l

/-- What the stage of thread `t` says about the pipes. -/
def Ok (v : View) (t : CallId) : Stage → Prop
  | .free resp => ∀ r f, resp = some (r, f) → Answered v.links t r f
  | .locked resp => v.SlotSynced ∧ ∀ r f, resp = some (r, f) → Answered v.links t r f
  | .exchange r p x =>
    v.slot = some p ∧ ∃ l, v.links[p]? = some l ∧ Exchange l (.request t) r.frame x
  | .fresh p => ∃ l, v.links[p]? = some l ∧ Synced l
  | .probing p x => ∃ l, v.links[p]? = some l ∧ Exchange l (.probe t) probeFrame x
  | .broken => True

end View

/-- Only the owner of the mutex is in the middle of something, and while nobody owns it nothing is
outstanding for the worker in the slot. -/
structure InStep (v : View) : Prop where
  owner : ∀ t, (∃ resp, v.stage t = .free resp) ∨ v.lock = some t
  ok : ∀ t, v.Ok t (v.stage t)
  slot : v.lock = none → v.SlotSynced
  flows : ∀ l ∈ v.links, l.Flows

namespace InStep

variable {v v' : View} {t : CallId} {st : Stage}

theorem owns (h : InStep v) (hst : v.stage t = st) (hne : ∀ resp, st ≠ .free resp) :
    v.lock = some t :=
  (h.owner t).resolve_left fun ⟨resp, hresp⟩ => hne resp (hst ▸ hresp)

theorem ok_of (h : InStep v) (hst : v.stage t = st) : v.Ok t st := hst ▸ h.ok t

theorem others (h : InStep v) (ht : v.lock = some t ∨ v.lock = none) (u : CallId) (hu : u ≠ t) :
    ∃ resp, v.stage u = .free resp := by
  refine (h.owner u).resolve_right fun hl => ?_
  rcases ht with ht | ht
  · exact hu (Option.some.inj (hl.symm.trans ht))
  · rw [ht] at hl
    cases hl

/-- Thread `t`, alone with the mutex, goes to the stage `st`. -/
theorem update (h : InStep v) (ht : v.lock = some t ∨ v.lock = none)
    (hstage : v'.stage = Function.update v.stage t st)
    (howner : (∃ resp, st = .free resp) ∨ v'.lock = some t) (hok : v'.Ok t st)
    (hslot : v'.lock = none → v'.SlotSynced) (hgrows : Grows v.links v'.links)
    (hflows : ∀ l ∈ v'.links, l.Flows) : InStep v' := by
  refine ⟨fun u => ?_, fun u => ?_, hslot, hflows⟩
  · by_cases hu : u = t
    · subst hu
      rwa [hstage, Function.update_self]
    · rw [hstage, Function.update_of_ne hu]
      exact .inl (h.others ht u hu)
  · by_cases hu : u = t
    · subst hu
      rwa [hstage, Function.update_self]
    · obtain ⟨resp, hresp⟩ := h.others ht u hu
      rw [hstage, Function.update_of_ne hu, hresp]
      exact fun r f hrf => (h.ok_of hresp r f hrf).mono hgrows

/-- The owner of the mutex goes to the stage `st` and keeps the mutex. -/
theorem inside (h : InStep v) (ht : v.lock = some t)
    (hstage : v'.stage = Function.update v.stage t st) (hlock : v'.lock = v.lock)
    (hok : v'.Ok t st) (hgrows : Grows v.links v'.links) (hflows : ∀ l ∈ v'.links, l.Flows) :
    InStep v' := by
  refine h.update (.inl ht) hstage (.inr (hlock.trans ht)) hok (fun hn => ?_) hgrows hflows
  rw [hlock, ht] at hn
  cases hn

/-- A worker does something that keeps its pipes in every phase. -/
theorem server (h : InStep v) {p : ProcId} {l l' : Pipes} (hl : v.links[p]? = some l)
    (hflows : l'.Flows) (hle : l.Le l') (hsynced : Synced l → Synced l')
    (hexchange : ∀ who f x, Exchange l who f x → Exchange l' who f x) :
    InStep { v with links := v.links.set p l' } := by
  have hgrows : Grows v.links (v.links.set p l') := .set hl hle
  have hslot : v.SlotSynced → View.SlotSynced { v with links := v.links.set p l' } :=
    fun hs p' hp' => exists_set hl hsynced (hs p' hp')
  refine ⟨h.owner, fun t => ?_, fun hn => hslot (h.slot hn), flows_set h.flows hflows⟩
  cases hst : v.stage t with
  | free resp => exact fun r f hrf => (h.ok_of hst r f hrf).mono hgrows
  | locked resp =>
    exact ⟨hslot (h.ok_of hst).1, fun r f hrf => ((h.ok_of hst).2 r f hrf).mono hgrows⟩
  | exchange r p' x =>
    have hok := h.ok_of hst
    exact ⟨hok.1, exists_set hl (hexchange _ _ _) hok.2⟩
  | fresh p' => exact exists_set hl hsynced (h.ok_of hst)
  | probing p' x => exact exists_set hl (hexchange _ _ _) (h.ok_of hst)
  | broken => trivial

theorem step (h : InStep v) (hs : ViewStep v v') : InStep v' := by
  cases hs with
  | quiet => exact h
  | @forget t resp hst =>
    refine ⟨fun u => ?_, fun u => ?_, h.slot, h.flows⟩
    · by_cases hu : u = t
      · subst hu
        exact .inl ⟨none, Function.update_self ..⟩
      · rw [View.stage_setStage, Function.update_of_ne hu]
        exact h.owner u
    · by_cases hu : u = t
      · subst hu
        rw [View.stage_setStage, Function.update_self]
        exact fun r f hrf => (by cases hrf)
      · rw [View.stage_setStage, Function.update_of_ne hu]
        exact h.ok u
  | lock hl hst =>
    exact h.update (.inr hl) rfl (.inr rfl) ⟨h.slot hl, fun r f hrf => (by cases hrf)⟩
      (fun hn => (by cases hn)) (.refl _) h.flows
  | unlock hst =>
    have hok := h.ok_of hst
    exact h.update (.inl (h.owns hst fun _ hn => (by cases hn))) rfl (.inl ⟨_, rfl⟩) hok.2
      (fun _ => hok.1) (.refl _) h.flows
  | take hl =>
    refine ⟨h.owner, fun u => ?_, fun _ p hp => (by cases hp), h.flows⟩
    obtain ⟨resp, hresp⟩ := (h.owner u).resolve_right fun hu => by
      rw [hl] at hu
      cases hu
    rw [show View.stage { v with slot := none } u = _ from hresp]
    exact h.ok_of hresp
  | giveUp hst =>
    exact h.inside (h.owns hst fun _ hn => (by cases hn)) rfl rfl trivial (.refl _) h.flows
  | drop hst =>
    exact h.inside (h.owns hst fun _ hn => (by cases hn)) rfl rfl
      ⟨fun p hp => (by cases hp), fun r f hrf => (by cases hrf)⟩ (.refl _) h.flows
  | launch hst =>
    refine h.inside (h.owns hst fun _ hn => (by cases hn)) rfl rfl ?_ (.append _ _)
      fun l hl => ?_
    · exact ⟨{}, List.getElem?_concat_length, Link.Idle.empty⟩
    · rcases List.mem_append.mp hl with hl | hl
      · exact h.flows l hl
      · rw [List.mem_singleton.mp hl]
        exact .empty
  | @probe t p l now hst hl =>
    obtain ⟨m, hm, hsynced⟩ := h.ok_of hst
    obtain rfl := Option.some.inj (hm.symm.trans hl)
    have hflows := h.flows _ (List.mem_of_getElem? hl)
    exact h.inside (h.owns hst fun _ hn => (by cases hn)) rfl rfl
      ⟨_, getElem?_set_same hl, hsynced.ask _ rfl (by decide) now⟩ (.set hl (Link.le_ask ..))
      (flows_set h.flows ⟨hflows.received_le, hflows.emitted_le⟩)
  | @probeIo t p x l l' a result deadline now hst hl hstep =>
    obtain ⟨m, hm, hexchange⟩ := h.ok_of hst
    obtain rfl := Option.some.inj (hm.symm.trans hl)
    obtain ⟨hflows, hle, hround⟩ := hexchange.step (h.flows _ (List.mem_of_getElem? hl)) hstep
    refine h.inside (h.owns hst fun _ hn => (by cases hn)) rfl rfl ?_ (.set hl hle)
      (flows_set h.flows hflows)
    cases result with
    | more x' => exact ⟨l', getElem?_set_same hl, hround⟩
    | frame resp =>
      rw [probeStage]
      split_ifs
      · trivial
      · exact ⟨l', getElem?_set_same hl, hround.1⟩
    | failed kind message => trivial
  | @install t p hst =>
    refine h.inside (h.owns hst fun _ hn => (by cases hn)) rfl rfl
      ⟨fun p' hp' => ?_, fun r f hrf => (by cases hrf)⟩ (.refl _) h.flows
    obtain rfl := Option.some.inj hp'
    exact h.ok_of hst
  | @begin t r p l now hst hslot hl hlt =>
    obtain ⟨m, hm, hsynced⟩ := (h.ok_of hst).1 p hslot
    obtain rfl := Option.some.inj (hm.symm.trans hl)
    have hflows := h.flows _ (List.mem_of_getElem? hl)
    exact h.inside (h.owns hst fun _ hn => (by cases hn)) rfl rfl
      ⟨hslot, _, getElem?_set_same hl, hsynced.ask _ rfl hlt now⟩ (.set hl (Link.le_ask ..))
      (flows_set h.flows ⟨hflows.received_le, hflows.emitted_le⟩)
  | @io t r p x l l' a result deadline now hst hl hstep =>
    obtain ⟨hslot, m, hm, hexchange⟩ := h.ok_of hst
    obtain rfl := Option.some.inj (hm.symm.trans hl)
    obtain ⟨hflows, hle, hround⟩ := hexchange.step (h.flows _ (List.mem_of_getElem? hl)) hstep
    refine h.inside (h.owns hst fun _ hn => (by cases hn)) rfl rfl ?_ (.set hl hle)
      (flows_set h.flows hflows)
    cases result with
    | more x' => exact ⟨hslot, l', getElem?_set_same hl, hround⟩
    | frame resp =>
      -- the answer is read, so the worker may stay in the slot
      refine ⟨fun p' hp' => ?_, fun r' f hrf => ?_⟩
      · obtain rfl := Option.some.inj (hslot.symm.trans hp')
        exact ⟨l', getElem?_set_same hl, hround.1⟩
      · obtain ⟨rfl, rfl⟩ := Prod.mk.inj (Option.some.inj hrf)
        exact ⟨p, l', getElem?_set_same hl, hround.2⟩
    | failed kind message => trivial
  | @serve p l l' answer hl ha hserve =>
    obtain ⟨req, rest, -, rfl⟩ := serve_eq_some hserve
    refine h.server hl ((h.flows l (List.mem_of_getElem? hl)).serve ..) (Link.le_serve ..)
      (fun hsynced => ?_) fun who f x hx => hx.serve ha hserve
    rw [hsynced.serve] at hserve
    cases hserve
  | @emit p l n hl hn =>
    exact h.server hl ((h.flows l (List.mem_of_getElem? hl)).emit hn) (.refl l)
      (fun hsynced => hsynced.emit n) fun who f x hx => hx.emit n

/-- No request and no answer is dropped. -/
theorem grows (h : InStep v) (hs : ViewStep v v') : Grows v.links v'.links := by
  cases hs with
  | launch hst => exact .append _ _
  | probe now hst hl => exact .set hl (Link.le_ask ..)
  | @probeIo t p x l l' a result deadline now hst hl hstep =>
    obtain ⟨m, hm, hexchange⟩ := h.ok_of hst
    obtain rfl := Option.some.inj (hm.symm.trans hl)
    exact .set hl (hexchange.step (h.flows _ (List.mem_of_getElem? hl)) hstep).2.1
  | begin now hst hslot hl hlt => exact .set hl (Link.le_ask ..)
  | @io t r p x l l' a result deadline now hst hl hstep =>
    obtain ⟨hslot, m, hm, hexchange⟩ := h.ok_of hst
    obtain rfl := Option.some.inj (hm.symm.trans hl)
    exact .set hl (hexchange.step (h.flows _ (List.mem_of_getElem? hl)) hstep).2.1
  | @serve p l l' answer hl ha hserve =>
    obtain ⟨req, rest, -, rfl⟩ := serve_eq_some hserve
    exact .set hl (Link.le_serve ..)
  | emit hl hn => exact .set hl (.refl _)
  | _ => exact .refl _

theorem reach {c : Config} {s : System} (h : (workerMachine c).Reach Machine.anyStep s) :
    InStep s.view := by
  refine h.invariant (P := fun s => InStep s.view) ?_ fun s act s' _ _ hst hs =>
    hs.step (System.view_step hst)
  exact ⟨fun t => .inl ⟨none, rfl⟩, fun t r f hrf => (by cases hrf), fun _ p hp => (by cases hp),
    fun l hl => (by cases hl)⟩

end InStep

/-- **The pipes stay in step.**  In every state that the worker's threads and processes can reach:
while the mutex is free nothing is outstanding for the worker in the slot, and a response that
`request` has returned is the answer to the very frame that this call has sent. -/
theorem pipes_synced {c : Config} {s : System} (h : (workerMachine c).Reach Machine.anyStep s) :
    (s.lock = none → ∀ p, s.worker.proc = some p → ∃ q, s.procs[p]? = some q ∧ Synced q.link) ∧
    ∀ t r resp, s.threads[t]? = some (.returned r (.ok resp)) →
      ∃ (p : ProcId) (q : Process), s.procs[p]? = some q ∧
        AnsweredWith q.link (.request t) r.frame resp := by
  have hv := InStep.reach h
  -- a process of the view is one of the system
  have hproc : ∀ {p : ProcId} {l : Pipes}, s.view.links[p]? = some l →
      ∃ q, s.procs[p]? = some q ∧ q.link = l := by
    intro p l hl
    rw [System.view, List.getElem?_map] at hl
    exact Option.map_eq_some_iff.mp hl
  refine ⟨fun hfree p hp => ?_, fun t r resp ht => ?_⟩
  · obtain ⟨l, hl, hsynced⟩ := hv.slot hfree p hp
    obtain ⟨q, hq, rfl⟩ := hproc hl
    exact ⟨q, hq, hsynced⟩
  · obtain ⟨p, l, hl, ha⟩ := hv.ok_of (System.stage_of_getElem? ht) r resp rfl
    obtain ⟨q, hq, rfl⟩ := hproc hl
    exact ⟨p, q, hq, ha⟩

/-- The timeouts and limits of a supervisor whose environment sets none. -/
def defaultConfig : Config where
  requestTimeout := seconds 25
  startupTimeout := seconds 30
  busyTimeout := seconds 10
  maxWaiters := 32
  maxStartupFailures := 3
  exitOnStartupFailure := false
  restartRequested _ := false

/-- A request that starts the worker; both sides split the frames. -/
def firstRequest : List Act :=
  [.request opHealth [5], .run 0, .run 0, .run 0, .run 0, .run 0, .run 0, .launch 0 42, .run 0,
   .io 0 (.write 20), .serve 0 (frameBytes ⟨2, 0, 1, 0, []⟩), .emit 0 20, .io 0 (.read 20), .run 0,
   .run 0, .run 0, .run 0, .io 0 (.write 10), .io 0 .again, .io 0 (.write 11),
   .serve 0 (frameBytes ⟨2, 1, 1, 0, [7, 8]⟩), .emit 0 21, .io 0 (.read 20), .io 0 (.read 1),
   .emit 0 1, .io 0 (.read 1), .run 0, .run 0, .run 0, .run 0]

theorem pipes_synced_firstRequest :
    ∃ s, (workerMachine defaultConfig).exec Machine.anyStep {} firstRequest = some s ∧
      (∃ q, s.procs[0]? = some q ∧ Synced q.link) ∧
      ∃ (p : ProcId) (q : Process), s.procs[p]? = some q ∧
        AnsweredWith q.link (.request 0) (requestFrame 1 opHealth [5]) ⟨2, 1, 1, 0, [7, 8]⟩ := by
  have hend : ((workerMachine defaultConfig).exec Machine.anyStep {} firstRequest).map
      (fun s => (s.lock, s.worker.proc, s.threads[0]?)) = some (none, some 0, some (.returned
        ⟨1, opHealth, [5], false, seconds 25⟩ (.ok ⟨2, 1, 1, 0, [7, 8]⟩))) := by
    decide +kernel
  obtain ⟨s, hs, hend⟩ := Option.map_eq_some_iff.mp hend
  obtain ⟨hlock, hend⟩ := Prod.mk.inj hend
  obtain ⟨hproc, hthread⟩ := Prod.mk.inj hend
  have h := pipes_synced (Machine.reach_of_exec hs)
  exact ⟨s, hs, h.1 hlock 0 hproc, h.2 0 _ _ hthread⟩

end Supervisor

end WrapperPaas
