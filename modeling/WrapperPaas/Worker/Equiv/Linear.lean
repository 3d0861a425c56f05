/-
  The calls of `request` take effect one after the other.

  `calls_linearizable` compares the supervisor with the single exchanges of `exchange`.  However its
  threads, processes and timeouts interleave, there is one order of all requests that any process
  was asked: each request is asked at most once, a call that returns a response returns what its
  exchange gives at the request's place in that order, and a request whose call begins after another
  call has returned, with or without a response, comes later in it.

  The order is that of the processes and, within a process, that of its requests.  It is the order
  in time because only the process that was started last is used (`Newest`).
-/
import Mathlib.Data.List.Basic
import Mathlib.Data.Prod.Lex
import WrapperPaas.Daemon.Equiv.Handlers
import WrapperPaas.Protocol.Equiv.Fidelity
import WrapperPaas.Worker.Equiv.ControlFlow
import WrapperPaas.Worker.Equiv.Traffic

namespace WrapperPaas

namespace Supervisor

/-! ### Time goes on -/

theorem Grows.trans {links links' links'' : List Pipes} (h : Grows links links')
    (h' : Grows links' links'') : Grows links links'' := by
  intro p l hl
  obtain ⟨l', hl', hle⟩ := h p l hl
  obtain ⟨l'', hl'', hle'⟩ := h' p l' hl'
  exact ⟨l'', hl'', hle.1.trans hle'.1, hle.2.trans hle'.2⟩

theorem Grows.length_le {links links' : List Pipes} (h : Grows links links') :
    links.length ≤ links'.length := by
  by_contra hlt
  have hlen : links'.length < links.length := Nat.not_le.mp hlt
  obtain ⟨l, hl, -⟩ := h links'.length _ (List.getElem?_eq_getElem hlen)
  exact Nat.lt_irrefl _ (List.getElem?_eq_some_iff.mp hl).1

theorem Grows.of_path {c : Config} {G : System → Act → Prop} {s s' : System} {as : List Act}
    (h : (workerMachine c).Path G s as s') (hr : (workerMachine c).Reach G s) :
    Grows s.view.links s'.view.links := by
  induction h with
  | nil s => exact .refl _
  | cons hG hst hrest ih =>
    have hstep := (InStep.reach (hr.mono fun _ _ _ => trivial)).grows (System.view_step hst)
    exact hstep.trans (ih (hr.next hG hst))

/-! ### The process that is used -/

namespace View

/-- The owner of the mutex uses the process that was started last. -/
def NewestAt (v : View) : Stage → Prop
  | .locked _ => ∀ p : ProcId, v.slot = some p → p + 1 = v.links.length
  | .exchange _ p _ | .fresh p | .probing p _ => p + 1 = v.links.length
  | .free _ | .broken => True

end View

structure Newest (v : View) : Prop where
  stage : ∀ t, v.NewestAt (v.stage t)
  slot : v.lock = none → ∀ p : ProcId, v.slot = some p → p + 1 = v.links.length

namespace Newest

variable {v v' : View} {t : CallId} {st : Stage}

theorem stage_of (h : Newest v) (hst : v.stage t = st) : v.NewestAt st := hst ▸ h.stage t

/-- Thread `t`, alone with the mutex, goes to the stage `st`. -/
theorem update (hi : InStep v) (ht : v.lock = some t ∨ v.lock = none)
    (hstage : v'.stage = Function.update v.stage t st) (hst : v'.NewestAt st)
    (hslot : v'.lock = none → ∀ p : ProcId, v'.slot = some p → p + 1 = v'.links.length) :
    Newest v' := by
  refine ⟨fun u => ?_, hslot⟩
  by_cases hu : u = t
  · subst hu
    rwa [hstage, Function.update_self]
  · obtain ⟨resp, hresp⟩ := hi.others ht u hu
    rw [hstage, Function.update_of_ne hu, hresp]
    trivial

/-- The owner of the mutex goes to the stage `st` and keeps the mutex. -/
theorem inside (hi : InStep v) (ht : v.lock = some t)
    (hstage : v'.stage = Function.update v.stage t st) (hlock : v'.lock = v.lock)
    (hst : v'.NewestAt st) : Newest v' := by
  refine update hi (.inl ht) hstage hst fun hn => ?_
  rw [hlock, ht] at hn
  cases hn

/-- A process does something. -/
theorem server (h : Newest v) {p : ProcId} {l : Pipes} :
    Newest { v with links := v.links.set p l } := by
  have hlen : (v.links.set p l).length = v.links.length := List.length_set
  refine ⟨fun t => ?_, fun hn p' hp' => (h.slot hn p' hp').trans hlen.symm⟩
  cases hst : v.stage t with
  | free resp | broken => trivial
  | locked resp => exact fun p' hp' => (h.stage_of hst p' hp').trans hlen.symm
  | exchange r p' x | fresh p' | probing p' x => exact (h.stage_of hst).trans hlen.symm

theorem step (hi : InStep v) (h : Newest v) (hs : ViewStep v v') : Newest v' := by
  cases hs with
  | quiet => exact h
  | @forget t resp hst =>
    refine ⟨fun u => ?_, h.slot⟩
    by_cases hu : u = t
    · subst hu
      rw [View.stage_setStage, Function.update_self]
      trivial
    · rw [View.stage_setStage, Function.update_of_ne hu]
      exact h.stage u
  | lock hl hst => exact update hi (.inr hl) rfl (h.slot hl) fun hn => (by cases hn)
  | unlock hst =>
    exact update hi (.inl (hi.owns hst fun _ hn => (by cases hn))) rfl trivial
      fun _ => h.stage_of hst
  | take hl =>
    -- nobody holds the mutex, so no thread uses a process
    refine ⟨fun u => ?_, fun _ p hp => (by cases hp)⟩
    obtain ⟨resp, hresp⟩ := (hi.owner u).resolve_right fun hu => by
      rw [hl] at hu
      cases hu
    rw [show View.stage { v with slot := none } u = _ from hresp]
    trivial
  | giveUp hst => exact inside hi (hi.owns hst fun _ hn => (by cases hn)) rfl rfl trivial
  | drop hst =>
    exact inside hi (hi.owns hst fun _ hn => (by cases hn)) rfl rfl fun p hp => (by cases hp)
  | launch hst =>
    -- the new process is the last one
    refine inside hi (hi.owns hst fun _ hn => (by cases hn)) rfl rfl ?_
    show v.links.length + 1 = (v.links ++ [({} : Pipes)]).length
    rw [List.length_append]
    rfl
  | probe now hst hl =>
    refine inside hi (hi.owns hst fun _ hn => (by cases hn)) rfl rfl ?_
    exact (h.stage_of hst).trans List.length_set.symm
  | @probeIo t p x l l' a result deadline now hst hl hstep =>
    refine inside hi (hi.owns hst fun _ hn => (by cases hn)) rfl rfl ?_
    have hlen : p + 1 = (v.links.set p l').length := (h.stage_of hst).trans List.length_set.symm
    cases result with
    | more x' => exact hlen
    | frame resp =>
      rw [probeStage]
      split_ifs
      · trivial
      · exact hlen
    | failed kind message => trivial
  | @install t p hst =>
    refine inside hi (hi.owns hst fun _ hn => (by cases hn)) rfl rfl fun p' hp' => ?_
    obtain rfl := Option.some.inj hp'
    exact h.stage_of hst
  | @begin t r p l now hst hslot hl hlt =>
    refine inside hi (hi.owns hst fun _ hn => (by cases hn)) rfl rfl ?_
    exact (h.stage_of hst p hslot).trans List.length_set.symm
  | @io t r p x l l' a result deadline now hst hl hstep =>
    refine inside hi (hi.owns hst fun _ hn => (by cases hn)) rfl rfl ?_
    have hlen : p + 1 = (v.links.set p l').length := (h.stage_of hst).trans List.length_set.symm
    cases result with
    | more x' => exact hlen
    | frame resp =>
      -- the exchange was with the process in the slot
      intro p' hp'
      obtain rfl := Option.some.inj ((hi.ok_of hst).1.symm.trans hp')
      exact hlen
    | failed kind message => trivial
  | serve hl ha hserve => exact h.server
  | emit hl hn => exact h.server

theorem reach {c : Config} {s : System} (h : (workerMachine c).Reach Machine.anyStep s) :
    Newest s.view := by
  refine h.invariant (P := fun s => Newest s.view) ?_ fun s act s' hr _ hst hs =>
    hs.step (InStep.reach hr) (System.view_step hst)
  exact ⟨fun t => trivial, fun _ p hp => (by cases hp)⟩

end Newest

/-! ### The order of the requests -/

/-- The request at the place was asked after `s`: of the last process of `s` or a later one, behind
all that the process had been asked. -/
structure LaterThan (s : System) (x : Place) : Prop where
  proc : s.view.links.length ≤ x.1 + 1
  position : ∀ l, s.view.links[x.1]? = some l → l.asked.length ≤ x.2

/-- What was asked at `s` comes before what was asked after `s`. -/
theorem LaterThan.lt {s : System} {t : CallId} {x y : Place} {f : Frame} (h : LaterThan s y)
    (hx : AskedAt s.view.links t x f) : toLex x < toLex y := by
  obtain ⟨l, hl, hasked⟩ := hx
  have hproc := (List.getElem?_eq_some_iff.mp hl).1
  have hposition := (List.getElem?_eq_some_iff.mp hasked).1
  refine Prod.Lex.toLex_lt_toLex'.mpr ⟨?_, fun heq => ?_⟩
  · exact Nat.le_of_lt_succ (Nat.lt_of_lt_of_le hproc h.proc)
  · rw [heq] at hl
    exact Nat.lt_of_lt_of_le hposition (h.position l hl)

/-- What is asked in the end was asked at `s` or after `s`. -/
theorem AskedAt.of_path {c : Config} {G : System → Act → Prop} {s s' : System} {as : List Act}
    (h : (workerMachine c).Path G s as s') (hr : (workerMachine c).Reach G s) {t : CallId}
    {x : Place} {f : Frame} (hx : AskedAt s'.view.links t x f) :
    AskedAt s.view.links t x f ∨ LaterThan s x := by
  induction h with
  | nil s => exact .inl hx
  | @cons s u s' act as hG hst hrest ih =>
    have hi := InStep.reach (hr.mono fun _ _ _ => trivial)
    have hgrows := hi.grows (System.view_step hst)
    obtain hold | hlater := ih (hr.next hG hst) hx
    · obtain hold | ⟨-, r, l, ht, hproc, hl, hend⟩ := hold.of_step (System.traffic_step hst)
      · exact .inl hold
      · -- the step asks the process in the slot
        refine .inr ⟨?_, fun l' hl' => ?_⟩
        · have hnewest := Newest.reach (hr.mono fun _ _ _ => trivial)
          exact Nat.le_of_eq (hnewest.stage_of (System.stage_of_getElem? ht) x.1 hproc).symm
        · obtain rfl := Option.some.inj (hl.symm.trans hl')
          exact Nat.le_of_eq hend.symm
    · refine .inr ⟨Nat.le_trans hgrows.length_le hlater.proc, fun l hl => ?_⟩
      obtain ⟨l', hl', hle⟩ := hgrows x.1 l hl
      exact Nat.le_trans hle.1.length_le (hlater.position l' hl')

/-! ### At most once -/

/-- The request of a call is asked at most once, and not before the call begins its exchange. -/
structure AskedOnce (s : System) : Prop where
  begun : ∀ t x f, AskedAt s.view.links t x f → ∃ pc, s.threads[t]? = some pc ∧ pc.begun = true
  once : ∀ t x f y g, AskedAt s.view.links t x f → AskedAt s.view.links t y g → x = y

namespace AskedOnce

variable {c : Config} {s s' : System} {act : Act}

theorem step (h : AskedOnce s) (hst : s.step c act = some s') : AskedOnce s' := by
  have htraffic := System.traffic_step hst
  -- a thread at the begin of its exchange has asked nothing
  have hfirst : ∀ {t x f r}, AskedAt s.view.links t x f → s.threads[t]? = some (.begin r) →
      False := by
    intro t x f r hx ht
    obtain ⟨pc, ht', hpc⟩ := h.begun t x f hx
    obtain rfl := Option.some.inj (ht.symm.trans ht')
    cases hpc
  refine ⟨fun t x f hx => ?_, fun t x f y g hx hy => ?_⟩
  · obtain hx | ⟨rfl, r, l, ht, -⟩ := hx.of_step htraffic
    · obtain ⟨pc, ht, hpc⟩ := h.begun t x f hx
      exact System.begun_step hst ht hpc
    · exact System.begun_of_begin hst rfl ht
  · obtain hx | ⟨-, r, l, ht, hproc, hl, hend⟩ := hx.of_step htraffic
    · obtain hy | ⟨-, r', l', ht', -⟩ := hy.of_step htraffic
      · exact h.once t x f y g hx hy
      · exact (hfirst hx ht').elim
    · obtain hy | ⟨-, r', l', -, hproc', hl', hend'⟩ := hy.of_step htraffic
      · exact (hfirst hy ht).elim
      · -- the step asks one process, at the end
        have hsame : x.1 = y.1 := Option.some.inj (hproc.symm.trans hproc')
        rw [← hsame] at hl'
        obtain rfl := Option.some.inj (hl.symm.trans hl')
        exact Prod.ext hsame (hend.trans hend'.symm)

theorem reach {G : System → Act → Prop} (h : (workerMachine c).Reach G s) : AskedOnce s := by
  refine h.invariant (P := AskedOnce) ?_ fun s act s' _ _ hst hs => hs.step hst
  refine ⟨fun t x f hx => ?_, fun t x f y g hx => ?_⟩
  · obtain ⟨l, hl, -⟩ := hx
    cases hl
  · obtain ⟨l, hl, -⟩ := hx
    cases hl

end AskedOnce

/-- A call that has begun its exchange asks nothing any more. -/
theorem AskedAt.of_begun {c : Config} {G : System → Act → Prop} {s s' : System} {as : List Act}
    (h : (workerMachine c).Path G s as s') {t : CallId} {pc : Pc} (ht : s.threads[t]? = some pc)
    (hpc : pc.begun = true) {x : Place} {f : Frame} (hx : AskedAt s'.view.links t x f) :
    AskedAt s.view.links t x f := by
  induction h generalizing pc with
  | nil s => exact hx
  | cons hG hst hrest ih =>
    obtain ⟨pc', ht', hpc'⟩ := System.begun_step hst ht hpc
    obtain hold | ⟨-, r, l, hbegin, -⟩ := (ih ht' hpc' hx).of_step (System.traffic_step hst)
    · exact hold
    · obtain rfl := Option.some.inj (ht.symm.trans hbegin)
      cases hpc

/-! ### The answers -/

/-- What a process answers is what a round of `run_ipc_worker` writes.  Its handlers depend on
`env p n` while process `p` serves its request `n`. -/
def ServedBy (env : ProcId → Nat → Daemon.Env) (s : System) : Act → Prop
  | .serve p answer => ∀ q, s.procs[p]? = some q → ∃ rest,
      Daemon.serveRequest (env p q.link.answers.length) q.link.pending = .ok (answer, rest)
  | _ => True

/-- Every answer is the one that its round writes for the request. -/
def Genuine (env : ProcId → Nat → Daemon.Env) (s : System) : Prop :=
  ∀ x f b, AnswersAt s.view.links x f b → f.payload.length ≤ Daemon.kMaxPayload ∧
    ∃ resp, Daemon.dispatch (env x.1 x.2) f = .ok resp ∧ b = Daemon.writeFrame resp

theorem Genuine.step {c : Config} {env : ProcId → Nat → Daemon.Env} {s s' : System} {act : Act}
    (h : Genuine env s) (hserved : ServedBy env s act) (hst : s.step c act = some s') :
    Genuine env s' := by
  intro x f b hx
  obtain hx | ⟨rfl, l, rest, hl, hend, hread, hkind⟩ := hx.of_step (System.traffic_step hst)
  · exact h x f b hx
  · -- the answer is new
    obtain ⟨q, hq, rfl⟩ := Option.map_eq_some_iff.mp
      ((List.getElem?_map (f := Process.link)).symm.trans hl)
    obtain ⟨rest', hserve⟩ := hserved q hq
    unfold Daemon.serveRequest at hserve
    rw [hread, ok_bind] at hserve
    dsimp only at hserve
    rw [if_neg (not_not_intro hkind), ← hend] at hserve
    obtain ⟨resp, hresp, hserve⟩ := bind_eq_ok.mp hserve
    exact ⟨(Daemon.readFrame_eq_ok.mp hread).2, resp, hresp,
      (Prod.mk.inj (Except.ok.inj hserve)).1.symm⟩

theorem Genuine.reach {c : Config} {env : ProcId → Nat → Daemon.Env} {s : System}
    (h : (workerMachine c).Reach (ServedBy env) s) : Genuine env s := by
  refine h.invariant (P := Genuine env) (fun x f b hx => ?_) fun s act s' _ hG hst hs =>
    hs.step hG hst
  obtain ⟨l, hl, -⟩ := hx
  cases hl

/-- A response that was read from the answer of a round, and that matches the request, is the result
of the exchange. -/
theorem exchange_of_answer {env : Daemon.Env} {r : Request} {resp resp' : Frame}
    (hle : r.payload.length ≤ Daemon.kMaxPayload)
    (hdispatch : Daemon.dispatch env r.frame = .ok resp')
    (hread : readFrame readExact (Daemon.writeFrame resp') = .ok (resp, []))
    (hmatch : Matches r resp) : exchange env r.id r.opcode r.payload = .ok resp := by
  have hmax : Daemon.kMaxPayload = 2 ^ 28 := by decide
  have hlt : (requestFrame r.id r.opcode r.payload).payload.length < 2 ^ 32 := by
    show r.payload.length < 2 ^ 32
    omega
  have hserve := Daemon.serveRequest_frame env hlt rfl
  have hsmall : ¬ (requestFrame r.id r.opcode r.payload).payload.length > Daemon.kMaxPayload :=
    Nat.not_lt.mpr hle
  rw [if_neg hsmall, show Daemon.dispatch env (requestFrame r.id r.opcode r.payload) = _ from
    hdispatch] at hserve
  rw [exchange, writeFrame_eq hlt, mapErr_ok, ok_bind, hserve]
  dsimp only [Except.map]
  rw [hread, mapErr_ok, ok_bind]
  dsimp only
  rw [if_neg]
  rintro (hne | hne | hne)
  · exact hne hmatch.1
  · exact hne hmatch.2.1
  · exact hne hmatch.2.2

/-! ### Runs -/

/-- A run of the supervisor with real worker processes. -/
structure ServedRun (c : Config) (env : ProcId → Nat → Daemon.Env) where
  acts : List Act
  final : System
  path : (workerMachine c).Path (ServedBy env) (workerMachine c).init acts final

namespace ServedRun

variable {c : Config} {env : ProcId → Nat → Daemon.Env}

/-- The system was in `s` at some time. -/
def Through (run : ServedRun c env) (s : System) : Prop :=
  ∃ as bs, run.acts = as ++ bs ∧
    (workerMachine c).Path (ServedBy env) (workerMachine c).init as s

/-- Call `t` of the request `r` returned the response `resp`. -/
def Returned (run : ServedRun c env) (t : CallId) (r : Request) (resp : Frame) : Prop :=
  ∃ s, run.Through s ∧ s.threads[t]? = some (.returned r (.ok resp))

/-- Call `t` had returned, with a response or an error, when `u` was called. -/
def Before (run : ServedRun c env) (t u : CallId) : Prop :=
  ∃ s r result, run.Through s ∧ s.threads[t]? = some (.returned r result) ∧ s.threads.length ≤ u

/-- In the run the request of call `t` was asked at the place. -/
def Asked (run : ServedRun c env) (t : CallId) (x : Place) : Prop :=
  ∃ f, AskedAt run.final.view.links t x f

theorem Through.path {run : ServedRun c env} {s : System} (h : run.Through s) :
    (workerMachine c).Reach (ServedBy env) s ∧
      ∃ bs, (workerMachine c).Path (ServedBy env) s bs run.final := by
  obtain ⟨as, bs, hacts, hpath⟩ := h
  have hrun := run.path
  rw [hacts] at hrun
  obtain ⟨u, hfirst, hrest⟩ := hrun.split
  obtain rfl := hpath.unique hfirst
  exact ⟨⟨as, hpath⟩, bs, hrest⟩

/-- The place of a call that returned, and what its exchange gives there. -/
theorem place_of_returned {run : ServedRun c env} {s : System} {t : CallId} {r : Request}
    {resp : Frame} (hs : run.Through s) (ht : s.threads[t]? = some (.returned r (.ok resp))) :
    ∃ x, AskedAt s.view.links t x r.frame ∧
      exchange (env x.1 x.2) r.id r.opcode r.payload = .ok resp := by
  obtain ⟨hr, -⟩ := hs.path
  have hi := InStep.reach (hr.mono fun _ _ _ => trivial)
  obtain ⟨p, l, hl, i, b, hasked, hanswers, hread⟩ :=
    hi.ok_of (System.stage_of_getElem? ht) r resp rfl
  obtain ⟨hle, resp', hdispatch, rfl⟩ :=
    Genuine.reach hr (p, i) r.frame b ⟨l, hl, hanswers⟩
  have hmatch := TakenMatch.reach hr t _ r resp ht rfl
  exact ⟨(p, i), ⟨l, hl, hasked⟩, exchange_of_answer hle hdispatch hread hmatch⟩

end ServedRun

/-- **The calls take effect one after the other.**  In a run of the supervisor with its threads,
timeouts, failures and worker processes, each request is asked at most once, at its call's place; a
call that returns a response returns what its exchange with the worker gives at this place; and the
order of the places agrees with the order of the calls that do not overlap, whatever they return. -/
theorem calls_linearizable {c : Config} {env : ProcId → Nat → Daemon.Env}
    (run : ServedRun c env) : ∃ place : CallId → Place,
      (∀ t x, run.Asked t x → x = place t) ∧
      (∀ t r resp, run.Returned t r resp → run.Asked t (place t) ∧
        exchange (env (place t).1 (place t).2) r.id r.opcode r.payload = .ok resp) ∧
      ∀ t u x y, run.Before t u → run.Asked t x → run.Asked u y → toLex x < toLex y := by
  have hend : (workerMachine c).Reach (ServedBy env) run.final := ⟨run.acts, run.path⟩
  -- a call has one place
  have hplace : ∀ t, ∃ x, ∀ y, run.Asked t y → y = x := by
    intro t
    by_cases h : ∃ x, run.Asked t x
    · obtain ⟨x, f, hx⟩ := h
      exact ⟨x, fun y ⟨g, hy⟩ => (AskedOnce.reach hend).once t y g x f hy hx⟩
    · exact ⟨(0, 0), fun y hy => absurd ⟨y, hy⟩ h⟩
  choose place hplace using hplace
  -- what was asked is asked in the end
  have hstay : ∀ {s : System} {t x f}, run.Through s → AskedAt s.view.links t x f →
      x = place t ∧ run.Asked t x := by
    intro s t x f hs hx
    obtain ⟨hr, bs, hrest⟩ := hs.path
    have hasked : run.Asked t x := ⟨f, hx.mono (.of_path hrest hr)⟩
    exact ⟨hplace t x hasked, hasked⟩
  refine ⟨place, hplace, fun t r resp ⟨s, hs, ht⟩ => ?_,
    fun t u x y ⟨s, r, result, hs, ht, hlen⟩ ⟨f, hx⟩ ⟨g, hy⟩ => ?_⟩
  · obtain ⟨x, hx, hexchange⟩ := ServedRun.place_of_returned hs ht
    obtain ⟨rfl, hasked⟩ := hstay hs hx
    exact ⟨hasked, hexchange⟩
  · obtain ⟨hr, bs, hrest⟩ := hs.path
    -- what a returned call has asked, it had asked before it returned
    have hx := AskedAt.of_begun hrest ht rfl hx
    obtain hy | hlater := AskedAt.of_path hrest hr hy
    · -- a call that has not begun has asked nothing
      obtain ⟨pc, hu, -⟩ := (AskedOnce.reach hr).begun u y g hy
      exact absurd (List.getElem?_eq_some_iff.mp hu).1 (Nat.not_lt.mpr hlen)
    · exact hlater.lt hx

/-! ### A run -/

/-- The same as `ServedBy`, to be evaluated. -/
def servedBy (env : ProcId → Nat → Daemon.Env) (s : System) : Act → Bool
  | .serve p answer =>
    s.procs[p]?.all fun q =>
      match Daemon.serveRequest (env p q.link.answers.length) q.link.pending with
      | .ok (answer', _) => answer' = answer
      | .error _ => false
  | _ => true

theorem servedBy_iff {env : ProcId → Nat → Daemon.Env} {s : System} {act : Act} :
    servedBy env s act = true ↔ ServedBy env s act := by
  cases act with
  | serve p answer =>
    unfold servedBy ServedBy
    cases hq : s.procs[p]? with
    | none => simp [hq]
    | some q =>
      simp only [hq, Option.all_some, Option.some.injEq, forall_eq']
      cases Daemon.serveRequest (env p q.link.answers.length) q.link.pending with
      | error e => simp
      | ok out => simp [Prod.ext_iff]
  | _ => exact iff_of_true rfl trivial

instance (env : ProcId → Nat → Daemon.Env) : DecidableRel (ServedBy env) :=
  fun _ _ => decidable_of_iff _ servedBy_iff

/-- A worker whose version is the place of the request. -/
def freshEnv (p : ProcId) (n : Nat) : Daemon.Env :=
  (Daemon.freshAnswers (toString p ++ "." ++ toString n)).env (Json.reader [] none) fun _ => ""

/-- What the worker says about its health. -/
def health (p : ProcId) (n : Nat) (id : UInt32) : Frame :=
  let req := requestFrame id opHealth []
  match Daemon.dispatch (freshEnv p n) req with
  | .ok resp => resp
  | .error _ => req

/-- The call that puts worker `p` into the slot. -/
def spawning (t : CallId) (p : ProcId) (pid : UInt32) : List Act :=
  [.request opHealth [], .run t, .run t, .run t, .run t, .run t, .run t, .launch t pid, .run t,
   .io t (.write 20), .serve p (Daemon.writeFrame (health p 0 0)), .emit p 262, .io t (.read 20),
   .io t (.read 242), .run t, .run t, .run t, .run t]

/-- What is left of a call from then on. -/
def exchanging (t : CallId) (p : ProcId) (id : UInt32) : List Act :=
  [.io t (.write 20), .serve p (Daemon.writeFrame (health p 1 id)), .emit p 262, .io t (.read 20),
   .io t (.read 242), .run t, .run t, .run t, .run t]

/-- A call whose worker exits before it has read the request. -/
def losing : List Act :=
  [.request opHealth [], .run 1, .run 1, .run 1, .run 1, .run 1, .run 1, .run 1, .run 1,
   .io 1 (.write 20), .exit 0, .io 1 (.fail .unexpectedEof "worker stdout closed"), .run 1, .run 1,
   .run 1, .run 1, .run 1, .run 1, .run 1, .run 1]

def firstCall : List Act := spawning 0 0 42 ++ exchanging 0 0 1

/-- Three calls one after the other, of which the second one fails. -/
def threeCalls : List Act := (firstCall ++ losing) ++ (spawning 3 1 43 ++ exchanging 3 1 3)

/-- The frame that stands at a place. -/
def System.askedAt (s : System) (x : Place) : Option (Asker × Frame) :=
  s.view.links[x.1]?.bind fun l => l.asked[x.2]?

theorem askedAt_of_eq {s : System} {t : CallId} {x : Place} {f : Frame}
    (h : s.askedAt x = some (.request t, f)) : AskedAt s.view.links t x f :=
  Option.bind_eq_some_iff.mp h

/-- The second call has its place between the other two although it gets no response. -/
theorem calls_linearizable_threeCalls : ∃ (run : ServedRun defaultConfig freshEnv) (resp : Frame),
    run.acts = threeCalls ∧ run.Before 0 1 ∧ run.Before 1 3 ∧
    run.Asked 0 (0, 1) ∧ run.Asked 1 (0, 2) ∧ run.Asked 3 (1, 1) ∧
    toLex ((0, 1) : Place) < toLex (0, 2) ∧ toLex ((0, 2) : Place) < toLex (1, 1) ∧
    run.Returned 3 ⟨3, opHealth, [], false, seconds 25⟩ resp ∧
    exchange (freshEnv 1 1) 3 opHealth [] = .ok resp := by
  have hfirst : ((workerMachine defaultConfig).exec (ServedBy freshEnv) {} firstCall).map
      (fun s => (s.threads.length, s.threads[0]?)) = some (1, some (.returned
        ⟨1, opHealth, [], false, seconds 25⟩ (.ok (health 0 1 1)))) := by
    decide +kernel
  have hsecond : ((workerMachine defaultConfig).exec (ServedBy freshEnv) {}
      (firstCall ++ losing)).map (fun s => (s.threads.length, s.threads[1]?)) =
        some (3, some (.returned ⟨2, opHealth, [], false, seconds 25⟩
          (.error (.io "worker stdout closed")))) := by
    decide +kernel
  have hthird : ((workerMachine defaultConfig).exec (ServedBy freshEnv) {} threeCalls).map
      (fun s => (s.threads[3]?, [(0, 1), (0, 2), (1, 1)].map s.askedAt)) =
        some (some (.returned ⟨3, opHealth, [], false, seconds 25⟩ (.ok (health 1 1 3))),
          [some (.request 0, requestFrame 1 opHealth []),
            some (.request 1, requestFrame 2 opHealth []),
            some (.request 3, requestFrame 3 opHealth [])]) := by
    decide +kernel
  obtain ⟨s₁, hs₁, hfirst⟩ := Option.map_eq_some_iff.mp hfirst
  obtain ⟨hlength₁, hthread₁⟩ := Prod.mk.inj hfirst
  obtain ⟨s₂, hs₂, hsecond⟩ := Option.map_eq_some_iff.mp hsecond
  obtain ⟨hlength₂, hthread₂⟩ := Prod.mk.inj hsecond
  obtain ⟨s₃, hs₃, hthird⟩ := Option.map_eq_some_iff.mp hthird
  obtain ⟨hthread₃, hasked⟩ := Prod.mk.inj hthird
  obtain ⟨hasked₀, hasked⟩ := List.cons.inj hasked
  obtain ⟨hasked₁, hasked⟩ := List.cons.inj hasked
  obtain ⟨hasked₃, -⟩ := List.cons.inj hasked
  let run : ServedRun defaultConfig freshEnv := ⟨threeCalls, s₃, Machine.path_of_exec hs₃⟩
  have hbefore : run.Before 0 1 := by
    refine ⟨s₁, _, _, ⟨firstCall, _, List.append_assoc .., Machine.path_of_exec hs₁⟩, hthread₁, ?_⟩
    exact hlength₁.le
  have hbefore' : run.Before 1 3 :=
    ⟨s₂, _, _, ⟨_, _, rfl, Machine.path_of_exec hs₂⟩, hthread₂, hlength₂.le⟩
  have hreturned : run.Returned 3 ⟨3, opHealth, [], false, seconds 25⟩ (health 1 1 3) :=
    ⟨s₃, ⟨threeCalls, [], (List.append_nil _).symm, Machine.path_of_exec hs₃⟩, hthread₃⟩
  have hplace₀ : run.Asked 0 (0, 1) := ⟨_, askedAt_of_eq hasked₀⟩
  have hplace₁ : run.Asked 1 (0, 2) := ⟨_, askedAt_of_eq hasked₁⟩
  have hplace₃ : run.Asked 3 (1, 1) := ⟨_, askedAt_of_eq hasked₃⟩
  obtain ⟨place, honce, hresponse, horder⟩ := calls_linearizable run
  have hexchange := (hresponse 3 _ _ hreturned).2
  rw [← honce 3 _ hplace₃] at hexchange
  exact ⟨run, _, rfl, hbefore, hbefore', hplace₀, hplace₁, hplace₃,
    horder 0 1 _ _ hbefore hplace₀ hplace₁, horder 1 3 _ _ hbefore' hplace₁ hplace₃, hreturned,
    hexchange⟩

end Supervisor

end WrapperPaas
