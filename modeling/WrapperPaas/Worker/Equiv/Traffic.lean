/-
  What goes through the pipes, and when.

  `Traffic` lists what a step does to the pipes of all processes: only the step that begins a
  request adds a request frame (`AskedAt.of_step`), and only a process that reads a frame adds an
  answer (`AnswersAt.of_step`).
-/
import Mathlib.Data.List.Basic
import WrapperPaas.Worker.Equiv.Calls
import WrapperPaas.Worker.Equiv.Synchrony

namespace WrapperPaas

namespace Supervisor

/-! ### The pipes -/

/-- What a step does to the pipes. -/
inductive Traffic (s : System) : Act → List Pipes → Prop
  | quiet {act} : Traffic s act s.view.links
  | launch {t pid} : Traffic s (.launch t pid) (s.view.links ++ [({} : Pipes)])
  | probe {t p l} : s.view.links[p]? = some l →
      Traffic s (.run t) (s.view.links.set p (l.ask (.probe t, probeFrame)))
  | begin {t r p l} : s.threads[t]? = some (.begin r) → s.worker.proc = some p →
      s.view.links[p]? = some l →
      Traffic s (.run t) (s.view.links.set p (l.ask (.request t, r.frame)))
  /-- bytes are written or read -/
  | io {t a p l l'} : s.view.links[p]? = some l → l'.asked = l.asked → l'.answers = l.answers →
      Traffic s (.io t a) (s.view.links.set p l')
  | serve {p answer l l'} : s.view.links[p]? = some l → System.serve l answer = some l' →
      Traffic s (.serve p answer) (s.view.links.set p l')
  | emit {p n l} : s.view.links[p]? = some l →
      Traffic s (.emit p n) (s.view.links.set p (l.emit n))

/-- A round of a transfer begins no request and answers none. -/
theorem Transfer.step_same {x : Transfer} {a : IoAct} {deadline now : Instant} {l l' : Pipes}
    {result : IoResult} (h : x.step deadline now l a = some (l', result)) :
    l'.asked = l.asked ∧ l'.answers = l.answers := by
  unfold Transfer.step at h
  split at h
  · -- bytes are written
    split_ifs at h <;> obtain ⟨rfl, -⟩ := Prod.mk.inj (Option.some.inj h) <;> exact ⟨rfl, rfl⟩
  · -- bytes are read, and there is a frame, or not yet, or there can be none
    split_ifs at h
    dsimp only at h
    split at h
    · obtain ⟨rfl, -⟩ := Prod.mk.inj (Option.some.inj h)
      exact ⟨rfl, rfl⟩
    · obtain ⟨rfl, -⟩ := Prod.mk.inj (Option.some.inj h)
      exact ⟨rfl, rfl⟩
    · obtain ⟨rfl, -⟩ := Prod.mk.inj (Option.some.inj h)
      exact ⟨rfl, rfl⟩
    · cases h
  · obtain ⟨rfl, -⟩ := Prod.mk.inj (Option.some.inj h)
    exact ⟨rfl, rfl⟩
  -- the time is over, or a system call fails
  · split_ifs at h
    obtain ⟨rfl, -⟩ := Prod.mk.inj (Option.some.inj h)
    exact ⟨rfl, rfl⟩
  · split_ifs at h
    obtain ⟨rfl, -⟩ := Prod.mk.inj (Option.some.inj h)
    exact ⟨rfl, rfl⟩
  · cases h

namespace System

variable {c : Config} {s s' : System} {t : CallId} {pc : Pc} {act : Act}

theorem traffic_of_same (h : s'.view.links = s.view.links) : Traffic s act s'.view.links := by
  rw [h]
  exact .quiet

theorem links_reap (p : ProcId) : (s.reap p).view.links = s.view.links :=
  congrArg View.links (view_setProc fun _ => rfl)

theorem links_killProc (p : ProcId) : (s.killProc p).view.links = s.view.links :=
  congrArg View.links (view_setProc fun _ => rfl)

theorem links_killPid (pid : UInt32) : (s.killPid pid).view.links = s.view.links :=
  congrArg View.links (view_killPid pid)

theorem links_cleanup (old : Option ProcId) : (s.cleanup old).view.links = s.view.links :=
  congrArg View.links (view_cleanup old)

theorem links_setLink (p : ProcId) (l : Pipes) :
    (s.setLink p l).view.links = s.view.links.set p l :=
  congrArg View.links (view_setLink l)

theorem traffic_runRestart {r : Request} {rpc : RestartPc} (h : s.runRestart t r rpc = some s') :
    Traffic s (.run t) s'.view.links := by
  apply traffic_of_same
  cases rpc with
  | cleanup old =>
    obtain rfl := Option.some.inj h
    exact links_cleanup old
  | take =>
    simp only [runRestart] at h
    split_ifs at h
    obtain rfl := Option.some.inj h
    rfl
  | sleep wake =>
    simp only [runRestart] at h
    split_ifs at h
    obtain rfl := Option.some.inj h
    rfl
  | relock =>
    simp only [runRestart] at h
    split_ifs at h
    · obtain rfl := Option.some.inj h
      rfl
    · obtain rfl := Option.some.inj h
      rfl
  | storePid | count | reason | unlock =>
    obtain rfl := Option.some.inj h
    rfl

theorem traffic_runPc (ht : s.threads[t]? = some pc) (h : s.runPc c t pc = some s') :
    Traffic s (.run t) s'.view.links := by
  -- only the begin of an exchange and the probe of a new process ask something
  cases pc with
  | begin r =>
    simp only [runPc] at h
    split at h
    · obtain rfl := Option.some.inj h
      exact .quiet
    · next p hp =>
      split at h
      · next bytes q hwrite hq =>
        obtain rfl := Option.some.inj h
        show Traffic s _ (s.setLink p _).view.links
        rw [links_setLink]
        exact .begin ht hp (links_getElem? hq)
      · -- a frame that cannot be written is not asked
        obtain rfl := Option.some.inj h
        exact .quiet
      · cases h
  | spawn k spc =>
    cases spc with
    | storePid p =>
      simp only [runPc] at h
      split at h
      · cases h
      · next q hq =>
        obtain rfl := Option.some.inj h
        show Traffic s _ (s.setLink p _).view.links
        rw [links_setLink]
        exact .probe (links_getElem? hq)
    | launch | probing => cases h
    | ready | failed =>
      obtain rfl := Option.some.inj h
      exact .quiet
  | ensureLock =>
    simp only [runPc] at h
    split_ifs at h
    obtain rfl := Option.some.inj h
    exact .quiet
  | ensureCheck =>
    simp only [runPc] at h
    split at h
    · obtain rfl := Option.some.inj h
      exact .quiet
    · split at h
      · cases h
      · split_ifs at h
        · obtain rfl := Option.some.inj h
          exact .quiet
        · obtain rfl := Option.some.inj h
          exact traffic_of_same (links_reap _)
  | lockWait r lockDeadline wake =>
    simp only [runPc] at h
    split_ifs at h
    · obtain rfl := Option.some.inj h
      exact .quiet
    · obtain rfl := Option.some.inj h
      exact .quiet
    · obtain rfl := Option.some.inj h
      exact .quiet
  | recover r =>
    simp only [runPc] at h
    split at h
    · obtain rfl := Option.some.inj h
      exact .quiet
    · obtain rfl := Option.some.inj h
      exact .quiet
  | tryWait r =>
    simp only [runPc] at h
    split at h
    · obtain rfl := Option.some.inj h
      exact .quiet
    · split at h
      · cases h
      · split_ifs at h
        · obtain rfl := Option.some.inj h
          exact .quiet
        · obtain rfl := Option.some.inj h
          exact traffic_of_same (links_reap _)
  | abandon r a apc =>
    obtain rfl := Option.some.inj h
    cases apc with
    | cleanup old => exact traffic_of_same (links_cleanup old)
    | take | storePid | count | reason | recordError => exact .quiet
  | returned r result =>
    cases result with
    | error e => cases h
    | ok resp =>
      simp only [runPc] at h
      split_ifs at h
      obtain rfl := Option.some.inj h
      exact .quiet
  | restart r rpc => exact traffic_runRestart h
  | cleaner p killed =>
    cases killed with
    | false =>
      obtain rfl := Option.some.inj h
      exact traffic_of_same (links_killProc p)
    | true =>
      simp only [runPc] at h
      split at h
      · cases h
      · split_ifs at h
        obtain rfl := Option.some.inj h
        exact traffic_of_same (links_reap p)
  | killer stale pid =>
    obtain rfl := Option.some.inj h
    exact traffic_of_same (links_killPid pid)
  | exchange | ensureReturned | done => cases h
  | _ =>
    obtain rfl := Option.some.inj h
    exact .quiet

theorem traffic_runIo {a : IoAct} (h : s.runIo t a pc = some s') :
    Traffic s (.io t a) s'.view.links := by
  unfold runIo at h
  split at h
  · next r p x =>
    split at h
    · cases h
    · next q hq =>
      split at h
      · cases h
      · next l result hstep =>
        obtain rfl := Option.some.inj h
        show Traffic s _ (s.setLink p l).view.links
        rw [links_setLink]
        exact .io (links_getElem? hq) (Transfer.step_same hstep).1 (Transfer.step_same hstep).2
  · next k p deadline x =>
    split at h
    · cases h
    · next q hq =>
      split at h
      · cases h
      · next l result hstep =>
        obtain rfl := Option.some.inj h
        show Traffic s _ (s.setLink p l).view.links
        rw [links_setLink]
        exact .io (links_getElem? hq) (Transfer.step_same hstep).1 (Transfer.step_same hstep).2
  · cases h

/-- Every step is one of the cases of `Traffic`. -/
theorem traffic_step (h : s.step c act = some s') : Traffic s act s'.view.links := by
  unfold step at h
  split_ifs at h
  cases act with
  | run u =>
    obtain ⟨pc, hu, hf⟩ := withThread_eq_some h
    exact traffic_runPc hu hf
  | io u a =>
    obtain ⟨pc, hu, hf⟩ := withThread_eq_some h
    exact traffic_runIo hf
  | poisoned u =>
    obtain ⟨pc, hu, hf⟩ := withThread_eq_some h
    obtain ⟨pc', hpc', rfl⟩ := Option.map_eq_some_iff.mp hf
    exact .quiet
  | tryWaitFails u message =>
    obtain ⟨pc, hu, hf⟩ := withThread_eq_some h
    split at hf
    · obtain rfl := Option.some.inj hf
      exact .quiet
    · obtain rfl := Option.some.inj hf
      exact .quiet
    · cases hf
  | launch u pid =>
    obtain ⟨pc, hu, hf⟩ := withThread_eq_some h
    split at hf
    · split_ifs at hf
      obtain rfl := Option.some.inj hf
      show Traffic s _ (s.fork pid).view.links
      rw [view_fork]
      exact .launch
    · cases hf
  | launchFails u =>
    obtain ⟨pc, hu, hf⟩ := withThread_eq_some h
    split at hf
    · obtain rfl := Option.some.inj hf
      exact .quiet
    · cases hf
  | serve p answer =>
    dsimp only at h
    split_ifs at h
    obtain ⟨q, hq, hf⟩ := withProc_eq_some h
    obtain ⟨l, hl, rfl⟩ := Option.map_eq_some_iff.mp hf
    rw [links_setLink]
    exact .serve (links_getElem? hq) hl
  | emit p n =>
    obtain ⟨q, hq, hf⟩ := withProc_eq_some h
    split_ifs at hf
    obtain rfl := Option.some.inj hf
    rw [links_setLink]
    exact .emit (links_getElem? hq)
  | exit p =>
    obtain ⟨q, hq, hf⟩ := withProc_eq_some h
    obtain rfl := Option.some.inj hf
    exact traffic_of_same (links_killProc p)
  | ensureStarted | request opcode payload | decryptBatch payload | tick d =>
    obtain rfl := Option.some.inj h
    exact .quiet

end System

/-! ### Requests and answers -/

/-- A process among all, and a position in what it was asked. -/
abbrev Place := ProcId × Nat

/-- At the place stands the request frame `f` of thread `t`. -/
def AskedAt (links : List Pipes) (t : CallId) (x : Place) (f : Frame) : Prop :=
  ∃ l, links[x.1]? = some l ∧ l.asked[x.2]? = some (.request t, f)

/-- At the place stands the answer `b` to the frame `f`. -/
def AnswersAt (links : List Pipes) (x : Place) (f : Frame) (b : Bytes) : Prop :=
  ∃ l, links[x.1]? = some l ∧ l.answers[x.2]? = some (f, b)

theorem AskedAt.mono {links links' : List Pipes} {t : CallId} {x : Place} {f : Frame}
    (hg : Grows links links') (h : AskedAt links t x f) : AskedAt links' t x f := by
  obtain ⟨l, hl, hasked⟩ := h
  obtain ⟨l', hl', hle⟩ := hg x.1 l hl
  exact ⟨l', hl', Link.getElem?_of_prefix hle.1 hasked⟩

section Place

variable {α : Type} {get : Pipes → List α} {links : List Pipes} {t : CallId} {x : Place} {a : α}
  {f : Frame} {b : Bytes} {p : ProcId} {l l' : Pipes}

/-- `a` stands at the place, in one of the lists of the process. -/
def StandsAt (get : Pipes → List α) (links : List Pipes) (x : Place) (a : α) : Prop :=
  ∃ l, links[x.1]? = some l ∧ (get l)[x.2]? = some a

/-- A process other than `p` keeps what stands there. -/
theorem StandsAt.of_set (h : StandsAt get (links.set p l') x a) :
    StandsAt get links x a ∨ x.1 = p ∧ (get l')[x.2]? = some a := by
  obtain ⟨m, hm, ha⟩ := h
  by_cases hp : p = x.1
  · obtain ⟨hlt, hm⟩ := List.getElem?_eq_some_iff.mp hm
    subst hp
    rw [List.getElem_set_self] at hm
    exact .inr ⟨rfl, by rwa [hm]⟩
  · rw [List.getElem?_set_ne hp] at hm
    exact .inl ⟨m, hm, ha⟩

theorem StandsAt.of_set_same (hl : links[p]? = some l) (h : StandsAt get (links.set p l') x a)
    (hsame : get l' = get l) : StandsAt get links x a := by
  obtain h | ⟨rfl, ha⟩ := h.of_set
  · exact h
  · exact ⟨l, hl, by rwa [← hsame]⟩

/-- What stands there after the list of process `p` grew stood there before, or is the new element
at its end. -/
theorem StandsAt.of_set_concat {a' : α} (hl : links[p]? = some l)
    (h : StandsAt get (links.set p l') x a) (hnew : get l' = get l ++ [a']) :
    StandsAt get links x a ∨ x = (p, (get l).length) ∧ a = a' := by
  obtain h | ⟨rfl, ha⟩ := h.of_set
  · exact .inl h
  rw [hnew, List.getElem?_append] at ha
  split_ifs at ha with hlt
  · exact .inl ⟨l, hl, ha⟩
  · have hend := (List.getElem?_eq_some_iff.mp ha).1
    rw [List.length_singleton] at hend
    have hx : x.2 = (get l).length := by omega
    exact .inr ⟨Prod.ext rfl hx, List.mem_singleton.mp (List.mem_of_getElem? ha)⟩

/-- Nothing stands in the pipes of a new process. -/
theorem StandsAt.of_append (hnil : get {} = []) (h : StandsAt get (links ++ [({} : Pipes)]) x a) :
    StandsAt get links x a := by
  obtain ⟨m, hm, ha⟩ := h
  rw [List.getElem?_append] at hm
  split_ifs at hm
  · exact ⟨m, hm, ha⟩
  · rw [List.mem_singleton.mp (List.mem_of_getElem? hm), hnil] at ha
    cases ha

/-- **A request is asked by the step that begins it**, of the process in the slot. -/
theorem AskedAt.of_step {s : System} {act : Act} {links' : List Pipes} (hs : Traffic s act links')
    (h : AskedAt links' t x f) : AskedAt s.view.links t x f ∨ act = .run t ∧
      ∃ r l, s.threads[t]? = some (.begin r) ∧ s.worker.proc = some x.1 ∧
        s.view.links[x.1]? = some l ∧ x.2 = l.asked.length := by
  cases hs with
  | quiet => exact .inl h
  | launch => exact .inl (StandsAt.of_append rfl h)
  | probe hl =>
    obtain h | ⟨-, hnew⟩ := StandsAt.of_set_concat hl h rfl
    · exact .inl h
    · -- the probe is not a request
      cases hnew
  | begin ht hp hl =>
    obtain h | ⟨rfl, hnew⟩ := StandsAt.of_set_concat hl h rfl
    · exact .inl h
    · cases hnew
      exact .inr ⟨rfl, _, _, ht, hp, hl, rfl⟩
  | io hl hasked hanswers => exact .inl (StandsAt.of_set_same hl h hasked)
  | serve hl hserve =>
    obtain ⟨req, rest, -, rfl⟩ := serve_eq_some hserve
    exact .inl (StandsAt.of_set_same hl h rfl)
  | emit hl => exact .inl (StandsAt.of_set_same hl h rfl)

/-- **A frame is answered by the process that reads it.** -/
theorem AnswersAt.of_step {s : System} {act : Act} {links' : List Pipes}
    (hs : Traffic s act links') (h : AnswersAt links' x f b) :
    AnswersAt s.view.links x f b ∨ act = .serve x.1 b ∧ ∃ l rest, s.view.links[x.1]? = some l ∧
      x.2 = l.answers.length ∧ Daemon.readFrame Daemon.readFull l.pending = .ok (f, rest) ∧
        f.kind = Daemon.kKindRequest := by
  cases hs with
  | quiet => exact .inl h
  | launch => exact .inl (StandsAt.of_append rfl h)
  | probe hl => exact .inl (StandsAt.of_set_same hl h rfl)
  | begin ht hp hl => exact .inl (StandsAt.of_set_same hl h rfl)
  | io hl hasked hanswers => exact .inl (StandsAt.of_set_same hl h hanswers)
  | serve hl hserve =>
    obtain ⟨req, rest, hread, rfl⟩ := serve_eq_some hserve
    split_ifs at h with hkind
    · -- a frame of another kind is skipped
      exact .inl (StandsAt.of_set_same hl h (List.append_nil _))
    · obtain h | ⟨rfl, hnew⟩ := StandsAt.of_set_concat hl h rfl
      · exact .inl h
      · obtain ⟨rfl, rfl⟩ := Prod.mk.inj hnew
        exact .inr ⟨rfl, _, rest, hl, rfl, Daemon.requestDecoder_eq_some.mp hread,
          not_not.mp hkind⟩
  | emit hl => exact .inl (StandsAt.of_set_same hl h rfl)

end Place

end Supervisor

end WrapperPaas
