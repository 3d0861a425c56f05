/-
  Restarts and kills hit the worker they are meant for.

  `restart_after_delay` and `recover_stuck_worker_or_exit` decide on what they have seen before, and
  act without the mutex.  They hit the right worker (`RightTarget`) as long as no other worker comes
  in between (`TargetQuiet`).

  `Justified` says what a thread knows of its target: the worker that answered it, of which the slot
  is the only place, or the worker that was asked the stale request, which is the only live process
  with the pid (`Distinct`, `lastStarted`).
-/
import Mathlib.Data.List.Basic
import WrapperPaas.Worker.Equiv.Coherence
import WrapperPaas.Worker.Equiv.Synchrony

namespace WrapperPaas

namespace Supervisor

/-! ### The condition -/

namespace Pc

/-- The thread is about to take the worker out of the slot that wants to be restarted. -/
def awaitsRestart (c : Config) : Pc → Bool
  | .returned r (.ok resp) => c.wantsRestart r resp
  | .restart _ .take => true
  | _ => false

/-- The thread has found a stale request and is about to swap out the pid. -/
def swapsPid : Pc → Bool
  | .swapPid _ _ => true
  | _ => false

/-- The thread is about to kill the process `pid`, if `stored` is the pid that is stored. -/
def aimsAt (stored pid : UInt32) : Pc → Bool
  | .swapPid _ _ => stored = pid
  | .countKill _ _ pid' | .recordKill _ _ pid' | .killer _ pid' => pid' = pid
  | _ => false

/-- The call has begun to write its request to the worker, and this has not left the slot and its
pid yet.  (A longer payload is given up before the first byte.) -/
def handed : Pc → Bool
  | .exchange _ _ _ | .compare _ _ | .resetFailures _ _ | .untrack _ (.ok _) => true
  | .countTimeout r _ | .abandon r _ .take | .abandon r _ (.storePid _) =>
    r.payload.length < 2 ^ 32
  | _ => false

def installs : Pc → Bool
  | .install _ _ => true
  | _ => false

def storesPid : Pc → Bool
  | .spawn _ (.storePid _) => true
  | _ => false

def checksStale : Pc → Bool
  | .recover _ => true
  | _ => false

end Pc

/-- The owner of the mutex has handed its request to the worker. -/
def System.ownerHanded (s : System) : Bool := (s.lock.bind fun t => s.threads[t]?).any Pc.handed

/-- No worker is put into the slot while a thread is about to take another one out; a request is
found stale only when its call has handed it to the worker; no worker gets its pid stored while a
thread is about to swap it out; and no process is started under a pid that is about to be killed. -/
def TargetQuiet (c : Config) (s : System) : Act → Prop
  | .run t =>
    (s.threads[t]?.any Pc.installs = true → s.threads.any (Pc.awaitsRestart c) = false) ∧
      (s.threads[t]?.any Pc.checksStale = true → (s.worker.stuck c s.now).isSome = true →
        s.worker.pid = 0 ∨ s.ownerHanded = true) ∧
      (s.threads[t]?.any Pc.storesPid = true → s.threads.any Pc.swapsPid = false)
  | .launch _ pid => s.threads.any (Pc.aimsAt s.worker.pid pid) = false
  | _ => True

instance (c : Config) : DecidableRel (TargetQuiet c) := fun s act => by
  apply act.casesOn (motive := (Decidable <| TargetQuiet c s ·)) <;> intros <;>
    dsimp only [TargetQuiet] <;> infer_instance

/-! ### Processes -/

/-- The pid is 0 or that of the worker in the slot, and this is the last one that was started. -/
def lastStarted : PidClaim where
  empty _ := True
  full pid ids p := p + 1 = ids.length ∧ (pid ≠ 0 → ids[p]? = some pid)

theorem lastStarted_moves (s : System) (act : Act) : lastStarted.Moves lastStarted s act where
  empty := id
  full _ := id
  store _ _ hid hlast := ⟨hlast, fun _ => hid⟩
  clear := trivial
  aim _ _ _ _ _ _ hp := ⟨hp.1, fun hn => absurd rfl hn⟩
  take _ _ _ _ := trivial
  erase _ _ _ _ _ := .inr fun _ hp => ⟨hp.1, fun hn => absurd rfl hn⟩

theorem placed_lastStarted {c : Config} {s : System} {G : System → Act → Prop}
    (h : (workerMachine c).Reach G s) : s.books.Placed lastStarted := by
  refine h.invariant (P := fun s => s.books.Placed lastStarted) (Books.placed_init _ trivial) ?_
  intro s act s' hr _ hst hs
  exact hs.step (Tracked.reach hr) (lastStarted_moves s act) (System.book_step hst)

theorem alive_reap {b : Books} {p : Nat} {p' : ProcId} {pid : UInt32}
    (h : (b.reap p').procs[p]? = some (pid, false)) : b.procs[p]? = some (pid, false) := by
  simp only [Books.reap, List.getElem?_modify] at h
  obtain ⟨q, hq, hsame⟩ := Option.map_eq_some_iff.mp h
  split_ifs at hsame
  · cases hsame
  · rw [hq, hsame]

/-- Of two processes with one pid, the earlier one was waited for. -/
def Distinct (b : Books) : Prop :=
  ∀ (p p' : Nat) x x', p < p' → b.procs[p]? = some x → b.procs[p']? = some x' → x.1 = x'.1 →
    x.2 = true

theorem Distinct.step {c : Config} {s : System} {act : Act} {b : Books} (h : Distinct s.books)
    (hs : BookStep c s act b) : Distinct b := by
  have hreap : ∀ p₀, Distinct (s.books.reap p₀) := by
    intro p₀ p p' x x' hlt hx hx' hpid
    simp only [Books.reap, List.getElem?_modify] at hx hx'
    obtain ⟨y, hy, rfl⟩ := Option.map_eq_some_iff.mp hx
    obtain ⟨y', hy', rfl⟩ := Option.map_eq_some_iff.mp hx'
    have hsame : y.1 = y'.1 := by
      split_ifs at hpid <;> exact hpid
    have hdead := h p p' y y' hlt hy hy' hsame
    split_ifs
    · rfl
    · exact hdead
  cases hs with
  | @launch t tr pid hd hne hfree =>
    intro p p' x x' hlt hx hx' hpid
    have hx : (s.books.procs ++ [(pid, false)])[p]? = some x := hx
    have hx' : (s.books.procs ++ [(pid, false)])[p']? = some x' := hx'
    rw [List.getElem?_append] at hx hx'
    have hlen : p' < s.books.procs.length + 1 := by
      by_contra hn
      rw [if_neg (by omega), List.getElem?_singleton, if_neg (by omega)] at hx'
      cases hx'
    rw [if_pos (by omega)] at hx
    split_ifs at hx' with hp'
    · exact h p p' x x' hlt hx hx' hpid
    · -- the new process has a pid that no living process has
      rw [List.getElem?_singleton, if_pos (by omega)] at hx'
      obtain rfl := Option.some.inj hx'
      exact hfree x (List.mem_of_getElem? hx) hpid
  | exited hd hslot => exact hreap _
  | reaped => exact hreap _
  | _ => exact h

theorem distinct_procs {c : Config} {s : System} {G : System → Act → Prop}
    (h : (workerMachine c).Reach G s) : Distinct s.books := by
  refine h.invariant (P := fun s => Distinct s.books) ?_ ?_
  · intro p p' x x' _ hx
    cases hx
  · intro s act s' _ _ hst hs
    exact hs.step (System.book_step hst)

/-! ### What the threads know -/

/-- The requests that a process was asked, with who asked them. -/
abbrev AskedList := List (Asker × Frame)

/-- Every living process with the pid was asked requests of which `P` is true. -/
def Asked (s : System) (pid : UInt32) (P : AskedList → Prop) : Prop :=
  ∀ (p : ProcId) q, s.procs[p]? = some q → q.pid = pid → q.reaped = false → P q.link.asked

/-- The stale request is among them. -/
def Serves (stale : CurrentRequest) (asked : AskedList) : Prop :=
  ∃ t f, (Asker.request t, f) ∈ asked ∧ f.requestId = stale.id ∧ f.opcode = stale.opcode

/-- The process whose pid is stored was asked the request `r` of thread `t`. -/
def HandedTo (s : System) (t : CallId) (r : Request) : Prop :=
  s.worker.pid ≠ 0 → Asked s s.worker.pid fun asked => (.request t, r.frame) ∈ asked

/-- If there is a worker in the slot, it has answered the request `r` of thread `t` with `resp`. -/
def SlotAnswered (s : System) (t : CallId) (r : Request) (resp : Frame) : Prop :=
  ∀ p : ProcId, s.worker.proc = some p → ∃ q, s.procs[p]? = some q ∧
    AnsweredWith q.link (.request t) r.frame resp

/-- What a thread at the desk knows. -/
def Knows (c : Config) (s : System) (t : CallId) : Desk → Prop
  | .checked stale => s.worker.pid ≠ 0 → Asked s s.worker.pid (Serves stale)
  | .aiming stale pid | .killer stale pid => Asked s pid (Serves stale)
  | .held tr .asked | .held tr .emptied =>
    ∀ r, tr = some r → r.payload.length < 2 ^ 32 → HandedTo s t r
  | .held tr (.answered r resp) => (tr = some r → HandedTo s t r) ∧ SlotAnswered s t r resp
  | .out (some (r, resp)) => c.wantsRestart r resp = true → SlotAnswered s t r resp
  | .due r => ∃ resp, c.restartRequested resp = true ∧ SlotAnswered s t r resp
  | _ => True

/-- Every thread knows its target. -/
def Justified (c : Config) (s : System) : Prop :=
  ∀ (t : CallId) d, s.books.desks[t]? = some d → Knows c s t d

/-! ### What they keep on knowing -/

section

variable {c : Config} {s s' : System} {act : Act} {t : CallId} {d d' : Desk} {pid : UInt32}
  {P : AskedList → Prop}

/-- The living processes with the pid were alive before, and are still asked what they were
asked. -/
def Older (s s' : System) (pid : UInt32) : Prop :=
  ∀ (p : ProcId) q', s'.procs[p]? = some q' → q'.pid = pid → q'.reaped = false →
    ∃ q, s.procs[p]? = some q ∧ q.pid = pid ∧ q.reaped = false ∧ q.link.asked <+: q'.link.asked

theorem Older.of_alive (hg : Grows s.view.links s'.view.links)
    (halive : ∀ p : Nat, s'.books.procs[p]? = some (pid, false) →
      s.books.procs[p]? = some (pid, false)) : Older s s' pid := by
  intro p q' hq' hpid hreaped
  have hbook := System.proc_of_getElem? hq'
  rw [hpid, hreaped] at hbook
  have hold := halive p hbook
  unfold System.books at hold
  simp only [List.getElem?_map] at hold
  obtain ⟨q, hq, hsame⟩ := Option.map_eq_some_iff.mp hold
  obtain ⟨hqpid, hqreaped⟩ := Prod.mk.inj hsame
  obtain ⟨l', hl', hle⟩ := hg p q.link (System.links_getElem? hq)
  obtain rfl := Option.some.inj (hl'.symm.trans (System.links_getElem? hq'))
  exact ⟨q, hq, hqpid, hqreaped, hle.1⟩

theorem Asked.keep (hP : ∀ {xs ys}, xs <+: ys → P xs → P ys) (h : Asked s pid P)
    (ho : Older s s' pid) : Asked s' pid P := by
  intro p q' hq' hpid hreaped
  obtain ⟨q, hq, hqpid, hqreaped, hprefix⟩ := ho p q' hq' hpid hreaped
  exact hP hprefix (h p q hq hqpid hqreaped)

theorem Serves.mono {stale : CurrentRequest} {xs ys : AskedList} (h : xs <+: ys)
    (hs : Serves stale xs) : Serves stale ys := by
  obtain ⟨t, f, hmem, hid⟩ := hs
  exact ⟨t, f, h.subset hmem, hid⟩

theorem HandedTo.keep {r : Request} (h : HandedTo s t r)
    (hpid : s'.worker.pid ≠ 0 → s'.worker.pid = s.worker.pid) (ho : Older s s' s.worker.pid) :
    HandedTo s' t r := by
  intro hne
  have hsame := hpid hne
  rw [hsame] at hne ⊢
  exact (h hne).keep (fun hprefix hmem => hprefix.subset hmem) ho

theorem SlotAnswered.keep {r : Request} {resp : Frame} (h : SlotAnswered s t r resp)
    (hslot : ∀ p, s'.worker.proc = some p → s.worker.proc = some p)
    (hg : Grows s.view.links s'.view.links) : SlotAnswered s' t r resp := by
  intro p hp
  obtain ⟨q, hq, ha⟩ := h p (hslot p hp)
  obtain ⟨l', hl', hle⟩ := hg p q.link (System.links_getElem? hq)
  unfold System.view at hl'
  simp only [List.getElem?_map] at hl'
  obtain ⟨q', hq', rfl⟩ := Option.map_eq_some_iff.mp hl'
  exact ⟨q', hq', ha.mono hle⟩

/-- What the thread knows is about the pid that is stored. -/
def Desk.readsPid : Desk → Bool
  | .checked _ | .held _ _ => true
  | _ => false

/-- What the thread knows is about the slot. -/
def Desk.readsSlot (c : Config) : Desk → Bool
  | .held _ _ | .due _ => true
  | .out (some (r, resp)) => c.wantsRestart r resp
  | _ => false

/-- What the thread knows is about the processes with the pid. -/
def Desk.mentions (stored pid : UInt32) : Desk → Prop
  | .checked _ | .held _ _ => stored = pid
  | .aiming _ pid' | .killer _ pid' => pid' = pid
  | _ => False

theorem Knows.keep (h : Knows c s t d)
    (hpid : d.readsPid = true → s'.worker.pid ≠ 0 → s'.worker.pid = s.worker.pid)
    (hslot : d.readsSlot c = true → ∀ p, s'.worker.proc = some p → s.worker.proc = some p)
    (ho : ∀ pid, d.mentions s.worker.pid pid → Older s s' pid)
    (hg : Grows s.view.links s'.view.links) : Knows c s' t d := by
  cases d with
  | checked stale =>
    intro hne
    have hsame := hpid rfl hne
    rw [hsame] at hne ⊢
    exact (h hne).keep Serves.mono (ho _ rfl)
  | aiming stale pid => exact Asked.keep Serves.mono h (ho pid rfl)
  | killer stale pid => exact Asked.keep Serves.mono h (ho pid rfl)
  | held tr task =>
    have hkeep : ∀ r, HandedTo s t r → HandedTo s' t r := fun r hr =>
      hr.keep (hpid rfl) (ho _ rfl)
    cases task with
    | asked => exact fun r htr hlt => hkeep r (h r htr hlt)
    | emptied => exact fun r htr hlt => hkeep r (h r htr hlt)
    | answered r resp => exact ⟨fun htr => hkeep r (h.1 htr), h.2.keep (hslot rfl) hg⟩
    | _ => trivial
  | out resp =>
    cases resp with
    | none => trivial
    | some x => exact fun hwants => (h hwants).keep (hslot hwants) hg
  | due r =>
    obtain ⟨resp, hwants, ha⟩ := h
    exact ⟨resp, hwants, ha.keep (hslot rfl) hg⟩
  | _ => trivial

/-- A step that empties the slot or keeps it, erases the pid or keeps it, and starts no process
leaves all threads what they know. -/
theorem Knows.plain {b : Books} (hb : s'.books = b) (hg : Grows s.view.links s'.view.links)
    (hslot : ∀ p, b.slot = some p → s.books.slot = some p)
    (hpid : b.pid ≠ 0 → b.pid = s.books.pid)
    (halive : ∀ (pid : UInt32) (p : Nat), b.procs[p]? = some (pid, false) →
      s.books.procs[p]? = some (pid, false)) (h : Knows c s t d) : Knows c s' t d := by
  subst hb
  exact h.keep (fun _ => hpid) (fun _ => hslot) (fun pid _ => .of_alive hg (halive pid)) hg

namespace Justified

/-- No desk changes. -/
theorem fit {b : Books} (h : Justified c s) (hb : s'.books = b) (hdesks : b.desks = s.books.desks)
    (hkeep : ∀ u e, Knows c s u e → Knows c s' u e) : Justified c s' := by
  intro u e hu
  rw [hb, hdesks] at hu
  exact hkeep u e (h u e hu)

/-- One thread changes its desk. -/
theorem stay {b : Books} (h : Justified c s) (hb : s'.books = b)
    (hdesks : b.desks = (s.books.setDesk t d').desks)
    (hkeep : ∀ u e, Knows c s u e → Knows c s' u e) (hself : Knows c s' t d') :
    Justified c s' := by
  intro u e hu
  rw [hb, hdesks] at hu
  rcases Books.getElem?_setDesk hu with ⟨rfl, rfl⟩ | ⟨hne, hu⟩
  · exact hself
  · exact hkeep u e (h u e hu)

/-- The owner of the mutex changes its desk. -/
theorem inside {b : Books} (h : Justified c s) (htracked : Tracked s.books) (hb : s'.books = b)
    (hd : s.books.desks[t]? = some d) (hholds : d.holds = true)
    (hdesks : b.desks = (s.books.setDesk t d').desks)
    (hkeep : ∀ u e, s.books.desks[u]? = some e → e.holds = false → Knows c s u e →
      Knows c s' u e) (hself : Knows c s' t d') : Justified c s' := by
  intro u e hu
  rw [hb, hdesks] at hu
  rcases Books.getElem?_setDesk hu with ⟨rfl, rfl⟩ | ⟨hne, hu⟩
  · exact hself
  · refine hkeep u e hu (eq_false_of_ne_true fun he => ?_) (h u e hu)
    have ht := htracked.owner t d hd hholds
    have hown := htracked.owner u e hu he
    exact hne (Option.some.inj (hown.symm.trans ht))

end Justified

/-! ### Desks of threads without the mutex -/

theorem Pc.swaps_of_desk {pc : Pc} (hh : pc.desk.holds = false) (h : pc.desk.readsPid = true) :
    pc.swapsPid = true := by
  cases pc with
  | swapPid r stale => rfl
  | spawn k spc => cases spc <;> exact Bool.noConfusion hh
  | abandon r a apc => cases apc <;> exact Bool.noConfusion hh
  | untrack r result => cases result <;> exact Bool.noConfusion hh
  | unlock r result => cases result <;> exact Bool.noConfusion hh
  | returned r result => cases result <;> exact Bool.noConfusion h
  | restart r rpc => cases rpc <;> first | exact Bool.noConfusion hh | exact Bool.noConfusion h
  | _ => first | exact Bool.noConfusion hh | exact Bool.noConfusion h

theorem Pc.aims_of_desk {pc : Pc} {stored : UInt32} (hh : pc.desk.holds = false)
    (h : pc.desk.mentions stored pid) : pc.aimsAt stored pid = true := by
  cases pc with
  | swapPid r stale => exact decide_eq_true h
  | countKill r stale pid' => exact decide_eq_true h
  | recordKill r stale pid' => exact decide_eq_true h
  | killer stale pid' => exact decide_eq_true h
  | spawn k spc => cases spc <;> exact Bool.noConfusion hh
  | abandon r a apc => cases apc <;> exact Bool.noConfusion hh
  | untrack r result => cases result <;> exact Bool.noConfusion hh
  | unlock r result => cases result <;> exact Bool.noConfusion hh
  | returned r result => cases result <;> exact False.elim h
  | restart r rpc => cases rpc <;> first | exact Bool.noConfusion hh | exact False.elim h
  | _ => first | exact Bool.noConfusion hh | exact False.elim h

theorem Pc.awaits_of_desk {pc : Pc} (hh : pc.desk.holds = false)
    (h : pc.desk.readsSlot c = true) : pc.awaitsRestart c = true := by
  cases pc with
  | returned r result =>
    cases result with
    | error e => exact Bool.noConfusion h
    | ok resp => exact h
  | spawn k spc => cases spc <;> exact Bool.noConfusion hh
  | abandon r a apc => cases apc <;> exact Bool.noConfusion hh
  | untrack r result => cases result <;> exact Bool.noConfusion hh
  | unlock r result => cases result <;> exact Bool.noConfusion hh
  | restart r rpc =>
    cases rpc <;> first | rfl | exact Bool.noConfusion hh | exact Bool.noConfusion h
  | _ => first | exact Bool.noConfusion hh | exact Bool.noConfusion h

theorem System.any_of_desk {f : Pc → Bool} (h : s.books.desks[t]? = some d)
    (hf : ∀ pc, pc.desk = d → f pc = true) : s.threads.any f = true := by
  unfold System.books at h
  simp only [List.getElem?_map] at h
  obtain ⟨pc, hpc, hd⟩ := Option.map_eq_some_iff.mp h
  exact List.any_eq_true.mpr ⟨pc, List.mem_of_getElem? hpc, hf pc hd⟩

/-! ### How they come to know it -/

/-- A request is handed to the worker in the slot, and no other living process has its pid. -/
theorem handedTo_begin {r : Request} (hp : s.books.Placed lastStarted) (hdist : Distinct s.books)
    (ht : s.threads[t]? = some (.begin r)) (hst : s.step c (.run t) = some s')
    (hlt : r.payload.length < 2 ^ 32)
    (hdesk : s'.books.desks[t]? = some (.held (some r) .asked)) : HandedTo s' t r := by
  have hd := System.desk_of_getElem? ht
  have hmeets : s.books.Meets lastStarted := hp.desk t _ hd
  have hrun : s.runPc c t (.begin r) = some s' := by
    rwa [System.step_run (System.running_of_step hst) ht] at hst
  simp only [System.runPc] at hrun
  split at hrun
  · obtain rfl := Option.some.inj hrun
    rw [System.books_move, Books.getElem?_setDesk_self hd] at hdesk
    cases hdesk
  · rename_i p hslot
    split at hrun
    · rename_i bytes q hbytes hq
      obtain rfl := Option.some.inj hrun
      obtain ⟨hlast, hid⟩ := hmeets.full p hslot
      intro hne i q' hq' hpid hreaped
      have hq' : (s.procs.modify p _)[i]? = some q' := hq'
      rw [List.getElem?_modify] at hq'
      obtain ⟨q₀, hq₀, rfl⟩ := Option.map_eq_some_iff.mp hq'
      by_cases hi : p = i
      · subst hi
        obtain rfl := Option.some.inj (hq.symm.trans hq₀)
        simp [Link.ask]
      · -- an earlier process with this pid is dead
        rw [if_neg hi] at hpid hreaped
        have hlen : i < s.books.ids.length := by
          have := (List.getElem?_eq_some_iff.mp hq₀).1
          simpa [Books.ids, System.books] using this
        have hlast : p + 1 = s.books.ids.length := hlast
        rw [← hlast] at hlen
        have hle : i ≤ p := Nat.le_of_lt_succ hlen
        have hlt : i < p := Nat.lt_of_le_of_ne hle fun hip => hi hip.symm
        have hq₁ := System.proc_of_getElem? hq
        have hpid' : q.pid = s.worker.pid := by
          have hself := hid hne
          rw [Books.getElem?_ids hq₁] at hself
          exact Option.some.inj hself
        have hdead := hdist i p _ _ hlt (System.proc_of_getElem? hq₀) hq₁ (hpid.trans hpid'.symm)
        rw [hreaped] at hdead
        cases hdead
    · rename_i hbytes hq
      rw [writeFrame_eq hlt] at hbytes
      cases hbytes
    · cases hrun

theorem slotAnswered_io {r : Request} {p : ProcId} {x : Transfer} {q : Process} {l : Pipes}
    {a : IoAct} {resp : Frame} (hv : InStep s.view) (ht : s.threads[t]? = some (.exchange r p x))
    (hq : s.procs[p]? = some q) (hx : x.step r.deadline s.now q.link a = some (l, .frame resp))
    (hst : s.step c (.io t a) = some s') : SlotAnswered s' t r resp := by
  obtain ⟨hslot, m, hm, hexchange⟩ := hv.ok_of (System.stage_of_getElem? ht)
  obtain rfl := Option.some.inj ((System.links_getElem? hq).symm.trans hm)
  have hflows := hv.flows _ (List.mem_of_getElem? hm)
  have hanswered := (hexchange.step hflows hx).2.2.2
  rw [System.step_io (System.running_of_step hst) ht hq hx] at hst
  obtain rfl := Option.some.inj hst
  intro p' hp'
  obtain rfl := Option.some.inj (hslot.symm.trans hp')
  exact ⟨{ q with link := l }, System.procs_setLink hq, hanswered⟩

/-- The call that holds the mutex and has handed its request to the worker knows which process has
the pid. -/
theorem Justified.handedTo {pc : Pc} {r : Request} (h : Justified c s) (hv : InStep s.view)
    (ht : s.threads[t]? = some pc) (hh : pc.handed = true) (htr : pc.desk.tracker = some r) :
    HandedTo s t r := by
  have hd := h t _ (System.desk_of_getElem? ht)
  cases pc with
  | exchange r' p x =>
    obtain ⟨-, l, -, hexchange⟩ := hv.ok_of (System.stage_of_getElem? ht)
    obtain rfl := Option.some.inj htr
    exact hd _ rfl hexchange.payload_lt
  | compare r' resp =>
    obtain rfl := Option.some.inj htr
    exact hd.1 rfl
  | resetFailures r' resp =>
    obtain rfl := Option.some.inj htr
    exact hd.1 rfl
  | untrack r' result =>
    cases result with
    | error e => cases hh
    | ok resp =>
      obtain rfl := Option.some.inj htr
      exact hd.1 rfl
  | countTimeout r' a =>
    obtain rfl := Option.some.inj htr
    exact hd _ rfl (of_decide_eq_true hh)
  | abandon r' a apc =>
    cases apc with
    | take =>
      obtain rfl := Option.some.inj htr
      exact hd _ rfl (of_decide_eq_true hh)
    | storePid old =>
      obtain rfl := Option.some.inj htr
      exact hd _ rfl (of_decide_eq_true hh)
    | _ => cases hh
  | _ => cases hh

/-- A request that is found stale was asked of the process with the pid. -/
theorem Justified.serves {stale : CurrentRequest} (h : Justified c s) (htracked : Tracked s.books)
    (hv : InStep s.view) (hstuck : s.worker.stuck c s.now = some stale)
    (hhanded : s.ownerHanded = true) :
    s.worker.pid ≠ 0 → Asked s s.worker.pid (Serves stale) := by
  have hcur : s.books.current = some stale := (Option.filter_eq_some_iff.mp hstuck).1
  obtain ⟨u, d, r, hd, htr, hid, hopcode⟩ := htracked.tracker stale hcur
  have hlock : s.lock = some u := htracked.owner u d hd (Desk.holds_of_tracker htr)
  unfold System.books at hd
  simp only [List.getElem?_map] at hd
  obtain ⟨pc, hpc, rfl⟩ := Option.map_eq_some_iff.mp hd
  have hh : pc.handed = true := by
    simpa [System.ownerHanded, hlock, hpc] using hhanded
  intro hne p q hq hpid hreaped
  have hmem := h.handedTo hv hpc hh htr hne p q hq hpid hreaped
  exact ⟨u, r.frame, hmem, hid, hopcode⟩

/-! ### Steps -/

theorem Justified.step (h : Justified c s) (htracked : Tracked s.books)
    (hp : s.books.Placed lastStarted) (hdist : Distinct s.books) (hv : InStep s.view)
    (hG : TargetQuiet c s act) (hst : s.step c act = some s') : Justified c s' := by
  have hg := hv.grows (System.view_step hst)
  have hs := System.book_step hst
  generalize hb : s'.books = b at hs
  -- what the threads keep when slot, pid and processes stay
  have hsame : b.slot = s.books.slot → b.pid = s.books.pid → b.procs = s.books.procs →
      ∀ u e, Knows c s u e → Knows c s' u e := by
    intro hslot hpid hprocs u e he
    exact he.plain hb hg (fun _ hp => hslot ▸ hp) (fun _ => hpid) fun _ _ hq => hprocs ▸ hq
  -- and when the pid is erased
  have herased : b.slot = s.books.slot → b.pid = 0 → b.procs = s.books.procs →
      ∀ u e, Knows c s u e → Knows c s' u e := by
    intro hslot hpid hprocs u e he
    exact he.plain hb hg (fun _ hp => hslot ▸ hp) (fun hn => absurd hpid hn) fun _ _ hq =>
      hprocs ▸ hq
  -- and when the slot is emptied
  have hemptied : b.slot = none → b.pid = s.books.pid → b.procs = s.books.procs →
      ∀ u e, Knows c s u e → Knows c s' u e := by
    intro hslot hpid hprocs u e he
    refine he.plain hb hg (fun _ hp => ?_) (fun _ => hpid) fun _ _ hq => hprocs ▸ hq
    rw [hslot] at hp
    cases hp
  cases hs with
  | quiet => exact h.fit hb rfl (hsame rfl rfl rfl)
  | abort hd => exact h.fit hb rfl (hsame rfl rfl rfl)
  | reset => exact h.fit hb rfl (hsame rfl rfl rfl)
  | clear hd => exact h.fit hb rfl (herased rfl rfl rfl)
  | exit hd => exact h.fit hb rfl (herased rfl rfl rfl)
  | reaped =>
    exact h.fit hb rfl fun u e he =>
      he.plain hb hg (fun _ => id) (fun _ => rfl) fun _ _ => alive_reap
  | exited hd hslot =>
    refine h.stay hb rfl (fun u e he => ?_) trivial
    exact he.plain hb hg (fun _ => id) (fun _ => rfl) fun _ _ => alive_reap
  | start =>
    intro u e hu
    rw [hb] at hu
    simp only [List.getElem?_append] at hu
    split_ifs at hu with hlt
    · exact hsame rfl rfl rfl u e (h u e hu)
    · have hmem := List.mem_of_getElem? hu
      rw [List.mem_singleton.mp hmem]
      trivial
  | @dispatch t stale pid hd =>
    have hkeep := hsame rfl rfl rfl
    intro u e hu
    rw [hb] at hu
    simp only [List.getElem?_append] at hu
    split_ifs at hu with hlt
    · rcases Books.getElem?_setDesk (b := s.books) hu with ⟨rfl, rfl⟩ | ⟨hne, hu⟩
      · trivial
      · exact hkeep u e (h u e hu)
    · have hmem := List.mem_of_getElem? hu
      rw [List.mem_singleton.mp hmem]
      have hknows : Knows c s u (.killer stale pid) := h t _ hd
      exact hkeep u _ hknows
  | @launch t tr pid hd hne hfree =>
    refine h.inside htracked hb hd rfl rfl (fun u e he hh hknows => ?_) trivial
    refine hknows.keep (fun _ _ => congrArg Books.pid hb) (fun _ p hp => ?_) (fun pid' hm => ?_) hg
    · rw [← hp]
      exact (congrArg Books.slot hb).symm
    · -- the new process does not have a pid that somebody is after
      refine Older.of_alive hg fun p halive => ?_
      rw [hb] at halive
      have halive : (s.books.procs ++ [(pid, false)])[p]? = some (pid', false) := halive
      rw [List.getElem?_append] at halive
      split_ifs at halive with hlt
      · exact halive
      · have hmem := List.mem_of_getElem? halive
        have hpid : pid' = pid := by simpa using hmem
        subst hpid
        have hany := System.any_of_desk (f := Pc.aimsAt s.worker.pid pid') he fun pc hd =>
          Pc.aims_of_desk (hd ▸ hh) (hd ▸ hm)
        have hquiet : s.threads.any (Pc.aimsAt s.worker.pid pid') = false := hG
        rw [hany] at hquiet
        cases hquiet
  | @store t k p q hpc hd hq =>
    refine h.inside htracked hb hd rfl rfl (fun u e he hh hknows => ?_) trivial
    refine hknows.keep (fun hr _ => ?_) (fun _ p hp => ?_) (fun pid' _ => ?_) hg
    · -- nobody is about to swap out the pid
      have hany := System.any_of_desk (f := Pc.swapsPid) he fun pc hd =>
        Pc.swaps_of_desk (hd ▸ hh) (hd ▸ hr)
      have hquiet := hG.2.2 (by simp [hpc, Pc.storesPid])
      rw [hany] at hquiet
      cases hquiet
    · rw [← hp]
      exact (congrArg Books.slot hb).symm
    · refine Older.of_alive hg fun p halive => ?_
      rw [hb] at halive
      exact halive
  | @install t k p hpc hd =>
    refine h.inside htracked hb hd rfl rfl (fun u e he hh hknows => ?_) trivial
    refine hknows.keep (fun _ _ => congrArg Books.pid hb) (fun hr _ _ => ?_) (fun pid' _ => ?_) hg
    · -- nobody is about to take a worker out of the slot
      have hany := System.any_of_desk (f := Pc.awaitsRestart c) he fun pc hd =>
        Pc.awaits_of_desk (hd ▸ hh) (hd ▸ hr)
      have hquiet := hG.1 (by simp [hpc, Pc.installs])
      rw [hany] at hquiet
      cases hquiet
    · refine Older.of_alive hg fun p halive => ?_
      rw [hb] at halive
      exact halive
  | @ask t r hpc hd =>
    refine h.stay hb rfl (hsame rfl rfl rfl) fun r' hr hlt => ?_
    obtain rfl := Option.some.inj hr
    refine handedTo_begin hp hdist hpc hst hlt ?_
    rw [hb, Books.getElem?_setDesk_self hd]
  | @answer t a r p x q l resp hpc hd hq hx =>
    have hkeep := hsame rfl rfl rfl
    refine h.stay hb rfl hkeep ⟨fun _ => ?_, slotAnswered_io hv hpc hq hx hst⟩
    obtain ⟨-, m, -, hexchange⟩ := hv.ok_of (System.stage_of_getElem? hpc)
    exact hkeep t _ (h t _ hd) r rfl hexchange.payload_lt
  | @discard t r resp hd =>
    have hkeep := hsame rfl rfl rfl
    refine h.stay hb rfl hkeep fun r' hr _ => ?_
    obtain rfl := Option.some.inj hr
    exact (hkeep t _ (h t _ hd)).1 rfl
  | @untrack t r task hd =>
    have hkeep := hsame rfl rfl rfl
    have hself := hkeep t _ (h t _ hd)
    refine h.stay hb rfl hkeep ?_
    cases task with
    | answered r' resp => exact ⟨fun hn => (by cases hn), hself.2⟩
    | asked => exact fun r' hn => by cases hn
    | emptied => exact fun r' hn => by cases hn
    | _ => trivial
  | @unlockAnswered t r resp hd =>
    have hkeep := hsame rfl rfl rfl
    have hself := hkeep t _ (h t _ hd)
    exact h.stay hb rfl hkeep fun _ => hself.2
  | @empty t r a hpc hd =>
    have hkeep := hemptied rfl rfl rfl
    have hself := hkeep t _ (h t _ hd)
    exact h.stay hb rfl hkeep hself
  | @due t r resp hd hwants =>
    have hkeep := hsame rfl rfl rfl
    refine h.stay hb rfl hkeep ⟨resp, ?_, hkeep t _ (h t _ hd) hwants⟩
    simp only [Config.wantsRestart, Bool.and_eq_true] at hwants
    exact hwants.2
  | @check t r stale hpc hstuck hd =>
    have hkeep := hsame rfl rfl rfl
    have hknows : Knows c s t (.checked stale) := by
      rcases hG.2.1 (by simp [hpc, Pc.checksStale]) (by simp [hstuck]) with hzero | hhanded
      · exact fun hne => absurd hzero hne
      · exact h.serves htracked hv hstuck hhanded
    exact h.stay hb rfl hkeep (hkeep t _ hknows)
  | @aim t r stale hpc hd hpid =>
    have hkeep := herased rfl rfl rfl
    have hknows : Knows c s t (.aiming stale s.books.pid) := h t _ hd hpid
    exact h.stay hb rfl hkeep (hkeep t _ hknows)
  | lock hl hd hlocks =>
    refine h.stay hb rfl (hsame rfl rfl rfl) ?_
    cases hlocks <;> trivial
  | clearEmptied hd => exact h.stay hb rfl (herased rfl rfl rfl) trivial
  | clearTaken hpc hd => exact h.stay hb rfl (herased rfl rfl rfl) trivial
  | take hpc hd hl => exact h.stay hb rfl (hemptied rfl rfl rfl) trivial
  | pass hpc hlt => exact h.stay hb rfl (hsame rfl rfl rfl) trivial
  | enter hd | leave hd | dropWait hd | unlock hd | track hd | vacant hd | fail hd | dismiss hd
  | miss hd | killed hd => exact h.stay hb rfl (hsame rfl rfl rfl) trivial

end

theorem Justified.reach {c : Config} {s : System}
    (h : (workerMachine c).Reach (TargetQuiet c) s) : Justified c s := by
  refine h.invariant (P := Justified c) ?_ ?_
  · intro t d hd
    cases hd
  · intro s act s' hr hG hst hs
    have hv := InStep.reach (hr.mono fun _ _ _ => trivial)
    exact hs.step (Tracked.reach hr) (placed_lastStarted hr) (distinct_procs hr) hv hG hst

/-- Restarts and kills hit the worker they are meant for. -/
structure RightTarget (c : Config) (s : System) : Prop where
  /-- the worker that is about to be taken out of the slot has asked for it in its answer -/
  restart : ∀ (t : CallId) r p, s.threads[t]? = some (.restart r .take) →
    s.worker.proc = some p → ∃ q resp, s.procs[p]? = some q ∧
      AnsweredWith q.link (.request t) r.frame resp ∧ c.restartRequested resp = true
  /-- the process that is about to be killed was asked the request that was found stale -/
  kill : ∀ (t : CallId) stale pid, s.threads[t]? = some (.killer stale pid) →
    Asked s pid (Serves stale)

/-- **Restarts and kills hit the worker they are meant for** in a run in which no other worker
comes in between. -/
theorem right_target {c : Config} {s : System} (h : (workerMachine c).Reach (TargetQuiet c) s) :
    RightTarget c s := by
  have hj := Justified.reach h
  refine ⟨fun t r p ht hp => ?_, fun t stale pid ht => ?_⟩
  · obtain ⟨resp, hwants, hanswered⟩ := hj t _ (System.desk_of_getElem? ht)
    obtain ⟨q, hq, ha⟩ := hanswered p hp
    exact ⟨q, resp, hq, ha, hwants⟩
  · exact hj t _ (System.desk_of_getElem? ht)

theorem right_target_restartWanted :
    ∃ s, (workerMachine restartingConfig).exec (TargetQuiet restartingConfig) {} restartWanted =
        some s ∧
      s.threads[0]? = some (.restart ⟨1, opDecryptBatch, [], true, seconds 25⟩ .take) ∧
      s.worker.proc = some 0 ∧ RightTarget restartingConfig s := by
  have hend : ((workerMachine restartingConfig).exec (TargetQuiet restartingConfig) {}
      restartWanted).map (fun s => (s.threads[0]?, s.worker.proc)) =
      some (some (.restart ⟨1, opDecryptBatch, [], true, seconds 25⟩ .take), some 0) := by
    decide +kernel
  obtain ⟨s, hs, hend⟩ := Option.map_eq_some_iff.mp hend
  obtain ⟨hthread, hslot⟩ := Prod.mk.inj hend
  exact ⟨s, hs, hthread, hslot, right_target (Machine.reach_of_exec hs)⟩

/-- Before `restart_after_delay` takes the worker out of the slot, this exits and another thread
starts a new one. -/
def freshInSlot : List Act :=
  restartWanted ++
  [.exit 0, .ensureStarted, .run 1, .run 1, .run 1, .launch 1 43, .run 1, .io 1 (.write 20),
   .serve 1 (frameBytes ⟨2, 0, 1, 0, []⟩), .emit 1 20, .io 1 (.read 20), .run 1, .run 1, .run 1]

/-- The new worker, which was only probed, is about to be taken out of the slot. -/
theorem right_target_fails :
    ¬ ∀ s, (workerMachine restartingConfig).Reach Machine.anyStep s →
      RightTarget restartingConfig s := by
  intro hall
  have hend : ((workerMachine restartingConfig).exec Machine.anyStep {} freshInSlot).map
      (fun s => (s.threads[0]?, s.worker.proc, s.procs[1]?.map fun q => q.link.asked)) =
      some (some (.restart ⟨1, opDecryptBatch, [], true, seconds 25⟩ .take), some 1,
        some [(.probe 1, probeFrame)]) := by
    decide +kernel
  obtain ⟨s, hs, hend⟩ := Option.map_eq_some_iff.mp hend
  simp only [Prod.mk.injEq] at hend
  obtain ⟨hthread, hslot, hasked⟩ := hend
  have htarget := hall s (Machine.reach_of_exec hs)
  obtain ⟨q, resp, hq, ⟨i, b, hask, -⟩, -⟩ := htarget.restart 0 _ 1 hthread hslot
  rw [hq] at hasked
  have hasked : q.link.asked = [(.probe 1, probeFrame)] := Option.some.inj hasked
  rw [hasked, List.getElem?_singleton] at hask
  split_ifs at hask
  cases (Prod.mk.inj (Option.some.inj hask)).1

end Supervisor

end WrapperPaas
