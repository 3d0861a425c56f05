/-
  The bookkeeping of requests.

  The drop of `RequestTracker` comes before the drop of the guard on every way out of `request`, so
  `state.current` is there exactly while a call holds the mutex with its tracker.  The invariant is
  `Tracked`; that `waiting_count` counts the waiting calls is `Counted`.
-/
import Mathlib.Data.List.Basic
import WrapperPaas.Worker.Equiv.Admission

namespace WrapperPaas

namespace Supervisor

/-- The request whose tracker the thread has. -/
def Desk.tracker : Desk → Option Request
  | .held tracker _ => tracker
  | _ => none

theorem Desk.holds_of_tracker {d : Desk} {r : Request} (h : d.tracker = some r) :
    d.holds = true := by
  cases d with
  | held tracker task => rfl
  | _ => cases h

theorem Locks.tracker {d d' : Desk} (h : Locks d d') : d'.tracker = none := by
  cases h <;> rfl

theorem Books.getElem?_setDesk {b : Books} {t u : CallId} {d e : Desk}
    (h : (b.setDesk t d).desks[u]? = some e) :
    u = t ∧ e = d ∨ u ≠ t ∧ b.desks[u]? = some e := by
  unfold setDesk at h
  simp only [List.getElem?_set] at h
  split_ifs at h with hu hlt
  · exact .inl ⟨hu.symm, (Option.some.inj h).symm⟩
  · exact .inr ⟨fun hut => hu hut.symm, h⟩

theorem Books.getElem?_setDesk_self {b : Books} {t : CallId} {d d' : Desk}
    (h : b.desks[t]? = some d) : (b.setDesk t d').desks[t]? = some d' :=
  List.getElem?_set_self (List.getElem?_eq_some_iff.mp h).1

/-- Only the owner of the mutex holds it, and `state.current` is the request of its tracker. -/
structure Tracked (b : Books) : Prop where
  owner : ∀ (t : CallId) d, b.desks[t]? = some d → d.holds = true → b.lock = some t
  current : ∀ (t : CallId) d r, b.desks[t]? = some d → d.tracker = some r →
    ∃ started, b.current = some ⟨r.id, r.opcode, started⟩
  tracker : ∀ cur, b.current = some cur → ∃ (t : CallId) (d : Desk) (r : Request),
    b.desks[t]? = some d ∧ d.tracker = some r ∧ r.id = cur.id ∧ r.opcode = cur.opcode

namespace Tracked

variable {c : Config} {s : System} {act : Act} {b b' : Books} {t : CallId} {d d' : Desk}

/-- Nothing is tracked while the owner of the mutex, if any, has no tracker. -/
theorem current_eq_none (h : Tracked b)
    (howner : ∀ t d, b.lock = some t → b.desks[t]? = some d → d.tracker = none) :
    b.current = none := by
  cases hcur : b.current with
  | none => rfl
  | some cur =>
    obtain ⟨t, d, r, hd, hr, -⟩ := h.tracker cur hcur
    have hlock := h.owner t d hd (Desk.holds_of_tracker hr)
    have hnone := howner t d hlock hd
    rw [hr] at hnone
    cases hnone

/-- A thread that does not hold the mutex starts. -/
theorem hire (h : Tracked b) (hd : d.holds = false) :
    Tracked { b with desks := b.desks ++ [d] } := by
  have hold : ∀ (u : CallId) e, (b.desks ++ [d])[u]? = some e → e.holds = true →
      b.desks[u]? = some e := by
    intro u e hu he
    rw [List.getElem?_append] at hu
    split_ifs at hu with hlt
    · exact hu
    · have hmem := List.mem_of_getElem? hu
      rw [List.mem_singleton.mp hmem, hd] at he
      cases he
  refine ⟨fun u e hu he => ?_, fun u e r hu hr => ?_, fun cur hcur => ?_⟩
  · exact h.owner u e (hold u e hu he) he
  · exact h.current u e r (hold u e hu (Desk.holds_of_tracker hr)) hr
  · obtain ⟨u, e, r, hu, hr⟩ := h.tracker cur hcur
    have hlt := (List.getElem?_eq_some_iff.mp hu).1
    exact ⟨u, e, r, (List.getElem?_append_left hlt).trans hu, hr⟩

/-- A thread keeps its tracker, and keeps or has not the mutex. -/
theorem stay (h : Tracked b) (hd : b.desks[t]? = some d)
    (hdesks : b'.desks = (b.setDesk t d').desks) (hlock : b'.lock = b.lock)
    (hcurrent : b'.current = b.current) (hholds : d'.holds = d.holds)
    (htracker : d'.tracker = d.tracker) : Tracked b' := by
  refine ⟨fun u e hu he => ?_, fun u e r hu hr => ?_, fun cur hcur => ?_⟩
  · rw [hdesks] at hu
    rw [hlock]
    rcases Books.getElem?_setDesk hu with ⟨rfl, rfl⟩ | ⟨hne, hu⟩
    · exact h.owner u d hd (hholds ▸ he)
    · exact h.owner u e hu he
  · rw [hdesks] at hu
    rw [hcurrent]
    rcases Books.getElem?_setDesk hu with ⟨rfl, rfl⟩ | ⟨hne, hu⟩
    · exact h.current u d r hd (htracker ▸ hr)
    · exact h.current u e r hu hr
  · rw [hcurrent] at hcur
    rw [hdesks]
    obtain ⟨u, e, r, hu, hr, hid⟩ := h.tracker cur hcur
    by_cases hut : u = t
    · subst hut
      have he : e = d := Option.some.inj (hu.symm.trans hd)
      refine ⟨u, d', r, Books.getElem?_setDesk_self hd, ?_, hid⟩
      rw [htracker, ← he, hr]
    · refine ⟨u, e, r, ?_, hr, hid⟩
      have hne : t ≠ u := fun htu => hut htu.symm
      exact (List.getElem?_set_ne hne).trans hu

/-- The owner of the mutex, or a thread that finds it free, goes to the desk `d'`. -/
theorem own (h : Tracked b) (hfree : b.lock = none ∨ b.lock = some t) (hd : b.desks[t]? = some d)
    (hdesks : b'.desks = (b.setDesk t d').desks) (hholds : d'.holds = true → b'.lock = some t)
    (hcurrent : b'.current.map (fun cur => (cur.id, cur.opcode)) =
      d'.tracker.map fun r => (r.id, r.opcode)) : Tracked b' := by
  have hothers : ∀ (u : CallId) e, u ≠ t → b.desks[u]? = some e → e.holds = false := by
    intro u e hut hu
    apply eq_false_of_ne_true
    intro he
    have hlock := h.owner u e hu he
    rcases hfree with hfree | hfree
    · rw [hfree] at hlock
      cases hlock
    · exact hut (Option.some.inj (hlock.symm.trans hfree))
  refine ⟨fun u e hu he => ?_, fun u e r hu hr => ?_, fun cur hcur => ?_⟩
  · rw [hdesks] at hu
    rcases Books.getElem?_setDesk hu with ⟨rfl, rfl⟩ | ⟨hne, hu⟩
    · exact hholds he
    · rw [hothers u e hne hu] at he
      cases he
  · rw [hdesks] at hu
    rcases Books.getElem?_setDesk hu with ⟨rfl, rfl⟩ | ⟨hne, hu⟩
    · rw [hr] at hcurrent
      obtain ⟨⟨id, opcode, started⟩, hcur, hid⟩ := Option.map_eq_some_iff.mp hcurrent
      obtain ⟨rfl, rfl⟩ := Prod.mk.inj hid
      exact ⟨started, hcur⟩
    · have he := Desk.holds_of_tracker hr
      rw [hothers u e hne hu] at he
      cases he
  · rw [hcur] at hcurrent
    obtain ⟨r, hr, hid⟩ := Option.map_eq_some_iff.mp hcurrent.symm
    obtain ⟨hid, hopcode⟩ := Prod.mk.inj hid
    rw [hdesks]
    exact ⟨t, d', r, Books.getElem?_setDesk_self hd, hr, hid, hopcode⟩

/-- A thread without a tracker unlocks the mutex. -/
theorem release {task : Task} {resp : Option (Request × Frame)} (h : Tracked b)
    (hd : b.desks[t]? = some (.held none task))
    (hdesks : b'.desks = (b.setDesk t (.out resp)).desks)
    (hcurrent : b'.current = b.current) : Tracked b' := by
  have ht := h.owner t _ hd rfl
  have hnone := h.current_eq_none fun u e hu he => by
    obtain rfl := Option.some.inj (ht.symm.trans hu)
    rw [← Option.some.inj (hd.symm.trans he)]
    rfl
  refine h.own (.inr ht) hd hdesks (fun hn => by cases hn) ?_
  rw [hcurrent, hnone]
  rfl

theorem step (h : Tracked s.books) (hs : BookStep c s act b) : Tracked b := by
  cases hs with
  | quiet => exact h
  | start => exact h.hire rfl
  | pass ht hlt => exact h.stay (System.desk_of_getElem? ht) rfl rfl rfl rfl rfl
  -- the mutex gets an owner or loses it
  | lock hl hd hlocks =>
    have hcur := h.current_eq_none fun u e hu _ => by
      rw [hl] at hu
      cases hu
    refine h.own (.inl hl) hd rfl (fun _ => rfl) ?_
    simp [Books.setDesk, hcur, hlocks.tracker]
  | unlock hd => exact h.release hd rfl rfl
  | unlockAnswered hd => exact h.release hd rfl rfl
  -- the owner sets its tracker or drops it
  | @track t r hd =>
    have ht := h.owner t _ hd rfl
    exact h.own (.inr ht) hd rfl (fun _ => ht) rfl
  | @untrack t r task hd =>
    have ht := h.owner t _ hd rfl
    obtain ⟨started, hcur⟩ := h.current t _ r hd rfl
    refine h.own (.inr ht) hd rfl (fun _ => ht) ?_
    simp [hcur, Desk.tracker]
  | dispatch hd =>
    have hstay : Tracked (s.books.setDesk _ .waiting) := h.stay hd rfl rfl rfl rfl rfl
    exact hstay.hire rfl
  -- no desk changes
  | clear hd | exit hd | abort hd => exact ⟨h.owner, h.current, h.tracker⟩
  | reset | reaped => exact ⟨h.owner, h.current, h.tracker⟩
  -- one desk changes, but neither its tracker nor whether it holds the mutex
  | exited hd hslot => exact h.stay hd rfl rfl rfl rfl rfl
  | take ht hd hl => exact h.stay hd rfl rfl rfl rfl rfl
  | answer ht hd hq hx => exact h.stay hd rfl rfl rfl rfl rfl
  | check ht hstuck hd => exact h.stay hd rfl rfl rfl rfl rfl
  | aim ht hd hpid => exact h.stay hd rfl rfl rfl rfl rfl
  | store ht hd hq => exact h.stay hd rfl rfl rfl rfl rfl
  | install ht hd | empty ht hd | clearTaken ht hd | ask ht hd =>
    exact h.stay hd rfl rfl rfl rfl rfl
  | launch hd | fail hd | miss hd | discard hd | due hd | dismiss hd | killed hd
  | vacant hd | clearEmptied hd | enter hd | leave hd | dropWait hd =>
    exact h.stay hd rfl rfl rfl rfl rfl

theorem reach {G : System → Act → Prop} (h : (workerMachine c).Reach G s) : Tracked s.books := by
  refine h.invariant (P := fun s => Tracked s.books) ⟨?_, ?_, ?_⟩ ?_
  · intro t d hd
    cases hd
  · intro t d r hd
    cases hd
  · intro cur hcur
    cases hcur
  · intro s act s' _ _ hst hs
    exact hs.step (System.book_step hst)

end Tracked

/-- The `request` that the thread is in. -/
def Pc.request : Pc → Option Request
  | .admission r | .rejected r | .trackWait r | .lockWait r _ _ | .countLockTimeout r | .recover r
  | .swapPid r _ | .countKill r _ _ | .recordKill r _ _ | .recordLockError r _ | .leaveWait r _
  | .dropWait r | .trackRequest r | .inspect r | .tryWait r | .begin r | .exchange r _ _
  | .compare r _ | .countTimeout r _ | .abandon r _ _ | .resetFailures r _ | .untrack r _
  | .unlock r _ | .spawn (.missing r) _ | .spawn (.exited r) _ | .install (.missing r) _
  | .install (.exited r) _ => some r
  | _ => none

theorem SpawnFor.request_of_tracker {k : SpawnFor} {r : Request} (spc : SpawnPc) (p : ProcId)
    (h : k.tracker = some r) :
    Pc.request (.spawn k spc) = some r ∧ Pc.request (.install k p) = some r := by
  cases k with
  | ensure => cases h
  | restart r' => cases h
  | missing r' => exact ⟨h, h⟩
  | exited r' => exact ⟨h, h⟩

theorem Pc.request_of_tracker {pc : Pc} {r : Request} (h : pc.desk.tracker = some r) :
    pc.request = some r := by
  cases pc with
  | spawn k spc =>
    have hk : k.tracker = some r := by
      cases spc <;> exact h
    exact (SpawnFor.request_of_tracker spc 0 hk).1
  | install k p => exact (SpawnFor.request_of_tracker .launch p h).2
  | abandon r' a apc => cases apc <;> exact h
  | untrack r' result => cases result <;> exact h
  | unlock r' result => cases result <;> cases h
  | returned r' result => cases result <;> cases h
  | restart r' rpc => cases rpc <;> cases h
  | inspect | tryWait | begin | exchange | countTimeout | compare | resetFailures => exact h
  | _ => cases h

/-- What `waiting_count` and `state.current` say about the calls. -/
structure Bookkept (s : System) : Prop where
  /-- `waiting_count` counts the calls between `track_wait` and the drop of their tracker -/
  waiting : s.worker.waitingCount = UInt32.ofNat s.books.waiting ∧
    (s.books.waiting < 2 ^ 32 → s.worker.waitingCount.toNat = s.books.waiting)
  /-- the call that is tracked holds the mutex -/
  current : ∀ cur, s.worker.state.current = some cur → ∃ (t : CallId) (pc : Pc) (r : Request),
    s.lock = some t ∧ s.threads[t]? = some pc ∧ pc.request = some r ∧ r.id = cur.id ∧
      r.opcode = cur.opcode
  /-- no call is tracked unless one holds the mutex -/
  idle : (∀ (t : CallId) pc, s.lock = some t → s.threads[t]? = some pc → pc.request = none) →
    s.worker.state.current = none

/-- **The bookkeeping of requests.**  It is right in every state that the worker's threads can
reach. -/
theorem request_bookkeeping {c : Config} {s : System}
    (h : (workerMachine c).Reach Machine.anyStep s) : Bookkept s := by
  have hcount := Counted.reach h
  have htracked := Tracked.reach h
  -- the thread of a desk with a tracker
  have hthread : ∀ (t : CallId) d r, s.books.desks[t]? = some d → d.tracker = some r →
      ∃ pc, s.threads[t]? = some pc ∧ pc.request = some r := by
    intro t d r hd hr
    unfold System.books at hd
    simp only [List.getElem?_map] at hd
    obtain ⟨pc, hpc, rfl⟩ := Option.map_eq_some_iff.mp hd
    exact ⟨pc, hpc, Pc.request_of_tracker hr⟩
  refine ⟨⟨hcount, hcount.toNat⟩, fun cur hcur => ?_, fun hnone => ?_⟩
  · obtain ⟨t, d, r, hd, hr, hid⟩ := htracked.tracker cur hcur
    obtain ⟨pc, hpc, hrequest⟩ := hthread t d r hd hr
    exact ⟨t, pc, r, htracked.owner t d hd (Desk.holds_of_tracker hr), hpc, hrequest, hid⟩
  · refine htracked.current_eq_none fun t d hlock hd => ?_
    cases hr : d.tracker with
    | none => rfl
    | some r =>
      obtain ⟨pc, hpc, hrequest⟩ := hthread t d r hd hr
      have hn := hnone t pc hlock hpc
      rw [hrequest] at hn
      cases hn

/-- A call holds the mutex and starts the worker, and another one waits. -/
theorem request_bookkeeping_thirdRejected :
    ∃ s, (workerMachine oneWaiter).exec Machine.anyStep {} thirdRejected = some s ∧
      s.worker.waitingCount = 1 ∧ Bookkept s := by
  have hend : ((workerMachine oneWaiter).exec Machine.anyStep {} thirdRejected).map
      (fun s => s.worker.waitingCount) = some 1 := by
    decide +kernel
  obtain ⟨s, hs, hwaiting⟩ := Option.map_eq_some_iff.mp hend
  exact ⟨s, hs, hwaiting, request_bookkeeping (Machine.reach_of_exec hs)⟩

end Supervisor

end WrapperPaas
