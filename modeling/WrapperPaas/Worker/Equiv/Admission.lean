/-
  The admission bound of `request`.

  `waiting_count` is the number of calls between `track_wait` and the drop of their tracker
  (`Counted.reach`, in every run).  The load that admits a call and the addition that counts it are
  two steps, so the bound holds only as long as no call is admitted on a load that misses another
  one (`AdmissionQuiet`).
-/
import Mathlib.Data.List.Basic
import WrapperPaas.Worker.Equiv.Books
import WrapperPaas.Worker.Equiv.Synchrony

namespace WrapperPaas

namespace Supervisor

namespace Books

/-- How many calls are between `track_wait` and the drop of their tracker. -/
def waiting (b : Books) : Nat := b.desks.countP Desk.counted

/-- How many calls have been admitted and will be counted next. -/
def admitted (b : Books) : Nat := b.desks.countP Desk.isAdmitted

variable {b : Books} {t : CallId} {d : Desk}

theorem countP_setDesk {f : Desk → Bool} (d' : Desk) (h : b.desks[t]? = some d) :
    (b.setDesk t d').desks.countP f + (f d).toNat = b.desks.countP f + (f d').toNat := by
  obtain ⟨hlt, hd⟩ := List.getElem?_eq_some_iff.mp h
  have hmem : f d = true → 0 < b.desks.countP f := by
    intro hf
    apply List.countP_pos_iff.mpr
    exact ⟨d, List.mem_of_getElem? h, hf⟩
  unfold setDesk
  simp only [List.countP_set hlt, hd]
  cases hf : f d <;> cases hf' : f d' <;> simp_all

theorem waiting_setDesk (d' : Desk) (h : b.desks[t]? = some d) :
    (b.setDesk t d').waiting + d.counted.toNat = b.waiting + d'.counted.toNat :=
  countP_setDesk d' h

theorem admitted_setDesk (d' : Desk) (h : b.desks[t]? = some d) :
    (b.setDesk t d').admitted + d.isAdmitted.toNat = b.admitted + d'.isAdmitted.toNat :=
  countP_setDesk d' h

end Books

/-- What a step does to the count of waiting calls. -/
inductive CountStep (c : Config) (s : System) : Act → Books → Prop
  | same {act b} : b.waitingCount = s.books.waitingCount → b.waiting = s.books.waiting →
      b.admitted = s.books.admitted → CountStep c s act b
  /-- the load finds room -/
  | pass {t r b} : s.threads[t]? = some (.admission r) → s.worker.waitingCount < c.maxWaiters →
      b.waitingCount = s.books.waitingCount → b.waiting = s.books.waiting →
      b.admitted = s.books.admitted + 1 → CountStep c s (.run t) b
  /-- `track_wait` -/
  | enter {act b} : b.waitingCount = s.books.waitingCount + 1 →
      b.waiting = s.books.waiting + 1 → b.admitted + 1 = s.books.admitted → CountStep c s act b
  /-- the drop of the tracker -/
  | leave {act b} : b.waitingCount = s.books.waitingCount - 1 →
      b.waiting + 1 = s.books.waiting → b.admitted = s.books.admitted → CountStep c s act b

section

variable {c : Config} {s : System} {act : Act} {b : Books} {t : CallId} {d d' : Desk}

/-- A thread that goes to a desk of the same kind changes no count. -/
theorem count_same (h : s.books.desks[t]? = some d) (hb : b.desks = s.books.desks.set t d')
    (hcount : b.waitingCount = s.books.waitingCount) (hcounted : d'.counted = d.counted)
    (hadmitted : d'.isAdmitted = d.isAdmitted) : CountStep c s act b := by
  have hw := Books.waiting_setDesk d' h
  have ha := Books.admitted_setDesk d' h
  rw [hcounted] at hw
  rw [hadmitted] at ha
  refine .same hcount ?_ ?_
  · rw [Books.waiting, hb]
    exact Nat.add_right_cancel hw
  · rw [Books.admitted, hb]
    exact Nat.add_right_cancel ha

theorem count_step (h : BookStep c s act b) : CountStep c s act b := by
  cases h with
  | quiet => exact .same rfl rfl rfl
  | start =>
    have hw : (s.books.desks ++ [Desk.out none]).countP Desk.counted = s.books.waiting := by
      simp [Books.waiting, Desk.counted]
    have ha : (s.books.desks ++ [Desk.out none]).countP Desk.isAdmitted = s.books.admitted := by
      simp [Books.admitted, Desk.isAdmitted]
    exact .same rfl hw ha
  -- a call is admitted, is counted, and is no longer counted
  | @pass t r ht hlt =>
    have hd := System.desk_of_getElem? ht
    have hw := Books.waiting_setDesk .admitted hd
    have ha := Books.admitted_setDesk .admitted hd
    exact .pass ht hlt rfl hw ha
  | enter hd =>
    have hw := Books.waiting_setDesk .waiting hd
    have ha := Books.admitted_setDesk .waiting hd
    exact .enter rfl hw ha
  | leave hd =>
    have hw := Books.waiting_setDesk (.out none) hd
    have ha := Books.admitted_setDesk (.out none) hd
    exact .leave rfl hw ha
  | dropWait hd =>
    have hw := Books.waiting_setDesk (.held none .idle) hd
    have ha := Books.admitted_setDesk (.held none .idle) hd
    exact .leave rfl hw ha
  -- a call is counted until it drops its tracker, also with the mutex
  | lock hl hd hlocks =>
    cases hlocks with
    | ensure => exact count_same hd rfl rfl rfl rfl
    | restart => exact count_same hd rfl rfl rfl rfl
    | request => exact count_same hd rfl rfl rfl rfl
  | dispatch hd =>
    have hw := Books.waiting_setDesk .waiting hd
    have ha := Books.admitted_setDesk .waiting hd
    refine .same rfl ?_ ?_
    · simpa [Books.waiting, Books.setDesk, Desk.counted] using hw
    · simpa [Books.admitted, Books.setDesk, Desk.isAdmitted] using ha
  -- no desk changes
  | clear hd | exit hd | abort hd => exact .same rfl rfl rfl
  | reset | reaped => exact .same rfl rfl rfl
  -- one desk changes, but the thread is neither admitted nor counted before or after
  | exited hd hslot => exact count_same hd rfl rfl rfl rfl
  | take ht hd hl => exact count_same hd rfl rfl rfl rfl
  | answer ht hd hq hx => exact count_same hd rfl rfl rfl rfl
  | check ht hstuck hd => exact count_same hd rfl rfl rfl rfl
  | aim ht hd hpid => exact count_same hd rfl rfl rfl rfl
  | store ht hd hq => exact count_same hd rfl rfl rfl rfl
  | install ht hd | empty ht hd | clearTaken ht hd | ask ht hd =>
    exact count_same hd rfl rfl rfl rfl
  | launch hd | fail hd | miss hd | discard hd | due hd | dismiss hd | killed hd
  | vacant hd | clearEmptied hd | track hd | untrack hd | unlock hd | unlockAnswered hd =>
    exact count_same hd rfl rfl rfl rfl

end

/-! ### The count -/

/-- `waiting_count` is the number of waiting calls, as far as 32 bits can tell. -/
def Counted (s : System) : Prop := s.worker.waitingCount = UInt32.ofNat s.books.waiting

theorem Counted.step {c : Config} {s s' : System} {act : Act} (h : Counted s)
    (hs : CountStep c s act s'.books) : Counted s' := by
  unfold Counted at h ⊢
  change s'.books.waitingCount = _
  cases hs with
  | same hcount hw ha =>
    rw [hcount, hw]
    exact h
  | pass ht hlt hcount hw ha =>
    rw [hcount, hw]
    exact h
  | enter hcount hw ha =>
    rw [hcount, hw, UInt32.ofNat_add]
    exact congrArg (· + 1) h
  | leave hcount hw ha =>
    have hc : s.books.waitingCount = UInt32.ofNat s'.books.waiting + 1 := by
      rw [← UInt32.ofNat_one, ← UInt32.ofNat_add, hw]
      exact h
    rw [hcount, hc, UInt32.add_sub_cancel]

theorem Counted.reach {c : Config} {s : System} {G : System → Act → Prop}
    (h : (workerMachine c).Reach G s) : Counted s := by
  refine h.invariant (P := Counted) (show Counted {} from rfl) ?_
  intro s act s' _ _ hst hs
  exact hs.step (count_step (System.book_step hst))

theorem Counted.toNat {s : System} (h : Counted s) (hlt : s.books.waiting < 2 ^ 32) :
    s.worker.waitingCount.toNat = s.books.waiting := by
  rw [h, UInt32.toNat_ofNat']
  exact Nat.mod_eq_of_lt hlt

/-! ### The bound -/

/-- The load of thread `t` is about to admit its call. -/
def System.admits (c : Config) (s : System) (t : CallId) : Bool :=
  match s.threads[t]? with
  | some (.admission _) => s.worker.waitingCount < c.maxWaiters
  | _ => false

/-- A call is admitted only if there is room for it beside the calls that have been admitted and
are not counted yet. -/
def AdmissionQuiet (c : Config) (s : System) : Act → Prop
  | .run t => s.admits c t = true →
      s.worker.waitingCount.toNat + s.books.admitted < c.maxWaiters.toNat
  | _ => True

instance (c : Config) : DecidableRel (AdmissionQuiet c) := fun s act => by
  apply act.casesOn (motive := (Decidable <| AdmissionQuiet c s ·)) <;> intros <;>
    dsimp only [AdmissionQuiet] <;> infer_instance

/-- At most `max_waiters` calls wait, and while as many do a further call fails with
`worker busy`. -/
structure AdmissionBound (c : Config) (s : System) : Prop where
  count : s.worker.waitingCount ≤ c.maxWaiters
  waiting : s.books.waiting ≤ c.maxWaiters.toNat
  rejects : ∀ t r, s.exited = false → s.books.waiting = c.maxWaiters.toNat →
    s.threads[t]? = some (.admission r) → s.step c (.run t) = some (s.move t (.rejected r))
  fails : ∀ t r, s.exited = false → s.threads[t]? = some (.rejected r) →
    s.step c (.run t) = some (s.move t (.returned r
      (.error (.unavailable (busyMessage s.worker.waitingCount)))))

/-- The calls that wait and those that are about to. -/
def RoomLeft (c : Config) (s : System) : Prop :=
  s.books.waiting + s.books.admitted ≤ c.maxWaiters.toNat

theorem RoomLeft.toNat {c : Config} {s : System} (h : RoomLeft c s) (hc : Counted s) :
    s.worker.waitingCount.toNat = s.books.waiting := by
  have hmax := c.maxWaiters.toNat_lt
  apply hc.toNat
  unfold RoomLeft at h
  omega

theorem RoomLeft.step {c : Config} {s s' : System} {act : Act} (h : RoomLeft c s)
    (hc : Counted s) (hq : AdmissionQuiet c s act) (hs : CountStep c s act s'.books) :
    RoomLeft c s' := by
  have hcount := h.toNat hc
  unfold RoomLeft at h ⊢
  cases hs with
  | same _ hw ha =>
    rw [hw, ha]
    exact h
  | @pass t r _ ht hlt _ hw ha =>
    have hadmits : s.admits c t = true := by
      simp [System.admits, ht, hlt]
    have hroom := hq hadmits
    omega
  | enter _ hw ha => omega
  | leave _ hw ha => omega

theorem RoomLeft.reach {c : Config} {s : System}
    (h : (workerMachine c).Reach (AdmissionQuiet c) s) : RoomLeft c s := by
  refine h.invariant (P := RoomLeft c) (Nat.zero_le _) ?_
  intro s act s' hr hq hst hs
  exact hs.step (Counted.reach hr) hq (count_step (System.book_step hst))

/-- **The admission bound.**  In a run in which no load admits a call beyond the room that is left,
at most `max_waiters` calls wait, and every further call is rejected. -/
theorem admission_bound {c : Config} {s : System}
    (h : (workerMachine c).Reach (AdmissionQuiet c) s) : AdmissionBound c s := by
  have hroom := RoomLeft.reach h
  have hcount := hroom.toNat (Counted.reach h)
  have hle : s.books.waiting ≤ c.maxWaiters.toNat := by
    unfold RoomLeft at hroom
    omega
  refine ⟨?_, hle, ?_, ?_⟩
  · apply UInt32.le_iff_toNat_le.mpr
    rw [hcount]
    exact hle
  · intro t r hexit hfull ht
    have hmax : c.maxWaiters ≤ s.worker.waitingCount := by
      apply UInt32.le_iff_toNat_le.mpr
      rw [hcount, hfull]
    simp [System.step, hexit, System.withThread, ht, System.runPc, hmax]
  · intro t r hexit ht
    simp [System.step, hexit, System.withThread, ht, System.runPc]

/-- A supervisor with room for one waiting call. -/
def oneWaiter : Config := { defaultConfig with maxWaiters := 1 }

/-- One call starts the worker, one waits for it and the third one is rejected. -/
def thirdRejected : List Act :=
  [.request opHealth [], .run 0, .run 0, .run 0, .run 0, .request opHealth [], .run 1, .run 1,
   .run 1, .request opHealth [], .run 2]

theorem admission_bound_thirdRejected :
    ∃ s, (workerMachine oneWaiter).exec (AdmissionQuiet oneWaiter) {} thirdRejected = some s ∧
      s.books.waiting = 1 ∧ AdmissionBound oneWaiter s := by
  have hend : ((workerMachine oneWaiter).exec (AdmissionQuiet oneWaiter) {} thirdRejected).map
      (fun s => s.books.waiting) = some 1 := by
    decide +kernel
  obtain ⟨s, hs, hwaiting⟩ := Option.map_eq_some_iff.mp hend
  exact ⟨s, hs, hwaiting, admission_bound (Machine.reach_of_exec hs)⟩

/-- Two calls load the count before either of them is counted. -/
def bothAdmitted : List Act :=
  [.request opHealth [], .request opHealth [], .run 0, .run 1, .run 0, .run 1]

/-- There is room for one call, and two calls wait. -/
theorem admission_bound_fails :
    ¬ ∀ s, (workerMachine oneWaiter).Reach Machine.anyStep s → AdmissionBound oneWaiter s := by
  intro hall
  have hbound := hall _ (Machine.reach_of_exec (l := bothAdmitted) rfl)
  exact absurd hbound.count (by decide)

end Supervisor

end WrapperPaas
