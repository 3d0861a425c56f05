/-
  What is known of the pid and the worker in the slot.

  A `PidClaim` says something about the pid while the slot is empty, and about the pid and the
  worker while there is one.  `Placed` says that the claim is true while the mutex is free, and what
  its owner relies on while it changes slot and pid.  The owner restores the claim before it unlocks
  the mutex; of the steps that do not hold the mutex and change slot or pid, `PidClaim.Moves` asks
  that they keep the claim (`Placed.step`).
-/
import Mathlib.Data.List.Basic
import WrapperPaas.Worker.Equiv.Tracking

namespace WrapperPaas

namespace Supervisor

/-- What is claimed about the pid. -/
structure PidClaim where
  /-- while the slot is empty -/
  empty : UInt32 → Prop
  /-- while a process is in the slot; the list has the ids of all processes -/
  full : UInt32 → List UInt32 → ProcId → Prop

namespace Books

/-- The owner of the mutex is about to store the pid of a new worker. -/
def launching (b : Books) : Bool :=
  b.desks.any fun d => match d with
    | .held _ .launching | .held _ (.forked _) => true
    | _ => false

/-- The ids of the processes. -/
def ids (b : Books) : List UInt32 := b.procs.map Prod.fst

theorem ids_reap (b : Books) (p : ProcId) : (b.reap p).ids = b.ids := by
  unfold ids reap
  ext1 i
  simp only [List.getElem?_map, List.getElem?_modify]
  cases b.procs[i]? with
  | none => rfl
  | some q => by_cases hp : p = i <;> simp [hp]

theorem getElem?_ids {b : Books} {p : ProcId} {q : UInt32 × Bool} (hq : b.procs[p]? = some q) :
    b.ids[p]? = some q.1 := by
  simp [ids, hq]

end Books

theorem System.exists_proc {s : System} {p : ProcId} {pid : UInt32}
    (h : s.books.ids[p]? = some pid) : ∃ q, s.procs[p]? = some q ∧ q.pid = pid := by
  unfold Books.ids System.books at h
  simp only [List.map_map, List.getElem?_map] at h
  exact Option.map_eq_some_iff.mp h

/-- What a step must do for the claim `k` to become the claim `k'`, apart from what the owner of the
mutex does. -/
structure PidClaim.Moves (k k' : PidClaim) (s : System) (act : Act) : Prop where
  empty : k.empty s.books.pid → k'.empty s.books.pid
  full : ∀ p, k.full s.books.pid s.books.ids p → k'.full s.books.pid s.books.ids p
  store : ∀ (pid : UInt32) (p : ProcId), s.books.ids[p]? = some pid →
    p + 1 = s.books.ids.length → k'.full pid s.books.ids p
  clear : k'.empty 0
  aim : ∀ t r stale, act = .run t → s.threads[t]? = some (.swapPid r stale) →
    ∀ p, k.full s.books.pid s.books.ids p → k'.full 0 s.books.ids p
  take : ∀ t r, act = .run t → s.threads[t]? = some (.restart r .take) → k'.empty s.books.pid
  erase : ∀ t r old, act = .run t → s.threads[t]? = some (.restart r (.storePid old)) →
    s.books.launching = true ∨ ∀ p, k.full s.books.pid s.books.ids p → k'.full 0 s.books.ids p

namespace Books

/-- The claim is true. -/
structure Meets (b : Books) (k : PidClaim) : Prop where
  empty : b.slot = none → k.empty b.pid
  full : ∀ p, b.slot = some p → k.full b.pid b.ids p

/-- What a thread at the desk relies on. -/
def Relies (b : Books) (k : PidClaim) : Desk → Prop
  | .entering | .held _ .idle | .held _ .asked | .held _ (.answered _ _) => b.Meets k
  | .held _ (.forked p) => p + 1 = b.ids.length
  | .held _ (.starting p) => k.full b.pid b.ids p
  | .held _ .emptied => b.slot = none
  | _ => True

/-- The claim is true while the mutex is free, and else as far as its owner relies on it. -/
structure Placed (b : Books) (k : PidClaim) : Prop where
  free : b.lock = none → b.Meets k
  desk : ∀ (t : CallId) d, b.desks[t]? = some d → b.Relies k d

variable {b b' : Books} {k k' : PidClaim} {p : ProcId} {d : Desk}

/-- What relied on `k` in `b` may rely on `k'` in `b'`. -/
structure Fits (b : Books) (k : PidClaim) (b' : Books) (k' : PidClaim) : Prop where
  slot : b'.slot = b.slot
  ids : b'.ids = b.ids
  empty : k.empty b.pid → k'.empty b'.pid
  full : ∀ p, k.full b.pid b.ids p → k'.full b'.pid b'.ids p

theorem Meets.keep (h : b.Meets k) (hf : Fits b k b' k') : b'.Meets k' := by
  refine ⟨fun hn => ?_, fun p hp => ?_⟩
  · exact hf.empty (h.empty (hf.slot ▸ hn))
  · exact hf.full p (h.full p (hf.slot ▸ hp))

theorem Relies.keep (h : b.Relies k d) (hf : Fits b k b' k') : b'.Relies k' d := by
  cases d with
  | entering => exact Meets.keep h hf
  | held tr task =>
    cases task with
    | idle => exact Meets.keep h hf
    | asked => exact Meets.keep h hf
    | answered r resp => exact Meets.keep h hf
    | forked p => exact Eq.trans h (congrArg List.length hf.ids.symm)
    | starting p => exact hf.full p h
    | emptied => exact hf.slot.trans h
    | _ => trivial
  | _ => trivial

/-- A thread that does not hold the mutex relies on nothing. -/
theorem relies_of_not_holds (h : d.holds = false) : b.Relies k d := by
  cases d with
  | entering => cases h
  | held tr task => cases h
  | _ => trivial

namespace Placed

variable {c : Config} {s : System} {act : Act} {t : CallId} {d' : Desk}

/-- Nothing happens to the desks. -/
theorem fit (h : b.Placed k) (hf : Fits b k b' k') (hlock : b'.lock = b.lock)
    (hdesks : b'.desks = b.desks) : b'.Placed k' := by
  refine ⟨fun hn => ?_, fun t d hd => ?_⟩
  · exact (h.free (hlock ▸ hn)).keep hf
  · exact Relies.keep (h.desk t d (hdesks ▸ hd)) hf

/-- A thread starts without the mutex. -/
theorem hire (h : b.Placed k) (hd : d.holds = false)
    (hf : Fits b k { b with desks := b.desks ++ [d] } k') :
    Placed { b with desks := b.desks ++ [d] } k' := by
  refine ⟨fun hn => (h.free hn).keep hf, fun u e hu => ?_⟩
  simp only [List.getElem?_append] at hu
  split_ifs at hu with hlt
  · exact Relies.keep (h.desk u e hu) hf
  · have hmem := List.mem_of_getElem? hu
    rw [List.mem_singleton.mp hmem]
    exact relies_of_not_holds hd

/-- A thread goes to a desk where it relies on no more. -/
theorem stay (h : b.Placed k) (hd : b.desks[t]? = some d)
    (hdesks : b'.desks = (b.setDesk t d').desks) (hlock : b'.lock = b.lock)
    (hf : Fits b k b' k') (hrelies : b.Relies k d → b.Relies k d') : b'.Placed k' := by
  refine ⟨fun hn => ?_, fun u e hu => ?_⟩
  · exact (h.free (hlock ▸ hn)).keep hf
  · rw [hdesks] at hu
    rcases getElem?_setDesk hu with ⟨rfl, rfl⟩ | ⟨hne, hu⟩
    · exact Relies.keep (hrelies (h.desk u d hd)) hf
    · exact Relies.keep (h.desk u e hu) hf

/-- A thread that owns the mutex, or finds it free, changes anything. -/
theorem own (ht : Tracked b) (hfree : b.lock = none ∨ b.lock = some t)
    (hdesks : b'.desks = (b.setDesk t d').desks) (hmeets : b'.lock = none → b'.Meets k')
    (hrelies : b'.Relies k' d') : b'.Placed k' := by
  refine ⟨hmeets, fun u e hu => ?_⟩
  rw [hdesks] at hu
  rcases getElem?_setDesk hu with ⟨rfl, rfl⟩ | ⟨hne, hu⟩
  · exact hrelies
  · apply relies_of_not_holds
    apply eq_false_of_ne_true
    intro he
    have hlock := ht.owner u e hu he
    rcases hfree with hfree | hfree
    · rw [hfree] at hlock
      cases hlock
    · exact hne (Option.some.inj (hlock.symm.trans hfree))

/-- The owner of the mutex changes anything and keeps the mutex. -/
theorem inside (ht : Tracked b) (hd : b.desks[t]? = some d) (hholds : d.holds = true)
    (hdesks : b'.desks = (b.setDesk t d').desks) (hlock : b'.lock = b.lock)
    (hrelies : b'.Relies k' d') : b'.Placed k' := by
  have howner := ht.owner t d hd hholds
  refine own ht (.inr howner) hdesks (fun hn => ?_) hrelies
  rw [hlock, howner] at hn
  cases hn

/-- While a worker is about to get its pid, nobody relies on the old one. -/
theorem of_launching (h : b.Placed k) (ht : Tracked b) (hlaunching : b.launching = true)
    (hdesks : b'.desks = (b.setDesk t d').desks) (hlock : b'.lock = b.lock)
    (hids : b'.ids = b.ids) (hd' : d'.holds = false) : b'.Placed k' := by
  obtain ⟨e, hmem, he⟩ := List.any_eq_true.mp hlaunching
  obtain ⟨u, hu⟩ := List.mem_iff_getElem?.mp hmem
  have hkeep : b.Relies k e → b'.Relies k' e := by
    intro hr
    split at he
    · trivial
    · exact Eq.trans hr (congrArg List.length hids.symm)
    · cases he
  have hholds : e.holds = true := by
    split at he
    · rfl
    · rfl
    · cases he
  have howner := ht.owner u e hu hholds
  refine ⟨fun hn => ?_, fun v e' hv => ?_⟩
  · rw [hlock, howner] at hn
    cases hn
  · rw [hdesks] at hv
    rcases getElem?_setDesk hv with ⟨rfl, rfl⟩ | ⟨hne, hv⟩
    · exact relies_of_not_holds hd'
    · cases hh : e'.holds with
      | false => exact relies_of_not_holds hh
      | true =>
        obtain rfl := Option.some.inj (howner.symm.trans (ht.owner v e' hv hh))
        rw [← Option.some.inj (hu.symm.trans hv)]
        exact hkeep (h.desk u e hu)

theorem step (h : s.books.Placed k) (ht : Tracked s.books) (hm : k.Moves k' s act)
    (hs : BookStep c s act b) : b.Placed k' := by
  -- what a step that leaves slot, pid and ids alone gives
  have hsame : ∀ b' : Books, b'.slot = s.books.slot → b'.pid = s.books.pid →
      b'.ids = s.books.ids → Fits s.books k b' k' := by
    intro b' hslot hpid hids
    refine ⟨hslot, hids, ?_, ?_⟩
    · rw [hpid]
      exact hm.empty
    · rw [hpid, hids]
      exact hm.full
  cases hs with
  | quiet => exact h.fit (hsame _ rfl rfl rfl) rfl rfl
  | start => exact h.hire rfl (hsame _ rfl rfl rfl)
  | pass hpc hlt =>
    have hd := System.desk_of_getElem? hpc
    exact h.stay hd rfl rfl (hsame _ rfl rfl rfl) fun _ => trivial
  | @lock t d d' hl hd hlocks =>
    have hmeets := (h.free hl).keep (hsame { s.books.setDesk t d' with lock := some t } rfl rfl rfl)
    refine own ht (.inl hl) rfl (fun hn => by cases hn) ?_
    cases hlocks with
    | ensure => exact hmeets
    | restart => trivial
    | request => exact hmeets
  | @unlock t hd =>
    have hmeets : s.books.Meets k := h.desk t _ hd
    have hkeep := hmeets.keep
      (hsame { s.books.setDesk t (.out none) with lock := none } rfl rfl rfl)
    exact own ht (.inr (ht.owner t _ hd rfl)) rfl (fun _ => hkeep) trivial
  | @unlockAnswered t r resp hd =>
    have hmeets : s.books.Meets k := h.desk t _ hd
    have hkeep := hmeets.keep
      (hsame { s.books.setDesk t (.out (some (r, resp))) with lock := none } rfl rfl rfl)
    exact own ht (.inr (ht.owner t _ hd rfl)) rfl (fun _ => hkeep) trivial
  | @clear t tr hd =>
    have hdesks : s.books.desks = (s.books.setDesk t (.held tr .launching)).desks := by
      rw [setDesk_same hd]
    exact inside ht hd rfl hdesks rfl trivial
  | @exit t tr hd =>
    have hdesks : s.books.desks = (s.books.setDesk t (.held tr .failing)).desks := by
      rw [setDesk_same hd]
    exact inside ht hd rfl hdesks rfl trivial
  | @launch t tr pid hd hne hfree =>
    refine inside ht hd rfl rfl rfl ?_
    simp [Relies, ids]
  | @store t k₀ p q hpc hd hq =>
    have hlast : p + 1 = s.books.ids.length := h.desk t _ hd
    exact inside ht hd rfl rfl rfl (hm.store q.1 p (getElem?_ids hq) hlast)
  | @install t k₀ p hpc hd =>
    have hfull : k.full s.books.pid s.books.ids p := h.desk t _ hd
    refine inside ht hd rfl rfl rfl ⟨fun hn => (by cases hn), fun p' hp' => ?_⟩
    obtain rfl := Option.some.inj hp'
    exact hm.full p hfull
  | @empty t r a hpc hd => exact inside ht hd rfl rfl rfl rfl
  | @clearEmptied t tr hd =>
    have hempty : s.books.slot = none := h.desk t _ hd
    refine inside ht hd rfl rfl rfl ⟨fun _ => hm.clear, fun p hp => ?_⟩
    simp only [setDesk] at hp
    rw [hempty] at hp
    cases hp
  | @take t r hpc hd hl =>
    have hempty := hm.take t r rfl hpc
    exact own ht (.inl hl) rfl (fun _ => ⟨fun _ => hempty, fun p hp => by cases hp⟩) trivial
  | @clearTaken t r old hpc hd =>
    rcases hm.erase t r old rfl hpc with hlaunching | hfull
    · exact h.of_launching ht hlaunching rfl rfl rfl rfl
    · exact h.stay hd rfl rfl ⟨rfl, rfl, fun _ => hm.clear, hfull⟩ fun _ => trivial
  | @aim t r stale hpc hd hpid =>
    have hfull := hm.aim t r stale rfl hpc
    exact h.stay hd rfl rfl ⟨rfl, rfl, fun _ => hm.clear, hfull⟩ fun _ => trivial
  | @dispatch t stale pid hd =>
    have hdesk : Placed (s.books.setDesk t .waiting) k' :=
      h.stay hd rfl rfl (hsame _ rfl rfl rfl) fun _ => trivial
    exact hdesk.hire rfl ⟨rfl, rfl, fun he => he, fun p hp => hp⟩
  | abort hd => exact h.fit (hsame _ rfl rfl rfl) rfl rfl
  | reset => exact h.fit (hsame _ rfl rfl rfl) rfl rfl
  | reaped => exact h.fit (hsame _ rfl rfl (ids_reap ..)) rfl rfl
  | exited hd hslot => exact h.stay hd rfl rfl (hsame _ rfl rfl (ids_reap ..)) fun _ => trivial
  | ask hpc hd => exact h.stay hd rfl rfl (hsame _ rfl rfl rfl) id
  | answer hpc hd hq hx => exact h.stay hd rfl rfl (hsame _ rfl rfl rfl) id
  | check hpc hstuck hd => exact h.stay hd rfl rfl (hsame _ rfl rfl rfl) fun _ => trivial
  | @untrack t r task hd =>
    refine h.stay hd rfl rfl (hsame _ rfl rfl rfl) fun hr => ?_
    cases task <;> exact hr
  | dropWait hd | track hd | discard hd => exact h.stay hd rfl rfl (hsame _ rfl rfl rfl) id
  | enter hd | leave hd | vacant hd | fail hd | due hd | dismiss hd | killed hd | miss hd =>
    exact h.stay hd rfl rfl (hsame _ rfl rfl rfl) fun _ => trivial

end Placed

end Books

theorem Books.placed_init (k : PidClaim) (h : k.empty 0) :
    (System.books {}).Placed k := by
  refine ⟨fun _ => ⟨fun _ => h, fun p hp => (by cases hp)⟩, fun t d hd => ?_⟩
  cases hd

end Supervisor

end WrapperPaas
