/-
  An object with a mutex, which is not recursive, and the outside that its methods call.

  A method may return at once, by what it sees of the state without the mutex (`peek`); otherwise it
  takes the mutex, and its body is a `Prog`.  While a body waits for the outside, the outside may
  call methods of the object back, on the same thread (`callback`); a thread is a stack.

  If the bodies are safe and what is called back returns at once while the state is opened
  (`Proper`), then in every reachable state the mutex has one owner, which is safe (`Sound`), no
  thread waits for a mutex that it holds itself, so that some thread can go on (`exists_step`), and
  a state that is not opened never changes again (`shared_of_step`).
-/
import WrapperPaas.Lib.Machine
import WrapperPaas.Lib.Program

namespace WrapperPaas

/-- An object with methods `μ`, which return a `β`. -/
structure Monitor (σ ι ρ β μ : Type) where
  init : σ
  /-- what a method returns without the mutex -/
  peek : μ → σ → Option β
  body : μ → Prog σ ι ρ β
  /-- the methods that the outside calls back -/
  callback : μ → Bool

namespace Monitor

variable {σ ι ρ β μ : Type}

/-- A call of a method. -/
inductive Frame (σ ι ρ β μ : Type) where
  /-- before it looks at the state -/
  | enter (m : μ)
  /-- before it takes the mutex -/
  | wait (m : μ)
  /-- with the mutex -/
  | inside (m : μ) (p : Prog σ ι ρ β)

structure State (σ ι ρ β μ : Type) where
  shared : σ
  owner : Option Nat := none
  /-- the youngest call first -/
  stack : Nat → List (Frame σ ι ρ β μ) := fun _ => []

inductive Act (ρ μ : Type) where
  | start (t : Nat) (m : μ)
  | callback (t : Nat) (m : μ)
  /-- with the answer, if the thread is waiting for one -/
  | step (t : Nat) (r : ρ)

def State.put (s : State σ ι ρ β μ) (t : Nat) (frames : List (Frame σ ι ρ β μ)) :
    State σ ι ρ β μ :=
  { s with stack := Function.update s.stack t frames }

section Step

variable (o : Monitor σ ι ρ β μ)

/-- A step of the youngest call of a thread. -/
def advance (s : State σ ι ρ β μ) (t : Nat) (r : ρ) : Option (State σ ι ρ β μ) :=
  match s.stack t with
  | [] => none
  | .enter m :: frames =>
    match o.peek m s.shared with
    | some _ => some (s.put t frames)
    | none => some (s.put t (.wait m :: frames))
  | .wait m :: frames =>
    if s.owner = none then some { s.put t (.inside m (o.body m) :: frames) with owner := some t }
    else none
  | .inside _ (.ret _) :: frames => some { s.put t frames with owner := none }
  | .inside m (.load k) :: frames => some (s.put t (.inside m (k s.shared) :: frames))
  | .inside m (.store f k) :: frames =>
    some { s.put t (.inside m k :: frames) with shared := f s.shared }
  | .inside m (.call _ k) :: frames => some (s.put t (.inside m (k r) :: frames))

def machine : Machine (State σ ι ρ β μ) (Act ρ μ) where
  init := { shared := o.init }
  step s
    | .start t m =>
      match s.stack t with
      | [] => some (s.put t [.enter m])
      | _ => none
    | .callback t m =>
      match s.stack t with
      | .inside m' (.call c k) :: frames =>
        if o.callback m then some (s.put t (.enter m :: .inside m' (.call c k) :: frames)) else none
      | _ => none
    | .step t r => o.advance s t r

/-- What an observer writes down: the results, and the calls of the outside. -/
structure Log (ι β μ : Type) where
  results : List (μ × β) := []
  calls : List ι := []

def note (log : Log ι β μ) (s : State σ ι ρ β μ) : Act ρ μ → Log ι β μ
  | .step t _ =>
    match s.stack t with
    | .enter m :: _ =>
      match o.peek m s.shared with
      | some b => { log with results := (m, b) :: log.results }
      | none => log
    | .inside m (.ret b) :: _ => { log with results := (m, b) :: log.results }
    | .inside _ (.call c _) :: _ => { log with calls := c :: log.calls }
    | _ => log
  | _ => log

def observed : Machine (State σ ι ρ β μ × Log ι β μ) (Act ρ μ) :=
  o.machine.record {} o.note

end Step

/-! ### Specifications -/

/-- What is known of the states, of the methods that need the mutex, and of the results of the
bodies. -/
structure Spec (σ β μ : Type) where
  opened : σ → Prop
  inv : σ → Prop
  /-- of a state and one that it is changed to -/
  grows : σ → σ → Prop
  /-- of the states in which nobody has the mutex -/
  idle : σ → Prop
  entry : μ → σ → Prop
  post : μ → β → σ → Prop

variable {o : Monitor σ ι ρ β μ} {spec : Spec σ β μ}

/-- What is true where a body ends. -/
def Spec.ends (spec : Spec σ β μ) (m : μ) (b : β) (s : σ) : Prop := spec.idle s ∧ spec.post m b s

structure Proper (o : Monitor σ ι ρ β μ) (spec : Spec σ β μ) : Prop where
  init : spec.inv o.init
  idle : spec.idle o.init
  enters : ∀ m s, spec.inv s → o.peek m s = none → spec.entry m s
  stays : ∀ m s s', spec.opened s → spec.inv s' → spec.entry m s → spec.entry m s'
  body : ∀ m s, spec.inv s → spec.idle s → spec.entry m s →
    (o.body m).Safe spec.opened spec.inv spec.grows (spec.ends m) s
  callback : ∀ m s, o.callback m = true → spec.opened s → o.peek m s ≠ none

/-- A thread without the mutex. -/
def Outside (spec : Spec σ β μ) (s : σ) (frames : List (Frame σ ι ρ β μ)) : Prop :=
  frames = [] ∨ ∃ m, frames = [.enter m] ∨ frames = [.wait m] ∧ spec.entry m s

/-- The thread with the mutex: a body, or a method that has been called back on top of it. -/
def Inside (o : Monitor σ ι ρ β μ) (spec : Spec σ β μ) (s : σ)
    (frames : List (Frame σ ι ρ β μ)) : Prop :=
  ∃ m p, p.Safe spec.opened spec.inv spec.grows (spec.ends m) s ∧
    (frames = [.inside m p] ∨
      ∃ m' c k, p = .call c k ∧ o.callback m' = true ∧ frames = [.enter m', .inside m p])

structure Sound (o : Monitor σ ι ρ β μ) (spec : Spec σ β μ) (s : State σ ι ρ β μ) : Prop where
  inv : spec.inv s.shared
  idle : s.owner = none → spec.idle s.shared
  outside : ∀ t, s.owner ≠ some t → Outside spec s.shared (s.stack t)
  inside : ∀ t, s.owner = some t → Inside o spec s.shared (s.stack t)

/-! ### What a step can do -/

section Move

variable {s s' : State σ ι ρ β μ} {t : Nat} {frames : List (Frame σ ι ρ β μ)}

@[simp] theorem put_stack_self : (s.put t frames).stack t = frames := Function.update_self ..

theorem put_stack_ne {u : Nat} (h : u ≠ t) : (s.put t frames).stack u = s.stack u :=
  Function.update_of_ne h ..

inductive Move (o : Monitor σ ι ρ β μ) (s : State σ ι ρ β μ) :
    Act ρ μ → State σ ι ρ β μ → Prop
  | start {t m} : s.stack t = [] → Move o s (.start t m) (s.put t [.enter m])
  | callback {t m m' c k frames} : s.stack t = .inside m' (.call c k) :: frames →
      o.callback m = true →
      Move o s (.callback t m) (s.put t (.enter m :: .inside m' (.call c k) :: frames))
  | peek {t r m b frames} : s.stack t = .enter m :: frames → o.peek m s.shared = some b →
      Move o s (.step t r) (s.put t frames)
  | queue {t r m frames} : s.stack t = .enter m :: frames → o.peek m s.shared = none →
      Move o s (.step t r) (s.put t (.wait m :: frames))
  | lock {t r m frames} : s.stack t = .wait m :: frames → s.owner = none →
      Move o s (.step t r) { s.put t (.inside m (o.body m) :: frames) with owner := some t }
  | ret {t r m b frames} : s.stack t = .inside m (.ret b) :: frames →
      Move o s (.step t r) { s.put t frames with owner := none }
  | load {t r m k frames} : s.stack t = .inside m (.load k) :: frames →
      Move o s (.step t r) (s.put t (.inside m (k s.shared) :: frames))
  | store {t r m f k frames} : s.stack t = .inside m (.store f k) :: frames →
      Move o s (.step t r) { s.put t (.inside m k :: frames) with shared := f s.shared }
  | call {t r m c k frames} : s.stack t = .inside m (.call c k) :: frames →
      Move o s (.step t r) (s.put t (.inside m (k r) :: frames))

theorem move_of_step {a : Act ρ μ} (h : o.machine.step s a = some s') : Move o s a s' := by
  cases a with
  | start t m =>
    simp only [machine] at h
    split at h
    · obtain rfl := Option.some.inj h
      exact .start ‹_›
    · cases h
  | callback t m =>
    simp only [machine] at h
    split at h
    · split_ifs at h with hback
      obtain rfl := Option.some.inj h
      exact .callback ‹_› hback
    · cases h
  | step t r =>
    simp only [machine, advance] at h
    split at h
    · cases h
    · split at h
      · obtain rfl := Option.some.inj h
        exact .peek ‹_› ‹_›
      · obtain rfl := Option.some.inj h
        exact .queue ‹_› ‹_›
    · split_ifs at h with howner
      obtain rfl := Option.some.inj h
      exact .lock ‹_› howner
    · obtain rfl := Option.some.inj h
      exact .ret ‹_›
    · obtain rfl := Option.some.inj h
      exact .load ‹_›
    · obtain rfl := Option.some.inj h
      exact .store ‹_›
    · obtain rfl := Option.some.inj h
      exact .call ‹_›

end Move

/-! ### Soundness -/

namespace Sound

variable {s s' : State σ ι ρ β μ} {t : Nat} {m : μ} {frames : List (Frame σ ι ρ β μ)}

theorem of_inside {p : Prog σ ι ρ β} (h : Sound o spec s)
    (hstack : s.stack t = .inside m p :: frames) :
    s.owner = some t ∧ frames = [] ∧
      p.Safe spec.opened spec.inv spec.grows (spec.ends m) s.shared := by
  by_cases howner : s.owner = some t
  · obtain ⟨m', p', hsafe, hframes | ⟨_, _, _, _, _, hframes⟩⟩ := h.inside t howner
    · rw [hstack] at hframes
      obtain ⟨hframe, rfl⟩ := List.cons.inj hframes
      cases hframe
      exact ⟨howner, rfl, hsafe⟩
    · rw [hstack] at hframes
      cases hframes
  · rcases h.outside t howner with hframes | ⟨_, hframes | ⟨hframes, _⟩⟩
    all_goals
      rw [hstack] at hframes
      cases hframes

theorem of_wait (h : Sound o spec s) (hstack : s.stack t = .wait m :: frames) :
    s.owner ≠ some t ∧ frames = [] ∧ spec.entry m s.shared := by
  by_cases howner : s.owner = some t
  · obtain ⟨_, _, _, hframes | ⟨_, _, _, _, _, hframes⟩⟩ := h.inside t howner
    all_goals
      rw [hstack] at hframes
      cases hframes
  · refine ⟨howner, ?_⟩
    rcases h.outside t howner with hframes | ⟨_, hframes | ⟨hframes, hentry⟩⟩
    all_goals
      rw [hstack] at hframes
      cases hframes
    exact ⟨rfl, hentry⟩

theorem of_enter (h : Sound o spec s) (hstack : s.stack t = .enter m :: frames) :
    s.owner ≠ some t ∧ frames = [] ∨
      s.owner = some t ∧ o.callback m = true ∧ ∃ m' c k, frames = [.inside m' (.call c k)] ∧
        (Prog.call c k).Safe spec.opened spec.inv spec.grows (spec.ends m') s.shared := by
  by_cases howner : s.owner = some t
  · obtain ⟨m', p, hsafe, hframes | ⟨m'', c, k, rfl, hback, hframes⟩⟩ := h.inside t howner
    · rw [hstack] at hframes
      cases hframes
    · rw [hstack] at hframes
      obtain ⟨hframe, rfl⟩ := List.cons.inj hframes
      cases hframe
      exact .inr ⟨howner, hback, m', c, k, rfl, hsafe⟩
  · refine .inl ⟨howner, ?_⟩
    rcases h.outside t howner with hframes | ⟨_, hframes | ⟨hframes, _⟩⟩
    all_goals
      rw [hstack] at hframes
      cases hframes
    rfl

/-- A thread without the mutex goes on. -/
theorem put_outside (h : Sound o spec s) (howner : s.owner ≠ some t)
    (hframes : Outside spec s.shared frames) : Sound o spec (s.put t frames) where
  inv := h.inv
  idle := h.idle
  outside u hu := by
    by_cases hut : u = t
    · rw [hut, put_stack_self]
      exact hframes
    · rw [put_stack_ne hut]
      exact h.outside u hu
  inside u hu := by
    have hut : u ≠ t := by
      rintro rfl
      exact howner hu
    rw [put_stack_ne hut]
    exact h.inside u hu

/-- The owner goes on. -/
theorem put_inside (h : Sound o spec s) (howner : s.owner = some t) {x : σ} (hinv : spec.inv x)
    (hentry : ∀ m, spec.entry m s.shared → spec.entry m x) (hframes : Inside o spec x frames) :
    Sound o spec { s.put t frames with shared := x } where
  inv := hinv
  idle hfree := by
    rw [show s.owner = none from hfree] at howner
    cases howner
  outside u hu := by
    have hut : u ≠ t := by
      rintro rfl
      exact hu howner
    show Outside spec x ((s.put t frames).stack u)
    rw [put_stack_ne hut]
    rcases h.outside u hu with hframes | ⟨m, hframes | ⟨hframes, hm⟩⟩
    · exact .inl hframes
    · exact .inr ⟨m, .inl hframes⟩
    · exact .inr ⟨m, .inr ⟨hframes, hentry m hm⟩⟩
  inside u hu := by
    obtain rfl : t = u := Option.some.inj (howner.symm.trans hu)
    show Inside o spec x ((s.put t frames).stack t)
    rw [put_stack_self]
    exact hframes

theorem step {a : Act ρ μ} (hproper : Proper o spec) (h : Sound o spec s) (hmove : Move o s a s') :
    Sound o spec s' := by
  cases hmove with
  | @start t m hstack =>
    refine h.put_outside (fun howner => ?_) (.inr ⟨m, .inl rfl⟩)
    obtain ⟨_, _, _, hframes | ⟨_, _, _, _, _, hframes⟩⟩ := h.inside t howner
    all_goals
      rw [hstack] at hframes
      cases hframes
  | @callback t m m' c k frames hstack hback =>
    obtain ⟨howner, rfl, hsafe⟩ := h.of_inside hstack
    exact h.put_inside howner h.inv (fun _ hm => hm) ⟨m', _, hsafe, .inr ⟨m, c, k, rfl, hback, rfl⟩⟩
  | peek hstack _ =>
    rcases h.of_enter hstack with ⟨howner, rfl⟩ | ⟨howner, _, m', c, k, rfl, hsafe⟩
    · exact h.put_outside howner (.inl rfl)
    · exact h.put_inside howner h.inv (fun _ hm => hm) ⟨m', _, hsafe, .inl rfl⟩
  | @queue t r m frames hstack hpeek =>
    rcases h.of_enter hstack with ⟨howner, rfl⟩ | ⟨_, hback, _, _, _, _, hsafe⟩
    · exact h.put_outside howner (.inr ⟨m, .inr ⟨rfl, hproper.enters m _ h.inv hpeek⟩⟩)
    · -- what is called back does not wait
      exact absurd hpeek (hproper.callback m s.shared hback hsafe.1)
  | @lock t r m frames hstack hfree =>
    obtain ⟨_, rfl, hentry⟩ := h.of_wait hstack
    refine ⟨h.inv, fun howner => (by cases howner), fun u hu => ?_, fun u hu => ?_⟩
    · have hut : u ≠ t := fun hut => hu (by rw [hut])
      show Outside spec s.shared ((s.put t [.inside m (o.body m)]).stack u)
      rw [put_stack_ne hut]
      refine h.outside u fun howner => ?_
      rw [hfree] at howner
      cases howner
    · obtain rfl : t = u := Option.some.inj hu
      show Inside o spec s.shared ((s.put t [.inside m (o.body m)]).stack t)
      rw [put_stack_self]
      exact ⟨m, _, hproper.body m _ h.inv (h.idle hfree) hentry, .inl rfl⟩
  | @ret t r m b frames hstack =>
    obtain ⟨howner, rfl, hends⟩ := h.of_inside hstack
    refine ⟨h.inv, fun _ => hends.1, fun u _ => ?_, fun u hu => ?_⟩
    · show Outside spec s.shared ((s.put t []).stack u)
      by_cases hut : u = t
      · rw [hut, put_stack_self]
        exact .inl rfl
      · rw [put_stack_ne hut]
        exact h.outside u fun hu => hut (Option.some.inj (hu.symm.trans howner))
    · cases hu
  | @load t r m k frames hstack =>
    obtain ⟨howner, rfl, hsafe⟩ := h.of_inside hstack
    exact h.put_inside howner h.inv (fun _ hm => hm) ⟨m, k s.shared, hsafe, .inl rfl⟩
  | @store t r m f k frames hstack =>
    obtain ⟨howner, rfl, hsafe⟩ := h.of_inside hstack
    exact h.put_inside howner hsafe.2.1.1 (fun m' => hproper.stays m' _ _ hsafe.1 hsafe.2.1.1)
      ⟨m, k, hsafe.2.2, .inl rfl⟩
  | @call t r m c k frames hstack =>
    obtain ⟨howner, rfl, hsafe⟩ := h.of_inside hstack
    exact h.put_inside howner h.inv (fun _ hm => hm) ⟨m, k r, hsafe.2 r, .inl rfl⟩

theorem init (hproper : Proper o spec) : Sound o spec o.machine.init where
  inv := hproper.init
  idle _ := hproper.idle
  outside _ _ := .inl rfl
  inside t ht := by cases ht

theorem reach (hproper : Proper o spec) {q : State σ ι ρ β μ × Log ι β μ}
    (h : o.observed.Reach Machine.anyStep q) : Sound o spec q.1 := by
  refine h.invariant (P := fun q => Sound o spec q.1) (init hproper) fun p a q _ _ hstep hp => ?_
  exact hp.step hproper (move_of_step (Machine.step_record.mp hstep).1)

/-! ### What follows -/

/-- Some thread can go on, whatever the outside answers. -/
theorem exists_step (h : Sound o spec s) (hbusy : s.stack t ≠ []) (r : ρ) :
    ∃ u s', o.machine.step s (.step u r) = some s' := by
  -- the owner, or any thread if there is none
  obtain ⟨u, hu, howner⟩ : ∃ u, s.stack u ≠ [] ∧ (s.owner = some u ∨ s.owner = none) := by
    cases howner : s.owner with
    | none => exact ⟨t, hbusy, .inr rfl⟩
    | some u =>
      refine ⟨u, fun hnil => ?_, .inl rfl⟩
      obtain ⟨_, _, _, hframes | ⟨_, _, _, _, _, hframes⟩⟩ := h.inside u howner
      all_goals
        rw [hnil] at hframes
        cases hframes
  refine ⟨u, Option.ne_none_iff_exists'.mp ?_⟩
  show o.advance s u r ≠ none
  unfold advance
  cases hstack : s.stack u with
  | nil => exact absurd hstack hu
  | cons frame frames =>
    cases frame with
    | enter m =>
      dsimp only
      cases o.peek m s.shared with
      | some b => simp
      | none => simp
    | wait m =>
      have hfree := howner.resolve_left (h.of_wait hstack).1
      simp [hfree]
    | inside m p => cases p <;> simp

/-- A state that is not opened stays, and the outside is not called again. -/
theorem shared_of_step {a : Act ρ μ} (h : Sound o spec s) (hmove : Move o s a s')
    (hclosed : ¬ spec.opened s.shared) :
    s'.shared = s.shared ∧ ∀ log : Log ι β μ, (o.note log s a).calls = log.calls := by
  cases hmove with
  | start _ => exact ⟨rfl, fun _ => rfl⟩
  | callback hstack _ => exact absurd (h.of_inside hstack).2.2.1 hclosed
  | peek hstack hpeek => exact ⟨rfl, fun _ => by simp only [note, hstack, hpeek]⟩
  | queue hstack hpeek => exact ⟨rfl, fun _ => by simp only [note, hstack, hpeek]⟩
  | lock hstack _ => exact ⟨rfl, fun _ => by simp only [note, hstack]⟩
  | ret hstack => exact ⟨rfl, fun _ => by simp only [note, hstack]⟩
  | load hstack => exact ⟨rfl, fun _ => by simp only [note, hstack]⟩
  | store hstack => exact absurd (h.of_inside hstack).2.2.1 hclosed
  | call hstack => exact absurd (h.of_inside hstack).2.2.1 hclosed

end Sound

/-! ### Results -/

/-- What is true of every result from when it is returned on. -/
structure Lasting (o : Monitor σ ι ρ β μ) (spec : Spec σ β μ) (R : μ → β → σ → Prop) : Prop where
  peek : ∀ m b s, spec.inv s → o.peek m s = some b → R m b s
  body : ∀ m b s, spec.inv s → spec.post m b s → R m b s
  stays : ∀ m b s s', spec.opened s → spec.grows s s' → R m b s → R m b s'

theorem Lasting.results {R : μ → β → σ → Prop} (h : Lasting o spec R) (hproper : Proper o spec)
    {q : State σ ι ρ β μ × Log ι β μ} (hreach : o.observed.Reach Machine.anyStep q) :
    ∀ x ∈ q.2.results, R x.1 x.2 q.1.shared := by
  refine hreach.invariant (P := fun q => ∀ x ∈ q.2.results, R x.1 x.2 q.1.shared) ?_ ?_
  · intro x hx
    cases hx
  · rintro p a ⟨s', log⟩ hp _ hstep hbefore
    obtain ⟨hstep, rfl⟩ := Machine.step_record.mp hstep
    have hsound := Sound.reach hproper hp
    have hmove : Move o p.1 a s' := move_of_step hstep
    show ∀ x ∈ (o.note p.2 p.1 a).results, R x.1 x.2 s'.shared
    cases hmove with
    | start _ => exact hbefore
    | callback _ _ => exact hbefore
    | peek hstack hpeek =>
      simp only [note, hstack, hpeek]
      exact List.forall_mem_cons.mpr ⟨h.peek _ _ _ hsound.inv hpeek, hbefore⟩
    | queue hstack hpeek =>
      simp only [note, hstack, hpeek]
      exact hbefore
    | lock hstack _ =>
      simp only [note, hstack]
      exact hbefore
    | ret hstack =>
      simp only [note, hstack]
      exact List.forall_mem_cons.mpr
        ⟨h.body _ _ _ hsound.inv (hsound.of_inside hstack).2.2.2, hbefore⟩
    | load hstack =>
      simp only [note, hstack]
      exact hbefore
    | store hstack =>
      simp only [note, hstack]
      have hsafe := (hsound.of_inside hstack).2.2
      exact fun x hx => h.stays _ _ _ _ hsafe.1 hsafe.2.1.2 (hbefore x hx)
    | call hstack =>
      simp only [note, hstack]
      exact hbefore

end Monitor

end WrapperPaas
