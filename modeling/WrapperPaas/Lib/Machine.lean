/-
  Labelled machines with a partial, deterministic step, and their runs.

  A `Machine σ α` is an initial state together with `step : σ → α → Option σ`; `step s a = none`
  says that `a` cannot happen in `s`.  All nondeterminism (scheduling, the environment's answers)
  is in the choice of the labels, so a run is a list of labels and can be executed.

  `Path G s as s'` is a run from `s` to `s'` along `as` in which the condition `G` holds of every
  step when it is taken; `Reach G s` is such a run from the initial state.  The two induction rules
  (`Path.preserves`, `Reach.invariant`) reduce a statement about runs to one about a single step.

  `M.record start note` is `M` with a history that `note` writes beside its state and no step reads;
  its runs are the runs of `M`.
-/
import Mathlib.Data.List.Basic

namespace WrapperPaas

/-- A machine with a partial step: `step s a = none` when `a` is not enabled in `s`. -/
structure Machine (σ α : Type*) where
  /-- The state before anything has happened. -/
  init : σ
  /-- The state after the step labelled `a`, if that step is enabled. -/
  step : σ → α → Option σ

namespace Machine

variable {σ α : Type*} (M : Machine σ α)

/-- The condition that allows every step. -/
def anyStep : σ → α → Prop := fun _ _ => True

instance : DecidableRel (anyStep : σ → α → Prop) := fun _ _ => isTrue trivial

/-- `M.Path G s as s'`: the labels `as` lead from `s` to `s'`, each step meeting `G` when taken. -/
inductive Path (G : σ → α → Prop) : σ → List α → σ → Prop
  | nil (s : σ) : Path G s [] s
  | cons {s t u : σ} {a : α} {as : List α} :
      G s a → M.step s a = some t → Path G t as u → Path G s (a :: as) u

/-- The states reached from the initial one by runs whose steps all meet `G`. -/
def Reach (G : σ → α → Prop) (s : σ) : Prop := ∃ as, M.Path G M.init as s

variable {M} {G : σ → α → Prop}

theorem Path.append {s t u : σ} {as bs : List α} (h₁ : M.Path G s as t) (h₂ : M.Path G t bs u) :
    M.Path G s (as ++ bs) u := by
  induction h₁ with
  | nil s => exact h₂
  | cons hG hs _ ih => exact .cons hG hs (ih h₂)

theorem Path.single {s t : σ} {a : α} (hG : G s a) (hs : M.step s a = some t) :
    M.Path G s [a] t :=
  .cons hG hs (.nil t)

/-- A property that one step keeps is kept by a whole run. -/
theorem Path.preserves {P : σ → Prop}
    (hstep : ∀ s a t, G s a → M.step s a = some t → P s → P t)
    {s t : σ} {as : List α} (h : M.Path G s as t) (hs : P s) : P t := by
  induction h with
  | nil s => exact hs
  | cons hG hst _ ih => exact ih (hstep _ _ _ hG hst hs)

theorem Reach.start : M.Reach G M.init := ⟨[], .nil _⟩

theorem Reach.path {s t : σ} {as : List α} (hs : M.Reach G s) (h : M.Path G s as t) :
    M.Reach G t := by
  obtain ⟨bs, hb⟩ := hs
  exact ⟨bs ++ as, hb.append h⟩

theorem Reach.next {s t : σ} {a : α} (hs : M.Reach G s) (hG : G s a)
    (h : M.step s a = some t) : M.Reach G t :=
  hs.path (.single hG h)

/-- **Invariant rule**: what holds initially and is kept by every step that meets `G` holds of
every state reached under `G`.  The step may use that the state before it was reached. -/
theorem Reach.invariant {P : σ → Prop} (hinit : P M.init)
    (hstep : ∀ s a t, M.Reach G s → G s a → M.step s a = some t → P s → P t)
    {s : σ} (h : M.Reach G s) : P s := by
  obtain ⟨as, hp⟩ := h
  have key : ∀ {s t : σ} {as : List α}, M.Path G s as t → M.Reach G s → P s → P t := by
    intro s t as hp
    induction hp with
    | nil s => exact fun _ hP => hP
    | cons hG hst _ ih => exact fun hr hP => ih (hr.next hG hst) (hstep _ _ _ hr hG hst hP)
  exact key hp .start hinit

/-- **Termination rule**: where every step lowers a rank, but for the steps of a kind, which raise
it by less than `k`, a run is no longer than the rank of the initial state and `k` for each step of
the kind. -/
theorem Path.length_le_countP (rank : σ → Nat) (kind : α → Bool) (k : Nat)
    (hrank : ∀ s a t, M.Reach G s → G s a → M.step s a = some t →
      rank t < rank s + if kind a = true then k else 0)
    {s : σ} {as : List α} (h : M.Path G M.init as s) :
    as.length ≤ rank M.init + k * as.countP kind := by
  have key : ∀ {s t : σ} {as : List α}, M.Path G s as t → M.Reach G s →
      as.length + rank t ≤ rank s + k * as.countP kind := by
    intro s t as hp
    induction hp with
    | nil s => simp
    | @cons s u t a as hG hst _ ih =>
      intro hr
      have hlt := hrank s a u hr hG hst
      have hle := ih (hr.next hG hst)
      rw [List.length_cons, List.countP_cons, Nat.mul_add]
      split_ifs at hlt ⊢
      all_goals omega
  exact Nat.le_trans (Nat.le_add_right _ _) (key h .start)

/-- Where every step lowers a rank, the rank of the initial state bounds the length of the runs. -/
theorem Path.length_le (rank : σ → Nat)
    (hrank : ∀ s a t, M.Reach G s → G s a → M.step s a = some t → rank t < rank s)
    {s : σ} {as : List α} (h : M.Path G M.init as s) : as.length ≤ rank M.init := by
  have hle := h.length_le_countP rank (fun _ => false) 0 hrank
  simpa using hle

/-- Where every step lowers a rank and every state has a step until it is a final one, a final state
is reached. -/
theorem exists_final {Final : σ → Prop} (rank : σ → Nat)
    (hrank : ∀ s a t, M.Reach G s → G s a → M.step s a = some t → rank t < rank s)
    (hstep : ∀ s, M.Reach G s → ¬ Final s → ∃ a t, G s a ∧ M.step s a = some t) :
    ∃ s, M.Reach G s ∧ Final s := by
  have key : ∀ n s, rank s ≤ n → M.Reach G s → ∃ t, M.Reach G t ∧ Final t := by
    intro n
    induction n with
    | zero =>
      intro s hn hr
      by_contra hnone
      obtain ⟨a, t, hG, hst⟩ := hstep s hr fun hfinal => hnone ⟨s, hr, hfinal⟩
      exact Nat.not_lt_zero _ (Nat.lt_of_lt_of_le (hrank s a t hr hG hst) hn)
    | succ n ih =>
      intro s hn hr
      by_cases hfinal : Final s
      · exact ⟨s, hr, hfinal⟩
      · obtain ⟨a, t, hG, hst⟩ := hstep s hr hfinal
        have hlt := hrank s a t hr hG hst
        exact ih t (Nat.le_of_lt_succ (Nat.lt_of_lt_of_le hlt hn)) (hr.next hG hst)
  exact key _ M.init (Nat.le_refl _) .start

/-- A condition that allows more steps reaches more states. -/
theorem Path.mono {G' : σ → α → Prop} (hG : ∀ s a, G s a → G' s a) {s t : σ} {as : List α}
    (h : M.Path G s as t) : M.Path G' s as t := by
  induction h with
  | nil s => exact .nil s
  | cons hg hst _ ih => exact .cons (hG _ _ hg) hst ih

theorem Reach.mono {G' : σ → α → Prop} (hG : ∀ s a, G s a → G' s a) {s : σ} (h : M.Reach G s) :
    M.Reach G' s :=
  h.imp fun _ hp => hp.mono hG

/-- The run up to one of its steps, and the run from there. -/
theorem Path.split {s t : σ} {as bs : List α} (h : M.Path G s (as ++ bs) t) :
    ∃ u, M.Path G s as u ∧ M.Path G u bs t := by
  induction as generalizing s with
  | nil => exact ⟨s, .nil s, h⟩
  | cons a as ih =>
    cases h with
    | cons hG hst hrest =>
      obtain ⟨u, h₁, h₂⟩ := ih hrest
      exact ⟨u, .cons hG hst h₁, h₂⟩

/-- A run is determined by its labels. -/
theorem Path.unique {G' : σ → α → Prop} {s t t' : σ} {as : List α} (h : M.Path G s as t)
    (h' : M.Path G' s as t') : t = t' := by
  induction h with
  | nil s =>
    cases h'
    rfl
  | cons _ hst _ ih =>
    cases h' with
    | cons _ hst' hrest' =>
      obtain rfl := Option.some.inj (hst.symm.trans hst')
      exact ih hrest'

/-- A run meets a further condition if each of its steps does. -/
theorem Path.restrict {G' : σ → α → Prop} {s t : σ} {as : List α} (h : M.Path G s as t)
    (hG : ∀ bs a cs u v, as = bs ++ a :: cs → M.step u a = some v → M.Path G s (bs ++ [a]) v →
      G' u a) : M.Path G' s as t := by
  induction h with
  | nil s => exact .nil s
  | @cons s t u a as hg hst hrest ih =>
    refine .cons (hG [] a as s t rfl hst (.single hg hst)) hst (ih fun bs b cs v w has hw hp => ?_)
    exact hG (a :: bs) b cs v w (by rw [has, List.cons_append]) hw (.cons hg hst hp)

/-! ### Histories -/

section Record

variable {γ : Type*}

/-- `M` with a history: `note` extends it before each step. -/
def record (M : Machine σ α) (start : γ) (note : γ → σ → α → γ) : Machine (σ × γ) α where
  init := (M.init, start)
  step p a := (M.step p.1 a).map fun t => (t, note p.2 p.1 a)

variable {start : γ} {note : γ → σ → α → γ}

theorem step_record {p q : σ × γ} {a : α} : (M.record start note).step p a = some q ↔
    M.step p.1 a = some q.1 ∧ q.2 = note p.2 p.1 a := by
  obtain ⟨t, g⟩ := q
  simp only [record, Option.map_eq_some_iff, Prod.mk.injEq]
  constructor
  · rintro ⟨u, hu, rfl, rfl⟩
    exact ⟨hu, rfl⟩
  · rintro ⟨hu, rfl⟩
    exact ⟨t, hu, rfl, rfl⟩

/-- A history does not stop a step. -/
theorem exists_step_record {p : σ × γ} {a : α} {t : σ} (h : M.step p.1 a = some t) :
    ∃ q, (M.record start note).step p a = some q :=
  ⟨(t, note p.2 p.1 a), step_record.mpr ⟨h, rfl⟩⟩

/-- A history does not allow more steps. -/
theorem Reach.of_record {p : σ × γ} (h : (M.record start note).Reach (fun p a => G p.1 a) p) :
    M.Reach G p.1 :=
  h.invariant (P := fun p => M.Reach G p.1) .start fun _ _ _ _ hG hst hr =>
    hr.next hG (step_record.mp hst).1

end Record

/-! ### Executing runs -/

variable (M G)

/-- The state after the labels `as`, if every step is enabled and meets `G`. -/
def exec [DecidableRel G] (s : σ) : List α → Option σ
  | [] => some s
  | a :: as => if G s a then (M.step s a).bind fun t => exec t as else none

variable {M G}

theorem path_of_exec [DecidableRel G] : ∀ {l : List α} {s t : σ},
    M.exec G s l = some t → M.Path G s l t
  | [], s, t, h => by
    obtain rfl := Option.some.inj h
    exact .nil s
  | a :: l, s, t, h => by
    rw [exec] at h
    split_ifs at h with hG
    obtain ⟨u, hu, hrest⟩ := Option.bind_eq_some_iff.mp h
    exact .cons hG hu (path_of_exec hrest)

theorem reach_of_exec [DecidableRel G] {l : List α} {s : σ}
    (h : M.exec G M.init l = some s) : M.Reach G s :=
  ⟨l, path_of_exec h⟩

end Machine

end WrapperPaas
