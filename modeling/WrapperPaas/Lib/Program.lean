/-
  Programs that work on a state and call the outside.

  A `Prog σ ι ρ α` reads and changes a state `σ`, calls the outside with an `ι`, goes on with its
  answer, a `ρ`, and ends with an `α`.  `Safe opened inv grows Q p s` says of `p`, alone and from
  the state `s` on, that it calls and changes the state only while it is `opened`, that each change
  keeps `inv` and is a step of `grows`, and that `Q` holds of its result and of the state at
  its end, whatever the answers are.

  The rules follow the structure of a program, so that simp splits it into its steps.
-/
import Mathlib.Tactic.SplitIfs

namespace WrapperPaas

inductive Prog (σ ι ρ α : Type) where
  | ret (a : α)
  | load (k : σ → Prog σ ι ρ α)
  | store (f : σ → σ) (k : Prog σ ι ρ α)
  | call (c : ι) (k : ρ → Prog σ ι ρ α)

namespace Prog

variable {σ ι ρ α β : Type}

/-- One program after the other. -/
def bind (f : α → Prog σ ι ρ β) : Prog σ ι ρ α → Prog σ ι ρ β
  | ret a => f a
  | load k => load fun s => bind f (k s)
  | store g k => store g (bind f k)
  | call c k => call c fun r => bind f (k r)

instance : Monad (Prog σ ι ρ) where
  pure := ret
  bind p f := bind f p

def get : Prog σ ι ρ σ := load ret

def modify (f : σ → σ) : Prog σ ι ρ Unit := store f (ret ())

def ask (c : ι) : Prog σ ι ρ ρ := call c ret

/-! ### Safety -/

section Safe

variable (opened inv : σ → Prop) (grows : σ → σ → Prop)

def Safe (Q : α → σ → Prop) : Prog σ ι ρ α → σ → Prop
  | ret a, s => Q a s
  | load k, s => Safe Q (k s) s
  | store f k, s => opened s ∧ (inv (f s) ∧ grows s (f s)) ∧ Safe Q k (f s)
  | call _ k, s => opened s ∧ ∀ r, Safe Q (k r) s

variable {opened inv grows} {Q : α → σ → Prop} {s : σ}

theorem Safe.mono {Q' : α → σ → Prop} {p : Prog σ ι ρ α} (h : p.Safe opened inv grows Q s)
    (hQ : ∀ a s, Q a s → Q' a s) : p.Safe opened inv grows Q' s := by
  induction p generalizing s with
  | ret a => exact hQ a s h
  | load k ih => exact ih s h
  | store f k ih => exact ⟨h.1, h.2.1, ih h.2.2⟩
  | call c k ih => exact ⟨h.1, fun r => ih r (h.2 r)⟩

@[simp] theorem safe_pure {a : α} :
    (pure a : Prog σ ι ρ α).Safe opened inv grows Q s ↔ Q a s := Iff.rfl

@[simp] theorem safe_get {Q : σ → σ → Prop} :
    (get : Prog σ ι ρ σ).Safe opened inv grows Q s ↔ Q s s := Iff.rfl

@[simp] theorem safe_modify {Q : Unit → σ → Prop} {f : σ → σ} :
    (modify f : Prog σ ι ρ Unit).Safe opened inv grows Q s ↔
      opened s ∧ (inv (f s) ∧ grows s (f s)) ∧ Q () (f s) := Iff.rfl

@[simp] theorem safe_ask {Q : ρ → σ → Prop} {c : ι} :
    (ask c : Prog σ ι ρ ρ).Safe opened inv grows Q s ↔ opened s ∧ ∀ r, Q r s := Iff.rfl

@[simp] theorem safe_bind {Q : β → σ → Prop} {p : Prog σ ι ρ α} {f : α → Prog σ ι ρ β} :
    (p >>= f).Safe opened inv grows Q s ↔
      p.Safe opened inv grows (fun a s => (f a).Safe opened inv grows Q s) s := by
  induction p generalizing s with
  | ret a => exact Iff.rfl
  | load k ih => exact ih s
  | store g k ih => exact and_congr_right fun _ => and_congr_right fun _ => ih
  | call c k ih => exact and_congr_right fun _ => forall_congr' fun r => ih r

@[simp] theorem safe_ite {p q : Prog σ ι ρ α} {c : Prop} [Decidable c] :
    (if c then p else q).Safe opened inv grows Q s ↔
      (c → p.Safe opened inv grows Q s) ∧ (¬ c → q.Safe opened inv grows Q s) := by
  split_ifs with hc
  · simp [hc]
  · simp [hc]

end Safe

end Prog

end WrapperPaas
