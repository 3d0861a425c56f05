/-
  Counted references.

  A log says what is done with the references to objects: `retain` makes one, `release` gives one
  up, and `use` looks at the object.  `Owned log os` is the discipline: the references `os` are
  owned behind the log, which gives up only what was owned, and uses only objects of which a
  reference is owned.  The counts follow from it (`Owned.sound`, `Owned.card`).
-/
import Mathlib.Data.List.Infix
import Mathlib.Data.Multiset.Count

namespace WrapperPaas

namespace Refcount

/-- What is done with a reference. -/
inductive Event (α : Type*) where
  | retain (a : α)
  | release (a : α)
  | use (a : α)
  deriving DecidableEq

variable {α : Type*}

def Event.isRetain : Event α → Bool
  | .retain _ => true
  | _ => false

def Event.isRelease : Event α → Bool
  | .release _ => true
  | _ => false

/-- The references that are owned behind a log, as a multiset: an object may be retained twice. -/
inductive Owned : List (Event α) → Multiset α → Prop
  | nil : Owned [] 0
  | retain {log : List (Event α)} {os : Multiset α} (a : α) (h : Owned log os) :
      Owned (log ++ [.retain a]) (a ::ₘ os)
  | release {log : List (Event α)} {os : Multiset α} {a : α} (h : Owned log (a ::ₘ os)) :
      Owned (log ++ [.release a]) os
  | use {log : List (Event α)} {os : Multiset α} {a : α} (h : Owned log os) (ha : a ∈ os) :
      Owned (log ++ [.use a]) os

variable {log p : List (Event α)} {os : Multiset α}

theorem Owned.exists_of_prefix (h : Owned log os) (hp : p <+: log) : ∃ os', Owned p os' := by
  induction h with
  | nil =>
    obtain rfl := List.prefix_nil.mp hp
    exact ⟨0, .nil⟩
  | @retain log os a h ih =>
    rcases List.prefix_concat_iff.mp hp with rfl | hp
    · exact ⟨_, .retain a h⟩
    · exact ih hp
  | @release log os a h ih =>
    rcases List.prefix_concat_iff.mp hp with rfl | hp
    · exact ⟨_, .release h⟩
    · exact ih hp
  | @use log os a h ha ih =>
    rcases List.prefix_concat_iff.mp hp with rfl | hp
    · exact ⟨_, .use h ha⟩
    · exact ih hp

theorem Owned.mem_of_use {a : α} (h : Owned (log ++ [.use a]) os) : Owned log os ∧ a ∈ os := by
  generalize hlog : log ++ [.use a] = log' at h
  cases h with
  | nil => cases List.append_ne_nil_of_right_ne_nil log (List.cons_ne_nil _ _) hlog
  | retain b h => cases (List.append_inj' hlog rfl).2
  | release h => cases (List.append_inj' hlog rfl).2
  | use h ha =>
    obtain ⟨rfl, hb⟩ := List.append_inj' hlog rfl
    cases hb
    exact ⟨h, ha⟩

/-- Every retain is matched by one release, but for what is owned. -/
theorem Owned.card (h : Owned log os) :
    log.countP Event.isRetain = log.countP Event.isRelease + os.card := by
  induction h with
  | nil => rfl
  | @retain log os a h ih =>
    rw [List.countP_append, List.countP_append, ih, Multiset.card_cons]
    exact Nat.add_assoc _ _ 1
  | @release log os a h ih =>
    rw [List.countP_append, List.countP_append, ih, Multiset.card_cons]
    exact (Nat.succ_add_eq_add_succ _ _).symm
  | @use log os a h ha ih =>
    rw [List.countP_append, List.countP_append]
    exact ih

variable [DecidableEq α]

theorem Owned.count (h : Owned log os) (a : α) :
    log.count (.retain a) = log.count (.release a) + os.count a := by
  induction h with
  | nil => rfl
  | @retain log os b h ih =>
    rw [List.count_append, List.count_append, ih, Multiset.count_cons]
    by_cases hab : a = b
    · subst hab
      simp [Nat.add_assoc]
    · simp [hab, Ne.symm hab]
  | @release log os b h ih =>
    rw [List.count_append, List.count_append, ih, Multiset.count_cons]
    by_cases hab : a = b
    · subst hab
      simp [Nat.add_assoc, Nat.add_comm]
    · simp [hab, Ne.symm hab]
  | @use log os b h ha ih =>
    rw [List.count_append, List.count_append, ih]
    simp

/-- The log as its reader sees it: whatever it has come to, no object was released more often than
retained, and an object that is used is retained. -/
structure Sound (log : List (Event α)) : Prop where
  released : ∀ p a, p <+: log → p.count (.release a) ≤ p.count (.retain a)
  used : ∀ p a, p ++ [.use a] <+: log → p.count (.release a) < p.count (.retain a)

theorem Owned.sound (h : Owned log os) : Sound log where
  released p a hp := by
    obtain ⟨os', hos'⟩ := h.exists_of_prefix hp
    exact hos'.count a ▸ Nat.le_add_right _ _
  used p a hp := by
    obtain ⟨os', hos'⟩ := h.exists_of_prefix hp
    obtain ⟨howned, hmem⟩ := hos'.mem_of_use
    have hpos := Multiset.count_pos.mpr hmem
    have hcount := howned.count a
    omega

end Refcount

end WrapperPaas
