/-
  Sums over threads: a rank or a count that is a sum over the threads below `n`, when one thread
  moves (`sum_move`, `sum_move_lt`) or when many do (`sum_le_add`).
-/
import Mathlib.Algebra.BigOperators.Group.Finset.Basic
import Mathlib.Algebra.Order.BigOperators.Group.Finset

namespace WrapperPaas

variable {n t : Nat} {f g : Nat → Nat}

/-- When thread `t` moves, the sum changes by what it changes. -/
theorem sum_move (ht : t < n) (hne : ∀ u, u ≠ t → g u = f u) :
    ∑ u ∈ Finset.range n, g u + f t = ∑ u ∈ Finset.range n, f u + g t := by
  have hmem := Finset.mem_range.mpr ht
  have hrest : ∑ u ∈ (Finset.range n).erase t, g u = ∑ u ∈ (Finset.range n).erase t, f u :=
    Finset.sum_congr rfl fun u hu => hne u (Finset.ne_of_mem_erase hu)
  rw [← Finset.add_sum_erase _ g hmem, ← Finset.add_sum_erase _ f hmem, hrest]
  omega

theorem sum_move_lt (ht : t < n) (hne : ∀ u, u ≠ t → g u = f u) (hlt : g t < f t) :
    ∑ u ∈ Finset.range n, g u < ∑ u ∈ Finset.range n, f u := by
  have hmove := sum_move ht hne
  omega

theorem sum_le_add {k : Nat} (h : ∀ u, g u ≤ f u + k) :
    ∑ u ∈ Finset.range n, g u ≤ ∑ u ∈ Finset.range n, f u + n * k := by
  calc ∑ u ∈ Finset.range n, g u
      ≤ ∑ u ∈ Finset.range n, (f u + k) := Finset.sum_le_sum fun u _ => h u
    _ = ∑ u ∈ Finset.range n, f u + n * k := by
      rw [Finset.sum_add_distrib, Finset.sum_const_nat fun _ _ => rfl, Finset.card_range]

end WrapperPaas
