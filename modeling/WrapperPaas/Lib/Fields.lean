/-
  Searching a list for a delimiter, and the fields of a list between the occurrences of one, as
  `List.splitOn` gives them.
-/
import Mathlib.Data.List.Basic

namespace WrapperPaas

variable {α : Type*} [BEq α] [LawfulBEq α]

/-! ### Searching -/

theorem idxOf?_append_cons {c : α} {p : List α} (hp : c ∉ p) (x : List α) :
    (p ++ c :: x).idxOf? c = some p.length := by
  induction p with
  | nil => simp [List.idxOf?_cons]
  | cons b p ih =>
    obtain ⟨hne, hp⟩ := not_or.mp (mt List.mem_cons.mpr hp)
    rw [List.cons_append, List.idxOf?_cons, if_neg (by simpa using Ne.symm hne), ih hp]
    rfl

theorem idxOf?_eq_none {c : α} {s : List α} : s.idxOf? c = none ↔ c ∉ s := by
  rw [← Option.not_isSome_iff_eq_none, List.isSome_idxOf?]

/-- What stands before the first occurrence does not have the element in it. -/
theorem append_of_idxOf? {c : α} {s : List α} {n : Nat} (h : s.idxOf? c = some n) :
    ∃ p x, s = p ++ c :: x ∧ c ∉ p ∧ p.length = n := by
  have hmem : c ∈ s := by
    rw [← List.isSome_idxOf?, h]
    rfl
  obtain ⟨p, x, rfl, hp⟩ := List.eq_append_cons_of_mem hmem
  rw [idxOf?_append_cons hp] at h
  exact ⟨p, x, rfl, hp, Option.some.inj h⟩

omit [BEq α] [LawfulBEq α] in
/-- A beginning without the element is a beginning of what stands before its first occurrence. -/
theorem exists_append_of_append_eq {c : α} {p q s x : List α} (hp : c ∉ p)
    (h : p ++ s = q ++ c :: x) : ∃ t, q = p ++ t ∧ s = t ++ c :: x := by
  rcases List.append_eq_append_iff.mp h with ⟨t, hq, hs⟩ | ⟨t, rfl, ht⟩
  · exact ⟨t, hq, hs⟩
  · cases t with
    | nil => exact ⟨[], by simp, by simpa using ht.symm⟩
    | cons d t =>
      obtain ⟨rfl, -⟩ := List.cons.inj ht
      exact absurd (List.mem_append_right q List.mem_cons_self) hp

/-! ### Fields -/

section Fields

variable {delim : α}

/-- A list without the delimiter is one field; any other one is a field, the delimiter and a rest
that is shorter. -/
@[elab_as_elim]
theorem delim_induction (delim : α) {motive : List α → Prop}
    (last : ∀ field, delim ∉ field → motive field)
    (cons : ∀ field rest, delim ∉ field → motive rest → motive (field ++ delim :: rest))
    (s : List α) : motive s := by
  induction hn : s.length using Nat.strongRecOn generalizing s with
  | ind n ih =>
    by_cases hmem : delim ∈ s
    · obtain ⟨field, rest, rfl, hfield⟩ := List.eq_append_cons_of_mem hmem
      refine cons field rest hfield (ih rest.length ?_ rest rfl)
      rw [← hn, List.length_append, List.length_cons]
      omega
    · exact last s hmem

theorem length_splitOn (delim : α) (s : List α) :
    (s.splitOn delim).length = s.count delim + 1 := by
  induction s using delim_induction delim with
  | last field h =>
    rw [List.splitOn_eq_singleton h, List.count_eq_zero.mpr h, List.length_singleton]
  | cons field rest h ih =>
    rw [List.splitOn_append_cons_self_of_not_mem h, List.length_cons, ih, List.count_append,
      List.count_eq_zero.mpr h, List.count_cons_self, Nat.zero_add]

/-- The last field is empty behind a delimiter only. -/
theorem getLast?_splitOn_eq_nil {s : List α} :
    (s.splitOn delim).getLast? = some [] ↔ s = [] ∨ s.getLast? = some delim := by
  induction s using delim_induction delim with
  | last field h =>
    have hlast : field.getLast? ≠ some delim := fun hl => h (List.mem_of_getLast? hl)
    rw [List.splitOn_eq_singleton h, List.getLast?_singleton, Option.some.injEq]
    exact (or_iff_left hlast).symm
  | cons field rest h ih =>
    obtain ⟨f, fs, hfields⟩ := List.exists_cons_of_ne_nil (List.splitOn_ne_nil delim rest)
    have hcons : (field :: rest.splitOn delim).getLast? = (rest.splitOn delim).getLast? := by
      rw [hfields, List.getLast?_cons_cons]
    rw [List.splitOn_append_cons_self_of_not_mem h, hcons, ih, List.getLast?_append_of_ne_nil]
    · cases rest with
      | nil => simp
      | cons c rest => simp [List.getLast?_cons_cons]
    · exact List.cons_ne_nil delim rest

end Fields

end WrapperPaas
