/-
  The parts of a device description.

  `std::getline` delivers the fields of a string, except that a last field that is empty is not
  delivered (`getlines_eq`).  So a description is split as it should be unless it ends with a slash
  and has eight or nine of them, or has so many fields that their number wraps
  (`split_device_info_iff`).
-/
import Mathlib.Data.List.Basic
import WrapperPaas.Lib.Fields
import WrapperPaas.Runtime.DeviceInfo

namespace WrapperPaas

namespace Runtime

/-! ### The fields of a string -/

section Getline

variable {delim : UInt8} {field rest : Bytes}

theorem getline_field (h : delim ∉ field) (rest : Bytes) :
    getline { rest := field ++ delim :: rest } delim = some (field, { rest := rest }) := by
  unfold getline
  dsimp only
  rw [if_neg Bool.false_ne_true, idxOf?_append_cons h]
  dsimp only
  rw [List.take_left, List.drop_length_add_append]
  rfl

theorem getline_last (h : delim ∉ field) : getline { rest := field } delim =
    if field = [] then none else some (field, { rest := [], eof := true }) := by
  unfold getline
  dsimp only
  rw [if_neg Bool.false_ne_true, idxOf?_eq_none.mpr h]

theorem getlines_of_none {ss : StringStream} (h : getline ss delim = none) :
    getlines ss delim = [] := by
  rw [getlines]
  split
  · rfl
  · next h' =>
    rw [h] at h'
    cases h'

theorem getlines_of_some {ss ss' : StringStream} (h : getline ss delim = some (field, ss')) :
    getlines ss delim = field :: getlines ss' delim := by
  rw [getlines]
  split
  · next h' =>
    rw [h] at h'
    cases h'
  · next h' =>
    obtain ⟨rfl, rfl⟩ := Prod.mk.inj (Option.some.inj (h.symm.trans h'))
    rfl

end Getline

/-- The fields that `std::getline` delivers. -/
def delivered (fields : List Bytes) : List Bytes :=
  if fields.getLast? = some [] then fields.dropLast else fields

theorem delivered_cons (field : Bytes) {fields : List Bytes} (h : fields ≠ []) :
    delivered (field :: fields) = field :: delivered fields := by
  have hlast : (field :: fields).getLast? = fields.getLast? := by
    rw [List.getLast?_cons]
    cases hf : fields.getLast? with
    | none => exact absurd (List.getLast?_eq_none_iff.mp hf) h
    | some last => rfl
  unfold delivered
  rw [hlast, List.dropLast_cons_of_ne_nil h]
  split_ifs
  · rfl
  · rfl

theorem getlines_eq (s : Bytes) (delim : UInt8) :
    getlines { rest := s } delim = delivered (s.splitOn delim) := by
  induction s using delim_induction delim with
  | last field h =>
    rw [List.splitOn_eq_singleton h]
    by_cases hempty : field = []
    · subst hempty
      exact getlines_of_none ((getline_last h).trans (if_pos rfl))
    · have hlast := (getline_last h).trans (if_neg hempty)
      rw [getlines_of_some hlast, getlines_of_none rfl]
      exact (if_neg fun h => hempty (Option.some.inj h)).symm
  | cons field rest h ih =>
    rw [getlines_of_some (getline_field h rest), ih,
      List.splitOn_append_cons_self_of_not_mem h,
      delivered_cons field (List.splitOn_ne_nil delim rest)]

/-! ### The parts -/

theorem castInt_eq_nine {n : Nat} : castInt n = kDeviceInfoPartCount ↔ n % 2 ^ 32 = 9 := by
  unfold castInt kDeviceInfoPartCount
  rw [BitVec.toInt_eq_toNat_cond, BitVec.toNat_ofNat]
  split_ifs
  · omega
  · omega

theorem splitDeviceInfo_eq (s : Bytes) : splitDeviceInfo s =
    if (delivered (s.splitOn slash)).length % 2 ^ 32 = 9 then delivered (s.splitOn slash)
    else [] := by
  unfold splitDeviceInfo
  simp only [getlines_eq, ne_eq, castInt_eq_nine, ite_not]

/-- What `split_device_info` is for: nine parts exactly for nine fields, which they are, and nothing
otherwise. -/
def SplitsFields (s : Bytes) : Prop :=
  ((splitDeviceInfo s).length = 9 ↔ s.count slash = 8) ∧
    if s.count slash = 8 then [slash].intercalate (splitDeviceInfo s) = s
    else splitDeviceInfo s = []

/-- The number of parts that are delivered: a slash at the end does not count. -/
theorem length_delivered (s : Bytes) : (delivered (s.splitOn slash)).length =
    if s = [] ∨ s.getLast? = some slash then s.count slash else s.count slash + 1 := by
  unfold delivered
  simp only [getLast?_splitOn_eq_nil]
  split_ifs
  · rw [List.length_dropLast, length_splitOn, Nat.add_sub_cancel]
  · exact length_splitOn slash s

/-- The parts are right when nine fields are delivered, and else there must not be nine. -/
theorem splitsFields_iff {s : Bytes} {n : Nat} (hn : (delivered (s.splitOn slash)).length = n)
    (hjoin : n = 9 → s.count slash = 8 → [slash].intercalate (delivered (s.splitOn slash)) = s) :
    SplitsFields s ↔ if n % 2 ^ 32 = 9 then n = 9 ∧ s.count slash = 8 else s.count slash ≠ 8 := by
  unfold SplitsFields
  rw [splitDeviceInfo_eq, hn]
  by_cases hparts : n % 2 ^ 32 = 9
  · rw [if_pos hparts, if_pos hparts, hn]
    constructor
    · rintro ⟨hiff, hrest⟩
      by_cases hcount : s.count slash = 8
      · exact ⟨hiff.mpr hcount, hcount⟩
      · -- nothing is to be returned, but something is
        rw [if_neg hcount] at hrest
        rw [hrest, List.length_nil] at hn
        omega
    · rintro ⟨hnine, hcount⟩
      rw [if_pos hcount]
      exact ⟨iff_of_true hnine hcount, hjoin hnine hcount⟩
  · rw [if_neg hparts, if_neg hparts]
    constructor
    · rintro ⟨hiff, -⟩ hcount
      exact absurd (hiff.mpr hcount) (by decide)
    · intro hcount
      rw [if_neg hcount]
      exact ⟨iff_of_false (by decide) hcount, rfl⟩

/-- The end of a description and the number of its slashes that are miscounted. -/
def Miscounted (s : Bytes) : Prop :=
  if s.getLast? = some slash then s.count slash = 8 ∨ s.count slash % 2 ^ 32 = 9
  else s.count slash % 2 ^ 32 = 8 ∧ s.count slash ≠ 8

/-- **The parts of a device description.** -/
theorem split_device_info_iff (s : Bytes) : SplitsFields s ↔ ¬ Miscounted s := by
  unfold Miscounted
  by_cases hlast : s.getLast? = some slash
  · have hn := (length_delivered s).trans (if_pos (.inr hlast))
    rw [splitsFields_iff hn fun h h' => absurd (h.symm.trans h') (by decide), if_pos hlast]
    split_ifs
    · omega
    · omega
  · rw [if_neg hlast]
    by_cases hempty : s = []
    · subst hempty
      have hn := (length_delivered []).trans (if_pos (.inl rfl))
      rw [splitsFields_iff hn fun h _ => absurd h (by decide)]
      decide
    · have hshort := not_or.mpr ⟨hempty, hlast⟩
      have hn := (length_delivered s).trans (if_neg hshort)
      have hall : delivered (s.splitOn slash) = s.splitOn slash :=
        if_neg (mt getLast?_splitOn_eq_nil.mp hshort)
      rw [splitsFields_iff hn fun _ _ => by rw [hall, List.intercalate_splitOn]]
      split_ifs
      · omega
      · omega

/-- Nine fields, `a/b/c/d/e/f/g/h/`, of which the last is empty. -/
def lastEmpty : Bytes := [97, 47, 98, 47, 99, 47, 100, 47, 101, 47, 102, 47, 103, 47, 104, 47]

/-- They are refused. -/
theorem split_device_info_refuses : ¬ ∀ s, SplitsFields s := by
  intro hall
  have hn : (delivered (lastEmpty.splitOn slash)).length = 8 := by
    rw [length_delivered]
    decide
  have h := (splitsFields_iff hn fun h _ => absurd h (by decide)).mp (hall lastEmpty)
  revert h
  decide

end Runtime

end WrapperPaas
