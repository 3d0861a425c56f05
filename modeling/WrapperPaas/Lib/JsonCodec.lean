/-
  JSON libraries.

  A library reads texts as values, and writes the compact texts of values.  Libraries differ in how
  deep a value may be nested, in their errors, and in fractions: what is read of one is the nearest
  number that the library has, and it is written as that number.  `Value.reread` is what becomes of
  a value that is written and read again; without fractions it stays what it is.

  `Codec` is what is relied on of a library; `reader` is one.
-/
import Mathlib.Data.Option.Basic
import WrapperPaas.Lib.JsonReader

namespace WrapperPaas

namespace Json

mutual

/-- How deep arrays and objects are nested. -/
def Value.depth : Value → Nat
  | .null => 0
  | .bool _ => 0
  | .num _ => 0
  | .real _ => 0
  | .str _ => 0
  | .arr elements => elementsDepth elements + 1
  | .obj members => membersDepth members + 1

def elementsDepth : List Value → Nat
  | [] => 0
  | v :: vs => max v.depth (elementsDepth vs)

def membersDepth : List (String × Value) → Nat
  | [] => 0
  | (_, v) :: ms => max v.depth (membersDepth ms)

end

section Reread

variable (real : Bytes → Option Bytes)

mutual

/-- The value that is read from the text of a value.  A fraction is read as the text that `real`
gives, if it is in range. -/
def Value.reread : Value → Option Value
  | .null => some .null
  | .bool b => some (.bool b)
  | .num i => some (.num i)
  | .real text => (real text).map .real
  | .str s => some (.str s)
  | .arr elements => (rereadElements elements).map .arr
  | .obj members => (rereadMembers members).map .obj

def rereadElements : List Value → Option (List Value)
  | [] => some []
  | v :: vs => do
    let v ← v.reread
    let vs ← rereadElements vs
    some (v :: vs)

def rereadMembers : List (String × Value) → Option (List (String × Value))
  | [] => some []
  | (key, v) :: ms => do
    let v ← v.reread
    let ms ← rereadMembers ms
    some ((key, v) :: ms)

end

end Reread

/-- A JSON library whose values are canonical and nested at most `limit` deep, if there is a limit,
and which reads what is written.  An error comes with its text, an `ε`. -/
structure Codec (ε : Type) (limit : Option Nat) where
  parse : Bytes → Except ε Value
  /-- the fraction that is read from the text of one, unless it is out of range -/
  real : Bytes → Option Bytes
  canonical : ∀ {b v}, parse b = .ok v → v.Canonical
  parse_compact : ∀ {v w : Value}, v.Canonical →
    (parse (compact v) = .ok w ↔ (∀ n ∈ limit, v.depth ≤ n) ∧ v.reread real = some w)

/-- `nlohmann::json`, whose errors repeat bytes of the text. -/
abbrev Nlohmann := Codec Bytes none

/-- `serde_json` with its recursion limit. -/
abbrev SerdeJson := Codec String (some 127)

/-! ### Members -/

section Members

variable {real : Bytes → Option Bytes} {members : List (String × Value)}

theorem rereadMembers_cons {key : String} {v : Value} {ms ms' : List (String × Value)} :
    rereadMembers real ((key, v) :: ms) = some ms' ↔
      ∃ w, v.reread real = some w ∧ ∃ ws, rereadMembers real ms = some ws ∧
        (key, w) :: ws = ms' := by
  rw [rereadMembers]
  simp only [Option.bind_eq_bind, Option.bind_eq_some_iff, Option.some.injEq]

theorem lookup_reread {ms ms' : List (String × Value)} (h : rereadMembers real ms = some ms')
    (key : String) :
    Option.Rel (fun v w => v.reread real = some w) (ms.lookup key) (ms'.lookup key) := by
  induction ms generalizing ms' with
  | nil =>
    obtain rfl := Option.some.inj h
    exact .none
  | cons m ms ih =>
    obtain ⟨key', v⟩ := m
    obtain ⟨w, hw, ws, hws, rfl⟩ := rereadMembers_cons.mp h
    rw [lookup_cons, lookup_cons]
    split_ifs
    · exact .some hw
    · exact ih hws

/-- The members of a value are read like the value. -/
theorem Value.get_reread {v w : Value} (h : v.reread real = some w) (key : String) :
    Option.Rel (fun v w => v.reread real = some w) (v.get key) (w.get key) := by
  cases v with
  | obj members =>
    obtain ⟨ms, hms, rfl⟩ := Option.map_eq_some_iff.mp h
    exact lookup_reread hms key
  | arr elements =>
    obtain ⟨vs, -, rfl⟩ := Option.map_eq_some_iff.mp h
    exact .none
  | real text =>
    obtain ⟨t, -, rfl⟩ := Option.map_eq_some_iff.mp h
    exact .none
  | null | bool _ | num _ | str _ =>
    obtain rfl := Option.some.inj h
    exact .none

theorem Value.exists_get_reread {v w : Value} (h : v.reread real = some w) {key : String}
    {x : Value} (hx : v.get key = some x) : ∃ y, x.reread real = some y ∧ w.get key = some y := by
  have hget := v.get_reread h key
  rw [hx] at hget
  generalize w.get key = y at hget
  cases hget with
  | some hy => exact ⟨_, hy, rfl⟩

theorem Value.reread_eq_str {v : Value} {s : String} :
    v.reread real = some (.str s) ↔ v = .str s := by
  cases v with
  | str t => simp [Value.reread]
  | null | bool _ | num _ | real _ | arr _ | obj _ => simp [Value.reread]

/-- A string member is there before and after. -/
theorem Value.get_str_reread {v w : Value} (h : v.reread real = some w) {key s : String} :
    w.get key = some (.str s) ↔ v.get key = some (.str s) := by
  have hget := v.get_reread h key
  generalize v.get key = x at hget
  generalize w.get key = y at hget
  cases hget with
  | none => exact ⟨fun h => (nomatch h), fun h => (nomatch h)⟩
  | some hxy =>
    rw [Option.some.injEq, Option.some.injEq]
    constructor
    · rintro rfl
      exact reread_eq_str.mp hxy
    · rintro rfl
      exact (Option.some.inj hxy).symm

theorem membersDepth_le {ms : List (String × Value)} {n : Nat} :
    membersDepth ms ≤ n ↔ ∀ m ∈ ms, m.2.depth ≤ n := by
  induction ms with
  | nil => exact ⟨fun _ _ h => (nomatch h), fun _ => Nat.zero_le n⟩
  | cons m ms ih =>
    obtain ⟨key, v⟩ := m
    rw [membersDepth, Nat.max_le, ih, List.forall_mem_cons]

/-- What holds of the values of the members holds of those of the object. -/
theorem forall_assignMembers {P : Value → Prop} (h : ∀ m ∈ members, P m.2) :
    ∀ m ∈ assignMembers members, P m.2 := by
  have hset : ∀ {key : String} {v : Value} {ms : List (String × Value)}, P v →
      (∀ m ∈ ms, P m.2) → ∀ m ∈ setMember key v ms, P m.2 := by
    intro key v ms hv hms
    induction ms with
    | nil => exact List.forall_mem_singleton.mpr hv
    | cons m ms ih =>
      obtain ⟨hm, hms⟩ := List.forall_mem_cons.mp hms
      unfold setMember
      split_ifs
      · exact List.forall_mem_cons.mpr ⟨hv, List.forall_mem_cons.mpr ⟨hm, hms⟩⟩
      · exact List.forall_mem_cons.mpr ⟨hv, hms⟩
      · exact List.forall_mem_cons.mpr ⟨hm, ih hms⟩
  induction members using List.reverseRecOn with
  | nil => exact List.forall_mem_nil _
  | append_singleton members last ih =>
    obtain ⟨hmembers, hlast⟩ := List.forall_mem_append.mp h
    unfold assignMembers at ih ⊢
    rw [List.foldl_concat]
    exact hset (hlast last List.mem_cons_self) (ih hmembers)

theorem depth_object {n : Nat} (h : ∀ m ∈ members, m.2.depth ≤ n) :
    (Value.object members).depth ≤ n + 1 :=
  Nat.succ_le_succ (membersDepth_le.mpr (forall_assignMembers (P := fun v => v.depth ≤ n) h))

/-- An object is read when its members are. -/
theorem exists_reread_object (h : ∀ m ∈ members, ∃ w, m.2.reread real = some w) :
    ∃ w, (Value.object members).reread real = some w := by
  have hmembers : ∀ {ms : List (String × Value)}, (∀ m ∈ ms, ∃ w, m.2.reread real = some w) →
      ∃ ms', rereadMembers real ms = some ms' := by
    intro ms hms
    induction ms with
    | nil => exact ⟨[], rfl⟩
    | cons m ms ih =>
      obtain ⟨⟨w, hw⟩, hms⟩ := List.forall_mem_cons.mp hms
      obtain ⟨ws, hws⟩ := ih hms
      exact ⟨_, rereadMembers_cons.mpr ⟨w, hw, ws, hws, rfl⟩⟩
  obtain ⟨ms, hms⟩ := hmembers
    (forall_assignMembers (P := fun v => ∃ w, v.reread real = some w) h)
  exact ⟨.obj ms, by rw [Value.object, Value.reread, hms, Option.map_some]⟩

end Members

/-! ### Values that every library keeps -/

/-- The value is canonical, nested at most `n` deep, and read as what it is. -/
structure Value.Plain (n : Nat) (v : Value) : Prop where
  canonical : v.Canonical
  depth : v.depth ≤ n
  reread : ∀ real, v.reread real = some v

section Plain

variable {n : Nat}

@[simp] theorem plain_null : Value.null.Plain n := ⟨trivial, Nat.zero_le n, fun _ => rfl⟩

@[simp] theorem plain_bool (b : Bool) : (Value.bool b).Plain n :=
  ⟨trivial, Nat.zero_le n, fun _ => rfl⟩

@[simp] theorem plain_num {i : Int} : (Value.num i).Plain n ↔ InRange i :=
  ⟨fun h => h.canonical, fun h => ⟨h, Nat.zero_le n, fun _ => rfl⟩⟩

@[simp] theorem plain_str (s : String) : (Value.str s).Plain n :=
  ⟨trivial, Nat.zero_le n, fun _ => rfl⟩

theorem Value.Plain.mono {v : Value} {m : Nat} (h : v.Plain n) (hle : n ≤ m) : v.Plain m :=
  ⟨h.canonical, h.depth.trans hle, h.reread⟩

theorem plain_object {members : List (String × Value)} (h : ∀ m ∈ members, m.2.Plain n) :
    (Value.object members).Plain (n + 1) := by
  have hcanonical : ∀ {ms : List (String × Value)}, (∀ m ∈ ms, m.2.Plain n) →
      MembersCanonical ms := by
    intro ms hms
    induction ms with
    | nil => trivial
    | cons m ms ih =>
      obtain ⟨hm, hms⟩ := List.forall_mem_cons.mp hms
      exact ⟨hm.canonical, ih hms⟩
  have hmembers : ∀ {ms : List (String × Value)}, (∀ m ∈ ms, m.2.Plain n) →
      ∀ real, rereadMembers real ms = some ms := by
    intro ms hms real
    induction ms with
    | nil => rfl
    | cons m ms ih =>
      obtain ⟨hm, hms⟩ := List.forall_mem_cons.mp hms
      exact rereadMembers_cons.mpr ⟨_, hm.reread real, ms, ih hms, rfl⟩
  refine ⟨canonical_object (hcanonical h), depth_object fun m hm => (h m hm).depth, fun real => ?_⟩
  rw [Value.object, Value.reread, hmembers (forall_assignMembers h), Option.map_some]

end Plain

/-! ### A library -/

mutual

theorem reread_some : ∀ v : Value, v.reread some = some v
  | .null | .bool _ | .num _ | .real _ | .str _ => rfl
  | .arr elements => by rw [Value.reread, rereadElements_some elements, Option.map_some]
  | .obj members => by rw [Value.reread, rereadMembers_some members, Option.map_some]

theorem rereadElements_some : ∀ vs : List Value, rereadElements some vs = some vs
  | [] => rfl
  | v :: vs => by
    rw [rereadElements, reread_some v, rereadElements_some vs]
    rfl

theorem rereadMembers_some : ∀ ms : List (String × Value), rereadMembers some ms = some ms
  | [] => rfl
  | (key, v) :: ms => by
    rw [rereadMembers, reread_some v, rereadMembers_some ms]
    rfl

end

/-- A library that keeps fractions as they are written; its one error has the text `e`. -/
def reader {ε : Type} (e : ε) (limit : Option Nat) : Codec ε limit where
  parse b :=
    match read b with
    | none => .error e
    | some v => if ∀ n ∈ limit, v.depth ≤ n then .ok v else .error e
  real := some
  canonical {b v} h := by
    cases hread : read b with
    | none =>
      rw [hread] at h
      cases h
    | some w =>
      rw [hread] at h
      dsimp only at h
      split_ifs at h
      obtain rfl := Except.ok.inj h
      exact canonical_of_read hread
  parse_compact {v w} hv := by
    rw [read_compact hv, reread_some, Option.some.injEq]
    dsimp only
    split_ifs with hdepth
    · rw [Except.ok.injEq, and_iff_right hdepth]
    · exact ⟨fun h => (nomatch h), fun h => absurd h.1 hdepth⟩

end Json

end WrapperPaas
