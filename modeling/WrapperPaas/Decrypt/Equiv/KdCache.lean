/-
  Soundness of the kd cache.

  The cache is keyed by adam_id, a newline and key_uri in one string, and both parts may contain
  newlines, so two pairs can share an entry (`Ambiguous`).  `kd_cache_sound_iff` says that this is
  the only way to get another track's context: the cache refines the map `KdStored` on every set of
  pairs that contains no such two, whatever the calls, evictions and erasures, and on no other set.
-/
import Mathlib.Data.Set.Basic
import WrapperPaas.Decrypt.KdCache

namespace WrapperPaas

/-- The adam_id of `q` is that of `p` followed by a newline and the first part of the key URI of
`p`, whose rest is the key URI of `q`. -/
def Ambiguous (p q : TrackKey) : Prop :=
  ∃ m, q.1 = p.1 ++ newline :: m ∧ p.2 = m ++ newline :: q.2

/-- Two pairs share a cache entry exactly if they are the same pair or one is ambiguous with the
other. -/
theorem kdCacheKey_eq_iff {p q : TrackKey} :
    kdCacheKey p.1 p.2 = kdCacheKey q.1 q.2 ↔ p = q ∨ Ambiguous p q ∨ Ambiguous q p := by
  constructor
  · intro h
    rcases List.append_eq_append_iff.mp h with ⟨m, hq, hp⟩ | ⟨m, hp, hq⟩
    · cases m with
      | nil =>
        rw [List.append_nil] at hq
        rw [List.nil_append, List.cons.injEq] at hp
        exact .inl (Prod.ext hq.symm hp.2)
      | cons x m =>
        rw [List.cons_append, List.cons.injEq] at hp
        obtain ⟨rfl, hp⟩ := hp
        exact .inr (.inl ⟨m, hq, hp⟩)
    · cases m with
      | nil =>
        rw [List.append_nil] at hp
        rw [List.nil_append, List.cons.injEq] at hq
        exact .inl (Prod.ext hp hq.2.symm)
      | cons x m =>
        rw [List.cons_append, List.cons.injEq] at hq
        obtain ⟨rfl, hq⟩ := hq
        exact .inr (.inr ⟨m, hp, hq⟩)
  · rintro (rfl | ⟨m, h₁, h₂⟩ | ⟨m, h₁, h₂⟩)
    · rfl
    · simp [kdCacheKey, h₁, h₂]
    · simp [kdCacheKey, h₁, h₂]

/-- Ambiguous pairs are different. -/
theorem Ambiguous.ne {p q : TrackKey} (h : Ambiguous p q) : p ≠ q := by
  rintro rfl
  obtain ⟨m, hm, -⟩ := h
  have := congrArg List.length hm
  simp at this

/-! ### What the calls do to an entry -/

namespace KdCache

variable {c : KdCache} {k : Bytes} {kd : Kd}

/-- Eviction only removes entries. -/
theorem evict_entries {order : List Bytes} {entries : Bytes → Option Kd}
    (h : (evict entries order).entries k = some kd) : entries k = some kd := by
  induction order generalizing entries with
  | nil => exact h
  | cons oldest rest ih =>
    rw [evict] at h
    split_ifs at h
    · have hk := ih h
      rw [Function.update_apply] at hk
      split_ifs at hk
      exact hk
    · exact h

/-- What is there after a store is the stored context under its own key, or was there before. -/
theorem storeCachedKd_entries {a u : Bytes} {kd' : Kd}
    (h : (c.storeCachedKd a u kd').entries k = some kd) :
    k = kdCacheKey a u ∧ kd = kd' ∨ k ≠ kdCacheKey a u ∧ c.entries k = some kd := by
  have hk : Function.update c.entries (kdCacheKey a u) (some kd') k = some kd := by
    simp only [storeCachedKd] at h
    split_ifs at h
    · exact h
    · exact evict_entries h
  rw [Function.update_apply] at hk
  split_ifs at hk with hkey
  · exact .inl ⟨hkey, (Option.some.inj hk).symm⟩
  · exact .inr ⟨hkey, hk⟩

/-- What is there after an erasure was there before, under another key. -/
theorem eraseCachedKd_entries {a u : Bytes} (h : (c.eraseCachedKd a u).entries k = some kd) :
    k ≠ kdCacheKey a u ∧ c.entries k = some kd := by
  simp only [eraseCachedKd] at h
  split_ifs at h with hnone
  · refine ⟨?_, h⟩
    rintro rfl
    rw [h] at hnone
    cases hnone
  · change Function.update c.entries (kdCacheKey a u) none k = some kd at h
    rw [Function.update_apply] at h
    split_ifs at h with hkey
    exact ⟨hkey, h⟩

/-- A context stored in an empty cache is there. -/
theorem storeCachedKd_empty (a u : Bytes) (kd : Kd) :
    (storeCachedKd {} a u kd).entries (kdCacheKey a u) = some kd := by
  have hself : Function.update (fun _ => none) (kdCacheKey a u) (some kd) (kdCacheKey a u) =
      some kd := Function.update_self ..
  simp only [storeCachedKd]
  split_ifs
  · exact hself
  · exact hself

end KdCache

/-! ### The cache refines the map of stored contexts -/

/-- Every context the cache has for a pair of `P` is the one stored for that pair. -/
def KdRefines (P : Set TrackKey) (c : KdCache) (m : KdStored) : Prop :=
  ∀ p ∈ P, ∀ kd, c.findCachedKd p.1 p.2 = some kd → m p = some kd

/-- No two pairs of `P` share a cache entry. -/
def Unambiguous (P : Set TrackKey) : Prop := ∀ p ∈ P, ∀ q ∈ P, ¬ Ambiguous p q

namespace KdRefines

variable {P : Set TrackKey} {c : KdCache} {m : KdStored}

theorem call {kc : KdCall} (hP : Unambiguous P) (hk : kc.track ∈ P) (h : KdRefines P c m) :
    KdRefines P (c.call kc) (m.call kc) := by
  have key_inj : ∀ p ∈ P, ∀ q ∈ P, kdCacheKey p.1 p.2 = kdCacheKey q.1 q.2 → p = q := by
    intro p hp q hq hkey
    rcases kdCacheKey_eq_iff.mp hkey with rfl | hpq | hqp
    · rfl
    · exact absurd hpq (hP p hp q hq)
    · exact absurd hqp (hP q hq p hp)
  intro p hp kd hfind
  cases kc with
  | store q kd' =>
    rcases KdCache.storeCachedKd_entries hfind with ⟨hkey, rfl⟩ | ⟨hkey, hbefore⟩
    · obtain rfl := key_inj p hp q hk hkey
      exact Function.update_self ..
    · have hne : p ≠ q := fun hpq => hkey (by rw [hpq])
      exact (Function.update_of_ne hne ..).trans (h p hp kd hbefore)
  | erase q =>
    obtain ⟨hkey, hbefore⟩ := KdCache.eraseCachedKd_entries hfind
    have hne : p ≠ q := fun hpq => hkey (by rw [hpq])
    exact (Function.update_of_ne hne ..).trans (h p hp kd hbefore)
  | find q => exact h p hp kd hfind

theorem run {calls : List KdCall} (hP : Unambiguous P) (hk : ∀ kc ∈ calls, kc.track ∈ P)
    (h : KdRefines P c m) : KdRefines P (c.run calls) (m.run calls) := by
  induction calls generalizing c m with
  | nil => exact h
  | cons kc calls ih =>
    refine ih (fun x hx => hk x (List.mem_cons_of_mem _ hx)) ?_
    exact h.call hP (hk kc List.mem_cons_self)

theorem empty : KdRefines P {} (fun _ => none) := fun _ _ _ h => (nomatch h)

end KdRefines

/-- **kd cache lookup soundness.**  Whatever is stored, erased and looked up for the pairs of `P`, a
lookup returns null or the context stored for its own pair, exactly if no two pairs of `P` are
ambiguous. -/
theorem kd_cache_sound_iff (P : Set TrackKey) :
    (∀ calls : List KdCall, (∀ kc ∈ calls, kc.track ∈ P) → ∀ p ∈ P, KdSound calls p) ↔
      Unambiguous P := by
  constructor
  · intro hsound p hp q hq hpq
    -- store for `p`, then look `q` up
    have hkey := kdCacheKey_eq_iff.mpr (.inr (.inl hpq))
    have hfind : (KdCache.run {} [.store p 1]).findCachedKd q.1 q.2 = some 1 := by
      change (KdCache.storeCachedKd {} p.1 p.2 1).entries (kdCacheKey q.1 q.2) = some 1
      rw [← hkey]
      exact KdCache.storeCachedKd_empty p.1 p.2 1
    have hstored := hsound [.store p 1] (by simpa [KdCall.track] using hp) q hq 1 hfind
    change Function.update (fun _ => none) p (some 1) q = some 1 at hstored
    rw [Function.update_of_ne hpq.ne.symm] at hstored
    cases hstored
  · intro hP calls hk p hp kd hfind
    exact KdRefines.empty.run hP hk p hp kd hfind

/-- Two pairs of printable strings and newlines: ("a\nb", "c") and ("a", "b\nc"). -/
def ambiguousPair : TrackKey × TrackKey := (([97, 10, 98], [99]), ([97], [98, 10, 99]))

/-- The context stored for one of them is returned for the other. -/
theorem kd_cache_unsound :
    ¬ ∀ (calls : List KdCall) (p : TrackKey), (∀ kc ∈ calls, kc.track.1 ≠ [] ∧ kc.track.2 ≠ []) →
      p.1 ≠ [] → p.2 ≠ [] → KdSound calls p := by
  intro hall
  have h := hall [.store ambiguousPair.1 1] ambiguousPair.2 (by decide) (by decide) (by decide) 1
    rfl
  cases h

end WrapperPaas
