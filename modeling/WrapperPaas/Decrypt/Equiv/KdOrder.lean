/-
  The representation invariant of the kd cache.

  The queue holds the keys of the regular entries in the order of their insertion, without
  duplicates; the entries outside it are pinned ones (`KdOrdered`).  A call on a cache with the
  invariant has one of few results (`storeCachedKd_room`, `storeCachedKd_full` and the like), of
  which only the insertion of a regular key into a full cache evicts an entry, the oldest of the
  queue.
-/
import Mathlib.Data.List.Induction
import Mathlib.Data.List.Nodup
import WrapperPaas.Decrypt.Equiv.KdCache

namespace WrapperPaas

namespace KdCache

/-! ### What the calls do -/

variable {c : KdCache} {a u : Bytes} {kd : Kd}

theorem evict_of_le {entries : Bytes → Option Kd} {order : List Bytes}
    (h : order.length ≤ kKdCacheMaxEntries) : evict entries order = ⟨entries, order⟩ := by
  cases order with
  | nil => rfl
  | cons oldest rest =>
    rw [evict, if_neg]
    exact Nat.not_lt.mpr h

/-- A store that inserts nothing, or the pinned context, leaves the queue alone. -/
theorem storeCachedKd_pinned (h : c.entries (kdCacheKey a u) ≠ none ∨ a = kPrefetchAdam) :
    c.storeCachedKd a u kd =
      ⟨Function.update c.entries (kdCacheKey a u) (some kd), c.order⟩ := by
  simp only [storeCachedKd]
  rw [if_pos]
  rcases h with h | h
  · obtain ⟨kd', hkd⟩ := Option.ne_none_iff_exists'.mp h
    rw [hkd]
    rfl
  · rw [h]
    simp

theorem storeCachedKd_new (ha : a ≠ kPrefetchAdam) (hnew : c.entries (kdCacheKey a u) = none) :
    c.storeCachedKd a u kd = evict (Function.update c.entries (kdCacheKey a u) (some kd))
      (c.order ++ [kdCacheKey a u]) := by
  simp only [storeCachedKd]
  rw [if_neg]
  rw [hnew]
  simpa using ha

/-- A new regular key goes to the end of the queue. -/
theorem storeCachedKd_room (ha : a ≠ kPrefetchAdam) (hnew : c.entries (kdCacheKey a u) = none)
    (hroom : c.order.length < kKdCacheMaxEntries) :
    c.storeCachedKd a u kd = ⟨Function.update c.entries (kdCacheKey a u) (some kd),
      c.order ++ [kdCacheKey a u]⟩ := by
  rw [storeCachedKd_new ha hnew, evict_of_le]
  rw [List.length_append]
  exact hroom

/-- In a full cache it takes the place of the oldest one. -/
theorem storeCachedKd_full {oldest : Bytes} {rest : List Bytes} (ha : a ≠ kPrefetchAdam)
    (hnew : c.entries (kdCacheKey a u) = none) (horder : c.order = oldest :: rest)
    (hfull : c.order.length = kKdCacheMaxEntries) :
    c.storeCachedKd a u kd =
      ⟨Function.update (Function.update c.entries (kdCacheKey a u) (some kd)) oldest none,
        rest ++ [kdCacheKey a u]⟩ := by
  rw [horder, List.length_cons] at hfull
  rw [storeCachedKd_new ha hnew, horder, List.cons_append, evict, if_pos, evict_of_le]
  · rw [List.length_append]
    exact hfull.le
  · rw [List.length_cons, List.length_append, ← hfull]
    exact Nat.lt_succ_self _

theorem eraseCachedKd_absent (h : c.entries (kdCacheKey a u) = none) : c.eraseCachedKd a u = c := by
  simp only [eraseCachedKd]
  rw [if_pos (by rw [h]; rfl)]

theorem eraseCachedKd_present (h : c.entries (kdCacheKey a u) ≠ none) : c.eraseCachedKd a u =
    ⟨Function.update c.entries (kdCacheKey a u) none, c.order.erase (kdCacheKey a u)⟩ := by
  simp only [eraseCachedKd]
  rw [if_neg]
  obtain ⟨kd', hkd⟩ := Option.ne_none_iff_exists'.mp h
  rw [hkd]
  exact Bool.false_ne_true

end KdCache

/-! ### Insertions -/

/-- The cache after the first `i` calls. -/
def kdAfter (calls : List KdCall) (i : Nat) : KdCache := KdCache.run {} (calls.take i)

/-- The entry of key `k` was inserted by call number `i`, a store for the pair `p`: the key was not
there before the call, and it has been there ever since. -/
structure InsertedBy (calls : List KdCall) (k : Bytes) (i : Nat) (p : TrackKey) : Prop where
  store : ∃ kd, calls[i]? = some (.store p kd)
  key : kdCacheKey p.1 p.2 = k
  absent : (kdAfter calls i).entries k = none
  present : ∀ j, i < j → j ≤ calls.length → (kdAfter calls j).entries k ≠ none

/-- The entry of `k` was inserted before that of `k'`. -/
def InsertedBefore (calls : List KdCall) (k k' : Bytes) : Prop :=
  ∀ i i' p p', InsertedBy calls k i p → InsertedBy calls k' i' p' → i < i'

/-- The queue of the cache after these calls and its entries agree. -/
structure KdOrdered (calls : List KdCall) (c : KdCache) : Prop where
  nodup : c.order.Nodup
  present : ∀ k ∈ c.order, c.entries k ≠ none
  regular : ∀ k ∈ c.order, ∃ i p, InsertedBy calls k i p ∧ p.1 ≠ kPrefetchAdam
  pinned : ∀ k, c.entries k ≠ none → k ∉ c.order →
    ∃ i p, InsertedBy calls k i p ∧ p.1 = kPrefetchAdam
  /-- the queue is in the order of the insertions -/
  oldest : c.order.Pairwise (InsertedBefore calls)
  bounded : c.order.length ≤ kKdCacheMaxEntries

section Insertions

variable {calls : List KdCall} {kc : KdCall} {k : Bytes} {i : Nat} {p : TrackKey}

theorem kdAfter_append {j : Nat} (h : j ≤ calls.length) :
    kdAfter (calls ++ [kc]) j = kdAfter calls j := by
  rw [kdAfter, kdAfter, List.take_append_of_le_length h]

theorem kdAfter_length : kdAfter calls calls.length = KdCache.run {} calls := by
  rw [kdAfter, List.take_length]

theorem run_append : KdCache.run {} (calls ++ [kc]) = (KdCache.run {} calls).call kc := by
  rw [KdCache.run, List.foldl_append]
  rfl

/-- An insertion is of a call that was made. -/
theorem InsertedBy.lt (h : InsertedBy calls k i p) : i < calls.length := by
  obtain ⟨kd, hstore⟩ := h.store
  exact (List.getElem?_eq_some_iff.mp hstore).1

/-- An entry that a call leaves there keeps its insertion. -/
theorem InsertedBy.keep (h : InsertedBy calls k i p)
    (hk : ((KdCache.run {} calls).call kc).entries k ≠ none) :
    InsertedBy (calls ++ [kc]) k i p := by
  have hlt := h.lt
  refine ⟨?_, h.key, ?_, fun j hj hle => ?_⟩
  · rw [List.getElem?_append_left hlt]
    exact h.store
  · rw [kdAfter_append hlt.le]
    exact h.absent
  · rw [List.length_append, List.length_singleton] at hle
    rcases Nat.lt_or_eq_of_le hle with hlt' | rfl
    · rw [kdAfter_append (Nat.le_of_lt_succ hlt')]
      exact h.present j hj (Nat.le_of_lt_succ hlt')
    · have hlen : calls.length + 1 = (calls ++ [kc]).length := by
        rw [List.length_append, List.length_singleton]
      rw [hlen, kdAfter_length, run_append]
      exact hk

/-- The insertion of an entry that was there before the last call is an older one. -/
theorem InsertedBy.of_append (h : InsertedBy (calls ++ [kc]) k i p)
    (hk : (KdCache.run {} calls).entries k ≠ none) : InsertedBy calls k i p := by
  have hlt : i < calls.length := by
    have hi := h.lt
    rw [List.length_append, List.length_singleton] at hi
    refine lt_of_le_of_ne (Nat.le_of_lt_succ hi) ?_
    rintro rfl
    refine hk ?_
    rw [← kdAfter_length, ← kdAfter_append (Nat.le_refl _)]
    exact h.absent
  refine ⟨?_, h.key, ?_, fun j hj hle => ?_⟩
  · obtain ⟨kd, hstore⟩ := h.store
    rw [List.getElem?_append_left hlt] at hstore
    exact ⟨kd, hstore⟩
  · exact (congrArg (·.entries k) (kdAfter_append hlt.le)).symm.trans h.absent
  · have hsame : kdAfter (calls ++ [kc]) j = kdAfter calls j := kdAfter_append hle
    rw [← hsame]
    refine h.present j hj (hle.trans ?_)
    rw [List.length_append]
    exact Nat.le_add_right ..

theorem InsertedBefore.append {k' : Bytes} (h : InsertedBefore calls k k')
    (hk : (KdCache.run {} calls).entries k ≠ none)
    (hk' : (KdCache.run {} calls).entries k' ≠ none) : InsertedBefore (calls ++ [kc]) k k' :=
  fun i i' p p' hi hi' => h i i' p p' (hi.of_append hk) (hi'.of_append hk')

/-- An entry that was not there before the last call was not inserted before it. -/
theorem InsertedBy.le_of_absent (h : InsertedBy (calls ++ [kc]) k i p)
    (hk : (KdCache.run {} calls).entries k = none) : calls.length ≤ i := by
  by_contra hlt
  refine h.present calls.length (Nat.not_le.mp hlt) ?_ ?_
  · rw [List.length_append]
    exact Nat.le_add_right ..
  · rw [kdAfter_append (Nat.le_refl _), kdAfter_length]
    exact hk

/-- A store of a key that is not there inserts it. -/
theorem InsertedBy.new {kd : Kd} (hkey : kdCacheKey p.1 p.2 = k)
    (habsent : (KdCache.run {} calls).entries k = none)
    (hk : ((KdCache.run {} calls).call (.store p kd)).entries k ≠ none) :
    InsertedBy (calls ++ [.store p kd]) k calls.length p := by
  have hlen : (calls ++ [KdCall.store p kd]).length = calls.length + 1 := by
    rw [List.length_append, List.length_singleton]
  refine ⟨⟨kd, ?_⟩, hkey, ?_, fun j hj hle => ?_⟩
  · rw [List.getElem?_append_right (Nat.le_refl _), Nat.sub_self]
    rfl
  · rw [kdAfter_append (Nat.le_refl _), kdAfter_length]
    exact habsent
  · have hj' : j = (calls ++ [KdCall.store p kd]).length := by omega
    rw [hj', kdAfter_length, run_append]
    exact hk

end Insertions

/-! ### The invariant -/

namespace KdOrdered

variable {calls : List KdCall} {kc : KdCall} {c : KdCache}

/-- A call that adds nothing to the queue. -/
theorem keep (h : KdOrdered calls (KdCache.run {} calls))
    (hc : (KdCache.run {} calls).call kc = c)
    (horder : c.order.Sublist (KdCache.run {} calls).order)
    (hpresent : ∀ k ∈ c.order, c.entries k ≠ none)
    (hpinned : ∀ k, c.entries k ≠ none → k ∉ c.order →
      ∃ i p, InsertedBy (calls ++ [kc]) k i p ∧ p.1 = kPrefetchAdam) :
    KdOrdered (calls ++ [kc]) c where
  nodup := h.nodup.sublist horder
  present := hpresent
  regular k hk := by
    obtain ⟨i, p, hi, hp⟩ := h.regular k (horder.subset hk)
    refine ⟨i, p, hi.keep ?_, hp⟩
    rw [hc]
    exact hpresent k hk
  pinned := hpinned
  oldest := by
    refine (h.oldest.sublist horder).imp_of_mem fun {k k'} hk hk' hbefore => ?_
    exact hbefore.append (h.present k (horder.subset hk)) (h.present k' (horder.subset hk'))
  bounded := horder.length_le.trans h.bounded

/-- A pinned entry stays pinned. -/
theorem keep_pinned (h : KdOrdered calls (KdCache.run {} calls)) {k : Bytes}
    (hk : (KdCache.run {} calls).entries k ≠ none) (hnot : k ∉ (KdCache.run {} calls).order)
    (hk' : ((KdCache.run {} calls).call kc).entries k ≠ none) :
    ∃ i p, InsertedBy (calls ++ [kc]) k i p ∧ p.1 = kPrefetchAdam := by
  obtain ⟨i, p, hi, hp⟩ := h.pinned k hk hnot
  exact ⟨i, p, hi.keep hk', hp⟩

/-- A store that adds its key to the end of the queue. -/
theorem push (h : KdOrdered calls (KdCache.run {} calls)) {p : TrackKey} {kd : Kd}
    {order : List Bytes} (hp : p.1 ≠ kPrefetchAdam)
    (hnew : (KdCache.run {} calls).entries (kdCacheKey p.1 p.2) = none)
    (hc : (KdCache.run {} calls).call (.store p kd) = c)
    (horder : order.Sublist (KdCache.run {} calls).order)
    (hpush : c.order = order ++ [kdCacheKey p.1 p.2])
    (hpresent : ∀ k ∈ c.order, c.entries k ≠ none)
    (hpinned : ∀ k, c.entries k ≠ none → k ∉ c.order →
      ∃ i p', InsertedBy (calls ++ [.store p kd]) k i p' ∧ p'.1 = kPrefetchAdam)
    (hlen : order.length < kKdCacheMaxEntries) : KdOrdered (calls ++ [.store p kd]) c where
  nodup := by
    rw [hpush]
    refine (h.nodup.sublist horder).append (List.nodup_singleton _) ?_
    rw [List.disjoint_singleton]
    exact fun hk => h.present _ (horder.subset hk) hnew
  present := hpresent
  regular k hk := by
    have hk' := hpresent k hk
    rw [← hc] at hk'
    rw [hpush] at hk
    rcases List.mem_append.mp hk with hk | hk
    · obtain ⟨i, p', hi, hp'⟩ := h.regular k (horder.subset hk)
      exact ⟨i, p', hi.keep hk', hp'⟩
    · obtain rfl := List.mem_singleton.mp hk
      exact ⟨calls.length, p, .new rfl hnew hk', hp⟩
  pinned := hpinned
  oldest := by
    rw [hpush]
    refine List.pairwise_append.mpr ⟨?_, List.pairwise_singleton _ _, fun k hk k' hk' => ?_⟩
    · refine (h.oldest.sublist horder).imp_of_mem fun {k k'} hk hk' hbefore => ?_
      exact hbefore.append (h.present k (horder.subset hk)) (h.present k' (horder.subset hk'))
    · -- the new entry is the youngest
      obtain rfl := List.mem_singleton.mp hk'
      intro i i' q q' hi hi'
      have hold := (hi.of_append (h.present k (horder.subset hk))).lt
      exact hold.trans_le (hi'.le_of_absent hnew)
  bounded := by
    rw [hpush, List.length_append]
    exact hlen

section Call

variable {p : TrackKey} {kd : Kd}

theorem erase (h : KdOrdered calls (KdCache.run {} calls)) :
    KdOrdered (calls ++ [.erase p]) ((KdCache.run {} calls).eraseCachedKd p.1 p.2) := by
  by_cases hkey : (KdCache.run {} calls).entries (kdCacheKey p.1 p.2) = none
  · have hc := KdCache.eraseCachedKd_absent hkey
    rw [hc]
    refine h.keep hc (List.Sublist.refl _) h.present fun k hk hnot => h.keep_pinned hk hnot ?_
    change ((KdCache.run {} calls).eraseCachedKd p.1 p.2).entries k ≠ none
    rwa [hc]
  · have hc := KdCache.eraseCachedKd_present hkey
    -- what is left is not the erased key
    have hother : ∀ {k}, ((KdCache.run {} calls).eraseCachedKd p.1 p.2).entries k ≠ none →
        k ≠ kdCacheKey p.1 p.2 ∧ (KdCache.run {} calls).entries k ≠ none := by
      intro k hk
      obtain ⟨kd', hkd⟩ := Option.ne_none_iff_exists'.mp hk
      obtain ⟨hne, hbefore⟩ := KdCache.eraseCachedKd_entries hkd
      refine ⟨hne, ?_⟩
      rw [hbefore]
      exact Option.some_ne_none kd'
    refine h.keep rfl ?_ ?_ ?_
    · rw [hc]
      exact List.erase_sublist
    · intro k hk
      rw [hc] at hk ⊢
      obtain ⟨hne, hk⟩ := (List.Nodup.mem_erase_iff h.nodup).mp hk
      change Function.update (KdCache.run {} calls).entries (kdCacheKey p.1 p.2) none k ≠ none
      rw [Function.update_of_ne hne]
      exact h.present k hk
    · intro k hk hnot
      obtain ⟨hne, hbefore⟩ := hother hk
      refine h.keep_pinned hbefore (fun hmem => hnot ?_) hk
      rw [hc]
      exact (List.Nodup.mem_erase_iff h.nodup).mpr ⟨hne, hmem⟩

theorem store (h : KdOrdered calls (KdCache.run {} calls)) :
    KdOrdered (calls ++ [.store p kd]) ((KdCache.run {} calls).storeCachedKd p.1 p.2 kd) := by
  -- what is there is the stored key or was there before
  have hother : ∀ {k}, ((KdCache.run {} calls).storeCachedKd p.1 p.2 kd).entries k ≠ none →
      k ≠ kdCacheKey p.1 p.2 → (KdCache.run {} calls).entries k ≠ none := by
    intro k hk hne
    obtain ⟨kd', hkd⟩ := Option.ne_none_iff_exists'.mp hk
    rcases KdCache.storeCachedKd_entries hkd with ⟨hkey, -⟩ | ⟨-, hbefore⟩
    · exact absurd hkey hne
    · rw [hbefore]
      exact Option.some_ne_none kd'
  have hupdate : ∀ {k}, (KdCache.run {} calls).entries k ≠ none →
      Function.update (KdCache.run {} calls).entries (kdCacheKey p.1 p.2) (some kd) k ≠ none := by
    intro k hk
    rw [Function.update_apply]
    split_ifs
    · exact Option.some_ne_none kd
    · exact hk
  have hself : Function.update (KdCache.run {} calls).entries (kdCacheKey p.1 p.2) (some kd)
      (kdCacheKey p.1 p.2) ≠ none := by
    rw [Function.update_self]
    exact Option.some_ne_none kd
  by_cases hpin : (KdCache.run {} calls).entries (kdCacheKey p.1 p.2) ≠ none ∨ p.1 = kPrefetchAdam
  · have hc : (KdCache.run {} calls).storeCachedKd p.1 p.2 kd = _ :=
      KdCache.storeCachedKd_pinned hpin
    refine h.keep rfl ?_ ?_ ?_
    · rw [hc]
    · intro k hk
      rw [hc] at hk ⊢
      exact hupdate (h.present k hk)
    · intro k hk hnot
      have hnot' : k ∉ (KdCache.run {} calls).order := by rwa [hc] at hnot
      by_cases hbefore : (KdCache.run {} calls).entries k = none
      · -- a new entry outside the queue is a prefetch context
        obtain rfl : k = kdCacheKey p.1 p.2 := by
          by_contra hne
          exact hother hk hne hbefore
        exact ⟨calls.length, p, .new rfl hbefore hk, hpin.resolve_left (not_not.mpr hbefore)⟩
      · exact h.keep_pinned hbefore hnot' hk
  · obtain ⟨hnew, hp⟩ := not_or.mp hpin
    have hnew := not_not.mp hnew
    by_cases hroom : (KdCache.run {} calls).order.length < kKdCacheMaxEntries
    · have hc : (KdCache.run {} calls).storeCachedKd p.1 p.2 kd = _ :=
        KdCache.storeCachedKd_room hp hnew hroom
      refine h.push hp hnew rfl (List.Sublist.refl _) (by rw [hc]) ?_ ?_ hroom
      · intro k hk
        rw [hc] at hk ⊢
        rcases List.mem_append.mp hk with hk | hk
        · exact hupdate (h.present k hk)
        · obtain rfl := List.mem_singleton.mp hk
          exact hself
      · intro k hk hnot
        rw [hc] at hnot
        obtain ⟨hnot, hne⟩ := not_or.mp (List.mem_append.not.mp hnot)
        exact h.keep_pinned (hother hk (List.mem_singleton.not.mp hne)) hnot hk
    · have hfull := h.bounded.antisymm (Nat.not_lt.mp hroom)
      obtain ⟨oldest, rest, horder⟩ : ∃ oldest rest,
          (KdCache.run {} calls).order = oldest :: rest := by
        refine List.exists_cons_of_length_pos ?_
        rw [hfull]
        exact Nat.zero_lt_succ _
      have hc : (KdCache.run {} calls).storeCachedKd p.1 p.2 kd = _ :=
        KdCache.storeCachedKd_full hp hnew horder hfull
      have hmem : ∀ {k}, k ∈ rest → k ∈ (KdCache.run {} calls).order := by
        intro k hk
        rw [horder]
        exact List.mem_cons_of_mem _ hk
      have hnodup := h.nodup
      rw [horder, List.nodup_cons] at hnodup
      have hoff : kdCacheKey p.1 p.2 ≠ oldest := by
        rintro rfl
        refine h.present _ ?_ hnew
        rw [horder]
        exact List.mem_cons_self
      refine h.push hp hnew rfl ?_ (by rw [hc]) ?_ ?_ ?_
      · rw [horder]
        exact List.sublist_cons_self _ _
      · intro k hk
        rw [hc] at hk ⊢
        rcases List.mem_append.mp hk with hk | hk
        · have hne : k ≠ oldest := fun heq => hnodup.1 (heq ▸ hk)
          simp only [ne_eq, Function.update_of_ne hne]
          exact hupdate (h.present k (hmem hk))
        · obtain rfl := List.mem_singleton.mp hk
          simp only [ne_eq, Function.update_of_ne hoff]
          exact hself
      · intro k hk hnot
        have hne' : k ≠ oldest := by
          rintro rfl
          rw [hc] at hk
          exact hk (Function.update_self ..)
        rw [hc] at hnot
        obtain ⟨hnot, hne⟩ := not_or.mp (List.mem_append.not.mp hnot)
        refine h.keep_pinned (hother hk (List.mem_singleton.not.mp hne)) ?_ hk
        rw [horder]
        exact List.not_mem_cons_of_ne_of_not_mem hne' hnot
      · rw [horder, List.length_cons] at hfull
        exact hfull ▸ Nat.lt_succ_self _

end Call

/-- A call keeps the invariant. -/
theorem call (h : KdOrdered calls (KdCache.run {} calls)) (kc : KdCall) :
    KdOrdered (calls ++ [kc]) ((KdCache.run {} calls).call kc) := by
  cases kc with
  | store p kd => exact h.store
  | erase p => exact h.erase
  | find p =>
    exact h.keep rfl (List.Sublist.refl _) h.present fun k hk hnot => h.keep_pinned hk hnot hk

/-- Every sequence of calls leaves the cache ordered. -/
theorem run (calls : List KdCall) : KdOrdered calls (KdCache.run {} calls) := by
  induction calls using List.reverseRecOn with
  | nil =>
    refine ⟨List.nodup_nil, ?_, ?_, fun k hk => absurd rfl hk, List.Pairwise.nil, Nat.zero_le _⟩
    · intro k hk
      cases hk
    · intro k hk
      cases hk
  | append_singleton calls kc ih =>
    rw [run_append]
    exact ih.call kc

end KdOrdered

/-- The kd cache keeps its representation invariant through every sequence of calls, and the store
of a new regular key into a full cache evicts the entry that was inserted first among the queued
ones, and no other. -/
theorem kd_cache_ordered (calls : List KdCall) :
    KdOrdered calls (KdCache.run {} calls) ∧
      ∀ a u kd, a ≠ kPrefetchAdam →
        (KdCache.run {} calls).entries (kdCacheKey a u) = none →
        (KdCache.run {} calls).order.length = kKdCacheMaxEntries →
        ∃ oldest rest, (KdCache.run {} calls).order = oldest :: rest ∧
          (∀ k ∈ rest, InsertedBefore calls oldest k) ∧
          ((KdCache.run {} calls).storeCachedKd a u kd).order = rest ++ [kdCacheKey a u] ∧
          ∀ k, ((KdCache.run {} calls).storeCachedKd a u kd).entries k =
            if k = oldest then none
            else if k = kdCacheKey a u then some kd
            else (KdCache.run {} calls).entries k := by
  have hinv := KdOrdered.run calls
  refine ⟨hinv, fun a u kd ha hnew hfull => ?_⟩
  obtain ⟨oldest, rest, horder⟩ : ∃ oldest rest,
      (KdCache.run {} calls).order = oldest :: rest := by
    refine List.exists_cons_of_length_pos ?_
    rw [hfull]
    exact Nat.zero_lt_succ _
  have holdest := hinv.oldest
  rw [horder, List.pairwise_cons] at holdest
  rw [KdCache.storeCachedKd_full ha hnew horder hfull]
  refine ⟨oldest, rest, horder, holdest.1, rfl, fun k => ?_⟩
  simp only [Function.update_apply]

end WrapperPaas
