/-
  Where the key context of a batch comes from.

  A batch is decrypted with a context that was derived for its own cache key, by the same call or by
  an earlier one after which no batch with that key has failed (`batch_context`).  A context stays
  in the cache as long as no batch with its key fails and fewer than 128 other keys come
  (`kd_retained`).
-/
import WrapperPaas.Decrypt.Equiv.Batch
import WrapperPaas.Decrypt.Equiv.KdOrder
import WrapperPaas.Decrypt.Samples

namespace WrapperPaas

namespace Decrypt

open Daemon (DecryptResult)

def SampleCall.key (x : SampleCall) : Bytes := kdCacheKey x.adamId x.keyUri

/-! ### One call -/

section Call

variable (e : Engine)

/-- What comes of a batch with a key context. -/
def Engine.Decrypts (kd : Kd) (chunks : List Bytes) (r : DecryptResult) : Prop :=
  (∀ chunk ∈ chunks, chunk ≠ [] ∧ 0 ≤ (e.fpSampleDecrypt kd chunk).1) ∧
      r = ⟨true, "", chunks.map fun chunk => (e.fpSampleDecrypt kd chunk).2⟩ ∨
    ∃ chunk ∈ chunks, ∃ message, (e.job kd chunks).failure chunk = some message ∧
      r = ⟨false, failedText message, []⟩

/-- The result of a batch with a key context, whatever the schedule. -/
theorem Engine.decrypts_schedule (kd : Kd) (chunks : List Bytes) :
    let s := (e.schedule (e.job kd chunks)).1
    e.Decrypts kd chunks
      (if s.attempt.ok then ⟨true, "", s.attempt.plaintexts⟩
        else ⟨false, failedText s.error, []⟩) := by
  intro s
  have hshared := Job.Shared.reach (e.scheduled (e.job kd chunks))
  have hdone : (e.job kd chunks).Finished s := e.finished _
  by_cases hocc : s.errorOccurred = true
  · obtain ⟨chunk, hmem, hfailure⟩ := hshared.fails hdone hocc
    refine .inr ⟨chunk, hmem, _, hfailure, ?_⟩
    rw [Tasks.attempt, if_pos hocc]
    rfl
  · refine .inl ⟨fun chunk hmem => ?_, ?_⟩
    · by_contra hbad
      refine hocc ((hshared.errorOccurred_iff hdone).mpr ⟨chunk, hmem, fun hnone => hbad ?_⟩)
      exact Job.failure_eq_none.mp hnone
    · rw [Tasks.attempt, if_neg hocc, hshared.plaintexts_eq hdone hocc]
      rfl

/-- The call derives this context, if it finds none. -/
structure SampleCall.Derives (x : SampleCall) (kd : Kd) : Prop where
  accepted : x.refused = none
  regular : x.adamId ≠ kPrefetchAdam
  derived : x.footHill.derive x.adamId x.keyUri = .ok kd

/-- The call is denied a context, if it finds none. -/
def SampleCall.Denied (x : SampleCall) (refusal : Refusal) : Prop :=
  x.adamId = kPrefetchAdam ∧ refusal = prefetchRefusal ∨
    x.adamId ≠ kPrefetchAdam ∧ x.footHill.derive x.adamId x.keyUri = .error refusal

/-- The cache after a batch, which is without the context if the batch has failed. -/
def SampleCall.settle (x : SampleCall) (r : DecryptResult) (c : KdCache) : KdCache :=
  if r.ok then c else c.eraseCachedKd x.adamId x.keyUri

/-- What a call can do. -/
inductive Engine.Serves (e : Engine) (x : SampleCall) (c : KdCache) :
    DecryptResult → KdCache → Prop
  | refused {message : String} : x.refused = some message →
      Engine.Serves e x c ⟨false, message, []⟩ c
  | hit {kd : Kd} {r : DecryptResult} : x.refused = none → c.entries x.key = some kd →
      e.Decrypts kd x.ciphertexts r → Engine.Serves e x c r (x.settle r c)
  | denied {refusal : Refusal} : x.refused = none → c.entries x.key = none → x.Denied refusal →
      Engine.Serves e x c ⟨false, failedText refusal.firstError, []⟩ c
  | derived {kd : Kd} {r : DecryptResult} : c.entries x.key = none → x.Derives kd →
      e.Decrypts kd x.ciphertexts r →
      Engine.Serves e x c r (x.settle r (c.storeCachedKd x.adamId x.keyUri kd))

variable {x : SampleCall} {c c' : KdCache} {kd : Kd} {refusal : Refusal}

theorem SampleCall.context_hit (h : c.entries x.key = some kd) : x.context c = (.ok kd, c) := by
  have hfind : c.findCachedKd x.adamId x.keyUri = some kd := h
  rw [SampleCall.context, hfind]

theorem SampleCall.context_denied (hmiss : c.entries x.key = none) (h : x.Denied refusal) :
    x.context c = (.error refusal, c) := by
  have hfind : c.findCachedKd x.adamId x.keyUri = none := hmiss
  rw [SampleCall.context, hfind]
  rcases h with ⟨hprefetch, rfl⟩ | ⟨hregular, hderive⟩
  · exact if_pos hprefetch
  · exact (if_neg hregular).trans (by rw [hderive])

theorem SampleCall.context_derived (hmiss : c.entries x.key = none) (h : x.Derives kd) :
    x.context c = (.ok kd, c.storeCachedKd x.adamId x.keyUri kd) := by
  have hfind : c.findCachedKd x.adamId x.keyUri = none := hmiss
  rw [SampleCall.context, hfind]
  exact (if_neg h.regular).trans (by rw [h.derived])

/-- A call that has a context decrypts the batch with it. -/
theorem Engine.decryptSamples_of_ok (haccepted : x.refused = none)
    (h : x.context c = (.ok kd, c')) :
    ∃ r, e.Decrypts kd x.ciphertexts r ∧ e.decryptSamples x c = (r, x.settle r c') := by
  refine ⟨_, e.decrypts_schedule kd x.ciphertexts, ?_⟩
  simp only [Engine.decryptSamples, Engine.decryptOnce, haccepted, h, SampleCall.settle]
  cases ((e.schedule (e.job kd x.ciphertexts)).1).attempt.ok with
  | true => rfl
  | false => rfl

/-- A call that has none fails. -/
theorem Engine.decryptSamples_of_error (haccepted : x.refused = none)
    (h : x.context c = (.error refusal, c')) : e.decryptSamples x c =
      (⟨false, failedText refusal.firstError, []⟩, c'.eraseCachedKd x.adamId x.keyUri) := by
  simp only [Engine.decryptSamples, Engine.decryptOnce, haccepted, h]
  rfl

theorem Engine.serves_decryptSamples (x : SampleCall) (c : KdCache) :
    e.Serves x c (e.decryptSamples x c).1 (e.decryptSamples x c).2 := by
  cases haccepted : x.refused with
  | some message =>
    have hcall : e.decryptSamples x c = (⟨false, message, []⟩, c) := by
      simp only [Engine.decryptSamples, haccepted]
    rw [hcall]
    exact .refused haccepted
  | none =>
    cases hfind : c.entries x.key with
    | some kd =>
      obtain ⟨r, hr, hcall⟩ :=
        e.decryptSamples_of_ok haccepted (SampleCall.context_hit hfind)
      rw [hcall]
      exact .hit haccepted hfind hr
    | none =>
      -- without a context, the prefetch track and a failed derivation leave the cache as it was
      have hdenied : ∀ {refusal}, x.Denied refusal →
          e.Serves x c (e.decryptSamples x c).1 (e.decryptSamples x c).2 := by
        intro refusal hdenied
        rw [e.decryptSamples_of_error haccepted (SampleCall.context_denied hfind hdenied),
          KdCache.eraseCachedKd_absent hfind]
        exact .denied haccepted hfind hdenied
      by_cases hprefetch : x.adamId = kPrefetchAdam
      · exact hdenied (.inl ⟨hprefetch, rfl⟩)
      · cases hderive : x.footHill.derive x.adamId x.keyUri with
        | error refusal => exact hdenied (.inr ⟨hprefetch, hderive⟩)
        | ok kd =>
          have hderives : x.Derives kd := ⟨haccepted, hprefetch, hderive⟩
          obtain ⟨r, hr, hcall⟩ :=
            e.decryptSamples_of_ok haccepted (SampleCall.context_derived hfind hderives)
          rw [hcall]
          exact .derived hfind hderives hr

end Call

/-! ### Histories -/

section History

variable (e : Engine) {xs : List SampleCall} {x : SampleCall} {k : Bytes} {kd : Kd}

theorem Engine.run_concat (xs : List SampleCall) (x : SampleCall) :
    e.run (xs ++ [x]) =
      ((e.run xs).1 ++ [(x, (e.decryptSamples x (e.run xs).2).1)],
        (e.decryptSamples x (e.run xs).2).2) := by
  rw [Engine.run, List.foldl_append]
  rfl

/-- A call of the history derived the context for this cache key, and from then on no batch with the
key has failed. -/
def Origin (h : List (SampleCall × DecryptResult)) (k : Bytes) (kd : Kd) : Prop :=
  ∃ before x r after, h = before ++ (x, r) :: after ∧ x.key = k ∧ x.Derives kd ∧
    ∀ p ∈ (x, r) :: after, p.1.key = k → p.1.refused = none → p.2.ok = true

variable {h : List (SampleCall × DecryptResult)} {r : DecryptResult}

theorem Origin.concat (horigin : Origin h k kd)
    (hok : x.key = k → x.refused = none → r.ok = true) : Origin (h ++ [(x, r)]) k kd := by
  obtain ⟨before, y, s, after, rfl, hkey, hderives, hall⟩ := horigin
  refine ⟨before, y, s, after ++ [(x, r)], by simp, hkey, hderives, fun p hp => ?_⟩
  rw [← List.cons_append] at hp
  rcases List.mem_append.mp hp with hp | hp
  · exact hall p hp
  · obtain rfl := List.mem_singleton.mp hp
    exact hok

theorem Origin.new (hderives : x.Derives kd) (hok : r.ok = true) :
    Origin (h ++ [(x, r)]) x.key kd := by
  refine ⟨h, x, r, [], rfl, rfl, hderives, fun p hp _ _ => ?_⟩
  obtain rfl := List.mem_singleton.mp hp
  exact hok

/-- What is left of a context after its batch. -/
theorem SampleCall.settle_entries {c : KdCache} (h : (x.settle r c).entries k = some kd) :
    c.entries k = some kd ∧ (x.key = k → r.ok = true) := by
  unfold SampleCall.settle at h
  split_ifs at h with hok
  · exact ⟨h, fun _ => hok⟩
  · obtain ⟨hne, hbefore⟩ := KdCache.eraseCachedKd_entries h
    exact ⟨hbefore, fun hkey => absurd hkey.symm hne⟩

/-- A call keeps the origins. -/
theorem Engine.Serves.origin {c c' : KdCache} (hserves : e.Serves x c r c')
    (hbefore : ∀ k kd, c.entries k = some kd → Origin h k kd)
    (hentry : c'.entries k = some kd) : Origin (h ++ [(x, r)]) k kd := by
  cases hserves with
  | refused hrefused =>
    refine (hbefore k kd hentry).concat fun _ haccepted => ?_
    rw [hrefused] at haccepted
    cases haccepted
  | hit _ _ _ =>
    obtain ⟨hentry, hok⟩ := SampleCall.settle_entries hentry
    exact (hbefore k kd hentry).concat fun hkey _ => hok hkey
  | denied _ hmiss _ =>
    refine (hbefore k kd hentry).concat fun hkey _ => ?_
    rw [← hkey, hmiss] at hentry
    cases hentry
  | derived _ hderives _ =>
    obtain ⟨hentry, hok⟩ := SampleCall.settle_entries hentry
    rcases KdCache.storeCachedKd_entries hentry with ⟨rfl, rfl⟩ | ⟨_, hentry⟩
    · exact .new hderives (hok rfl)
    · exact (hbefore k kd hentry).concat fun hkey _ => hok hkey

/-- Every context in the cache has an origin. -/
theorem Engine.run_origin (xs : List SampleCall) :
    ∀ k kd, (e.run xs).2.entries k = some kd → Origin (e.run xs).1 k kd := by
  induction xs using List.reverseRecOn with
  | nil =>
    intro k kd hentry
    cases hentry
  | append_singleton xs x ih =>
    intro k kd hentry
    rw [e.run_concat] at hentry ⊢
    exact (e.serves_decryptSamples x _).origin e ih hentry

/-- **Key contexts.**  Whatever calls came before, a call fails one of the checks, or it is denied a
context and fails with the reason, or its samples are decrypted with a context that it derives
itself or that an earlier call derived for its cache key, with no failed batch of that key since. -/
theorem batch_context (xs : List SampleCall) (x : SampleCall) :
    let r := (e.decryptSamples x (e.run xs).2).1
    (∃ message, x.refused = some message ∧ r = ⟨false, message, []⟩) ∨
    (∃ refusal, x.refused = none ∧ x.Denied refusal ∧
      r = ⟨false, failedText refusal.firstError, []⟩) ∨
    ∃ kd, x.refused = none ∧ (x.Derives kd ∨ Origin (e.run xs).1 x.key kd) ∧
      e.Decrypts kd x.ciphertexts r := by
  have hserves := e.serves_decryptSamples x (e.run xs).2
  generalize e.decryptSamples x (e.run xs).2 = out at hserves
  obtain ⟨r, c'⟩ := out
  change e.Serves x (e.run xs).2 r c' at hserves
  cases hserves with
  | refused hrefused => exact .inl ⟨_, hrefused, rfl⟩
  | hit haccepted hentry hr =>
    exact .inr (.inr ⟨_, haccepted, .inr (e.run_origin xs _ _ hentry), hr⟩)
  | denied haccepted _ hdenied => exact .inr (.inl ⟨_, haccepted, hdenied, rfl⟩)
  | derived _ hderives hr => exact .inr (.inr ⟨_, hderives.accepted, .inl hderives, hr⟩)

/-! ### How long a context is kept -/

/-- The cache is one that calls of its functions leave. -/
theorem Engine.run_calls (xs : List SampleCall) :
    ∃ calls, (e.run xs).2 = KdCache.run {} calls := by
  have hcall : ∀ {c c' : KdCache} (kc : KdCall), c' = c.call kc →
      (∃ calls, c = KdCache.run {} calls) → ∃ calls, c' = KdCache.run {} calls := by
    rintro c c' kc rfl ⟨calls, rfl⟩
    exact ⟨calls ++ [kc], (run_append ..).symm⟩
  have hsettle : ∀ {x : SampleCall} {r : DecryptResult} {c : KdCache},
      (∃ calls, c = KdCache.run {} calls) → ∃ calls, x.settle r c = KdCache.run {} calls := by
    intro x r c hc
    unfold SampleCall.settle
    split_ifs
    · exact hc
    · exact hcall (.erase x.track) rfl hc
  induction xs using List.reverseRecOn with
  | nil => exact ⟨[], rfl⟩
  | append_singleton xs x ih =>
    rw [e.run_concat]
    have hserves := e.serves_decryptSamples x (e.run xs).2
    generalize e.decryptSamples x (e.run xs).2 = out at hserves
    obtain ⟨r, c'⟩ := out
    change e.Serves x (e.run xs).2 r c' at hserves
    cases hserves with
    | refused _ => exact ih
    | hit _ _ _ => exact hsettle ih
    | denied _ _ _ => exact ih
    | @derived kd _ _ _ _ => exact hsettle (hcall (.store x.track kd) rfl ih)

/-- The entry is there, and behind it are only entries of these keys. -/
structure Held (k : Bytes) (kd : Kd) (others : Finset Bytes) (c : KdCache) : Prop where
  entry : c.entries k = some kd
  queued : ∃ older newer, c.order = older ++ k :: newer ∧ ∀ k' ∈ newer, k' ∈ others

theorem Held.mono {others others' : Finset Bytes} {c : KdCache} (h : Held k kd others c)
    (hsubset : others ⊆ others') : Held k kd others' c := by
  obtain ⟨older, newer, horder, hnewer⟩ := h.queued
  exact ⟨h.entry, older, newer, horder, fun k' hk' => hsubset (hnewer k' hk')⟩

section Held

variable {others : Finset Bytes} {c : KdCache} {calls : List KdCall} {a u : Bytes} {kd' : Kd}

/-- The erasure of another entry. -/
theorem Held.erase (hheld : Held k kd others c) (hother : kdCacheKey a u ≠ k) :
    Held k kd others (c.eraseCachedKd a u) := by
  by_cases hkey : c.entries (kdCacheKey a u) = none
  · rwa [KdCache.eraseCachedKd_absent hkey]
  · rw [KdCache.eraseCachedKd_present hkey]
    obtain ⟨older, newer, horder, hnewer⟩ := hheld.queued
    refine ⟨(Function.update_of_ne hother.symm ..).trans hheld.entry, ?_⟩
    by_cases hmem : kdCacheKey a u ∈ older
    · refine ⟨older.erase (kdCacheKey a u), newer, ?_, hnewer⟩
      show c.order.erase _ = _
      rw [horder, List.erase_append_left _ hmem]
    · refine ⟨older, newer.erase (kdCacheKey a u), ?_, fun k' hk' => hnewer k' ?_⟩
      · show c.order.erase _ = _
        rw [horder, List.erase_append_right _ hmem,
          List.erase_cons_tail (by simpa using hother.symm)]
      · exact List.mem_of_mem_erase hk'

/-- The store of a new entry, which evicts the oldest one at most. -/
theorem Held.store (hheld : Held k kd others c) (hordered : KdOrdered calls c)
    (ha : a ≠ kPrefetchAdam) (hnew : c.entries (kdCacheKey a u) = none)
    (hmem : kdCacheKey a u ∈ others) (hfew : others.card < kKdCacheMaxEntries) :
    Held k kd others (c.storeCachedKd a u kd') := by
  obtain ⟨older, newer, horder, hnewer⟩ := hheld.queued
  have hne : k ≠ kdCacheKey a u := by
    rintro rfl
    rw [hheld.entry] at hnew
    cases hnew
  have hentry : Function.update c.entries (kdCacheKey a u) (some kd') k = some kd :=
    (Function.update_of_ne hne ..).trans hheld.entry
  have hnewer' : ∀ k' ∈ newer ++ [kdCacheKey a u], k' ∈ others := by
    intro k' hk'
    rcases List.mem_append.mp hk' with hk' | hk'
    · exact hnewer k' hk'
    · rwa [List.mem_singleton.mp hk']
  by_cases hroom : c.order.length < kKdCacheMaxEntries
  · rw [KdCache.storeCachedKd_room ha hnew hroom]
    refine ⟨hentry, older, newer ++ [kdCacheKey a u], ?_, hnewer'⟩
    show c.order ++ _ = _
    rw [horder, List.append_assoc, List.cons_append]
  · have hfull := hordered.bounded.antisymm (Nat.not_lt.mp hroom)
    have hnodup := hordered.nodup
    rw [horder] at hnodup
    cases older with
    | nil =>
      -- the keys behind the entry and the new one are 128 different ones
      have hlt : newer.length < others.card := by
        have hdistinct : (kdCacheKey a u :: newer).Nodup := by
          refine List.nodup_cons.mpr ⟨fun hin => ?_, (List.nodup_cons.mp hnodup).2⟩
          refine hordered.present (kdCacheKey a u) ?_ hnew
          rw [horder]
          exact List.mem_cons_of_mem _ hin
        have hsubset : (kdCacheKey a u :: newer).toFinset ⊆ others := by
          intro k' hk'
          rcases List.mem_cons.mp (List.mem_toFinset.mp hk') with rfl | hk'
          · exact hmem
          · exact hnewer k' hk'
        calc newer.length + 1
          _ = (kdCacheKey a u :: newer).toFinset.card :=
            (List.toFinset_card_of_nodup hdistinct).symm
          _ ≤ others.card := Finset.card_le_card hsubset
      rw [horder, List.nil_append, List.length_cons] at hfull
      omega
    | cons oldest older =>
      rw [KdCache.storeCachedKd_full ha hnew horder hfull]
      have hold : k ≠ oldest := by
        rintro rfl
        refine (List.nodup_cons.mp hnodup).1 ?_
        exact List.mem_append_right _ List.mem_cons_self
      refine ⟨(Function.update_of_ne hold ..).trans hentry, older, newer ++ [kdCacheKey a u], ?_,
        hnewer'⟩
      show older ++ k :: newer ++ [kdCacheKey a u] = _
      rw [List.append_assoc, List.cons_append]

/-- A new entry is the last of the queue. -/
theorem Held.new (hordered : KdOrdered calls c) (ha : a ≠ kPrefetchAdam)
    (hnew : c.entries (kdCacheKey a u) = none) :
    Held (kdCacheKey a u) kd others (c.storeCachedKd a u kd) := by
  have hself : Function.update c.entries (kdCacheKey a u) (some kd) (kdCacheKey a u) = some kd :=
    Function.update_self ..
  have hnone : ∀ k' ∈ ([] : List Bytes), k' ∈ others := by
    intro k' hk'
    cases hk'
  by_cases hroom : c.order.length < kKdCacheMaxEntries
  · rw [KdCache.storeCachedKd_room ha hnew hroom]
    exact ⟨hself, c.order, [], rfl, hnone⟩
  · have hfull := hordered.bounded.antisymm (Nat.not_lt.mp hroom)
    obtain ⟨oldest, rest, horder⟩ : ∃ oldest rest, c.order = oldest :: rest := by
      refine List.exists_cons_of_length_pos ?_
      rw [hfull]
      exact Nat.zero_lt_succ _
    rw [KdCache.storeCachedKd_full ha hnew horder hfull]
    have hold : kdCacheKey a u ≠ oldest := by
      rintro rfl
      refine hordered.present _ ?_ hnew
      rw [horder]
      exact List.mem_cons_self
    exact ⟨(Function.update_of_ne hold ..).trans hself, rest, [], rfl, hnone⟩

theorem Held.settle (hheld : Held k kd others c) (hok : x.key = k → r.ok = true) :
    Held k kd others (x.settle r c) := by
  unfold SampleCall.settle
  split_ifs with hr
  · exact hheld
  · exact hheld.erase fun hkey => hr (hok hkey)

end Held

/-- The keys other than `k` of the calls that pass the checks. -/
def otherKeys (k : Bytes) (xs : List SampleCall) : Finset Bytes :=
  ((xs.filter fun x => x.refused.isNone).map SampleCall.key).toFinset.erase k

theorem mem_otherKeys {k' : Bytes} : k' ∈ otherKeys k xs ↔
    k' ≠ k ∧ ∃ x ∈ xs, x.refused = none ∧ x.key = k' := by
  simp [otherKeys, and_assoc]

/-- A call keeps the entry, if it is not a failed one with the key. -/
theorem Engine.Serves.held {others : Finset Bytes} {c c' : KdCache} {calls : List KdCall}
    (hserves : e.Serves x c r c') (hheld : Held k kd others c) (hordered : KdOrdered calls c)
    (hok : x.key = k → x.refused = none → r.ok = true)
    (hmem : x.refused = none → x.key ≠ k → x.key ∈ others)
    (hfew : others.card < kKdCacheMaxEntries) : Held k kd others c' := by
  cases hserves with
  | refused _ => exact hheld
  | hit haccepted _ _ => exact hheld.settle fun hkey => hok hkey haccepted
  | denied _ _ _ => exact hheld
  | derived hmiss hderives _ =>
    refine Held.settle ?_ fun hkey => hok hkey hderives.accepted
    have hne : x.key ≠ k := by
      intro hkey
      rw [hkey, hheld.entry] at hmiss
      cases hmiss
    exact hheld.store hordered hderives.regular hmiss (hmem hderives.accepted hne) hfew

/-- A context that is derived, the calls after it, of which none with its key fails and which have
fewer than 128 other keys, and the next call with its key. -/
structure Retention (e : Engine) where
  before : List SampleCall
  call : SampleCall
  after : List SampleCall
  kd : Kd
  derives : call.Derives kd
  missed : (e.run before).2.entries call.key = none
  succeeds : ∀ ys y zs, call :: after = ys ++ y :: zs → y.key = call.key → y.refused = none →
    (e.decryptSamples y (e.run (before ++ ys)).2).1.ok = true
  few : (otherKeys call.key after).card < kKdCacheMaxEntries
  next : SampleCall
  accepted : next.refused = none
  sameKey : next.key = call.key

/-- The step of a history, as `Serves` says it. -/
theorem Engine.serves_run (xs : List SampleCall) (x : SampleCall) :
    ∃ r, (e.decryptSamples x (e.run xs).2).1 = r ∧
      e.Serves x (e.run xs).2 r (e.run (xs ++ [x])).2 := by
  refine ⟨_, rfl, ?_⟩
  rw [e.run_concat]
  exact e.serves_decryptSamples x _

theorem Retention.held {e : Engine} (t : Retention e) :
    Held t.call.key t.kd (otherKeys t.call.key t.after)
      (e.run (t.before ++ t.call :: t.after)).2 := by
  -- the calls up to one of those after the derivation
  have key : ∀ ys zs, t.after = ys ++ zs → Held t.call.key t.kd (otherKeys t.call.key t.after)
      (e.run (t.before ++ t.call :: ys)).2 := by
    intro ys
    induction ys using List.reverseRecOn with
    | nil =>
      intro zs _
      obtain ⟨calls, hcalls⟩ := e.run_calls t.before
      have hordered : KdOrdered calls (e.run t.before).2 := by
        rw [hcalls]
        exact KdOrdered.run calls
      obtain ⟨r, hr, hserves⟩ := e.serves_run t.before t.call
      have hok := t.succeeds [] t.call t.after rfl rfl t.derives.accepted
      rw [List.append_nil, hr] at hok
      generalize (e.run (t.before ++ [t.call])).2 = c' at hserves
      cases hserves with
      | refused hrefused =>
        rw [t.derives.accepted] at hrefused
        cases hrefused
      | hit _ hentry _ =>
        rw [t.missed] at hentry
        cases hentry
      | denied _ _ _ => cases hok
      | derived _ hderives _ =>
        obtain rfl := Except.ok.inj (t.derives.derived.symm.trans hderives.derived)
        exact (Held.new hordered t.derives.regular t.missed).settle fun _ => hok
    | append_singleton ys y ih =>
      intro zs hzs
      rw [List.append_assoc] at hzs
      have hheld := ih _ hzs
      obtain ⟨calls, hcalls⟩ := e.run_calls (t.before ++ t.call :: ys)
      have hordered : KdOrdered calls (e.run (t.before ++ t.call :: ys)).2 := by
        rw [hcalls]
        exact KdOrdered.run calls
      obtain ⟨r, hr, hserves⟩ := e.serves_run (t.before ++ t.call :: ys) y
      rw [List.append_assoc, List.cons_append] at hserves
      refine hserves.held e hheld hordered ?_ ?_ t.few
      · intro hkey haccepted
        rw [← hr]
        refine t.succeeds (t.call :: ys) y zs ?_ hkey haccepted
        rw [hzs]
        rfl
      · intro haccepted hne
        refine mem_otherKeys.mpr ⟨hne, y, ?_, haccepted, rfl⟩
        rw [hzs]
        exact List.mem_append_right _ List.mem_cons_self
  exact key t.after [] (List.append_nil _).symm

/-- **Retention of key contexts.**  As long as no batch with its key fails and fewer than 128 other
keys come, every batch with the key is decrypted with the context that was derived for it, whatever
Apple's library would answer now. -/
theorem kd_retained {e : Engine} (t : Retention e) :
    e.Decrypts t.kd t.next.ciphertexts
      (e.decryptSamples t.next (e.run (t.before ++ t.call :: t.after)).2).1 := by
  have hentry := t.held.entry
  rw [← t.sameKey] at hentry
  obtain ⟨r, hr, hcall⟩ := e.decryptSamples_of_ok t.accepted (SampleCall.context_hit hentry)
  rw [hcall]
  exact hr

end History

/-! ### Schedules -/

/-- Every batch has a schedule that ends. -/
theorem Job.exists_schedule (j : Job) :
    ∃ p, j.observed.Reach Machine.anyStep p ∧ j.Finished p.1 := by
  refine Machine.exists_final (fun p : Tasks × BatchLog => j.rank p.1) ?_ ?_
  · intro p a q _ _ hstep
    exact Job.rank_lt (Machine.step_record.mp hstep).1
  · intro p hreach hnot
    obtain ⟨a, s, hstep⟩ := (Job.Shared.reach hreach).exists_step hnot
    have hstep : j.machine.step p.1 a = some s := hstep
    obtain ⟨q, hq⟩ := Machine.exists_step_record hstep
    exact ⟨a, q, trivial, hq⟩

/-- Every library and every number of workers make an engine. -/
theorem exists_engine (fpSampleDecrypt : Kd → Bytes → Int × Bytes) (workers : UInt32) :
    ∃ e : Engine, e.fpSampleDecrypt = fpSampleDecrypt ∧ e.workers = workers := by
  choose schedule hschedule using Job.exists_schedule
  exact ⟨⟨fpSampleDecrypt, workers, schedule, fun j => (hschedule j).1, fun j => (hschedule j).2⟩,
    rfl, rfl⟩

/-! ### A context that is kept -/

/-- A library that decrypts every sample, to the sum of its bytes and the context. -/
def addKd (kd : Kd) (chunk : Bytes) : Int × Bytes :=
  (0, chunk.map (· + UInt8.ofNat kd))

theorem Engine.Decrypts.eq_of_addKd {e : Engine} (he : e.fpSampleDecrypt = addKd) {kd : Kd}
    {chunks : List Bytes} {r : DecryptResult} (hr : e.Decrypts kd chunks r)
    (hne : ∀ chunk ∈ chunks, chunk ≠ []) :
    r = ⟨true, "", chunks.map fun chunk => (addKd kd chunk).2⟩ := by
  rcases hr with ⟨-, rfl⟩ | ⟨chunk, hmem, message, hfailure, -⟩
  · rw [he]
  · have hnone : (e.job kd chunks).failure chunk = none := by
      refine Job.failure_eq_none.mpr ⟨hne chunk hmem, ?_⟩
      show 0 ≤ (e.fpSampleDecrypt kd chunk).1
      rw [he]
      exact le_refl _
    rw [hnone] at hfailure
    cases hfailure

/-- A call for a track for which Apple would derive this context. -/
def callFor (adamId : String) (kd : Kd) (ciphertexts : List Bytes) : SampleCall where
  loaderOk := true
  fpsDecryptAvailable := true
  playbackReady := true
  adamId := utf8 adamId
  keyUri := utf8 "skd://itunes.apple.com/P0/s1"
  ciphertexts
  footHill :=
    { getPersistentKey := fun _ _ => .ok (some 1)
      decryptContext := fun _ => .ok (some 2)
      kdContext := fun _ => .ok (some (some (some kd))) }

/-- Such a call succeeds, if no sample is empty. -/
theorem Engine.ok_callFor {e : Engine} (he : e.fpSampleDecrypt = addKd) {adamId : String} {kd : Kd}
    {ciphertexts : List Bytes} (hregular : utf8 adamId ≠ kPrefetchAdam)
    (haccepted : (callFor adamId kd ciphertexts).refused = none)
    (hne : ∀ chunk ∈ ciphertexts, chunk ≠ []) (c : KdCache) :
    (e.decryptSamples (callFor adamId kd ciphertexts) c).1.ok = true := by
  have hserves := e.serves_decryptSamples (callFor adamId kd ciphertexts) c
  generalize e.decryptSamples (callFor adamId kd ciphertexts) c = out at hserves ⊢
  obtain ⟨r, c'⟩ := out
  change e.Serves _ c r c' at hserves
  cases hserves with
  | refused hrefused =>
    rw [haccepted] at hrefused
    cases hrefused
  | hit _ _ hr => rw [hr.eq_of_addKd he hne]
  | denied _ _ hdenied =>
    rcases hdenied with ⟨hprefetch, -⟩ | ⟨-, hderive⟩
    · exact absurd hprefetch hregular
    · cases hderive
  | derived _ _ hr => rw [hr.eq_of_addKd he hne]

/-- Between two batches of a track, one of another track fails and one of its own succeeds. -/
theorem kd_retained_otherTrack : ∃ e : Engine, e.fpSampleDecrypt = addKd ∧
    (e.decryptSamples (callFor "1440857781" 9 [[1], [2, 3]]) (e.run [
      callFor "1440857781" 7 [[1]], callFor "1440857799" 8 [[4], []],
      callFor "1440857781" 9 [[5]]]).2).1 = ⟨true, "", [[8], [9, 10]]⟩ := by
  obtain ⟨e, he, -⟩ := exists_engine addKd 4
  have hregular : utf8 "1440857781" ≠ kPrefetchAdam := by decide
  have hkey : (callFor "1440857799" 8 [[4], []]).key ≠ (callFor "1440857781" 7 [[1]]).key := by
    decide
  have hr := kd_retained (e := e)
    { before := []
      call := callFor "1440857781" 7 [[1]]
      after := [callFor "1440857799" 8 [[4], []], callFor "1440857781" 9 [[5]]]
      kd := 7
      derives := ⟨rfl, hregular, rfl⟩
      missed := rfl
      succeeds := fun ys y zs hsplit hy _ => by
        have hmem : y ∈ [callFor "1440857781" 7 [[1]], callFor "1440857799" 8 [[4], []],
            callFor "1440857781" 9 [[5]]] := by
          rw [hsplit]
          exact List.mem_append_right _ List.mem_cons_self
        simp only [List.mem_cons, List.not_mem_nil, or_false] at hmem
        rcases hmem with rfl | rfl | rfl
        · exact e.ok_callFor he hregular rfl (by decide) _
        · exact absurd hy hkey
        · exact e.ok_callFor he hregular rfl (by decide) _
      few := by decide
      next := callFor "1440857781" 9 [[1], [2, 3]]
      accepted := rfl
      sameKey := rfl }
  have hne : ∀ chunk ∈ ([[1], [2, 3]] : List Bytes), chunk ≠ [] := by decide
  exact ⟨e, he, hr.eq_of_addKd he hne⟩

end Decrypt

end WrapperPaas
