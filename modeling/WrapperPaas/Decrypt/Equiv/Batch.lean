/-
  Parallel decryption is sequential decryption.

  Task `t` takes the chunks whose index is `t` modulo the number of tasks, in order.  What it has
  behind it is `Ready`: decrypted, once, and kept by the steps of the other tasks (`Behind.keep`).
  A task that stops early has seen or made a failure, and the message that is stored is always that
  of a failing chunk.  `batch_schedules` is the result for every schedule; every schedule ends
  (`Job.rank_lt`), and no task waits for ever (`Shared.exists_step`).
-/
import Mathlib.Data.Nat.ModEq
import WrapperPaas.Decrypt.Batch
import WrapperPaas.Lib.Threads

namespace WrapperPaas

/-! ### What a step does -/

/-- A step of task `t`. -/
inductive Job.Move (j : Job) (s : Tasks) (t : Nat) : Tasks → Prop
  | leave {i : Nat} (hpc : s.pc t = .head i)
      (h : j.chunks.length ≤ i ∨ s.errorOccurred = true) : Move j s t (s.move t .done)
  | enter {i : Nat} (hpc : s.pc t = .head i) (h : i < j.chunks.length) :
      Move j s t (s.move t (.examine i))
  | empty {i : Nat} (hpc : s.pc t = .examine i) (h : j.chunk i = []) :
      Move j s t (s.move t (.lock "empty sample"))
  | copy {i : Nat} (hpc : s.pc t = .examine i) (h : j.chunk i ≠ []) :
      Move j s t { s.move t (.decrypt i) with plaintexts := s.plaintexts.set i (j.chunk i) }
  | fail {i : Nat} {buffer : Bytes} {message : String} (hpc : s.pc t = .decrypt i)
      (h : (j.fpSampleDecrypt (s.plaintexts.getD i [])).1 < 0)
      (hmessage : message = "FairPlay sample decrypt failed status=" ++
        toString (j.fpSampleDecrypt (s.plaintexts.getD i [])).1) :
      Move j s t { s.move t (.lock message) with plaintexts := s.plaintexts.set i buffer }
  | next {i : Nat} (hpc : s.pc t = .decrypt i)
      (h : 0 ≤ (j.fpSampleDecrypt (s.plaintexts.getD i [])).1) :
      Move j s t { s.move t (.head (i + j.numThreads)) with
        plaintexts := s.plaintexts.set i (j.fpSampleDecrypt (s.plaintexts.getD i [])).2 }
  | lock {message : String} (hpc : s.pc t = .lock message) (h : s.errorMutex = none) :
      Move j s t { s.move t (.exchange message) with errorMutex := some t }
  | first {message : String} (hpc : s.pc t = .exchange message) (h : s.errorOccurred = false) :
      Move j s t { s.move t (.store message) with errorOccurred := true }
  | later {message : String} (hpc : s.pc t = .exchange message) (h : s.errorOccurred = true) :
      Move j s t { s.move t .unlock with errorOccurred := true }
  | store {message : String} (hpc : s.pc t = .store message) :
      Move j s t { s.move t .unlock with error := message }
  | unlock (hpc : s.pc t = .unlock) : Move j s t { s.move t .done with errorMutex := none }

theorem Job.move_of_step {j : Job} {s s' : Tasks} {a : TaskAct} (h : j.step s a = some s') :
    a.task < j.numThreads ∧ j.Move s a.task s' := by
  unfold Job.step at h
  dsimp only at h
  by_cases hlt : a.task < j.numThreads
  swap
  · rw [if_neg hlt] at h
    cases h
  rw [if_pos hlt] at h
  refine ⟨hlt, ?_⟩
  cases hpc : s.pc a.task with
  | head i =>
    rw [hpc] at h
    dsimp only at h
    split_ifs at h with hi hseen herror
    · obtain rfl := Option.some.inj h
      exact .leave hpc (.inr herror)
    · obtain rfl := Option.some.inj h
      exact .enter hpc hi
    · obtain rfl := Option.some.inj h
      exact .leave hpc (.inl (Nat.not_lt.mp hi))
  | examine i =>
    rw [hpc] at h
    dsimp only at h
    split_ifs at h with hempty
    · obtain rfl := Option.some.inj h
      exact .empty hpc hempty
    · obtain rfl := Option.some.inj h
      exact .copy hpc hempty
  | decrypt i =>
    rw [hpc] at h
    dsimp only at h
    split_ifs at h with hstatus
    · obtain rfl := Option.some.inj h
      exact .fail hpc hstatus rfl
    · obtain rfl := Option.some.inj h
      exact .next hpc (Int.not_lt.mp hstatus)
  | lock message =>
    rw [hpc] at h
    dsimp only at h
    split_ifs at h with hfree
    obtain rfl := Option.some.inj h
    exact .lock hpc hfree
  | exchange message =>
    rw [hpc] at h
    cases herror : s.errorOccurred with
    | true =>
      rw [herror] at h
      obtain rfl := Option.some.inj h
      exact .later hpc herror
    | false =>
      rw [herror] at h
      obtain rfl := Option.some.inj h
      exact .first hpc herror
  | store message =>
    rw [hpc] at h
    obtain rfl := Option.some.inj h
    exact .store hpc
  | unlock =>
    rw [hpc] at h
    obtain rfl := Option.some.inj h
    exact .unlock hpc
  | done =>
    rw [hpc] at h
    cases h

namespace Tasks

variable {s : Tasks} {t u : Nat} {pc : TaskPc}

theorem move_pc_self : (s.move t pc).pc t = pc := Function.update_self ..

theorem move_pc_ne (h : u ≠ t) : (s.move t pc).pc u = s.pc u := Function.update_of_ne h ..

end Tasks

theorem Job.chunk_eq (j : Job) {i : Nat} (h : i < j.chunks.length) : j.chunk i = j.chunks[i] := by
  unfold Job.chunk
  rw [List.getD_eq_getElem?_getD, List.getElem?_eq_getElem h, Option.getD_some]

theorem Job.chunk_mem (j : Job) {i : Nat} (h : i < j.chunks.length) : j.chunk i ∈ j.chunks := by
  rw [j.chunk_eq h]
  exact List.getElem_mem h

/-! ### Where the tasks are -/

/-- The message is that of a chunk that cannot be decrypted. -/
def Job.Fails (j : Job) (message : String) : Prop :=
  ∃ chunk ∈ j.chunks, j.failure chunk = some message

/-- Chunk `k` is decrypted, by the task that it belongs to. -/
structure Job.Ready (j : Job) (s : Tasks) (log : BatchLog) (k : Nat) : Prop where
  good : j.failure (j.chunk k) = none
  plaintext : s.plaintexts[k]? = some (j.fpSampleDecrypt (j.chunk k)).2
  logged : (k % j.numThreads, k) ∈ log.decrypted

/-- The chunks of task `t` before index `i` are decrypted. -/
def Job.Behind (j : Job) (s : Tasks) (log : BatchLog) (t i : Nat) : Prop :=
  ∀ k, k < i → k < j.chunks.length → k % j.numThreads = t → j.Ready s log k

/-- What holds of task `t` while it is at a place. -/
def Job.At (j : Job) (s : Tasks) (log : BatchLog) (t : Nat) : TaskPc → Prop
  | .head i => i % j.numThreads = t ∧ j.Behind s log t i
  | .examine i => i % j.numThreads = t ∧ j.Behind s log t i ∧ i < j.chunks.length
  | .decrypt i => i % j.numThreads = t ∧ j.Behind s log t i ∧ i < j.chunks.length ∧
      j.chunk i ≠ [] ∧ s.plaintexts[i]? = some (j.chunk i)
  | .lock message => j.Fails message
  | .exchange message => j.Fails message
  | .store message => j.Fails message ∧ s.errorOccurred = true
  | .unlock => s.errorOccurred = true
  | .done => s.errorOccurred = true ∨ j.Behind s log t j.chunks.length

/-- The index of the chunk that a task is at. -/
def TaskPc.index : TaskPc → Option Nat
  | .head i => some i
  | .examine i => some i
  | .decrypt i => some i
  | _ => none

/-- The tasks are in their places, and the observer's log fits them. -/
structure Job.Shared (j : Job) (s : Tasks) (log : BatchLog) : Prop where
  length : s.plaintexts.length = j.chunks.length
  places : ∀ t, t < j.numThreads → j.At s log t (s.pc t)
  visited : ∀ t i, (t, i) ∈ log.visited → i % j.numThreads = t
  decrypted : ∀ t i, (t, i) ∈ log.decrypted → i % j.numThreads = t ∧
    ∀ i', (s.pc t).index = some i' → i < i'
  once : log.decrypted.Nodup
  /-- the message that is stored, or is about to be -/
  error : s.errorOccurred = true →
    j.Fails s.error ∨ ∃ t message, t < j.numThreads ∧ s.pc t = .store message
  mutex : ∀ t, s.errorMutex = some t → t < j.numThreads ∧
    ((∃ message, s.pc t = .exchange message ∨ s.pc t = .store message) ∨ s.pc t = .unlock)

/-! ### Other tasks -/

/-- A step of task `t` keeps what the others have. -/
structure Job.Keeps (j : Job) (t : Nat) (s s' : Tasks) (log log' : BatchLog) : Prop where
  error : s.errorOccurred = true → s'.errorOccurred = true
  plaintexts : ∀ k, k % j.numThreads ≠ t → s'.plaintexts[k]? = s.plaintexts[k]?
  logged : ∀ v ∈ log.decrypted, v ∈ log'.decrypted

section Keeps

variable {j : Job} {s s' : Tasks} {log log' : BatchLog} {t u i : Nat}

theorem Job.Behind.keep (h : j.Behind s log u i) (hkeeps : j.Keeps t s s' log log')
    (hne : u ≠ t) : j.Behind s' log' u i := by
  intro k hk hbound hmod
  have hready := h k hk hbound hmod
  refine ⟨hready.good, ?_, hkeeps.logged _ hready.logged⟩
  rw [hkeeps.plaintexts k (fun heq => hne (hmod.symm.trans heq))]
  exact hready.plaintext

theorem Job.At.keep {pc : TaskPc} (h : j.At s log u pc) (hkeeps : j.Keeps t s s' log log')
    (hne : u ≠ t) : j.At s' log' u pc := by
  cases pc with
  | head i => exact ⟨h.1, h.2.keep hkeeps hne⟩
  | examine i => exact ⟨h.1, h.2.1.keep hkeeps hne, h.2.2⟩
  | decrypt i =>
    obtain ⟨hmod, hbehind, hbound, hchunk, hplain⟩ := h
    refine ⟨hmod, hbehind.keep hkeeps hne, hbound, hchunk, ?_⟩
    rw [hkeeps.plaintexts i (fun heq => hne (hmod.symm.trans heq))]
    exact hplain
  | lock message => exact h
  | exchange message => exact h
  | store message => exact ⟨h.1, hkeeps.error h.2⟩
  | unlock => exact hkeeps.error h
  | done => exact h.imp hkeeps.error fun hbehind => hbehind.keep hkeeps hne

/-- A task's own chunks are kept while it changes its next one. -/
theorem Job.Behind.grow (h : j.Behind s log t i)
    (hplain : ∀ k, k ≠ i → s'.plaintexts[k]? = s.plaintexts[k]?)
    (hlogged : ∀ v ∈ log.decrypted, v ∈ log'.decrypted) : j.Behind s' log' t i := by
  intro k hk hbound hmod
  have hready := h k hk hbound hmod
  refine ⟨hready.good, ?_, hlogged _ hready.logged⟩
  rw [hplain k hk.ne]
  exact hready.plaintext

/-- Up to the next index of the task there are no further chunks of it. -/
theorem Job.Behind.next (h : j.Behind s log t i) (hmod : i % j.numThreads = t)
    (hready : j.Ready s log i) : j.Behind s log t (i + j.numThreads) := by
  intro k hk hbound hkmod
  rcases Nat.lt_trichotomy k i with hlt | rfl | hgt
  · exact h k hlt hbound hkmod
  · exact hready
  · -- the distance is a multiple of the number of tasks
    have hdvd : j.numThreads ∣ k - i :=
      (Nat.modEq_iff_dvd' hgt.le).mp (hmod.trans hkmod.symm)
    have hle := Nat.le_of_dvd (Nat.sub_pos_of_lt hgt) hdvd
    omega

end Keeps

/-! ### Every step -/

namespace Job.Shared

variable {j : Job} {s s' : Tasks} {log log' : BatchLog} {t i : Nat} {pc : TaskPc}

theorem places_of_keeps (h : j.Shared s log) (hpc : s'.pc = Function.update s.pc t pc)
    (hkeeps : j.Keeps t s s' log log') (hat : j.At s' log' t pc) :
    ∀ u, u < j.numThreads → j.At s' log' u (s'.pc u) := by
  intro u hu
  rw [hpc]
  by_cases hut : u = t
  · -- the task itself
    rw [hut, Function.update_self]
    exact hat
  · rw [Function.update_of_ne hut]
    exact (h.places u hu).keep hkeeps hut

/-- A stored message stays, and so does a task that is about to store one. -/
theorem error_same (h : j.Shared s log) (hpc : s'.pc = Function.update s.pc t pc)
    (hnot : ∀ message, s.pc t ≠ .store message) (hocc : s.errorOccurred = true) :
    j.Fails s.error ∨ ∃ t message, t < j.numThreads ∧ s'.pc t = .store message := by
  refine (h.error hocc).imp_right ?_
  rintro ⟨u, message, hu, hstore⟩
  refine ⟨u, message, hu, ?_⟩
  rw [hpc, Function.update_of_ne, hstore]
  rintro rfl
  exact hnot message hstore

/-- The owner of the mutex moves within its section. -/
theorem mutex_same (h : j.Shared s log) (hpc : s'.pc = Function.update s.pc t pc)
    (hmutex : s'.errorMutex = s.errorMutex)
    (hsection : (∃ message, pc = .exchange message ∨ pc = .store message) ∨ pc = .unlock) :
    ∀ t, s'.errorMutex = some t → t < j.numThreads ∧
      ((∃ message, s'.pc t = .exchange message ∨ s'.pc t = .store message) ∨
        s'.pc t = .unlock) := by
  intro u hu
  obtain ⟨hlt, hold⟩ := h.mutex u (hmutex ▸ hu)
  refine ⟨hlt, ?_⟩
  rw [hpc]
  by_cases hut : u = t
  · rwa [hut, Function.update_self]
  · rwa [Function.update_of_ne hut]

/-- A step of a task that is at chunk `i`, outside the section of the mutex. -/
theorem outside (h : j.Shared s log) (hindex : (s.pc t).index = some i)
    (hmod : i % j.numThreads = t) (hpc : s'.pc = Function.update s.pc t pc)
    (hoccurred : s'.errorOccurred = s.errorOccurred) (herror : s'.error = s.error)
    (hmutex : s'.errorMutex = s.errorMutex) (hlen : s'.plaintexts.length = s.plaintexts.length)
    (hplain : ∀ k, k ≠ i → s'.plaintexts[k]? = s.plaintexts[k]?)
    (hlogged : ∀ v ∈ log.decrypted, v ∈ log'.decrypted) (hat : j.At s' log' t pc)
    (hvisited : ∀ t i, (t, i) ∈ log'.visited → i % j.numThreads = t)
    (hdecrypted : ∀ u k, (u, k) ∈ log'.decrypted → k % j.numThreads = u ∧
      ∀ i', (s'.pc u).index = some i' → k < i')
    (honce : log'.decrypted.Nodup) : j.Shared s' log' where
  length := hlen.trans h.length
  places := by
    refine h.places_of_keeps hpc ⟨fun hocc => hoccurred.trans hocc, fun k hk => ?_, hlogged⟩ hat
    exact hplain k fun heq => hk (heq ▸ hmod)
  visited := hvisited
  decrypted := hdecrypted
  once := honce
  error := by
    intro hocc
    rw [herror]
    refine h.error_same hpc (fun message hstore => ?_) (hoccurred ▸ hocc)
    rw [hstore] at hindex
    cases hindex
  mutex := by
    intro u hu
    obtain ⟨hlt, hsection⟩ := h.mutex u (hmutex ▸ hu)
    refine ⟨hlt, ?_⟩
    rw [hpc, Function.update_of_ne]
    · exact hsection
    · rintro rfl
      rcases hsection with ⟨message, hs | hs⟩ | hs
      all_goals
        rw [hs] at hindex
        cases hindex

/-- A step from the failure of a task on, which touches neither the samples nor the log. -/
theorem inside (h : j.Shared s log) (hindex : pc.index = none)
    (hpc : s'.pc = Function.update s.pc t pc) (hplain : s'.plaintexts = s.plaintexts)
    (hoccurred : s.errorOccurred = true → s'.errorOccurred = true) (hat : j.At s' log t pc)
    (herror : s'.errorOccurred = true →
      j.Fails s'.error ∨ ∃ t message, t < j.numThreads ∧ s'.pc t = .store message)
    (hmutex : ∀ t, s'.errorMutex = some t → t < j.numThreads ∧
      ((∃ message, s'.pc t = .exchange message ∨ s'.pc t = .store message) ∨ s'.pc t = .unlock)) :
    j.Shared s' log where
  length := hplain ▸ h.length
  places := h.places_of_keeps hpc ⟨hoccurred, fun k _ => by rw [hplain], fun _ hv => hv⟩ hat
  visited := h.visited
  decrypted := by
    intro u k hk
    obtain ⟨hmod, hlt⟩ := h.decrypted u k hk
    refine ⟨hmod, fun i' hi' => ?_⟩
    by_cases hut : u = t
    · rw [hpc, hut, Function.update_self, hindex] at hi'
      cases hi'
    · rw [hpc, Function.update_of_ne hut] at hi'
      exact hlt i' hi'
  once := h.once
  error := herror
  mutex := hmutex

/-- The log of a step that calls nothing. -/
theorem decrypted_same (h : j.Shared s log) (hpc : s'.pc = Function.update s.pc t pc)
    (hindex : ∀ i', pc.index = some i' → (s.pc t).index = some i') :
    ∀ u k, (u, k) ∈ log.decrypted → k % j.numThreads = u ∧
      ∀ i', (s'.pc u).index = some i' → k < i' := by
  intro u k hk
  obtain ⟨hmod, hlt⟩ := h.decrypted u k hk
  refine ⟨hmod, fun i' hi' => hlt i' ?_⟩
  by_cases hut : u = t
  · rw [hpc, hut, Function.update_self] at hi'
    rw [hut]
    exact hindex i' hi'
  · rwa [hpc, Function.update_of_ne hut] at hi'

/-- The log of a call for chunk `i`. -/
theorem decrypted_call (h : j.Shared s log) (hpc : s'.pc = Function.update s.pc t pc)
    (hold : (s.pc t).index = some i) (hmod : i % j.numThreads = t)
    (hindex : ∀ i', pc.index = some i' → i < i') :
    ∀ u k, (u, k) ∈ (t, i) :: log.decrypted → k % j.numThreads = u ∧
      ∀ i', (s'.pc u).index = some i' → k < i' := by
  intro u k hk
  by_cases hut : u = t
  · subst hut
    rw [hpc, Function.update_self]
    rcases List.mem_cons.mp hk with heq | hk
    · obtain ⟨-, rfl⟩ := Prod.mk.inj heq
      exact ⟨hmod, hindex⟩
    · obtain ⟨hmod', hlt⟩ := h.decrypted u k hk
      exact ⟨hmod', fun i' hi' => (hlt i hold).trans (hindex i' hi')⟩
  · rcases List.mem_cons.mp hk with heq | hk
    · exact absurd (Prod.mk.inj heq).1 hut
    · rw [hpc, Function.update_of_ne hut]
      exact h.decrypted u k hk

/-- A chunk is not decrypted before its task is past it. -/
theorem once_call (h : j.Shared s log) (hold : (s.pc t).index = some i) :
    ((t, i) :: log.decrypted).Nodup := by
  refine List.nodup_cons.mpr ⟨fun hmem => ?_, h.once⟩
  exact absurd ((h.decrypted t i hmem).2 i hold) (Nat.lt_irrefl i)

theorem visited_call (h : j.Shared s log) (hmod : i % j.numThreads = t) :
    ∀ u k, (u, k) ∈ (t, i) :: log.visited → k % j.numThreads = u := by
  intro u k hk
  rcases List.mem_cons.mp hk with heq | hk
  · obtain ⟨rfl, rfl⟩ := Prod.mk.inj heq
    exact hmod
  · exact h.visited u k hk

theorem step {a : TaskAct} (h : j.Shared s log) (hstep : j.step s a = some s') :
    j.Shared s' (log.note s a) := by
  obtain ⟨ht, hmove⟩ := Job.move_of_step hstep
  have hat := h.places a.task ht
  unfold BatchLog.note
  cases hmove with
  | @leave i hpc hend =>
    rw [hpc] at hat ⊢
    have hbehind : j.Behind (s.move a.task .done) log a.task i :=
      hat.2.grow (fun _ _ => rfl) fun _ hv => hv
    refine h.outside (by rw [hpc]; rfl) hat.1 rfl rfl rfl rfl rfl (fun _ _ => rfl)
      (fun _ hv => hv) ?_ h.visited (h.decrypted_same rfl fun i' hi' => by cases hi') h.once
    rcases hend with hend | hocc
    · -- no chunk of the task is left
      exact .inr fun k hk hbound => hbehind k (hk.trans_le hend) hbound
    · exact .inl hocc
  | @enter i hpc hbound =>
    rw [hpc] at hat ⊢
    refine h.outside (by rw [hpc]; rfl) hat.1 rfl rfl rfl rfl rfl (fun _ _ => rfl)
      (fun _ hv => hv) ?_ h.visited (h.decrypted_same rfl fun i' hi' => by rwa [hpc]) h.once
    exact ⟨hat.1, hat.2.grow (fun _ _ => rfl) (fun _ hv => hv), hbound⟩
  | @empty i hpc hempty =>
    rw [hpc] at hat ⊢
    refine h.outside (by rw [hpc]; rfl) hat.1 rfl rfl rfl rfl rfl (fun _ _ => rfl)
      (fun _ hv => hv) ?_ (h.visited_call hat.1)
      (h.decrypted_same rfl fun i' hi' => by cases hi') h.once
    exact ⟨j.chunk i, j.chunk_mem hat.2.2, if_pos hempty⟩
  | @copy i hpc hchunk =>
    rw [hpc] at hat ⊢
    refine h.outside (by rw [hpc]; rfl) hat.1 rfl rfl rfl rfl (List.length_set ..)
      (fun k hk => List.getElem?_set_ne hk.symm) (fun _ hv => hv) ?_
      (h.visited_call hat.1) (h.decrypted_same rfl fun i' hi' => by rwa [hpc]) h.once
    refine ⟨hat.1, hat.2.1.grow (fun k hk => List.getElem?_set_ne hk.symm) (fun _ hv => hv),
      hat.2.2, hchunk, ?_⟩
    exact List.getElem?_set_self (h.length ▸ hat.2.2)
  | @fail i buffer message hpc hstatus hmessage =>
    rw [hpc] at hat ⊢
    obtain ⟨hmod, hbehind, hbound, hchunk, hplain⟩ := hat
    rw [List.getD_eq_getElem?_getD, hplain, Option.getD_some] at hstatus hmessage
    refine h.outside (by rw [hpc]; rfl) hmod rfl rfl rfl rfl (List.length_set ..)
      (fun k hk => List.getElem?_set_ne hk.symm) (fun _ hv => List.mem_cons_of_mem _ hv) ?_
      h.visited (h.decrypted_call rfl (by rw [hpc]; rfl) hmod fun i' hi' => by cases hi')
      (h.once_call (by rw [hpc]; rfl))
    -- the message is that of this chunk, which is in the buffer
    refine ⟨j.chunk i, j.chunk_mem hbound, ?_⟩
    rw [hmessage]
    exact (if_neg hchunk).trans (if_pos hstatus)
  | @next i hpc hstatus =>
    rw [hpc] at hat ⊢
    obtain ⟨hmod, hbehind, hbound, hchunk, hplain⟩ := hat
    rw [List.getD_eq_getElem?_getD, hplain, Option.getD_some] at hstatus
    have hlt : i < i + j.numThreads := by omega
    refine h.outside (by rw [hpc]; rfl) hmod rfl rfl rfl rfl (List.length_set ..)
      (fun k hk => List.getElem?_set_ne hk.symm) (fun _ hv => List.mem_cons_of_mem _ hv) ?_
      h.visited (h.decrypted_call rfl (by rw [hpc]; rfl) hmod fun i' hi' => ?_)
      (h.once_call (by rw [hpc]; rfl))
    · refine ⟨(Nat.add_mod_right i _).trans hmod, ?_⟩
      refine (hbehind.grow (fun k hk => List.getElem?_set_ne hk.symm)
        fun _ hv => List.mem_cons_of_mem _ hv).next hmod ⟨?_, ?_, ?_⟩
      · exact (if_neg hchunk).trans (if_neg (Int.not_lt.mpr hstatus))
      · rw [List.getElem?_set_self (h.length ▸ hbound), List.getD_eq_getElem?_getD, hplain]
        rfl
      · rw [hmod]
        exact List.mem_cons_self
    · obtain rfl := Option.some.inj hi'
      exact hlt
  | @lock message hpc hfree =>
    rw [hpc] at hat ⊢
    refine h.inside rfl rfl rfl (fun hocc => hocc) hat (h.error_same rfl fun _ => by simp [hpc]) ?_
    intro u hu
    obtain rfl := Option.some.inj hu
    exact ⟨ht, .inl ⟨message, .inl Tasks.move_pc_self⟩⟩
  | @first message hpc hocc =>
    rw [hpc] at hat ⊢
    refine h.inside rfl rfl rfl (fun _ => rfl) ⟨hat, rfl⟩ (fun _ => ?_)
      (h.mutex_same rfl rfl (.inl ⟨message, .inr rfl⟩))
    exact .inr ⟨a.task, message, ht, Tasks.move_pc_self⟩
  | @later message hpc hocc =>
    -- another task was first, and its message stays
    rw [hpc] at hat ⊢
    refine h.inside rfl rfl rfl (fun _ => rfl) rfl (fun _ => ?_) (h.mutex_same rfl rfl (.inr rfl))
    exact h.error_same rfl (fun _ => by simp [hpc]) hocc
  | @store message hpc =>
    rw [hpc] at hat ⊢
    exact h.inside rfl rfl rfl (fun hocc => hocc) hat.2 (fun _ => .inl hat.1)
      (h.mutex_same rfl rfl (.inr rfl))
  | unlock hpc =>
    rw [hpc] at hat ⊢
    refine h.inside rfl rfl rfl (fun hocc => hocc) (.inl hat)
      (h.error_same rfl fun _ => by simp [hpc]) ?_
    intro u hu
    cases hu

theorem init (j : Job) : j.Shared j.machine.init {} where
  length := List.length_replicate
  places := by
    intro t ht
    refine ⟨Nat.mod_eq_of_lt ht, fun k hk _ hmod => ?_⟩
    rw [Nat.mod_eq_of_lt (hk.trans ht)] at hmod
    exact absurd hmod hk.ne
  visited := by
    intro t i hmem
    cases hmem
  decrypted := by
    intro t i hmem
    cases hmem
  once := List.nodup_nil
  error := by
    intro hocc
    cases hocc
  mutex := by
    intro t ht
    cases ht

/-- It holds in every schedule. -/
theorem reach {p : Tasks × BatchLog} (h : j.observed.Reach Machine.anyStep p) :
    j.Shared p.1 p.2 := by
  refine h.invariant (P := fun p => j.Shared p.1 p.2) (init j) fun p a q _ _ hstep hp => ?_
  obtain ⟨hstep, hlog⟩ := Machine.step_record.mp hstep
  rw [hlog]
  exact hp.step hstep

end Job.Shared

/-! ### Every schedule ends -/

/-- The number of steps that a task has left at most. -/
def Job.rankAt (j : Job) : TaskPc → Nat
  | .head i => 6 * (j.chunks.length - i) + 1
  | .examine i => 6 * (j.chunks.length - i - 1) + 6
  | .decrypt i => 6 * (j.chunks.length - i - 1) + 5
  | .lock _ => 4
  | .exchange _ => 3
  | .store _ => 2
  | .unlock => 1
  | .done => 0

def Job.rank (j : Job) (s : Tasks) : Nat := ∑ t ∈ Finset.range j.numThreads, j.rankAt (s.pc t)

section Rank

variable {j : Job} {s s' : Tasks} {t : Nat}

/-- A step changes the place of its task only. -/
theorem Job.Move.pc_ne (h : j.Move s t s') {u : Nat} (hu : u ≠ t) : s'.pc u = s.pc u := by
  cases h
  all_goals exact Tasks.move_pc_ne hu

theorem Job.Move.rankAt_lt (h : j.Move s t s') (ht : t < j.numThreads) :
    j.rankAt (s'.pc t) < j.rankAt (s.pc t) := by
  cases h with
  | leave hpc _ =>
    rw [hpc, Tasks.move_pc_self]
    simp [Job.rankAt]
  | enter hpc hbound =>
    rw [hpc, Tasks.move_pc_self]
    simp only [Job.rankAt]
    omega
  | empty hpc _ =>
    rw [hpc, Tasks.move_pc_self]
    simp only [Job.rankAt]
    omega
  | copy hpc _ =>
    rw [hpc]
    show j.rankAt ((s.move t _).pc t) < _
    rw [Tasks.move_pc_self]
    simp [Job.rankAt]
  | fail hpc _ _ =>
    rw [hpc]
    show j.rankAt ((s.move t _).pc t) < _
    rw [Tasks.move_pc_self]
    simp only [Job.rankAt]
    omega
  | next hpc _ =>
    rw [hpc]
    show j.rankAt ((s.move t _).pc t) < _
    rw [Tasks.move_pc_self]
    simp only [Job.rankAt]
    omega
  | lock hpc _ =>
    rw [hpc]
    show j.rankAt ((s.move t _).pc t) < _
    simp [Tasks.move_pc_self, Job.rankAt]
  | first hpc _ =>
    rw [hpc]
    show j.rankAt ((s.move t _).pc t) < _
    simp [Tasks.move_pc_self, Job.rankAt]
  | later hpc _ =>
    rw [hpc]
    show j.rankAt ((s.move t _).pc t) < _
    simp [Tasks.move_pc_self, Job.rankAt]
  | store hpc =>
    rw [hpc]
    show j.rankAt ((s.move t _).pc t) < _
    simp [Tasks.move_pc_self, Job.rankAt]
  | unlock hpc =>
    rw [hpc]
    show j.rankAt ((s.move t _).pc t) < _
    simp [Tasks.move_pc_self, Job.rankAt]

theorem Job.rank_lt {a : TaskAct} (h : j.step s a = some s') : j.rank s' < j.rank s := by
  obtain ⟨ht, hmove⟩ := Job.move_of_step h
  exact sum_move_lt ht (fun u hu => by rw [hmove.pc_ne hu]) (hmove.rankAt_lt ht)

end Rank

/-! ### No task waits for ever -/

theorem Job.Shared.exists_step {j : Job} {s : Tasks} {log : BatchLog} (h : j.Shared s log)
    (hnot : ¬ j.Finished s) : ∃ a s', j.step s a = some s' := by
  cases howner : s.errorMutex with
  | some u =>
    -- the owner of the mutex waits for nothing
    obtain ⟨hu, hsection⟩ := h.mutex u howner
    refine ⟨⟨u, false⟩, Option.ne_none_iff_exists'.mp ?_⟩
    rcases hsection with ⟨message, hpc | hpc⟩ | hpc
    all_goals simp [Job.step, hu, hpc]
  | none =>
    obtain ⟨t, ht⟩ := not_forall.mp hnot
    obtain ⟨ht, hdone⟩ := Classical.not_imp.mp ht
    refine ⟨⟨t, false⟩, Option.ne_none_iff_exists'.mp ?_⟩
    simp only [Job.step, if_pos ht]
    cases hpc : s.pc t with
    | done => exact absurd hpc hdone
    | lock message => simp [howner]
    | head i =>
      dsimp only
      rw [if_neg Bool.false_ne_true]
      split_ifs
      all_goals simp
    | examine i =>
      dsimp only
      split_ifs
      all_goals simp
    | decrypt i =>
      dsimp only
      split_ifs
      all_goals simp
    | exchange message => simp
    | store message => simp
    | unlock => simp

/-! ### The attempt -/

theorem Job.numThreads_pos {j : Job} (h : j.chunks ≠ []) : 0 < j.numThreads := by
  have hlen := List.length_pos_iff.mpr h
  have hn : 0 < if j.workers = 0 then 4 else j.workers.toNat := by
    split_ifs with hzero
    · decide
    · refine Nat.pos_of_ne_zero fun heq => hzero ?_
      exact UInt32.toNat_inj.mp heq
  show 0 < if _ > j.chunks.length then j.chunks.length else _
  generalize (if j.workers = 0 then 4 else j.workers.toNat) = n at hn
  split_ifs
  · exact hlen
  · exact hn

theorem Job.failure_eq_none {j : Job} {chunk : Bytes} :
    j.failure chunk = none ↔ chunk ≠ [] ∧ 0 ≤ (j.fpSampleDecrypt chunk).1 := by
  unfold Job.failure
  split_ifs with hempty hstatus
  · simp [hempty]
  · simp [hempty, hstatus]
  · simp [hempty, Int.not_lt.mp hstatus]

namespace Job.Shared

variable {j : Job} {s : Tasks} {log : BatchLog}

/-- An error comes from a chunk. -/
theorem fails (h : j.Shared s log) (hdone : j.Finished s) (hocc : s.errorOccurred = true) :
    j.Fails s.error := by
  rcases h.error hocc with hfails | ⟨t, message, ht, hstore⟩
  · exact hfails
  · rw [hdone t ht] at hstore
    cases hstore

/-- Without an error all chunks are decrypted. -/
theorem ready (h : j.Shared s log) (hdone : j.Finished s) (hocc : s.errorOccurred ≠ true) {i : Nat}
    (hi : i < j.chunks.length) : j.Ready s log i := by
  have hpos : 0 < j.numThreads := Job.numThreads_pos (List.ne_nil_of_length_pos (by omega))
  have ht := Nat.mod_lt i hpos
  have hat := h.places _ ht
  rw [hdone _ ht] at hat
  exact hat.resolve_left hocc i hi hi rfl

theorem errorOccurred_iff (h : j.Shared s log) (hdone : j.Finished s) :
    s.errorOccurred = true ↔ ∃ chunk ∈ j.chunks, j.failure chunk ≠ none := by
  constructor
  · intro hocc
    obtain ⟨chunk, hmem, hfailure⟩ := h.fails hdone hocc
    exact ⟨chunk, hmem, by simp [hfailure]⟩
  · rintro ⟨chunk, hmem, hfailure⟩
    by_contra hocc
    obtain ⟨i, hi, rfl⟩ := List.mem_iff_getElem.mp hmem
    have hgood := (h.ready hdone hocc hi).good
    rw [j.chunk_eq hi] at hgood
    exact hfailure hgood

theorem plaintexts_eq (h : j.Shared s log) (hdone : j.Finished s) (hocc : s.errorOccurred ≠ true) :
    s.plaintexts = j.chunks.map fun chunk => (j.fpSampleDecrypt chunk).2 := by
  refine List.ext_getElem? fun i => ?_
  rcases Nat.lt_or_ge i j.chunks.length with hi | hi
  · rw [(h.ready hdone hocc hi).plaintext, List.getElem?_map, j.chunk_eq hi,
      List.getElem?_eq_getElem hi, Option.map_some]
  · rw [List.getElem?_eq_none (h.length ▸ hi), List.getElem?_eq_none (by rwa [List.length_map])]

/-- One call for every chunk. -/
theorem count_decrypted (h : j.Shared s log) (hdone : j.Finished s) (hocc : s.errorOccurred ≠ true)
    {i : Nat} (hi : i < j.chunks.length) : (log.decrypted.map Prod.snd).count i = 1 := by
  refine List.count_eq_one_of_mem ?_ (List.mem_map_of_mem (h.ready hdone hocc hi).logged)
  refine h.once.map_on fun v hv w hw heq => Prod.ext ?_ heq
  -- the index determines the task
  rw [← (h.decrypted v.1 v.2 hv).1, ← (h.decrypted w.1 w.2 hw).1, heq]

end Job.Shared

/-- Decrypting in parallel is decrypting one chunk after the other: every schedule of the tasks
ends, no task waits for ever, no index is visited by two tasks, and when all tasks have returned the
attempt is the one that the chunks alone determine. -/
theorem batch_schedules (j : Job) :
    (∃ bound, ∀ as p, j.observed.Path Machine.anyStep j.observed.init as p → as.length ≤ bound) ∧
      ∀ s log, j.observed.Reach Machine.anyStep (s, log) →
        (¬ j.Finished s → ∃ a q, j.observed.step (s, log) a = some q) ∧
        (∀ t u i, (t, i) ∈ log.visited → (u, i) ∈ log.visited → t = u) ∧
        (j.Finished s →
          ((∀ chunk ∈ j.chunks, chunk ≠ [] ∧ 0 ≤ (j.fpSampleDecrypt chunk).1) →
            s.attempt =
                ⟨true, j.chunks.map fun chunk => (j.fpSampleDecrypt chunk).2⟩ ∧
              ∀ i, i < j.chunks.length → (log.decrypted.map Prod.snd).count i = 1) ∧
          ((∃ chunk ∈ j.chunks, chunk = [] ∨ (j.fpSampleDecrypt chunk).1 < 0) →
            s.attempt = ⟨false, []⟩ ∧
              ∃ chunk ∈ j.chunks, j.failure chunk = some s.error)) := by
  constructor
  · refine ⟨j.rank j.observed.init.1, fun as p h => ?_⟩
    refine h.length_le (fun p : Tasks × BatchLog => j.rank p.1) fun p a q _ _ hstep => ?_
    exact Job.rank_lt (Machine.step_record.mp hstep).1
  · intro s log hreach
    have h : j.Shared s log := Job.Shared.reach hreach
    refine ⟨fun hnot => ?_, fun t u i ht hu => ?_, fun hdone => ⟨fun hgood => ?_, fun hbad => ?_⟩⟩
    · obtain ⟨a, s', hstep⟩ := h.exists_step hnot
      exact ⟨a, Machine.exists_step_record hstep⟩
    · rw [← h.visited t i ht, ← h.visited u i hu]
    · have hocc : s.errorOccurred ≠ true := by
        rw [Ne, h.errorOccurred_iff hdone]
        rintro ⟨chunk, hmem, hfailure⟩
        exact hfailure (Job.failure_eq_none.mpr (hgood chunk hmem))
      refine ⟨?_, fun i hi => h.count_decrypted hdone hocc hi⟩
      rw [Tasks.attempt, if_neg hocc, h.plaintexts_eq hdone hocc]
    · have hocc : s.errorOccurred = true := by
        rw [h.errorOccurred_iff hdone]
        obtain ⟨chunk, hmem, hfailure⟩ := hbad
        refine ⟨chunk, hmem, fun hnone => ?_⟩
        obtain ⟨hne, hstatus⟩ := Job.failure_eq_none.mp hnone
        exact hfailure.elim hne (Int.not_lt.mpr hstatus)
      refine ⟨?_, h.fails hdone hocc⟩
      rw [Tasks.attempt, if_pos hocc]

end WrapperPaas
