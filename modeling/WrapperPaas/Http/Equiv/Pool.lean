/-
  Every connection is served once, in order.

  The threads take the connections in the order in which `incoming` gives them, each one once; at
  most 97 are taken in and not done with; and as long as one thread has not panicked, what is taken
  in is served (`connections_served`).
-/
import WrapperPaas.Http.Pool
import WrapperPaas.Lib.Threads

namespace WrapperPaas

namespace Http

/-! ### What a step can do -/

/-- The cases of a step. -/
inductive Move (s : Server) : ServerAct → Server → Prop
  | accept : s.acceptor = .accept →
      Move s .accept { s with acceptor := .send s.accepted, accepted := s.accepted + 1 }
  | send {conn} : s.acceptor = .send conn → s.queue.length < channelBound →
      Move s .send { s with acceptor := .accept, queue := s.queue ++ [conn] }
  | lock {t} : t < httpThreads → s.thread t = .lock → s.rx = none →
      Move s (.lock t) { s.move t .recv with rx := some t }
  | recv {t conn queue} : t < httpThreads → s.thread t = .recv → s.queue = conn :: queue →
      Move s (.recv t) { s.move t (.handle conn) with queue := queue, rx := none }
  | finish {t panicked conn} : t < httpThreads → s.thread t = .handle conn →
      Move s (.finish t panicked) (s.move t (if panicked then .ended else .lock))

section Step

variable {s s' : Server} {a : ServerAct}

theorem move_of_step (h : s.step a = some s') : Move s a s' := by
  cases a with
  | accept =>
    simp only [Server.step] at h
    cases hpc : s.acceptor with
    | accept =>
      rw [hpc] at h
      obtain rfl := Option.some.inj h
      exact .accept hpc
    | send conn =>
      rw [hpc] at h
      cases h
  | send =>
    simp only [Server.step] at h
    cases hpc : s.acceptor with
    | accept =>
      rw [hpc] at h
      cases h
    | send conn =>
      rw [hpc] at h
      dsimp only at h
      split_ifs at h with hroom
      obtain rfl := Option.some.inj h
      exact .send hpc hroom
  | lock t =>
    simp only [Server.step] at h
    split_ifs at h with hlock
    obtain rfl := Option.some.inj h
    exact .lock hlock.1 hlock.2.1 hlock.2.2
  | recv t =>
    simp only [Server.step] at h
    split_ifs at h with hrecv
    cases hqueue : s.queue with
    | nil =>
      rw [hqueue] at h
      cases h
    | cons conn queue =>
      rw [hqueue] at h
      obtain rfl := Option.some.inj h
      exact .recv hrecv.1 hrecv.2 hqueue
  | finish t panicked =>
    simp only [Server.step] at h
    cases hpc : s.thread t with
    | handle conn =>
      rw [hpc] at h
      by_cases ht : t < httpThreads
      · obtain rfl := Option.some.inj ((if_pos ht).symm.trans h)
        exact .finish ht hpc
      · cases (if_neg ht).symm.trans h
    | lock =>
      rw [hpc] at h
      cases h
    | recv =>
      rw [hpc] at h
      cases h
    | ended =>
      rw [hpc] at h
      cases h

end Step

/-! ### The invariant -/

def AcceptorPc.pending : AcceptorPc → List Nat
  | .accept => []
  | .send conn => [conn]

/-- One for a thread that is serving a connection. -/
def ServerPc.busy : ServerPc → Nat
  | .handle _ => 1
  | _ => 0

@[simp] theorem busy_lock : ServerPc.lock.busy = 0 := rfl

@[simp] theorem busy_recv : ServerPc.recv.busy = 0 := rfl

@[simp] theorem busy_handle {conn : Nat} : (ServerPc.handle conn).busy = 1 := rfl

@[simp] theorem busy_ended : ServerPc.ended.busy = 0 := rfl

structure Sound (s : Server) (log : ServerLog) : Prop where
  order : log.started.map Prod.fst ++ (s.queue ++ s.acceptor.pending) = List.range s.accepted
  room : s.queue.length ≤ channelBound
  mutex : ∀ t, s.rx = some t → t < httpThreads ∧ s.thread t = .recv
  owner : ∀ t, s.thread t = .recv → s.rx = some t
  handling : ∀ t conn, s.thread t = .handle conn → (conn, t) ∈ log.started
  count : log.started.length =
    log.finished.length + ∑ t ∈ Finset.range httpThreads, (s.thread t).busy

section Move

variable {s s' : Server} {a : ServerAct} {log : ServerLog} {t u : Nat} {pc : ServerPc}

@[simp] theorem move_thread_self : (s.move t pc).thread t = pc := Function.update_self ..

theorem move_thread_ne (h : u ≠ t) : (s.move t pc).thread u = s.thread u :=
  Function.update_of_ne h ..

/-- The number of busy threads when one moves. -/
theorem sum_busy_move (ht : t < httpThreads) (pc : ServerPc) :
    ∑ u ∈ Finset.range httpThreads, ((s.move t pc).thread u).busy + (s.thread t).busy =
      ∑ u ∈ Finset.range httpThreads, (s.thread u).busy + pc.busy := by
  have hsum := sum_move (f := fun u => (s.thread u).busy)
    (g := fun u => ((s.move t pc).thread u).busy) ht fun u hu => by rw [move_thread_ne hu]
  simpa using hsum

namespace Sound

theorem accept (h : Sound s log) (hpc : s.acceptor = .accept) :
    Sound { s with acceptor := .send s.accepted, accepted := s.accepted + 1 } log where
  order := by
    have horder := h.order
    rw [hpc] at horder
    simp only [AcceptorPc.pending, List.append_nil] at horder ⊢
    rw [List.range_succ, ← horder, List.append_assoc]
  room := h.room
  mutex := h.mutex
  owner := h.owner
  handling := h.handling
  count := h.count

theorem send {conn : Nat} (h : Sound s log) (hpc : s.acceptor = .send conn)
    (hroom : s.queue.length < channelBound) :
    Sound { s with acceptor := .accept, queue := s.queue ++ [conn] } log where
  order := by
    have horder := h.order
    rw [hpc] at horder
    simpa only [AcceptorPc.pending, List.append_nil, List.append_assoc] using horder
  room := by
    rw [List.length_append]
    exact hroom
  mutex := h.mutex
  owner := h.owner
  handling := h.handling
  count := h.count

theorem lock (h : Sound s log) (ht : t < httpThreads) (hpc : s.thread t = .lock)
    (hfree : s.rx = none) : Sound { s.move t .recv with rx := some t } log where
  order := h.order
  room := h.room
  mutex u hu := by
    obtain rfl : t = u := Option.some.inj hu
    exact ⟨ht, move_thread_self⟩
  owner u hu := by
    by_cases hut : u = t
    · rw [hut]
    · have hbefore := h.owner u ((move_thread_ne hut).symm.trans hu)
      rw [hfree] at hbefore
      cases hbefore
  handling u conn hu := by
    have hut : u ≠ t := by
      rintro rfl
      cases move_thread_self.symm.trans hu
    exact h.handling u conn ((move_thread_ne hut).symm.trans hu)
  count := by
    have hsum := sum_busy_move (s := s) ht .recv
    have hcount := h.count
    rw [hpc, busy_lock, busy_recv] at hsum
    show _ = _ + ∑ u ∈ Finset.range httpThreads, ((s.move t .recv).thread u).busy
    omega

theorem recv {conn : Nat} {queue : List Nat} (h : Sound s log) (ht : t < httpThreads)
    (hpc : s.thread t = .recv) (hqueue : s.queue = conn :: queue) :
    Sound { s.move t (.handle conn) with queue := queue, rx := none }
      { log with started := log.started ++ [(conn, t)] } where
  order := by
    have horder := h.order
    rw [hqueue, List.cons_append] at horder
    show (log.started ++ [(conn, t)]).map Prod.fst ++ (queue ++ s.acceptor.pending) = _
    rw [List.map_append, List.append_assoc]
    exact horder
  room := by
    have hroom := h.room
    rw [hqueue, List.length_cons] at hroom
    exact (Nat.le_succ _).trans hroom
  mutex u hu := by cases hu
  owner u hu := by
    have hut : u ≠ t := by
      rintro rfl
      cases move_thread_self.symm.trans hu
    -- only one thread was in `recv`
    have hbefore := h.owner u ((move_thread_ne hut).symm.trans hu)
    exact absurd (Option.some.inj (hbefore.symm.trans (h.owner t hpc))) hut
  handling u conn' hu := by
    by_cases hut : u = t
    · rw [hut] at hu ⊢
      obtain rfl := ServerPc.handle.inj (move_thread_self.symm.trans hu)
      exact List.mem_append_right _ (List.mem_singleton_self _)
    · exact List.mem_append_left _ (h.handling u conn' ((move_thread_ne hut).symm.trans hu))
  count := by
    have hsum := sum_busy_move (s := s) ht (.handle conn)
    have hcount := h.count
    rw [hpc, busy_recv, busy_handle] at hsum
    show (log.started ++ [(conn, t)]).length =
      log.finished.length +
        ∑ u ∈ Finset.range httpThreads, ((s.move t (.handle conn)).thread u).busy
    rw [List.length_append, List.length_singleton]
    omega

theorem finish {conn : Nat} {panicked : Bool} (h : Sound s log) (ht : t < httpThreads)
    (hpc : s.thread t = .handle conn) :
    Sound (s.move t (if panicked then .ended else .lock))
      { log with finished := log.finished ++ [conn] } where
  order := h.order
  room := h.room
  mutex u hu := by
    obtain ⟨hlt, hrecv⟩ := h.mutex u hu
    have hut : u ≠ t := by
      rintro rfl
      cases hpc.symm.trans hrecv
    exact ⟨hlt, (move_thread_ne hut).trans hrecv⟩
  owner u hu := by
    have hut : u ≠ t := by
      rintro rfl
      rw [move_thread_self] at hu
      cases panicked with
      | true => cases hu
      | false => cases hu
    exact h.owner u ((move_thread_ne hut).symm.trans hu)
  handling u conn' hu := by
    have hut : u ≠ t := by
      rintro rfl
      rw [move_thread_self] at hu
      cases panicked with
      | true => cases hu
      | false => cases hu
    exact h.handling u conn' ((move_thread_ne hut).symm.trans hu)
  count := by
    have hsum := sum_busy_move (s := s) ht (if panicked then .ended else .lock)
    have hcount := h.count
    have hidle : (if panicked = true then ServerPc.ended else ServerPc.lock).busy = 0 := by
      cases panicked with
      | true => rfl
      | false => rfl
    rw [hpc, hidle, busy_handle] at hsum
    show log.started.length = (log.finished ++ [conn]).length + _
    rw [List.length_append, List.length_singleton]
    omega

theorem step (h : Sound s log) (hmove : Move s a s') : Sound s' (log.note s a) := by
  cases hmove with
  | accept hpc => exact h.accept hpc
  | send hpc hroom => exact h.send hpc hroom
  | lock ht hpc hfree => exact h.lock ht hpc hfree
  | recv ht hpc hqueue =>
    simp only [ServerLog.note, hqueue, List.take_succ_cons, List.take_zero, List.map_cons,
      List.map_nil]
    exact h.recv ht hpc hqueue
  | finish ht hpc =>
    simp only [ServerLog.note, hpc]
    exact h.finish ht hpc

theorem init : Sound server.init {} where
  order := rfl
  room := Nat.zero_le _
  mutex t ht := by cases ht
  owner t ht := by cases ht
  handling t conn ht := by cases ht
  count := by simp [server]

theorem reach (p : ServerRun) : Sound p.1.1 p.1.2 := by
  refine p.2.invariant (P := fun p => Sound p.1 p.2) init fun p a q _ _ hstep hp => ?_
  obtain ⟨hstep, hnote⟩ := Machine.step_record.mp hstep
  rw [hnote]
  exact hp.step (move_of_step hstep)

/-! ### What follows -/

theorem nodup_started (h : Sound s log) : (log.started.map Prod.fst).Nodup := by
  have hnodup := List.nodup_range (n := s.accepted)
  rw [← h.order] at hnodup
  exact hnodup.of_append_left

/-- A connection has one thread. -/
theorem handle_inj (h : Sound s log) {conn : Nat} (ht : s.thread t = .handle conn)
    (hu : s.thread u = .handle conn) : t = u := by
  have heq := List.inj_on_of_nodup_map h.nodup_started (h.handling t conn ht)
    (h.handling u conn hu) rfl
  exact (Prod.mk.inj heq).2

/-- How many connections are taken in and not done with. -/
theorem accepted_le (h : Sound s log) :
    s.accepted ≤ log.finished.length + (httpThreads + channelBound + 1) := by
  have hlen := congrArg List.length h.order
  rw [List.length_append, List.length_append, List.length_map, List.length_range] at hlen
  have hpending : s.acceptor.pending.length ≤ 1 := by
    cases s.acceptor with
    | accept => exact Nat.zero_le _
    | send conn => exact Nat.le_refl _
  have hbusy : ∑ t ∈ Finset.range httpThreads, (s.thread t).busy ≤ httpThreads := by
    calc ∑ t ∈ Finset.range httpThreads, (s.thread t).busy
      _ ≤ ∑ _t ∈ Finset.range httpThreads, 1 := by
        refine Finset.sum_le_sum fun t _ => ?_
        cases s.thread t with
        | lock => exact Nat.zero_le _
        | recv => exact Nat.zero_le _
        | handle conn => exact Nat.le_refl _
        | ended => exact Nat.zero_le _
      _ = httpThreads := by simp
  have hcount := h.count
  have hroom := h.room
  omega

/-- Some connection is taken in and not done with. -/
def Waiting (s : Server) : Prop :=
  s.queue ≠ [] ∨ s.acceptor ≠ .accept ∨ ∃ t < httpThreads, ∃ conn, s.thread t = .handle conn

/-- While a connection is waiting and a thread is left, the server goes on by itself. -/
theorem exists_step (h : Sound s log) (hwaiting : Waiting s)
    (halive : ∃ t < httpThreads, s.thread t ≠ .ended) :
    ∃ a s', s.step a = some s' ∧ a ≠ .accept := by
  by_cases hbusy : ∃ t < httpThreads, ∃ conn, s.thread t = .handle conn
  · obtain ⟨t, ht, conn, hpc⟩ := hbusy
    refine ⟨.finish t false, s.move t .lock, ?_, by simp⟩
    simp only [Server.step, hpc, if_pos ht]
    rfl
  · cases hrx : s.rx with
    | some t =>
      obtain ⟨ht, hrecv⟩ := h.mutex t hrx
      cases hqueue : s.queue with
      | cons conn queue =>
        refine ⟨.recv t, { s.move t (.handle conn) with queue := queue, rx := none }, ?_, by simp⟩
        simp only [Server.step, hqueue, if_pos (And.intro ht hrecv)]
      | nil =>
        -- the channel has room for what the acceptor holds
        have hsend := (hwaiting.resolve_left fun hne => hne hqueue).resolve_right hbusy
        cases hpc : s.acceptor with
        | accept => exact absurd hpc hsend
        | send conn =>
          refine ⟨.send, { s with acceptor := .accept, queue := s.queue ++ [conn] }, ?_, by simp⟩
          have hroom : s.queue.length < channelBound := by
            rw [hqueue]
            decide
          simp only [Server.step, hpc, if_pos hroom]
    | none =>
      obtain ⟨t, ht, hne⟩ := halive
      have hlock : s.thread t = .lock := by
        cases hpc : s.thread t with
        | lock => rfl
        | recv =>
          have howner := h.owner t hpc
          rw [hrx] at howner
          cases howner
        | handle conn => exact absurd ⟨t, ht, conn, hpc⟩ hbusy
        | ended => exact absurd hpc hne
      refine ⟨.lock t, { s.move t .recv with rx := some t }, ?_, by simp⟩
      simp only [Server.step, if_pos (And.intro ht (And.intro hlock hrx))]

end Sound

end Move

/-! ### Termination -/

/-- How many steps a thread makes at most before it waits for a connection. -/
def ServerPc.rank : ServerPc → Nat
  | .lock => 1
  | .recv => 0
  | .handle _ => 2
  | .ended => 0

@[simp] theorem rank_lock : ServerPc.lock.rank = 1 := rfl

@[simp] theorem rank_recv : ServerPc.recv.rank = 0 := rfl

@[simp] theorem rank_handle {conn : Nat} : (ServerPc.handle conn).rank = 2 := rfl

@[simp] theorem rank_ended : ServerPc.ended.rank = 0 := rfl

def threadsRank (s : Server) : Nat := ∑ t ∈ Finset.range httpThreads, (s.thread t).rank

def Server.rank (s : Server) : Nat :=
  4 * s.acceptor.pending.length + 3 * s.queue.length + threadsRank s

def ServerAct.isAccept : ServerAct → Bool
  | .accept => true
  | _ => false

theorem threadsRank_move {s : Server} {t : Nat} (ht : t < httpThreads) (pc : ServerPc) :
    threadsRank (s.move t pc) + (s.thread t).rank = threadsRank s + pc.rank := by
  have hsum := sum_move (f := fun u => (s.thread u).rank)
    (g := fun u => ((s.move t pc).thread u).rank) ht fun u hu => by rw [move_thread_ne hu]
  simpa [threadsRank] using hsum

theorem Move.rank_lt {s s' : Server} {a : ServerAct} (h : Move s a s') :
    s'.rank < s.rank + if a.isAccept = true then 5 else 0 := by
  cases h with
  | accept hpc =>
    show 4 * 1 + 3 * s.queue.length + threadsRank s < s.rank + 5
    rw [Server.rank, hpc]
    omega
  | @send conn hpc hroom =>
    show 4 * 0 + 3 * (s.queue ++ [conn]).length + threadsRank s < s.rank + 0
    rw [Server.rank, hpc, List.length_append]
    simp only [AcceptorPc.pending, List.length_singleton]
    omega
  | @lock t ht hpc hfree =>
    have hsum := threadsRank_move (s := s) ht .recv
    rw [hpc, rank_lock, rank_recv] at hsum
    show 4 * s.acceptor.pending.length + 3 * s.queue.length + threadsRank (s.move t .recv) <
      s.rank + 0
    rw [Server.rank]
    omega
  | @recv t conn queue ht hpc hqueue =>
    have hsum := threadsRank_move (s := s) ht (.handle conn)
    rw [hpc, rank_recv, rank_handle] at hsum
    show 4 * s.acceptor.pending.length + 3 * queue.length + threadsRank (s.move t (.handle conn)) <
      s.rank + 0
    rw [Server.rank, hqueue, List.length_cons]
    omega
  | @finish t panicked conn ht hpc =>
    have hsum := threadsRank_move (s := s) ht (if panicked then .ended else .lock)
    have hrank : (if panicked = true then ServerPc.ended else ServerPc.lock).rank ≤ 1 := by
      cases panicked with
      | true => exact Nat.zero_le _
      | false => exact Nat.le_refl _
    rw [hpc, rank_handle] at hsum
    show 4 * s.acceptor.pending.length + 3 * s.queue.length +
      threadsRank (s.move t (if panicked then .ended else .lock)) < s.rank + 0
    rw [Server.rank]
    omega

/-- **Connections.**  In every interleaving of the loop over `incoming` and the threads: the
connections are taken by the threads in their order, each one once and by one thread; at most 97 are
taken in and not done with; while one waits and a thread is left, the server goes on by itself; and
it makes a bounded number of steps for each connection. -/
theorem connections_served (p : ServerRun) :
    let (s, log) := p.1
    log.started.map Prod.fst ++ (s.queue ++ s.acceptor.pending) = List.range s.accepted ∧
    (∀ t u conn, s.thread t = .handle conn → s.thread u = .handle conn → t = u) ∧
    s.accepted ≤ log.finished.length + 97 ∧
    (Sound.Waiting s → (∃ t < httpThreads, s.thread t ≠ .ended) →
      ∃ a s', s.step a = some s' ∧ a ≠ .accept) ∧
    ∀ as, observedServer.Path Machine.anyStep observedServer.init as p.1 →
      as.length ≤ httpThreads + 5 * as.countP ServerAct.isAccept := by
  have h := Sound.reach p
  refine ⟨h.order, fun t u conn ht hu => h.handle_inj ht hu, h.accepted_le,
    fun hwaiting halive => h.exists_step hwaiting halive, fun as hpath => ?_⟩
  refine hpath.length_le_countP (fun p : Server × ServerLog => p.1.rank) ServerAct.isAccept 5 ?_
  intro p a q _ _ hstep
  exact (move_of_step (Machine.step_record.mp hstep).1).rank_lt

end Http

end WrapperPaas
