/-
  The threads that serve the connections (`run_http` of `src/rust/main.rs`): the loop over
  `listener.incoming`, the bounded channel behind it, and the threads that take one connection after
  the other from its receiver, which a mutex guards.

  A `ServerAct` is one step of one thread.  A connection is its number in the order in which
  `incoming` gives them.  `handle_http_connection` returns, whichever way, or it panics; then its
  thread ends, which holds no lock there.
-/
import Mathlib.Data.List.Basic
import Mathlib.Logic.Function.Basic
import WrapperPaas.Lib.Machine

namespace WrapperPaas

namespace Http

/-- The bound of `sync_channel`. -/
def channelBound : Nat := 64

def httpThreads : Nat := 32

/-- Where the loop over `incoming` is. -/
inductive AcceptorPc where
  | accept
  /-- in `tx.send` -/
  | send (conn : Nat)
  deriving DecidableEq, Repr

/-- Where a thread is. -/
inductive ServerPc where
  /-- before `rx.lock()` -/
  | lock
  /-- in `guard.recv()` -/
  | recv
  /-- in `handle_http_connection` -/
  | handle (conn : Nat)
  | ended
  deriving DecidableEq, Repr

structure Server where
  acceptor : AcceptorPc := .accept
  /-- how many connections `incoming` has given -/
  accepted : Nat := 0
  queue : List Nat := []
  rx : Option Nat := none
  thread : Nat → ServerPc := fun _ => .lock

inductive ServerAct where
  /-- `incoming` gives a connection; an error is only reported -/
  | accept
  | send
  | lock (t : Nat)
  | recv (t : Nat)
  | finish (t : Nat) (panicked : Bool)
  deriving DecidableEq, Repr

def Server.move (s : Server) (t : Nat) (pc : ServerPc) : Server :=
  { s with thread := Function.update s.thread t pc }

def Server.step (s : Server) : ServerAct → Option Server
  | .accept =>
    match s.acceptor with
    | .accept => some { s with acceptor := .send s.accepted, accepted := s.accepted + 1 }
    | .send _ => none
  | .send =>
    -- the receiver is never dropped, so the channel is never closed
    match s.acceptor with
    | .send conn =>
      if s.queue.length < channelBound then
        some { s with acceptor := .accept, queue := s.queue ++ [conn] }
      else none
    | .accept => none
  | .lock t =>
    if t < httpThreads ∧ s.thread t = .lock ∧ s.rx = none then
      some { s.move t .recv with rx := some t }
    else none
  | .recv t =>
    if t < httpThreads ∧ s.thread t = .recv then
      match s.queue with
      | conn :: queue => some { s.move t (.handle conn) with queue := queue, rx := none }
      | [] => none
    else none
  | .finish t panicked =>
    match s.thread t with
    | .handle _ =>
      if t < httpThreads then some (s.move t (if panicked then .ended else .lock)) else none
    | _ => none

/-- `run_http` from its start on. -/
def server : Machine Server ServerAct where
  init := {}
  step := Server.step

/-- What an observer writes down: the connections that have been taken, with their threads, in that
order, and those that are done with. -/
structure ServerLog where
  started : List (Nat × Nat) := []
  finished : List Nat := []
  deriving DecidableEq, Repr

def ServerLog.note (log : ServerLog) (s : Server) : ServerAct → ServerLog
  | .recv t => { log with started := log.started ++ (s.queue.take 1).map (·, t) }
  | .finish t _ =>
    match s.thread t with
    | .handle conn => { log with finished := log.finished ++ [conn] }
    | _ => log
  | _ => log

def observedServer : Machine (Server × ServerLog) ServerAct := server.record {} ServerLog.note

/-- A reachable state, with what has happened. -/
def ServerRun : Type := { p : Server × ServerLog // observedServer.Reach Machine.anyStep p }

end Http

end WrapperPaas
