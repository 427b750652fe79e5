import Maixii.Lib.Run
import Maixii.Lib.Table
import Maixii.Net.TaskScheduler

/-!
# `Net/ConnectionTable.lean`: `connections_` of `TcpServer`

The accept handler of `net/TcpServer.cpp` runs on the first scheduler's thread: `OnConnect` makes
the connection and registers its channel with a scheduler, `AddConnection` enters it in
`connections_`, and `SetDisconnectCallback` says how it leaves. From its registration on that
scheduler's thread may close the connection. `Close` takes the channel out and calls the callback,
which queues `RemoveConnection` with the socket's number, or sets a timer when the queue is full.
Each access of what the threads share is a step of its own.

An entry keeps its connection alive, and the connection keeps its socket open, so a number does not
come round while it has an entry: whatever the threads do, an open connection keeps its entry
(`open_listed`). A closed one loses it **if the callback is there by the time `Close` looks for
it and the queue takes what is pushed** (`connections_cleaned`, in `Net/ConnectionRuns.lean`). The
callback is installed last, so there are runs in which it is not there (`connections_stale`), and
then the entry stays for ever (`entry_stays`, in `Net/StaleEntries.lean`).
-/

set_option autoImplicit false

namespace Maixii.Net

open Maixii.Lib

/-! ## The model -/

/-- What of a `TcpConnection` decides when it enters and leaves the table. -/
structure Connection where
  sockfd : Int
  /-- `task_scheduler_`, by its place in the event loop. -/
  scheduler : Nat
  isClosed : Bool
  /-- Whether `disconnect_cb_` has been set. -/
  disconnectCb : Bool
  /-- Whether the destructor has run, and closed the socket. -/
  destroyed : Bool
  deriving DecidableEq, Repr

/-- A callback in `trigger_events_`. -/
inductive TriggerEvent
  | removeConnection (sockfd : Int)
  /-- `conn->Close()`, from `Disconnect`. It keeps the connection alive. -/
  | close (c : Nat)
  /-- One that has nothing to do with the table. -/
  | other
  deriving DecidableEq, Repr

/-- How far the accept handler is. -/
inductive Accepting
  | idle
  /-- `Accept` has returned this socket. -/
  | accepted (sockfd : Int)
  /-- `OnConnect` has returned, and the channel is registered. -/
  | connected (c : Nat)
  /-- `AddConnection` has returned. -/
  | added (c : Nat)
  deriving DecidableEq, Repr

/-- How far a scheduler's thread is with a `Close`, and with what it has taken from its queue or its
timers. -/
inductive Working
  | waiting
  /-- `is_closed_` is set. -/
  | closing (c : Nat)
  /-- The channel is removed. -/
  | unregistered (c : Nat)
  /-- In `disconnect_cb_`. -/
  | disconnecting (sockfd : Int)
  /-- `AddTriggerEvent` has found room. -/
  | checked (sockfd : Int)
  /-- `AddTriggerEvent` has returned `false`. -/
  | refused (sockfd : Int)
  /-- In `RemoveConnection`. -/
  | removing (sockfd : Int)
  deriving DecidableEq, Repr

/-- A `TaskScheduler`: its channels by socket, the callbacks waiting in the ring, the timers that
will call `RemoveConnection`, and its thread. -/
structure Scheduler where
  channels : Int → Option Nat
  triggerEvents : List TriggerEvent
  timers : List Int
  thread : Working

/-- The server with its event loop. A pointer to a connection is the number of its object. -/
structure TcpServer where
  /-- The schedulers of the event loop, and which one gets the next connection. -/
  numThreads : Nat
  index : Nat
  schedulers : Nat → Scheduler
  handler : Accepting
  objects : List Connection
  connections : Int → Option Nat

/-- Who does something. -/
inductive Happening
  /-- `OnAccept`, and what `Accept` returns. -/
  | onAccept (sockfd : Int)
  /-- The accept handler goes on. -/
  | acceptor
  /-- A channel's handler closes its connection: the peer has gone, or a read failed. -/
  | fail (c : Nat)
  /-- `HandleTriggerEvent` takes the next callback. -/
  | trigger (k : Nat)
  /-- `HandleTimerEvent` runs one of the timers. -/
  | timer (k i : Nat)
  /-- The thread goes on with what it is doing. -/
  | goOn (k : Nat)
  /-- Somebody calls `Disconnect`, such as `TcpServer::Stop` for what is in the table. -/
  | disconnect (c : Nat)
  /-- Somebody queues another callback. -/
  | post (k : Nat)
  /-- The last pointer goes. -/
  | destroy (c : Nat)
  deriving DecidableEq, Repr

namespace TcpServer

/-- `EventLoop(num_threads)` and the server. -/
def new (numThreads : Nat) : TcpServer where
  numThreads := if 0 < numThreads then numThreads else 1
  index := 1
  schedulers := fun _ => ⟨fun _ => none, [], [], .waiting⟩
  handler := .idle
  objects := []
  connections := fun _ => none

/-- One scheduler changes. -/
def on (s : TcpServer) (k : Nat) (f : Scheduler → Scheduler) : TcpServer :=
  { s with schedulers := fun j => if j = k then f (s.schedulers j) else s.schedulers j }

/-- Its thread goes on to this. -/
def goTo (s : TcpServer) (k : Nat) (w : Working) : TcpServer :=
  s.on k fun scheduler => { scheduler with thread := w }

/-- The thread is in no handler. The first one is also the accept handler's. -/
def Free (s : TcpServer) (k : Nat) : Prop :=
  (s.schedulers k).thread = .waiting ∧ (k = 0 → s.handler = .idle)

instance (s : TcpServer) (k : Nat) : Decidable (s.Free k) :=
  inferInstanceAs (Decidable (_ ∧ _))

/-- No socket of this number is open. -/
def Unused (s : TcpServer) (sockfd : Int) : Prop :=
  ∀ conn ∈ s.objects, conn.destroyed = false → conn.sockfd ≠ sockfd

instance (s : TcpServer) (sockfd : Int) : Decidable (s.Unused sockfd) :=
  inferInstanceAs (Decidable (∀ conn ∈ s.objects, _))

/-- `EventLoop::GetTaskScheduler()`, and the next `index_`. -/
def getTaskScheduler (s : TcpServer) : Nat × Nat :=
  if s.numThreads = 1 then (0, s.index)
  else (s.index, if s.numThreads ≤ s.index + 1 then 1 else s.index + 1)

/-- `UpdateChannel(channel_)`, for a channel with an event. -/
def updateChannel (s : TcpServer) (k : Nat) (sockfd : Int) (c : Nat) : TcpServer :=
  s.on k fun scheduler => { scheduler with channels := emplaceAt scheduler.channels sockfd c }

/-- `OnConnect(sockfd)`: the `TcpConnection` is made, and registered. -/
def onConnect (s : TcpServer) (sockfd : Int) : TcpServer :=
  updateChannel
    { s with
      index := s.getTaskScheduler.2
      objects := s.objects ++ [⟨sockfd, s.getTaskScheduler.1, false, false, false⟩]
      handler := .connected s.objects.length }
    s.getTaskScheduler.1 sockfd s.objects.length

/-- `AddConnection(sockfd, conn)`. -/
def addConnection (s : TcpServer) (c : Nat) (conn : Connection) : TcpServer :=
  { s with connections := emplaceAt s.connections conn.sockfd c, handler := .added c }

/-- `conn->SetDisconnectCallback(..)`, the last thing the accept handler does. -/
def setDisconnectCallback (s : TcpServer) (c : Nat) : TcpServer :=
  { s with
    objects := s.objects.modify c fun conn => { conn with disconnectCb := true }
    handler := .idle }

/-- The next step of the accept handler. -/
def acceptorStep (s : TcpServer) : Option TcpServer :=
  match s.handler with
  | .idle => none
  | .accepted sockfd => some (s.onConnect sockfd)
  | .connected c => (s.objects[c]?).map (s.addConnection c)
  | .added c => some (s.setDisconnectCallback c)

/-- `Close()` on this thread, as far as `is_closed_`. -/
def close (s : TcpServer) (k c : Nat) (conn : Connection) : TcpServer :=
  if conn.isClosed then s
  else
    goTo { s with objects := s.objects.modify c fun conn => { conn with isClosed := true } }
      k (.closing c)

/-- Whether `AddTriggerEvent` finds room on this scheduler. -/
def Room (s : TcpServer) (k : Nat) : Prop :=
  (s.schedulers k).triggerEvents.length < kMaxTriggetEvents

instance (s : TcpServer) (k : Nat) : Decidable (s.Room k) :=
  inferInstanceAs (Decidable (_ < _))

/-- `trigger_events_->Push(callback)`, whose answer is thrown away. -/
def push (s : TcpServer) (k : Nat) (e : TriggerEvent) : TcpServer :=
  if s.Room k then
    s.on k fun scheduler => { scheduler with triggerEvents := scheduler.triggerEvents ++ [e] }
  else s

/-- The next step of a scheduler's thread. -/
def workerStep (s : TcpServer) (k : Nat) : Option TcpServer :=
  match (s.schedulers k).thread with
  | .waiting => none
  | .closing c => (s.objects[c]?).map fun conn =>
      s.on k fun scheduler =>
        { scheduler with
          channels := setAt scheduler.channels conn.sockfd none
          thread := .unregistered c }
  | .unregistered c => (s.objects[c]?).map fun conn =>
      s.goTo k (if conn.disconnectCb then .disconnecting conn.sockfd else .waiting)
  | .disconnecting sockfd => some (s.goTo k (if s.Room k then .checked sockfd else .refused sockfd))
  | .checked sockfd => some ((s.push k (.removeConnection sockfd)).goTo k .waiting)
  | .refused sockfd => some (s.on k fun scheduler =>
      { scheduler with timers := scheduler.timers ++ [sockfd], thread := .waiting })
  | .removing sockfd =>
      some (goTo { s with connections := setAt s.connections sockfd none } k .waiting)

/-- What the thread does with a callback it has taken. -/
def run (s : TcpServer) (k : Nat) : TriggerEvent → Option TcpServer
  | .removeConnection sockfd => some (s.goTo k (.removing sockfd))
  | .close c => (s.objects[c]?).map (s.close k c)
  | .other => some s

/-- Whether a pointer to the connection is left: the accept handler's, the table's, or one in a
callback. -/
def Referenced (s : TcpServer) (c : Nat) (conn : Connection) : Prop :=
  s.handler = .connected c ∨ s.handler = .added c ∨ s.connections conn.sockfd = some c ∨
    TriggerEvent.close c ∈ (s.schedulers conn.scheduler).triggerEvents

instance (s : TcpServer) (c : Nat) (conn : Connection) : Decidable (s.Referenced c conn) :=
  inferInstanceAs (Decidable (_ ∨ _ ∨ _ ∨ _))

def step (s : TcpServer) : Happening → Option TcpServer
  | .onAccept sockfd =>
      if s.Free 0 ∧ s.Unused sockfd then
        some (if 0 < sockfd then { s with handler := .accepted sockfd } else s)
      else none
  | .acceptor => s.acceptorStep
  | .fail c => (s.objects[c]?).bind fun conn =>
      if s.Free conn.scheduler ∧ (s.schedulers conn.scheduler).channels conn.sockfd = some c then
        some (s.close conn.scheduler c conn)
      else none
  | .trigger k =>
      if s.Free k then
        match (s.schedulers k).triggerEvents with
        | [] => none
        | e :: rest =>
            (s.on k fun scheduler => { scheduler with triggerEvents := rest }).run k e
      else none
  | .timer k i =>
      if s.Free k then
        ((s.schedulers k).timers[i]?).map fun sockfd =>
          s.on k fun scheduler =>
            { scheduler with
              timers := scheduler.timers.eraseIdx i
              thread := .removing sockfd }
      else none
  | .goOn k => s.workerStep k
  | .disconnect c => (s.objects[c]?).bind fun conn =>
      if conn.destroyed then none else some (s.push conn.scheduler (.close c))
  | .post k => if k < s.numThreads then some (s.push k .other) else none
  | .destroy c => (s.objects[c]?).bind fun conn =>
      if conn.destroyed ∨ s.Referenced c conn then none
      else
        some { s with objects := s.objects.modify c fun conn => { conn with destroyed := true } }

def system : System TcpServer Happening :=
  System.ofStep (fun s => ∃ numThreads, s = new numThreads) step

/-! ## The property -/

/-- No handler is running, and nothing is queued or waits for a timer. -/
def AtRest (s : TcpServer) : Prop :=
  s.handler = .idle ∧ ∀ k < s.numThreads, (s.schedulers k).thread = .waiting ∧
    (s.schedulers k).triggerEvents = [] ∧ (s.schedulers k).timers = []

instance (s : TcpServer) : Decidable s.AtRest :=
  inferInstanceAs (Decidable (_ ∧ ∀ k < s.numThreads, _))

/-- `connections_` contains exactly the accepted connections that are not closed. -/
def CleanedUp (s : TcpServer) : Prop :=
  s.AtRest → ∀ sockfd c, s.connections sockfd = some c ↔
    ∃ conn, s.objects[c]? = some conn ∧ conn.sockfd = sockfd ∧ conn.isClosed = false

/-- `Close` finds the callback, and the ring has room for what it pushes. -/
def HeardAt (s : TcpServer) (k : Nat) : Working → Prop
  | .unregistered c => (s.objects[c]?).all Connection.disconnectCb = true
  | .checked _ => s.Room k
  | _ => True

/-- The condition on a step. -/
def Heard (s : TcpServer) : Happening → Prop
  | .goOn k => HeardAt s k (s.schedulers k).thread
  | _ => True

instance (s : TcpServer) (k : Nat) (w : Working) : Decidable (HeardAt s k w) := by
  cases w <;> unfold HeardAt <;> infer_instance

instance (s : TcpServer) (h : Happening) : Decidable (Heard s h) := by
  cases h <;> unfold Heard <;> infer_instance

end TcpServer

end Maixii.Net
