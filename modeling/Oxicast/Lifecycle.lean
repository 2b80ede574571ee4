import Oxicast.Channels
import Oxicast.Transition
import Oxicast.Types
import Mathlib.Logic.Function.Basic

/-!
# Oxicast.Lifecycle

The connection lifecycle of a `CastClient`: `from_builder`, `disconnect`,
`reconnect_with_attempt`, the reader, writer and heartbeat tasks of every
connection and the auto-reconnect task, over the cells they share.

An action is what one of them does between two points where another may run.
A loss is two actions, since a task stores `alive = false` before it sends
`Disconnected` on the watch and other threads run in between; a reconnect is

```
(lock, checks, Reconnecting) ─▸ shutdown ─▸ connecting ─▸ swapWriteTx ─▸ arm ─▸ clear
     ─▸ install ─▸ sendConnect ─▸ readTransport ─▸ sendTransport ─▸ publish ─▸ (Ok)
```

with an error exit after `connecting` and after each send.  Only the holder of
`reconnect_lock` has a state; a call that waits for the lock does nothing yet.

Connections are numbered from 0, the one of `from_builder`, in the order in
which their write channel is published.
-/

namespace Oxicast

/-! ## the background tasks -/

inductive TaskKind where
  | reader
  | writer
  | heartbeat
  deriving DecidableEq

inductive TaskState where
  /-- not spawned, or finished -/
  | stopped
  | running
  /-- `alive = false` is stored, `Disconnected` is still to be sent -/
  | failing
  /-- the reader is about to clear the request tracker and exit -/
  | clearing
  deriving DecidableEq

/-- `TaskHandles`: the join handles that have not been taken yet, with the
connection whose token they are cancelled by. -/
structure TaskHandles where
  connection : Nat
  recorded : TaskKind → Bool

namespace TaskHandles

/-- The handles of a connection whose tasks have just been spawned. -/
def all (connection : Nat) : TaskHandles := ⟨connection, fun _ => true⟩

/-- The handle `shutdown` takes next: the reader's, the writer's, the heartbeat's. -/
def next (h : TaskHandles) : Option TaskKind :=
  if h.recorded .reader then some .reader
  else if h.recorded .writer then some .writer
  else if h.recorded .heartbeat then some .heartbeat
  else none

/-- The handles without the next one. -/
def rest (h : TaskHandles) : TaskHandles :=
  { h with recorded := fun k => h.recorded k && h.next != some k }

@[simp, grind =] theorem connection_rest (h : TaskHandles) : h.rest.connection = h.connection := rfl

@[simp, grind =] theorem recorded_rest (h : TaskHandles) (k : TaskKind) :
    h.rest.recorded k = (h.recorded k && h.next != some k) := rfl

theorem next_eq_none_iff (h : TaskHandles) : h.next = none ↔ ∀ k, h.recorded k = false := by
  unfold next
  constructor
  · intro hn k
    split_ifs at hn
    cases k <;> simp_all
  · intro hr
    simp [hr]

end TaskHandles

/-! ## the calls in progress -/

inductive BuilderPc where
  | sendConnect
  | publish
  | failed
  | done
  deriving DecidableEq

/-- Who called `reconnect_with_attempt`. -/
inductive Caller where
  | manual
  | auto
  deriving DecidableEq

/-- What the holder of `reconnect_lock` does next. -/
inductive ReconnectPc where
  | shutdown
  | connecting
  | swapWriteTx
  | arm
  | clear
  | install
  | sendConnect
  | readTransport
  | sendTransport (tid : String)
  | publish
  deriving DecidableEq

namespace ReconnectPc

/-- Up to the store of `alive = true`. -/
def Unarmed : ReconnectPc → Prop
  | .shutdown | .connecting | .swapWriteTx | .arm => True
  | _ => False

/-- Between the end of the shutdown and the spawn of the new tasks. -/
def Bare : ReconnectPc → Prop
  | .connecting | .swapWriteTx | .arm | .clear => True
  | _ => False

/-- Between the store of `alive = true` and the install of the new handles. -/
def Unrecorded : ReconnectPc → Prop
  | .clear | .install => True
  | _ => False

end ReconnectPc

/-- The `reconnect_with_attempt` call that holds `reconnect_lock`.  `eventTx`:
it holds a clone of the event sender `next_event` listens to. -/
structure Reconnect where
  caller : Caller
  attempt : Nat
  pc : ReconnectPc
  eventTx : Bool
  deriving DecidableEq

inductive DisconnectPc where
  | idle
  /-- `shutting_down` is set; media is being stopped, for at most two seconds -/
  | closing
  | shutdown
  | clear
  | dropEventTx
  | returned
  deriving DecidableEq

namespace DisconnectPc

/-- The `Disconnected` of this call is still to come. -/
def Pending : DisconnectPc → Prop
  | .closing | .shutdown | .clear => True
  | _ => False

/-- `alive = false` is stored. -/
def Flagged : DisconnectPc → Prop
  | .idle | .closing => False
  | _ => True

/-- The old tasks are shut down. -/
def Stopped : DisconnectPc → Prop
  | .clear | .dropEventTx | .returned => True
  | _ => False

/-- `Disconnected` is sent. -/
def Published : DisconnectPc → Prop
  | .dropEventTx | .returned => True
  | _ => False

end DisconnectPc

/-- The auto-reconnect task. -/
inductive AutoPc where
  /-- not spawned: `from_builder` is not done, or auto-reconnect is disabled -/
  | off
  /-- in `conn_rx.changed()` -/
  | parked
  | backoff (attempt : Nat)
  /-- in `reconnect_with_attempt(attempt)`, the wait for the lock included -/
  | attempting (attempt : Nat)
  | exited
  deriving DecidableEq

/-- In the retry loop. -/
def AutoPc.Retrying : AutoPc → Prop
  | .backoff _ | .attempting _ => True
  | _ => False

/-- Who is inside `task_handles.lock().await.shutdown()`. -/
inductive ShutdownCaller where
  | reconnect
  | disconnect (d : Nat)
  deriving DecidableEq

/-- The settings of the client that its lifecycle depends on. -/
structure ClientConfig where
  autoReconnect : Bool
  maxReconnectAttempts : Nat
  eventBufferSize : Nat

/-! ## the state -/

/-- The cells of `ClientInner`, the tasks and the calls in progress.  `task c k`
is the state of the `k` task of connection `c`, `cancelled c` its token,
`aborted c k` whether its handle was aborted, `taskEventTx c` whether its
tasks got a sender of the channel `next_event` listens to. -/
structure Lifecycle where
  alive : Bool
  shuttingDown : Bool
  connection : Watch ConnectionState
  events : Mpsc CastEvent
  /-- `event_tx` is a sender of the channel `next_event` listens to -/
  eventTx : Bool
  /-- the connection whose queue `write_tx` feeds -/
  writeTx : Nat
  task : Nat → TaskKind → TaskState
  cancelled : Nat → Bool
  aborted : Nat → TaskKind → Bool
  taskEventTx : Nat → Bool
  handles : TaskHandles
  /-- the holder of the `task_handles` lock and the task it awaits -/
  handlesLock : Option (ShutdownCaller × TaskKind)
  builder : BuilderPc
  reconnecting : Option Reconnect
  disconnects : Nat → DisconnectPc
  auto : AutoPc
  /-- the version of the connection watch the auto-reconnect task has seen -/
  autoSeen : Nat

namespace Lifecycle

/-- `from_builder` has spawned the tasks of the first connection and is about
to send CONNECT. -/
def start (cfg : ClientConfig) : Lifecycle where
  alive := true
  shuttingDown := false
  connection := ⟨.connected, 0⟩
  events := ⟨[], cfg.eventBufferSize⟩
  eventTx := true
  writeTx := 0
  task c _ := if c = 0 then .running else .stopped
  cancelled _ := false
  aborted _ _ := false
  taskEventTx c := c = 0
  handles := .all 0
  handlesLock := none
  builder := .sendConnect
  reconnecting := none
  disconnects _ := .idle
  auto := .off
  autoSeen := 0

/-- `try_send_event`: with a dead `event_tx` the event goes nowhere. -/
def sendEvent (s : Lifecycle) (e : CastEvent) : Mpsc CastEvent :=
  if s.eventTx then s.events.trySend e else s.events

/-- `event_tx.try_send` of a task of connection `c`. -/
def taskSendEvents (s : Lifecycle) (c : Nat) (es : List CastEvent) : Mpsc CastEvent :=
  if s.taskEventTx c then es.foldl Mpsc.trySend s.events else s.events

/-- The tasks with one of them in a new state. -/
def setTask (task : Nat → TaskKind → TaskState) (c : Nat) (k : TaskKind) (t : TaskState) :
    Nat → TaskKind → TaskState :=
  fun c' k' => if c' = c ∧ k' = k then t else task c' k'

/-! ## `from_builder` -/

/-- CONNECT is in the queue of the first connection. -/
def builderSent (s : Lifecycle) : Lifecycle := { s with builder := .publish }

/-- The client is built; the auto-reconnect task has not seen its `Connected`. -/
def builderDone (cfg : ClientConfig) (s : Lifecycle) : Lifecycle :=
  { s with
    builder := .done
    events := s.sendEvent .connected
    connection := s.connection.send .connected
    auto := if cfg.autoReconnect ∧ cfg.maxReconnectAttempts ≠ 0 then .parked else .off }

/-! ## losses and the ends of tasks -/

/-- A task notices that the connection is lost: end of stream or read error,
write error, heartbeat timeout.  The reader reports it as an event at once. -/
def fail (s : Lifecycle) (c : Nat) (k : TaskKind) (reason : Option String) : Lifecycle :=
  { s with
    alive := false
    task := setTask s.task c k .failing
    events := if k = .reader then s.taskSendEvents c [.disconnected reason] else s.events }

/-- The task sends `Disconnected` on the watch; the heartbeat reports it as an
event after that. -/
def publishLoss (s : Lifecycle) (c : Nat) (k : TaskKind) : Lifecycle :=
  { s with
    connection := s.connection.send .disconnected
    task := setTask s.task c k (if k = .reader then .clearing else .stopped)
    events := if k = .heartbeat then s.taskSendEvents c [.heartbeatTimeout] else s.events }

/-- A task ends without a word. -/
def stop (s : Lifecycle) (c : Nat) (k : TaskKind) : Lifecycle :=
  { s with task := setTask s.task c k .stopped }

/-- A task sees its cancelled token; the reader clears the tracker before it ends. -/
def noticeCancel (s : Lifecycle) (c : Nat) (k : TaskKind) : Lifecycle :=
  { s with task := setTask s.task c k (if k = .reader then .clearing else .stopped) }

/-- The reader passes on the events of a routed message. -/
def emit (s : Lifecycle) (c : Nat) (es : List CastEvent) : Lifecycle :=
  { s with events := s.taskSendEvents c es }

/-! ## `TaskHandles::shutdown` -/

/-- `shutdown` from one `h.await` to the next: take the next handle and abort
its task.  Without one it is over, and its caller goes on. -/
def takeNext (s : Lifecycle) (who : ShutdownCaller) : Lifecycle :=
  { s with
    handles := s.handles.rest
    aborted := fun c k =>
      s.aborted c k || (c = s.handles.connection ∧ s.handles.next = some k)
    handlesLock := s.handles.next.map (who, ·)
    reconnecting :=
      if s.handles.next = none ∧ who = .reconnect then
        s.reconnecting.map ({ · with pc := .connecting })
      else s.reconnecting
    disconnects := fun d =>
      if s.handles.next = none ∧ who = .disconnect d then .clear else s.disconnects d }

/-- The lock is acquired and the token cancelled. -/
def beginShutdown (s : Lifecycle) (who : ShutdownCaller) : Lifecycle :=
  { s with cancelled := fun c => s.cancelled c || c = s.handles.connection }.takeNext who

/-- The call is in its shutdown phase. -/
def InShutdown (s : Lifecycle) : ShutdownCaller → Prop
  | .reconnect => s.reconnecting.map (·.pc) = some .shutdown
  | .disconnect d => s.disconnects d = .shutdown

instance (s : Lifecycle) : DecidablePred s.InShutdown
  | .reconnect => inferInstanceAs (Decidable (s.reconnecting.map (·.pc) = some .shutdown))
  | .disconnect d => inferInstanceAs (Decidable (s.disconnects d = .shutdown))

/-! ## `reconnect_with_attempt` -/

/-- The auto-reconnect task after a failed attempt: the next one, or the end. -/
def attemptFailed (cfg : ClientConfig) (s : Lifecycle) (n : Nat) : Lifecycle :=
  { s with
    auto := if n = cfg.maxReconnectAttempts then .exited else .backoff (n + 1)
    connection :=
      if n = cfg.maxReconnectAttempts then s.connection.send .disconnected else s.connection
    events :=
      if n = cfg.maxReconnectAttempts then s.sendEvent (.disconnected (some "reconnect failed"))
      else s.events }

/-- A call returns `Err`. -/
def returnErr (cfg : ClientConfig) (s : Lifecycle) (caller : Caller) (attempt : Nat) : Lifecycle :=
  match caller with
  | .manual => { s with reconnecting := none }
  | .auto => { s with reconnecting := none }.attemptFailed cfg attempt

/-- A call returns `Ok`. -/
def returnOk (s : Lifecycle) (caller : Caller) : Lifecycle :=
  { s with
    reconnecting := none
    auto := if caller = .auto then .parked else s.auto }

/-- The lock is acquired: give up after `disconnect`, do nothing when somebody
else has reconnected, otherwise announce the attempt. -/
def acquire (cfg : ClientConfig) (s : Lifecycle) (caller : Caller) (attempt : Nat) : Lifecycle :=
  if s.shuttingDown then s.returnErr cfg caller attempt
  else if s.alive then s.returnOk caller
  else
    { s with
      reconnecting := some ⟨caller, attempt, .shutdown, false⟩
      connection := s.connection.send (.reconnecting attempt)
      events := s.sendEvent (.reconnecting attempt) }

/-- The TLS handshake is done; `shutting_down` is checked once more. -/
def tlsConnected (cfg : ClientConfig) (s : Lifecycle) (f : Reconnect) : Lifecycle :=
  if s.shuttingDown then s.returnErr cfg f.caller f.attempt
  else { s with reconnecting := some { f with pc := .swapWriteTx } }

/-- The new write channel is published. -/
def swapWriteTx (s : Lifecycle) (f : Reconnect) : Lifecycle :=
  { s with writeTx := s.writeTx + 1, reconnecting := some { f with pc := .arm } }

/-- `event_tx` is cloned, `alive` set and `shutting_down` reset. -/
def arm (s : Lifecycle) (f : Reconnect) : Lifecycle :=
  { s with
    alive := true
    shuttingDown := false
    reconnecting := some { f with pc := .clear, eventTx := s.eventTx } }

/-- The tracker is cleared and the new tasks are spawned, with the clones of
`event_tx`. -/
def clearAndSpawn (s : Lifecycle) (f : Reconnect) : Lifecycle :=
  { s with
    task := fun c k => if c = s.writeTx then .running else s.task c k
    taskEventTx := fun c => if c = s.writeTx then f.eventTx else s.taskEventTx c
    reconnecting := some { f with pc := .install, eventTx := false } }

/-- The new handles replace the old ones. -/
def install (s : Lifecycle) (f : Reconnect) : Lifecycle :=
  { s with
    handles := .all s.writeTx
    reconnecting := some { f with pc := .sendConnect } }

/-- CONNECT to receiver-0 is in the queue. -/
def connectSent (s : Lifecycle) (f : Reconnect) : Lifecycle :=
  { s with reconnecting := some { f with pc := .readTransport } }

/-- `transport_id` is read; its lock is held while CONNECT is sent to it. -/
def readTransport (s : Lifecycle) (f : Reconnect) (tid : Option String) : Lifecycle :=
  { s with reconnecting := some { f with pc := tid.elim .publish .sendTransport } }

/-- CONNECT to the transport is in the queue. -/
def transportSent (s : Lifecycle) (f : Reconnect) : Lifecycle :=
  { s with reconnecting := some { f with pc := .publish } }

/-- The call publishes `Connected` and returns. -/
def publishConnected (s : Lifecycle) (f : Reconnect) : Lifecycle :=
  { s with
    connection := s.connection.send .connected
    events := s.sendEvent .reconnected }.returnOk f.caller

/-! ## `disconnect` -/

/-- `disconnect` starts with `shutting_down`. -/
def beginDisconnect (s : Lifecycle) (d : Nat) : Lifecycle :=
  { s with shuttingDown := true, disconnects := Function.update s.disconnects d .closing }

/-- Media is stopped or its timeout over; `alive` is reset. -/
def flagDead (s : Lifecycle) (d : Nat) : Lifecycle :=
  { s with alive := false, disconnects := Function.update s.disconnects d .shutdown }

/-- The tracker is cleared and `Disconnected` published. -/
def publishDisconnected (s : Lifecycle) (d : Nat) : Lifecycle :=
  { s with
    connection := s.connection.send .disconnected
    events := s.sendEvent (.disconnected none)
    disconnects := Function.update s.disconnects d .dropEventTx }

/-- `event_tx` is replaced by a dead sender and the call returns. -/
def dropEventTx (s : Lifecycle) (d : Nat) : Lifecycle :=
  { s with eventTx := false, disconnects := Function.update s.disconnects d .returned }

/-! ## the auto-reconnect task -/

/-- `changed()` is ready: the task ends after `disconnect`, and starts its
attempts when the latest value is `Disconnected`. -/
def wake (s : Lifecycle) : Lifecycle :=
  { s with
    autoSeen := s.connection.version
    auto :=
      if s.shuttingDown then .exited
      else if s.connection.value = .disconnected then .backoff 1
      else .parked }

/-- The backoff delay is over. -/
def beginAttempt (s : Lifecycle) (n : Nat) : Lifecycle := { s with auto := .attempting n }

/-- `next_event` takes one event out of the buffer. -/
def nextEvent (s : Lifecycle) : Lifecycle :=
  { s with events := ⟨s.events.buffer.tail, s.events.capacity⟩ }

end Lifecycle

/-! ## the steps -/

inductive LifecycleAct where
  | builderSent
  | builderFailed
  | builderDone
  | fail (c : Nat) (k : TaskKind) (reason : Option String)
  | publishLoss (c : Nat) (k : TaskKind)
  | readerCleared (c : Nat)
  | noticeCancel (c : Nat) (k : TaskKind)
  | noticeAbort (c : Nat) (k : TaskKind)
  | heartbeatQuit (c : Nat)
  | emit (c : Nat) (es : List CastEvent)
  | lockHandles (who : ShutdownCaller)
  | awaitHandle
  | reconnect
  | tlsFailed
  | tlsConnected
  | swapWriteTx
  | arm
  | clearAndSpawn
  | install
  | connectSent
  | connectFailed
  | readTransport (tid : Option String)
  | transportSent
  | transportFailed
  | publishConnected
  | disconnect (d : Nat)
  | flagDead (d : Nat)
  | publishDisconnected (d : Nat)
  | dropEventTx (d : Nat)
  | wake
  | beginAttempt
  | attempt
  | nextEvent

namespace Lifecycle

/-- Go on from one point of `reconnect_with_attempt`. -/
def atPc (s : Lifecycle) (pc : ReconnectPc) (go : Reconnect → Lifecycle) : Option Lifecycle :=
  match s.reconnecting with
  | some f => if f.pc = pc then some (go f) else none
  | none => none

/-- One step of the client.  A send into a write channel fails exactly when the
writer, which owns the receiving end, is gone; when there is room for one that
succeeds is left to the schedule. -/
def step (cfg : ClientConfig) (s : Lifecycle) : LifecycleAct → Option Lifecycle
  | .builderSent =>
      if s.builder = .sendConnect ∧ s.task 0 .writer ≠ .stopped then some s.builderSent else none
  | .builderFailed =>
      if s.builder = .sendConnect ∧ s.task 0 .writer = .stopped then
        some { s with builder := .failed }
      else none
  | .builderDone => if s.builder = .publish then some (s.builderDone cfg) else none
  | .fail c k reason => if s.task c k = .running then some (s.fail c k reason) else none
  | .publishLoss c k => if s.task c k = .failing then some (s.publishLoss c k) else none
  | .readerCleared c => if s.task c .reader = .clearing then some (s.stop c .reader) else none
  | .noticeCancel c k =>
      if s.cancelled c ∧ s.task c k = .running then some (s.noticeCancel c k) else none
  | .noticeAbort c k =>
      if s.aborted c k ∧ (s.task c k = .running ∨ s.task c k = .clearing) then some (s.stop c k)
      else none
  | .heartbeatQuit c =>
      if s.task c .heartbeat = .running ∧ s.task c .writer = .stopped then
        some (s.stop c .heartbeat)
      else none
  | .emit c es => if s.task c .reader = .running then some (s.emit c es) else none
  | .lockHandles who =>
      if s.handlesLock = none ∧ s.InShutdown who then some (s.beginShutdown who) else none
  | .awaitHandle =>
      match s.handlesLock with
      | some (who, k) =>
          if s.task s.handles.connection k = .stopped then some (s.takeNext who) else none
      | none => none
  | .reconnect =>
      if s.builder = .done ∧ s.reconnecting = none then some (s.acquire cfg .manual 1) else none
  | .tlsFailed => s.atPc .connecting fun f => s.returnErr cfg f.caller f.attempt
  | .tlsConnected => s.atPc .connecting (s.tlsConnected cfg)
  | .swapWriteTx => s.atPc .swapWriteTx s.swapWriteTx
  | .arm => s.atPc .arm s.arm
  | .clearAndSpawn => s.atPc .clear s.clearAndSpawn
  | .install => if s.handlesLock = none then s.atPc .install s.install else none
  | .connectSent =>
      if s.task s.writeTx .writer ≠ .stopped then s.atPc .sendConnect s.connectSent else none
  | .connectFailed =>
      if s.task s.writeTx .writer = .stopped then
        s.atPc .sendConnect fun f => s.returnErr cfg f.caller f.attempt
      else none
  | .readTransport tid => s.atPc .readTransport fun f => s.readTransport f tid
  | .transportSent =>
      match s.reconnecting with
      | some ⟨caller, attempt, .sendTransport tid, eventTx⟩ =>
          if s.task s.writeTx .writer ≠ .stopped then
            some (s.transportSent ⟨caller, attempt, .sendTransport tid, eventTx⟩)
          else none
      | _ => none
  | .transportFailed =>
      match s.reconnecting with
      | some ⟨caller, attempt, .sendTransport _, _⟩ =>
          if s.task s.writeTx .writer = .stopped then some (s.returnErr cfg caller attempt)
          else none
      | _ => none
  | .publishConnected => s.atPc .publish s.publishConnected
  | .disconnect d =>
      if s.builder = .done ∧ s.disconnects d = .idle then some (s.beginDisconnect d) else none
  | .flagDead d => if s.disconnects d = .closing then some (s.flagDead d) else none
  | .publishDisconnected d =>
      if s.disconnects d = .clear then some (s.publishDisconnected d) else none
  | .dropEventTx d => if s.disconnects d = .dropEventTx then some (s.dropEventTx d) else none
  | .wake =>
      if s.auto = .parked ∧ s.connection.Changed s.autoSeen then some s.wake else none
  | .beginAttempt =>
      match s.auto with
      | .backoff n => some (s.beginAttempt n)
      | _ => none
  | .attempt =>
      match s.auto with
      | .attempting n => if s.reconnecting = none then some (s.acquire cfg .auto n) else none
      | _ => none
  | .nextEvent => some s.nextEvent

/-- All interleavings of the calls and tasks of one client. -/
def system (cfg : ClientConfig) : TransitionSystem Lifecycle LifecycleAct := ⟨.start cfg, step cfg⟩

end Lifecycle

end Oxicast
