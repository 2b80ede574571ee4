import Oxicast.Router
import Oxicast.Transition

/-!
# Oxicast.Heartbeat

The three tasks of one connection around its outbound queue, and the clock.

The heartbeat sends a PING at every tick and looks at the last activity after
that; the reader records the activity and answers a PING with a PONG; the writer
takes one message after another and may stay in a write for any time.  A send
waits while the queue is full, and whoever waits does nothing else: a heartbeat
that waits looks at no clock, and a reader that waits records no activity.
-/

namespace Oxicast

/-- Who sends into the outbound queue. -/
inductive Sender where
  | reader
  | heartbeat
  | user (n : Nat)
  deriving DecidableEq

inductive WriterPc where
  | receiving
  /-- in `write_message` -/
  | writing (msg : CastMessage)
  | stopped
  deriving DecidableEq

inductive ReaderPc where
  | reading
  /-- its PONG waits for room -/
  | replying
  | stopped
  deriving DecidableEq

inductive HeartbeatPc where
  /-- between two ticks -/
  | ticking
  /-- its PING waits for room -/
  | pinging
  /-- its PING has got its place; the last activity is to be looked at -/
  | checking
  | stopped
  deriving DecidableEq

/-- The settings the heartbeat depends on. -/
structure HeartbeatConfig where
  timeout : Nat
  eventBufferSize : Nat

/-- One connection.  `router` is what `route` works on. -/
structure Link where
  alive : Bool
  cancelled : Bool
  connection : Watch ConnectionState
  router : Router
  now : Nat
  lastActivity : Nat
  queue : Backlog 64 CastMessage Sender
  writer : WriterPc
  reader : ReaderPc
  heartbeat : HeartbeatPc

namespace Link

variable (serde : SerdeJson)

/-- The tasks have just been spawned. -/
def start (cfg : HeartbeatConfig) : Link where
  alive := true
  cancelled := false
  connection := ⟨.connected, 0⟩
  router := .new .new cfg.eventBufferSize
  now := 0
  lastActivity := 0
  queue := .empty
  writer := .receiving
  reader := .reading
  heartbeat := .ticking

/-- The channel is closed: its receiving end went with the writer. -/
def Closed (s : Link) : Prop := s.writer = .stopped

instance (s : Link) : Decidable s.Closed := inferInstanceAs (Decidable (s.writer = .stopped))

/-! ## the reader -/

/-- A message is read and routed; the PONG that is due is sent. -/
def inbound (s : Link) (msg : CastMessage) : Link :=
  let routed := s.router.route serde msg
  let s := { s with lastActivity := s.now, router := { routed with outbound := [] } }
  match routed.outbound with
  | [] => s
  | reply :: _ =>
      if s.Closed then s
      else
        { s with
          queue := s.queue.send .reader reply
          reader := if s.queue.Room then .reading else .replying }

/-- The stream ends, or a read fails. -/
def readFailed (s : Link) (reason : Option String) : Link :=
  { s with
    alive := false
    connection := s.connection.send .disconnected
    router :=
      { s.router with
        events := s.router.events.trySend (.disconnected reason)
        requests := s.router.requests.clear }
    reader := .stopped }

/-! ## the heartbeat -/

/-- The last activity is too long ago. -/
def TimedOut (cfg : HeartbeatConfig) (s : Link) : Prop := cfg.timeout < s.now - s.lastActivity

instance (cfg : HeartbeatConfig) (s : Link) : Decidable (s.TimedOut cfg) :=
  inferInstanceAs (Decidable (cfg.timeout < s.now - s.lastActivity))

/-- The liveness check behind the PING. -/
def check (cfg : HeartbeatConfig) (s : Link) : Link :=
  if s.TimedOut cfg then
    { s with
      alive := false
      connection := s.connection.send .disconnected
      router := { s.router with events := s.router.events.trySend .heartbeatTimeout }
      heartbeat := .stopped }
  else { s with heartbeat := .ticking }

/-- A tick: send a PING, then check. -/
def tick (cfg : HeartbeatConfig) (s : Link) : Link :=
  if s.Closed then { s with heartbeat := .stopped }
  else if s.queue.Room then { s with queue := s.queue.send .heartbeat (ping serde) }.check cfg
  else { s with queue := s.queue.send .heartbeat (ping serde), heartbeat := .pinging }

/-! ## the writer -/

/-- The sender whose item got a place goes on. -/
def resume (s : Link) : Option Sender → Link
  | some .reader => { s with reader := .reading }
  | some .heartbeat => { s with heartbeat := .checking }
  | _ => s

/-- The writer is gone, with the receiving end: whoever waits has failed to send,
which ends the heartbeat and lets the reader go on. -/
def hangUp (s : Link) : Link :=
  { s with
    writer := .stopped
    queue := .empty
    reader := if s.reader = .replying then .reading else s.reader
    heartbeat := if s.heartbeat = .pinging then .stopped else s.heartbeat }

/-- A write fails. -/
def writeFailed (s : Link) : Link :=
  { s with alive := false, connection := s.connection.send .disconnected }.hangUp

end Link

/-! ## the steps -/

inductive LinkAct where
  /-- time passes -/
  | elapse (d : Nat)
  | inbound (msg : CastMessage)
  | readFailed (reason : Option String)
  | tick
  | check
  | take
  | wrote
  | writeFailed
  | send (n : Nat) (msg : CastMessage)
  /-- a user drops a send that waits -/
  | giveUp (n : Nat)
  /-- the calls of the users change what `route` works on -/
  | calls (router : Router)
  /-- `disconnect` stores `alive = false` -/
  | flagDead
  /-- a shutdown cancels the token and aborts the tasks -/
  | cancel
  | stopReader
  | stopWriter
  | stopHeartbeat

namespace Link

variable (serde : SerdeJson)

/-- One step of a connection. -/
def step (cfg : HeartbeatConfig) (s : Link) : LinkAct → Option Link
  | .elapse d => some { s with now := s.now + d }
  | .inbound msg => if s.reader = .reading then some (s.inbound serde msg) else none
  | .readFailed reason => if s.reader = .reading then some (s.readFailed reason) else none
  | .tick => if s.heartbeat = .ticking then some (s.tick serde cfg) else none
  | .check => if s.heartbeat = .checking then some (s.check cfg) else none
  | .take =>
      match s.writer, s.queue.recv with
      | .receiving, some (msg, resumed, queue) =>
          some ({ s with queue, writer := .writing msg }.resume resumed)
      | _, _ => none
  | .wrote =>
      match s.writer with
      | .writing _ => some { s with writer := .receiving }
      | _ => none
  | .writeFailed =>
      match s.writer with
      | .writing _ => some s.writeFailed
      | _ => none
  | .send n msg => if s.Closed then none else some { s with queue := s.queue.send (.user n) msg }
  | .giveUp n => some { s with queue := s.queue.forget (.user n) }
  | .calls router => some { s with router := { router with outbound := [] } }
  | .flagDead => some { s with alive := false }
  | .cancel => some { s with cancelled := true }
  | .stopReader =>
      if s.cancelled then some { s with reader := .stopped, queue := s.queue.forget .reader }
      else none
  | .stopWriter => if s.cancelled then some s.hangUp else none
  | .stopHeartbeat =>
      if s.cancelled then some { s with heartbeat := .stopped, queue := s.queue.forget .heartbeat }
      else none

/-- All interleavings of the tasks of a connection, its users and the clock. -/
def system (cfg : HeartbeatConfig) : TransitionSystem Link LinkAct := ⟨start cfg, step serde cfg⟩

end Link

end Oxicast
