import Oxicast.Lifecycle
import Oxicast.Operation
import Oxicast.Router

/-!
# Oxicast.Session

A whole client: the lifecycle of its connections, its request tracker and the
operations its users call, interleaved step by step.

Operation `r` registers request `r`.  `sent c` is the sequence of messages the
write channel of connection `c` has accepted, without PING and PONG.  A send
takes a clone of `write_tx` first and then waits for room in that very channel,
so it may end up in an older connection than the current one, where it fails.
When there is room is left to the schedule: a send behind a full channel of 64
messages whose writer stalls is an `accept` that is never taken.
-/

namespace Oxicast

open Ns

/-! ## calls -/

/-- What an operation is sending: its request, or CONNECT to a launched app. -/
inductive Outgoing where
  | request
  | connect (app : Application)

/-- Where a call of an operation stands. -/
inductive CallPc where
  | idle
  | readTransport
  | readSession
  | readMediaSession
  | register
  /-- about to clone `write_tx` -/
  | send (what : Outgoing)
  /-- waits for room in the channel of connection `c` -/
  | enqueue (what : Outgoing) (c : Nat)
  /-- in `wait_for` -/
  | wait
  /-- `launch_app` waits for a status that lists the app -/
  | awaitApp (appId : String)
  | storeTransport (app : Application)
  | storeSession (app : Application)
  | clearTransport
  | clearSession
  /-- returned, or dropped by the caller (`none`) -/
  | ended (result : Option (Except Error Value))

/-- A call of an operation.  The last four fields are history variables no step
reads: the connection whose reconnect had last read `transport_id` when the
call read it, the connection that took its CONNECT, the one that accepted its
message, and the one whose reconnect cleared its entry. -/
structure Call where
  op : Operation
  pc : CallPc
  target : Target
  epoch : Nat
  connectedOn : Option Nat
  acceptedOn : Option Nat
  killedBy : Option Nat

/-- A call nobody has made. -/
def Call.fresh : Call where
  op := Operation.receiverStatus ⟨fun _ => none, fun _ => ""⟩
  pc := .idle
  target := ⟨"", "", 0⟩
  epoch := 0
  connectedOn := none
  acceptedOn := none
  killedBy := none

/-! ## the state -/

/-- A client and its users.  `opened` is the connection whose reconnect has read
`transport_id` last and `reopened c` what the one of `c` read: history
variables no step reads. -/
structure Session where
  life : Lifecycle
  requests : Requests
  media : Watch (Option MediaStatus)
  receiver : Watch (Option ReceiverStatus)
  mediaSessionId : Int32
  transportId : Option String
  sessionId : Option String
  calls : Nat → Call
  sent : Nat → List CastMessage
  opened : Nat
  reopened : Nat → Option String

namespace Session

def start (cfg : ClientConfig) : Session where
  life := .start cfg
  requests := .new
  media := ⟨none, 0⟩
  receiver := ⟨none, 0⟩
  mediaSessionId := 0
  transportId := none
  sessionId := none
  calls _ := .fresh
  sent _ := []
  opened := 0
  reopened _ := none

/-- Change one call. -/
def setCall (s : Session) (r : Nat) (f : Call → Call) : Nat → Call :=
  Function.update s.calls r (f (s.calls r))

/-- A call goes on. -/
def goto (s : Session) (r : Nat) (pc : CallPc) : Session :=
  { s with calls := s.setCall r fun call => { call with pc } }

@[simp, grind =] theorem life_goto (s : Session) (r : Nat) (pc : CallPc) :
    (s.goto r pc).life = s.life := rfl
@[simp, grind =] theorem requests_goto (s : Session) (r : Nat) (pc : CallPc) :
    (s.goto r pc).requests = s.requests := rfl

@[grind =] theorem setCall_apply (s : Session) (r x : Nat) (f : Call → Call) :
    s.setCall r f x = if x = r then f (s.calls r) else s.calls x := by
  simp [setCall, Function.update_apply]

/-- Only the call itself moves. -/
@[grind =] theorem calls_goto (s : Session) (r x : Nat) (pc : CallPc) :
    (s.goto r pc).calls x = if x = r then { s.calls r with pc } else s.calls x := by
  simp only [goto, setCall_apply]

/-- One more message in the queue of connection `c`. -/
def push (s : Session) (c : Nat) (msg : CastMessage) : Nat → List CastMessage :=
  Function.update s.sent c (s.sent c ++ [msg])

/-- The transport a reconnect is sending CONNECT to; it holds the lock of
`transport_id` meanwhile. -/
def resending (life : Lifecycle) : Option String :=
  life.reconnecting.bind fun f => match f.pc with
    | .sendTransport tid => some tid
    | _ => none

/-- Somebody holds the receiving end of the channel of connection `c`: its
writer, or the reconnect that is about to spawn it. -/
def Open (life : Lifecycle) (c : Nat) : Prop :=
  life.task c .writer ≠ .stopped ∨
    c = life.writeTx ∧ (life.reconnecting.map (·.pc) = some .arm ∨
      life.reconnecting.map (·.pc) = some .clear)

instance (life : Lifecycle) (c : Nat) : Decidable (Open life c) :=
  inferInstanceAs (Decidable (_ ∨ _ ∧ (_ ∨ _)))

/-! ## the lifecycle in the session -/

variable (serde : SerdeJson)

/-- The requests after a step of the lifecycle: three of them clear the tracker. -/
def requestsAfter (s : Session) : LifecycleAct → Requests
  | .clearAndSpawn | .readerCleared _ | .publishDisconnected _ => s.requests.clear
  | _ => s.requests

/-- The calls after a step of the lifecycle: whose entry a reconnect clears. -/
def callsAfter (s : Session) : LifecycleAct → Nat → Call
  | .clearAndSpawn => fun r =>
      if s.requests.Holds r then { s.calls r with killedBy := some s.life.writeTx } else s.calls r
  | _ => s.calls

/-- The queues after a step of the lifecycle: three of them send CONNECT. -/
def sentAfter (s : Session) : LifecycleAct → Nat → List CastMessage
  | .builderSent => s.push 0 (connectMsg serde receiverId)
  | .connectSent => s.push s.life.writeTx (connectMsg serde receiverId)
  | .transportSent =>
      match resending s.life with
      | some tid => s.push s.life.writeTx (connectMsg serde tid)
      | none => s.sent
  | _ => s.sent

/-- A step of the lifecycle that leads to `life`. -/
def afterLife (s : Session) (a : LifecycleAct) (life : Lifecycle) : Session :=
  { s with
    life
    requests := s.requestsAfter a
    calls := s.callsAfter a
    sent := s.sentAfter serde a }

/-- The reconnect reads `transport_id`. -/
def afterReadTransport (s : Session) (life : Lifecycle) : Session :=
  { s with
    life
    opened := s.life.writeTx
    reopened := Function.update s.reopened s.life.writeTx s.transportId }

/-! ## the calls in the session -/

/-- A call starts. -/
def begin (s : Session) (r : Nat) (op : Operation) : Session :=
  { s with
    calls := Function.update s.calls r
      { Call.fresh with
        op
        pc := match op.reject, op.reads with
          | some err, _ => .ended (some (.error err))
          | none, .nothing => if op.answered then .register else .send .request
          | none, _ => .readTransport } }

/-- `get_transport_id`. -/
def readTransport (s : Session) (r : Nat) : Session :=
  match s.transportId with
  | none => s.goto r (.ended (some (s.calls r).op.noTransport))
  | some tid =>
      { s with calls := s.setCall r fun call =>
        { call with
          target := { call.target with transportId := tid }
          epoch := s.opened
          pc := match call.op.reads with
            | .transportAndSession => .readSession
            | .transportAndMediaSession => .readMediaSession
            | _ => .register } }

/-- `get_session_id`. -/
def readSession (s : Session) (r : Nat) : Session :=
  match s.sessionId with
  | none => s.goto r (.ended (some (.error .noApplication)))
  | some sid => { s with calls := s.setCall r fun call =>
      { call with target := { call.target with sessionId := sid }, pc := .register } }

/-- `get_media_session_id`. -/
def getMediaSessionId (s : Session) : Except Error Int32 :=
  if 0 < s.mediaSessionId then .ok s.mediaSessionId else .error .noMediaSession

/-- A call reads `media_session_id`. -/
def readMediaSession (s : Session) (r : Nat) : Session :=
  if 0 < s.mediaSessionId then
    { s with calls := s.setCall r fun call =>
      { call with
        target := { call.target with mediaSessionId := s.mediaSessionId }
        pc := .register } }
  else s.goto r (.ended (some (.error .noMediaSession)))

/-- The message of a call, with the id it has registered. -/
def message (s : Session) (r : Nat) : CastMessage :=
  (s.calls r).op.message ((s.requests.request r).phase.id?.getD 0) (s.calls r).target

/-- A send succeeds, once its channel has room. -/
def accept (s : Session) (r : Nat) (what : Outgoing) (c : Nat) : Session :=
  match what with
  | .request =>
      { s with
        sent := s.push c (s.message r)
        calls := s.setCall r fun call =>
          { call with
            acceptedOn := some c
            pc := if call.op.answered then .wait else .ended (some (.ok .unit)) } }
  | .connect app =>
      { s with
        sent := s.push c (connectMsg serde app.transportId)
        calls := s.setCall r fun call =>
          { call with connectedOn := some c, pc := .storeTransport app } }

/-- The first application of a status with the given id. -/
def findApp (status : ReceiverStatus) (appId : String) : Option Application :=
  status.applications.find? (·.appId = appId)

/-- What a call does with the answer. -/
def answer (s : Session) (r : Nat) (json : Json) : Session :=
  let op := (s.calls r).op
  match op.check json with
  | .error err => s.goto r (.ended (some (.error err)))
  | .ok () =>
      { s with mediaSessionId := op.mediaSession json s.mediaSessionId }.goto r <|
        match op.after with
        | .give parse => .ended (some (parse json))
        | .launch appId =>
            match (parseReceiverStatus json).bind (findApp · appId) with
            | some app => .send (.connect app)
            | none => .awaitApp appId
        | .forgetApp => .clearTransport

/-- Where a call goes on with the answer. -/
theorem pc_answer (s : Session) (r : Nat) (json : Json) :
    ((s.answer r json).calls r).pc = match (s.calls r).op.check json with
      | .error err => .ended (some (.error err))
      | .ok () => match (s.calls r).op.after with
        | .give parse => .ended (some (parse json))
        | .launch appId => match (parseReceiverStatus json).bind (findApp · appId) with
          | some app => .send (.connect app)
          | none => .awaitApp appId
        | .forgetApp => .clearTransport := by
  unfold answer
  cases hcheck : (s.calls r).op.check json with
  | error err => simp only [hcheck, calls_goto, if_true]
  | ok =>
      cases hafter : (s.calls r).op.after with
      | give parse => simp only [hcheck, hafter, calls_goto, if_true]
      | launch appId =>
          cases happ : (parseReceiverStatus json).bind (findApp · appId) with
          | some app => simp only [hcheck, hafter, happ, calls_goto, if_true]
          | none => simp only [hcheck, hafter, happ, calls_goto, if_true]
      | forgetApp => simp only [hcheck, hafter, calls_goto, if_true]

/-- The event is a status that lists the app. -/
def appIn (appId : String) : CastEvent → Option Application
  | .receiverStatusChanged status => findApp status appId
  | _ => none

/-- The error of a launch whose app does not come up. -/
def launchTimeout (appId : String) : Error :=
  .launchFailed s!"app {appId} not found after launch (timeout)"

/-- What `route` works on: events and replies start empty. -/
def router (s : Session) : Router where
  requests := s.requests
  events := s.life.events
  offered := []
  media := s.media
  receiver := s.receiver
  mediaSessionId := s.mediaSessionId
  outbound := []

/-- The reader of connection `c` routes an inbound message, with all its writes at once. -/
def route (s : Session) (c : Nat) (msg : CastMessage) : Session :=
  let after := s.router.route serde msg
  { s with
    requests := after.requests
    media := after.media
    receiver := after.receiver
    mediaSessionId := after.mediaSessionId
    life := s.life.emit c after.offered }

end Session

/-! ## the steps -/

inductive SessionAct where
  | life (a : LifecycleAct)
  | route (c : Nat) (msg : CastMessage)
  | begin (r : Nat) (op : Operation)
  | readTransport (r : Nat)
  | readSession (r : Nat)
  | readMediaSession (r : Nat)
  | increment (r : Nat)
  | incrementAgain (r : Nat)
  | insert (r : Nat)
  | cloneWriteTx (r : Nat)
  | accept (r : Nat)
  | sendFailed (r : Nat)
  | receive (r : Nat)
  | senderDropped (r : Nat)
  | timeout (r : Nat)
  | cleanup (r : Nat)
  | appSeen (r : Nat)
  | skipEvent (r : Nat)
  | launchTimeout (r : Nat)
  | storeTransport (r : Nat)
  | storeSession (r : Nat)
  | clearTransport (r : Nat)
  | clearSession (r : Nat)
  | drop (r : Nat)

namespace Session

variable (serde : SerdeJson)

/-- One step of the requests; the call that takes it goes on with `next`. -/
def requestStep (s : Session) (a : TrackerAct) (next : Session → Session) :
    Option Session :=
  (s.requests.step a).map fun requests => next { s with requests }

/-- One step of the session. -/
def step (cfg : ClientConfig) (s : Session) : SessionAct → Option Session
  | .life (.emit _ _) => none
  | .life (.readTransport tid) =>
      if tid = s.transportId then
        (s.life.step cfg (.readTransport tid)).map s.afterReadTransport
      else none
  | .life a => (s.life.step cfg a).map (s.afterLife serde a)
  | .route c msg => if s.life.task c .reader = .running then some (s.route serde c msg) else none
  | .begin r op =>
      match s.life.builder, (s.calls r).pc with
      | .done, .idle => some (s.begin r op)
      | _, _ => none
  | .readTransport r =>
      match (s.calls r).pc with
      | .readTransport => if resending s.life = none then some (s.readTransport r) else none
      | _ => none
  | .readSession r =>
      match (s.calls r).pc with
      | .readSession => some (s.readSession r)
      | _ => none
  | .readMediaSession r =>
      match (s.calls r).pc with
      | .readMediaSession => some (s.readMediaSession r)
      | _ => none
  | .increment r =>
      match (s.calls r).pc with
      | .register => s.requestStep (.increment r) id
      | _ => none
  | .incrementAgain r =>
      match (s.calls r).pc with
      | .register => s.requestStep (.incrementAgain r) id
      | _ => none
  | .insert r =>
      match (s.calls r).pc with
      | .register => s.requestStep (.insert r) (·.goto r (.send .request))
      | _ => none
  | .cloneWriteTx r =>
      match (s.calls r).pc with
      | .send what => some (s.goto r (.enqueue what s.life.writeTx))
      | _ => none
  | .accept r =>
      match (s.calls r).pc with
      | .enqueue what c => if Open s.life c then some (s.accept serde r what c) else none
      | _ => none
  | .sendFailed r =>
      match (s.calls r).pc with
      | .enqueue _ c =>
          if Open s.life c then none else some (s.goto r (.ended (some (.error .disconnected))))
      | _ => none
  | .receive r =>
      match (s.calls r).pc, (s.requests.request r).rx with
      | .wait, .sent _ json => s.requestStep (.receive r) (·.answer r json)
      | _, _ => none
  | .senderDropped r =>
      match (s.calls r).pc with
      | .wait => s.requestStep (.senderDropped r) id
      | _ => none
  | .timeout r =>
      match (s.calls r).pc with
      | .wait => s.requestStep (.timeout r) id
      | _ => none
  | .cleanup r =>
      match (s.calls r).pc, (s.requests.request r).phase with
      | .wait, .cleanup _ err =>
          s.requestStep (.cleanup r) (·.goto r (.ended (some (.error err))))
      | _, _ => none
  | .appSeen r =>
      match (s.calls r).pc, s.life.events.buffer with
      | .awaitApp appId, event :: _ =>
          match appIn appId event with
          | some app => some ({ s with life := s.life.nextEvent }.goto r (.send (.connect app)))
          | none => none
      | _, _ => none
  | .skipEvent r =>
      match (s.calls r).pc, s.life.events.buffer with
      | .awaitApp appId, event :: _ =>
          -- the event is gone, whoever else has been waiting for it
          match appIn appId event with
          | some _ => none
          | none => some { s with life := s.life.nextEvent }
      | _, _ => none
  | .launchTimeout r =>
      match (s.calls r).pc with
      | .awaitApp appId => some (s.goto r (.ended (some (.error (launchTimeout appId)))))
      | _ => none
  | .storeTransport r =>
      match (s.calls r).pc with
      | .storeTransport app =>
          if resending s.life = none then
            some ({ s with transportId := some app.transportId }.goto r (.storeSession app))
          else none
      | _ => none
  | .storeSession r =>
      match (s.calls r).pc with
      | .storeSession app =>
          some ({ s with sessionId := some app.sessionId }.goto r
            (.ended (some (.ok (.application app)))))
      | _ => none
  | .clearTransport r =>
      match (s.calls r).pc with
      | .clearTransport =>
          if resending s.life = none then some ({ s with transportId := none }.goto r .clearSession)
          else none
      | _ => none
  | .clearSession r =>
      match (s.calls r).pc with
      | .clearSession =>
          some ({ s with sessionId := none }.goto r (.ended (some (.ok .unit))))
      | _ => none
  | .drop r =>
      match (s.calls r).pc with
      | .idle => none
      | .ended _ => none
      | _ => some (s.goto r (.ended none))

/-- All interleavings of a client and its users. -/
def system (cfg : ClientConfig) : TransitionSystem Session SessionAct :=
  ⟨start cfg, step serde cfg⟩

end Session

end Oxicast
