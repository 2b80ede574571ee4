import Oxicast.Channels
import Oxicast.Status
import Oxicast.Tracker
import Mathlib.Data.List.Infix

/-!
# Oxicast.Router

`route` — the reader's dispatch of one inbound message: heartbeat replies,
request-response correlation, the status watches and the event channel.

`Router` collects what `route` gets to write: the request tracker, the event
channel, the state holder and the outbound queue.
-/

namespace Oxicast

open Ns

/-- What `route` writes.  `offered` is a history variable: every event handed
to `try_send`, whether the buffer had room for it or not. -/
structure Router where
  requests : Requests
  events : Mpsc CastEvent
  offered : List CastEvent
  media : Watch (Option MediaStatus)
  receiver : Watch (Option ReceiverStatus)
  mediaSessionId : Int32
  outbound : List CastMessage

/-- The state a connection starts with, over the given requests. -/
def Router.new (requests : Requests) (eventBufferSize : Nat) : Router where
  requests := requests
  events := ⟨[], eventBufferSize⟩
  offered := []
  media := ⟨none, 0⟩
  receiver := ⟨none, 0⟩
  mediaSessionId := 0
  outbound := []

/-- Known media message types. -/
inductive MediaMessageType where
  | status
  | loadFailed
  | loadCancelled
  | invalidRequest
  | unknown
  deriving DecidableEq

def classifyMediaMessage (msgType : String) : MediaMessageType :=
  if msgType = msgMediaStatus then .status
  else if msgType = msgLoadFailed then .loadFailed
  else if msgType = msgLoadCancelled then .loadCancelled
  else if msgType = msgInvalidRequest then .invalidRequest
  else .unknown

/-- The `type` of a message; empty when it has none. -/
def messageType (json : Json) : String := (json.strAt "type").getD ""

/-- `is_ping`: a substring search over the raw payload. -/
def isPing (msg : CastMessage) : Bool :=
  msg.ns = nsHeartbeat ∧ msg.payloadUtf8.any fun p =>
    "\"PING\"".toList <:+: p.toList

namespace Router

/-- `event_tx.try_send(event)`. -/
def offer (s : Router) (event : CastEvent) : Router :=
  { s with events := s.events.trySend event, offered := s.offered ++ [event] }

/-- The `requestId` check in front of every `resolve` call: a positive id,
narrowed by `as u32`. -/
def resolveRequest (s : Router) (json : Json) : Router :=
  match json.u64At "requestId" with
  | some requestId =>
      if 0 < requestId then
        { s with requests := (s.requests.resolve requestId.toUInt32 json).2 }
      else s
  | none => s

/-- The state updates and events of a parsed MEDIA_STATUS. -/
def publishMediaStatus (s : Router) (status : MediaStatus) : Router :=
  let s := if 0 < status.mediaSessionId then { s with mediaSessionId := status.mediaSessionId }
    else s
  let s := if status.playerState = .idle ∧ 0 < status.mediaSessionId then
      match status.idleReason with
      | some reason => s.offer (.mediaSessionEnded status.mediaSessionId reason)
      | none => s
    else s
  { s with media := s.media.send (some status) }.offer (.mediaStatusChanged status)

/-- The receiver arm of `route`, on a payload that is JSON. -/
def routeReceiver (s : Router) (json : Json) : Router :=
  let s := s.resolveRequest json
  if messageType json = msgReceiverStatus then
    match parseReceiverStatus json with
    | some status =>
        { s with receiver := s.receiver.send (some status) }.offer (.receiverStatusChanged status)
    | none => s
  else s

/-- The media arm of `route`, on a payload that is JSON. -/
def routeMedia (s : Router) (json : Json) : Router :=
  match classifyMediaMessage (messageType json) with
  | .status =>
      let s := s.resolveRequest json
      match parseMediaStatus json with
      | some status => s.publishMediaStatus status
      | none => s
  | .loadFailed => s.resolveRequest json
  | .loadCancelled => s.resolveRequest json
  | .invalidRequest => s.resolveRequest json
  | .unknown => s

/-- The event a message that no arm consumes is passed on as. -/
def rawEvent (msg : CastMessage) : CastEvent :=
  .rawMessage msg.ns msg.sourceId msg.destinationId (msg.payloadUtf8.getD "")

/-- The custom-namespace arm of `route`: with a positive `requestId` it resolves
and returns, whatever `resolve` reports. -/
def routeCustom (serde : SerdeJson) (s : Router) (msg : CastMessage) : Router :=
  match serde.fromStr (msg.payloadUtf8.getD "") with
  | some json =>
      match json.u64At "requestId" with
      | some requestId =>
          if 0 < requestId then
            { s with requests := (s.requests.resolve requestId.toUInt32 json).2 }
          else s.offer (rawEvent msg)
      | none => s.offer (rawEvent msg)
  | none => s.offer (rawEvent msg)

/-- Route an inbound message to the appropriate handler. -/
def route (serde : SerdeJson) (s : Router) (msg : CastMessage) : Router :=
  let payload := serde.fromStr (msg.payloadUtf8.getD "")
  if msg.ns = nsHeartbeat then
    if isPing msg then { s with outbound := s.outbound ++ [pong serde] } else s
  else if msg.ns = nsConnection then
    match payload with
    | some json => if json.strAt "type" = some "CLOSE" then s.offer (rawEvent msg) else s
    | none => s
  else if msg.ns = nsReceiver then
    match payload with
    | some json => s.routeReceiver json
    | none => s
  else if msg.ns = nsMedia then
    match payload with
    | some json => s.routeMedia json
    | none => s
  else s.routeCustom serde msg

end Router

end Oxicast
