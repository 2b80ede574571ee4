import Oxicast.Message
import Oxicast.Status

/-!
# Oxicast.Operation

The operations of `CastClient`: what each one reads before it sends, the
message it sends, and what it makes of the answer.

All of them follow one plan — read the cells, register, send, wait, check —
and differ in the values of `Operation`; each has its own definition here,
under the name it has in the client.
-/

namespace Oxicast

open Ns

/-- What an operation returns. -/
inductive Value where
  | unit
  | receiverStatus (status : ReceiverStatus)
  | application (app : Application)
  | volume (volume : Volume)
  | mediaStatus (status : MediaStatus)
  | optionMediaStatus (status : Option MediaStatus)
  | json (json : Json)

/-- The ids an operation addresses the device with, as far as it reads them. -/
structure Target where
  transportId : String
  sessionId : String
  mediaSessionId : Int32

/-- The cells an operation reads before its request. -/
inductive Reads where
  | nothing
  | transport
  | transportAndSession
  | transportAndMediaSession
  deriving DecidableEq

/-- What follows a checked answer. -/
inductive After where
  | give (parse : Json → Except Error Value)
  | launch (appId : String)
  | forgetApp

/-- One operation. -/
structure Operation where
  reads : Reads := .nothing
  /-- the result when no transport is recorded -/
  noTransport : Except Error Value := .error .noApplication
  /-- the error of arguments that are refused at once -/
  reject : Option Error := none
  /-- the operation registers an id and waits for the answer -/
  answered : Bool := true
  message : UInt32 → Target → CastMessage
  check : Json → Except Error Unit := checkDeviceError
  /-- the media session id after the answer -/
  mediaSession : Json → Int32 → Int32 := fun _ m => m
  after : After
  /-- what waits for no answer reads nothing and registers nothing -/
  silent : answered = false → reads = .nothing := by simp

namespace Operation

variable (serde : SerdeJson)

/-! ## receiver control -/

def giveReceiverStatus (json : Json) : Except Error Value :=
  match parseReceiverStatus json with
  | some status => .ok (.receiverStatus status)
  | none => .error (.internal "failed to parse receiver status")

def giveVolume (json : Json) : Except Error Value :=
  match parseReceiverStatus json with
  | some status => .ok (.volume status.volume)
  | none => .error (.internal "failed to parse volume from response")

def receiverStatus : Operation where
  message id _ := Receiver.getStatus serde id
  after := .give giveReceiverStatus

def launchApp (appId : String) : Operation where
  message id _ := Receiver.launchApp serde id appId
  after := .launch appId

def stopApp (sessionId : String) : Operation where
  message id _ := Receiver.stopApp serde id sessionId
  after := .forgetApp

def setVolume (level : F32) : Operation where
  message id _ := Receiver.setVolume serde id (some level.clampUnit) none
  after := .give giveVolume

def setMuted (muted : Bool) : Operation where
  message id _ := Receiver.setVolume serde id none (some muted)
  after := .give giveVolume

/-! ## media control -/

/-- The result of an operation on a media session. -/
def giveMediaStatus (json : Json) : Except Error Value :=
  match parseMediaStatus json with
  | some status => .ok (.mediaStatus status)
  | none => .error .noMediaSession

/-- The result of a load: an idle status without media is a failed load. -/
def giveLoaded (noStatus : String) (json : Json) : Except Error Value :=
  match parseMediaStatus json with
  | some status =>
      if status.playerState = .idle ∧ status.media = none then
        .error (.loadFailed "media not accepted by device (received IDLE with no media)" none)
      else .ok (.mediaStatus status)
  | none => .error (.loadFailed noStatus none)

/-- The media session id of the first status entry, if it has one. -/
def storeLoaded (json : Json) (current : Int32) : Int32 :=
  (((json.arrayAt "status").bind List.head?).bind fun entry =>
    (entry.get "mediaSessionId").bind Json.asI64).elim current Int64.toInt32

def loadMedia (media : MediaInfo) (autoplay : Bool) (currentTime : F64) (customData : Option Json) :
    Operation where
  reads := .transportAndSession
  message id target :=
    Media.load serde id target.transportId target.sessionId media autoplay currentTime customData
  mediaSession := storeLoaded
  after := .give (giveLoaded "no media status in response")

def play : Operation where
  reads := .transportAndMediaSession
  message id target := Media.play serde id target.transportId target.mediaSessionId
  after := .give giveMediaStatus

def pause : Operation where
  reads := .transportAndMediaSession
  message id target := Media.pause serde id target.transportId target.mediaSessionId
  after := .give giveMediaStatus

def stopMedia : Operation where
  reads := .transportAndMediaSession
  message id target := Media.stop serde id target.transportId target.mediaSessionId
  mediaSession _ _ := 0
  after := .give giveMediaStatus

def seek (position : F64) : Operation where
  reads := .transportAndMediaSession
  message id target := Media.seek serde id target.transportId target.mediaSessionId position
  after := .give giveMediaStatus

def mediaStatus : Operation where
  reads := .transport
  noTransport := .ok (.optionMediaStatus none)
  message id target := Media.getStatus serde id target.transportId
  after := .give fun json => .ok (.optionMediaStatus (parseMediaStatus json))

/-! ## queue management -/

def queueLoad (items : List QueueItem) (startIndex : UInt32) (repeatMode : RepeatMode) :
    Operation where
  reads := .transportAndSession
  message id target :=
    Media.queueLoad serde id target.transportId target.sessionId items startIndex repeatMode
  mediaSession := storeLoaded
  after := .give (giveLoaded "no media status in queue load response")

def queueInsert (items : List QueueItem) (insertBefore : Option UInt32) : Operation where
  reads := .transportAndMediaSession
  message id target :=
    Media.queueInsert serde id target.transportId target.mediaSessionId items insertBefore
  after := .give giveMediaStatus

/-! ## raw messages -/

/-- `payload["requestId"] = id`. -/
def setRequestId (id : UInt32) (members : List (String × Json)) : List (String × Json) :=
  if members.any (·.1 = "requestId") then
    members.map fun m => if m.1 = "requestId" then ("requestId", .ofU32 id) else m
  else members ++ [("requestId", .ofU32 id)]

/-- A payload that is not an object is refused. -/
def sendRaw (ns destination : String) (payload : Json) : Operation where
  reject := match payload with
    | .object _ => none
    | _ => some .invalidPayload
  message id _ :=
    let members := match payload with
      | .object members => setRequestId id members
      | _ => []
    buildMessage ns senderId destination (serde.toString (.object members))
  check _ := .ok ()
  after := .give fun json => .ok (.json json)

def sendRawNoReply (ns destination : String) (payload : Json) : Operation where
  answered := false
  message _ _ := buildMessage ns senderId destination (serde.toString payload)
  after := .give fun _ => .ok .unit

/-- The CLOSE that `disconnect` sends. -/
def close : Operation where
  answered := false
  message _ _ := closeMsg serde receiverId
  after := .give fun _ => .ok .unit

/-- The typed methods, and the CLOSE of `disconnect`. -/
inductive Typed : Operation → Prop
  | receiverStatus : Typed (receiverStatus serde)
  | launchApp (appId : String) : Typed (launchApp serde appId)
  | stopApp (sessionId : String) : Typed (stopApp serde sessionId)
  | setVolume (level : F32) : Typed (setVolume serde level)
  | setMuted (muted : Bool) : Typed (setMuted serde muted)
  | loadMedia (media : MediaInfo) (autoplay : Bool) (currentTime : F64) (customData : Option Json) :
      Typed (loadMedia serde media autoplay currentTime customData)
  | play : Typed (play serde)
  | pause : Typed (pause serde)
  | stopMedia : Typed (stopMedia serde)
  | seek (position : F64) : Typed (seek serde position)
  | mediaStatus : Typed (mediaStatus serde)
  | queueLoad (items : List QueueItem) (startIndex : UInt32) (repeatMode : RepeatMode) :
      Typed (queueLoad serde items startIndex repeatMode)
  | queueInsert (items : List QueueItem) (insertBefore : Option UInt32) :
      Typed (queueInsert serde items insertBefore)
  | close : Typed (close serde)

/-- The two methods that load media. -/
inductive Load : Operation → Prop
  | loadMedia (media : MediaInfo) (autoplay : Bool) (currentTime : F64) (customData : Option Json) :
      Load (loadMedia serde media autoplay currentTime customData)
  | queueLoad (items : List QueueItem) (startIndex : UInt32) (repeatMode : RepeatMode) :
      Load (queueLoad serde items startIndex repeatMode)

theorem Load.reads {op : Operation} (h : Load serde op) : op.reads = .transportAndSession := by
  cases h <;> rfl

theorem Load.destination {op : Operation} (h : Load serde op) (id : UInt32) (target : Target) :
    (op.message id target).destinationId = target.transportId := by
  cases h <;> rfl

/-- The methods that command a media session. -/
inductive Command : Operation → Prop
  | play : Command (play serde)
  | pause : Command (pause serde)
  | stopMedia : Command (stopMedia serde)
  | seek (position : F64) : Command (seek serde position)
  | queueInsert (items : List QueueItem) (insertBefore : Option UInt32) :
      Command (queueInsert serde items insertBefore)

theorem Command.reads {op : Operation} (h : Command serde op) :
    op.reads = .transportAndMediaSession := by
  cases h <;> rfl

theorem Command.destination {op : Operation} (h : Command serde op) (id : UInt32)
    (target : Target) :
    (op.message id target).destinationId = target.transportId := by
  cases h <;> rfl

/-- A typed method addresses the receiver, or the transport it has read. -/
theorem Typed.destination {op : Operation} (h : Typed serde op) (id : UInt32) (target : Target) :
    (op.message id target).destinationId =
      if op.reads = .nothing then receiverId else target.transportId := by
  cases h <;> rfl

end Operation

end Oxicast
