import Oxicast.Types

/-!
# Oxicast.Message

`CastMessage` and the constructors of the `channel` modules: the namespaces
and message types of the Cast protocol, CONNECT/CLOSE, the heartbeat, and
every request a `CastClient` operation sends.
-/

namespace Oxicast

/-- The wire message, with the fields the client fills in or reads. -/
structure CastMessage where
  sourceId : String
  destinationId : String
  ns : String
  payloadUtf8 : Option String
  deriving DecidableEq

/-- Build a `CastMessage` with a JSON string payload. -/
def buildMessage (ns source destination payload : String) : CastMessage :=
  { sourceId := source, destinationId := destination, ns, payloadUtf8 := some payload }

/-! ## protocol constants -/

namespace Ns

def nsConnection : String := "urn:x-cast:com.google.cast.tp.connection"
def nsHeartbeat : String := "urn:x-cast:com.google.cast.tp.heartbeat"
def nsReceiver : String := "urn:x-cast:com.google.cast.receiver"
def nsMedia : String := "urn:x-cast:com.google.cast.media"

def senderId : String := "sender-0"
def receiverId : String := "receiver-0"

def msgConnect : String := "CONNECT"
def msgClose : String := "CLOSE"
def msgPing : String := "PING"
def msgPong : String := "PONG"
def msgLaunch : String := "LAUNCH"
def msgStop : String := "STOP"
def msgGetStatus : String := "GET_STATUS"
def msgSetVolume : String := "SET_VOLUME"
def msgReceiverStatus : String := "RECEIVER_STATUS"
def msgLoad : String := "LOAD"
def msgPlay : String := "PLAY"
def msgPause : String := "PAUSE"
def msgSeek : String := "SEEK"
def msgMediaStop : String := "STOP"
def msgMediaStatus : String := "MEDIA_STATUS"
def msgLoadFailed : String := "LOAD_FAILED"
def msgLoadCancelled : String := "LOAD_CANCELLED"
def msgInvalidRequest : String := "INVALID_REQUEST"
def msgQueueLoad : String := "QUEUE_LOAD"
def msgQueueInsert : String := "QUEUE_INSERT"

def userAgent : String := "oxicast"

/-- The namespaces `route` has an arm of its own for. -/
def builtIn : List String := [nsHeartbeat, nsConnection, nsReceiver, nsMedia]

end Ns

open Ns

variable (serde : SerdeJson)

/-! ## connection and heartbeat -/

/-- Build a CONNECT message to a destination (receiver or app transport). -/
def connectMsg (destination : String) : CastMessage :=
  buildMessage nsConnection senderId destination
    (serde.toString (.object [("type", .string msgConnect), ("userAgent", .string userAgent)]))

/-- Build a CLOSE message to a destination. -/
def closeMsg (destination : String) : CastMessage :=
  buildMessage nsConnection senderId destination
    (serde.toString (.object [("type", .string msgClose)]))

/-- Build a PONG response message. -/
def pong : CastMessage :=
  buildMessage nsHeartbeat senderId receiverId
    (serde.toString (.object [("type", .string msgPong)]))

/-- Build a PING message. -/
def ping : CastMessage :=
  buildMessage nsHeartbeat senderId receiverId
    (serde.toString (.object [("type", .string msgPing)]))

/-! ## receiver channel -/

namespace Receiver

/-- A receiver request: its type, its id and the rest of its members. -/
def request (type : String) (requestId : UInt32) (rest : List (String × Json)) : CastMessage :=
  buildMessage nsReceiver senderId receiverId
    (serde.toString (.object
      ([("type", .string type), ("requestId", .ofU32 requestId)] ++ rest)))

def getStatus (requestId : UInt32) : CastMessage :=
  request serde msgGetStatus requestId []

def launchApp (requestId : UInt32) (appId : String) : CastMessage :=
  request serde msgLaunch requestId [("appId", .string appId)]

def stopApp (requestId : UInt32) (sessionId : String) : CastMessage :=
  request serde msgStop requestId [("sessionId", .string sessionId)]

def setVolume (requestId : UInt32) (level : Option F32) (muted : Option Bool) : CastMessage :=
  request serde msgSetVolume requestId
    [("volume", .object ((level.map fun l => ("level", .ofF32 l)).toList ++
      (muted.map fun m => ("muted", Json.bool m)).toList))]

end Receiver

/-! ## media channel -/

namespace Media

/-- `insert_opt`: a member only if the value is `Some`. -/
def insertOpt {α : Type} (key : String) (value : Option α) (toJson : α → Json) :
    List (String × Json) :=
  (value.map fun v => (key, toJson v)).toList

def serializeImages (images : List Image) : Json :=
  .array (images.map fun i =>
    .object ([("url", .string i.url)] ++ insertOpt "width" i.width .ofU32 ++
      insertOpt "height" i.height .ofU32))

def serializeMetadata : MediaMetadata → Json
  | .generic title subtitle images =>
      .object ([("metadataType", .ofU32 0)] ++ insertOpt "title" title .string ++
        insertOpt "subtitle" subtitle .string ++ [("images", serializeImages images)])
  | .movie title subtitle studio images =>
      .object ([("metadataType", .ofU32 1)] ++ insertOpt "title" title .string ++
        insertOpt "subtitle" subtitle .string ++ insertOpt "studio" studio .string ++
        [("images", serializeImages images)])
  | .tvShow seriesTitle episodeTitle season episode images =>
      .object ([("metadataType", .ofU32 2)] ++ insertOpt "seriesTitle" seriesTitle .string ++
        insertOpt "title" episodeTitle .string ++ insertOpt "season" season .ofU32 ++
        insertOpt "episode" episode .ofU32 ++ [("images", serializeImages images)])
  | .musicTrack title artist albumName composer trackNumber discNumber images =>
      .object ([("metadataType", .ofU32 3)] ++ insertOpt "title" title .string ++
        insertOpt "artist" artist .string ++ insertOpt "albumName" albumName .string ++
        insertOpt "composer" composer .string ++ insertOpt "trackNumber" trackNumber .ofU32 ++
        insertOpt "discNumber" discNumber .ofU32 ++ [("images", serializeImages images)])
  | .photo title artist location latitude longitude width height images =>
      .object ([("metadataType", .ofU32 4)] ++ insertOpt "title" title .string ++
        insertOpt "artist" artist .string ++ insertOpt "location" location .string ++
        insertOpt "latitude" latitude .ofF64 ++ insertOpt "longitude" longitude .ofF64 ++
        insertOpt "width" width .ofU32 ++ insertOpt "height" height .ofU32 ++
        [("images", serializeImages images)])
  | .audiobookChapter bookTitle chapterTitle chapterNumber subtitle images =>
      .object ([("metadataType", .ofU32 5)] ++ insertOpt "bookTitle" bookTitle .string ++
        insertOpt "chapterTitle" chapterTitle .string ++
        insertOpt "chapterNumber" chapterNumber .ofU32 ++ insertOpt "subtitle" subtitle .string ++
        [("images", serializeImages images)])

def streamTypeText : StreamType → String
  | .buffered => "BUFFERED"
  | .live => "LIVE"
  | .none => "NONE"

def repeatModeText : RepeatMode → String
  | .repeatOff => "REPEAT_OFF"
  | .repeatAll => "REPEAT_ALL"
  | .repeatSingle => "REPEAT_SINGLE"
  | .repeatAllAndShuffle => "REPEAT_ALL_AND_SHUFFLE"

/-- The `media` object of `load`. -/
def loadMediaObj (media : MediaInfo) : Json :=
  .object ([("contentId", .string media.contentId), ("contentType", .string media.contentType),
    ("streamType", .string (streamTypeText media.streamType))] ++
    insertOpt "duration" media.duration .ofF64 ++
    insertOpt "metadata" media.metadata serializeMetadata)

/-- A QueueItem in the wire JSON format; the `media` object is written a second
time, as the source does. -/
def serializeQueueItem (item : QueueItem) : Json :=
  .object [
    ("media", .object ([("contentId", .string item.media.contentId),
      ("contentType", .string item.media.contentType),
      ("streamType", .string (streamTypeText item.media.streamType))] ++
      insertOpt "duration" item.media.duration .ofF64 ++
      insertOpt "metadata" item.media.metadata serializeMetadata)),
    ("autoplay", .bool item.autoplay),
    ("startTime", .ofF64 item.startTime)]

/-- A media request to an application transport. -/
def request (type : String) (requestId : UInt32) (transportId : String)
    (rest : List (String × Json)) : CastMessage :=
  buildMessage nsMedia senderId transportId
    (serde.toString (.object
      ([("type", .string type), ("requestId", .ofU32 requestId)] ++ rest)))

def load (requestId : UInt32) (transportId sessionId : String) (media : MediaInfo)
    (autoplay : Bool) (currentTime : F64) (customData : Option Json) : CastMessage :=
  request serde msgLoad requestId transportId
    [("sessionId", .string sessionId), ("media", loadMediaObj media), ("autoplay", .bool autoplay),
      ("currentTime", .ofF64 currentTime), ("customData", customData.getD (.object []))]

def play (requestId : UInt32) (transportId : String) (mediaSessionId : Int32) : CastMessage :=
  request serde msgPlay requestId transportId [("mediaSessionId", .ofI32 mediaSessionId)]

def pause (requestId : UInt32) (transportId : String) (mediaSessionId : Int32) : CastMessage :=
  request serde msgPause requestId transportId [("mediaSessionId", .ofI32 mediaSessionId)]

def stop (requestId : UInt32) (transportId : String) (mediaSessionId : Int32) : CastMessage :=
  request serde msgMediaStop requestId transportId
    [("mediaSessionId", .ofI32 mediaSessionId), ("customData", .object [])]

def seek (requestId : UInt32) (transportId : String) (mediaSessionId : Int32) (position : F64) :
    CastMessage :=
  request serde msgSeek requestId transportId
    [("mediaSessionId", .ofI32 mediaSessionId), ("currentTime", .ofF64 position)]

def getStatus (requestId : UInt32) (transportId : String) : CastMessage :=
  request serde msgGetStatus requestId transportId []

def queueLoad (requestId : UInt32) (transportId sessionId : String) (items : List QueueItem)
    (startIndex : UInt32) (repeatMode : RepeatMode) : CastMessage :=
  request serde msgQueueLoad requestId transportId
    [("sessionId", .string sessionId), ("items", .array (items.map serializeQueueItem)),
      ("startIndex", .ofU32 startIndex), ("repeatMode", .string (repeatModeText repeatMode))]

def queueInsert (requestId : UInt32) (transportId : String) (mediaSessionId : Int32)
    (items : List QueueItem) (insertBefore : Option UInt32) : CastMessage :=
  request serde msgQueueInsert requestId transportId
    ([("mediaSessionId", .ofI32 mediaSessionId),
      ("items", .array (items.map serializeQueueItem))] ++
      insertOpt "insertBefore" insertBefore .ofU32)

end Media

end Oxicast
