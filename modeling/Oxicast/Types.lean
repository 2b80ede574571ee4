import Oxicast.Json

/-!
# Oxicast.Types

The data types of the client: what a status, an event and an error carry.
-/

namespace Oxicast

/-! ## media and receiver -/

/-- Volume state of a Cast device. -/
structure Volume where
  level : F32
  muted : Bool
  deriving DecidableEq

inductive StreamType where
  | none
  | buffered
  | live
  deriving DecidableEq

inductive PlayerState where
  | idle
  | playing
  | paused
  | buffering
  deriving DecidableEq

inductive IdleReason where
  | cancelled
  | interrupted
  | finished
  | error
  deriving DecidableEq

/-- An image (poster, thumbnail, …). -/
structure Image where
  url : String
  width : Option UInt32
  height : Option UInt32
  deriving DecidableEq

/-- Metadata about the media being played. -/
inductive MediaMetadata where
  | generic (title subtitle : Option String) (images : List Image)
  | movie (title subtitle studio : Option String) (images : List Image)
  | tvShow (seriesTitle episodeTitle : Option String) (season episode : Option UInt32)
      (images : List Image)
  | musicTrack (title artist albumName composer : Option String)
      (trackNumber discNumber : Option UInt32) (images : List Image)
  | photo (title artist location : Option String) (latitude longitude : Option F64)
      (width height : Option UInt32) (images : List Image)
  | audiobookChapter (bookTitle chapterTitle : Option String) (chapterNumber : Option UInt32)
      (subtitle : Option String) (images : List Image)
  deriving DecidableEq

/-- Description of media to be loaded onto the device. -/
structure MediaInfo where
  contentId : String
  contentType : String
  streamType : StreamType
  duration : Option F64
  metadata : Option MediaMetadata
  deriving DecidableEq

/-- A snapshot of the current playback state. -/
structure MediaStatus where
  mediaSessionId : Int32
  playerState : PlayerState
  idleReason : Option IdleReason
  currentTime : F64
  duration : Option F64
  volume : Volume
  media : Option MediaInfo
  deriving DecidableEq

/-- A running application on the device. -/
structure Application where
  appId : String
  displayName : String
  sessionId : String
  transportId : String
  namespaces : List String
  statusText : String
  deriving DecidableEq

/-- Status of the Cast receiver device. -/
structure ReceiverStatus where
  volume : Volume
  applications : List Application
  isActiveInput : Bool
  isStandBy : Bool
  deriving DecidableEq

inductive RepeatMode where
  | repeatOff
  | repeatAll
  | repeatSingle
  | repeatAllAndShuffle
  deriving DecidableEq

/-- An item in a media queue. -/
structure QueueItem where
  media : MediaInfo
  autoplay : Bool
  startTime : F64
  deriving DecidableEq

/-! ## events -/

/-- Connection lifecycle state, as published on the connection watch. -/
inductive ConnectionState where
  | connected
  | disconnected
  | reconnecting (attempt : Nat)
  deriving DecidableEq

/-- Events received from a Cast device through `next_event()`. -/
inductive CastEvent where
  | connected
  | disconnected (reason : Option String)
  | reconnecting (attempt : Nat)
  | reconnected
  | heartbeatTimeout
  | receiverStatusChanged (status : ReceiverStatus)
  | mediaStatusChanged (status : MediaStatus)
  | mediaSessionEnded (mediaSessionId : Int32) (idleReason : IdleReason)
  | rawMessage (ns source destination payload : String)
  deriving DecidableEq

/-! ## errors -/

/-- The errors a `CastClient` operation, or the framing below it, can end with. -/
inductive Error where
  | disconnected
  | framing (message : String)
  | protobuf (message : String)
  | timeout
  | launchFailed (reason : String)
  | loadFailed (reason : String) (detailedError : Option String)
  | invalidRequest (requestId : UInt32) (reason : String)
  | invalidPayload
  | noMediaSession
  | noApplication
  | internal (message : String)
  deriving DecidableEq

end Oxicast
