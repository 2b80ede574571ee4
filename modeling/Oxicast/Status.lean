import Oxicast.Message

/-!
# Oxicast.Status

Reading statuses out of JSON: `parse_receiver_status`, `parse_media_status` and
the metadata below it, and the device errors `check_device_error` looks for.

An absent or mistyped optional field falls back to its default; an absent
mandatory field (`volume`, `playerState`, `mediaSessionId`, the ids of an
application) makes the status, or the list entry, absent.
-/

namespace Oxicast

open Ns

namespace Json

/-- `json.get(key).and_then(as_str)`. -/
def strAt (key : String) (json : Json) : Option String := (json.get key).bind asStr

/-- `json.get(key).and_then(as_u64)`. -/
def u64At (key : String) (json : Json) : Option UInt64 := (json.get key).bind asU64

/-- `json.get(key).and_then(as_u64).map(|n| n as u32)`. -/
def u32At (key : String) (json : Json) : Option UInt32 := (json.u64At key).map UInt64.toUInt32

/-- `json.get(key).and_then(as_f64)`. -/
def f64At (key : String) (json : Json) : Option F64 := (json.get key).bind asF64

/-- `json.get(key).and_then(as_bool)`. -/
def boolAt (key : String) (json : Json) : Option Bool := (json.get key).bind asBool

/-- `json.get(key).and_then(as_array)`. -/
def arrayAt (key : String) (json : Json) : Option (List Json) := (json.get key).bind asArray

end Json

open Json

/-! ## metadata -/

def parseImage (img : Json) : Option Image := do
  return {
    url := ← (← img.get "url").asStr
    width := img.u32At "width"
    height := img.u32At "height" }

def parseImages (metadata : Json) : List Image :=
  ((metadata.arrayAt "images").map (List.filterMap parseImage)).getD []

/-- `parse_metadata`, which finds metadata of some type in every value. -/
def parseMetadata (metadata : Json) : MediaMetadata :=
  let metadataType := ((metadata.u64At "metadataType").getD 0)
  let images := parseImages metadata
  if metadataType = 1 then
    .movie (metadata.strAt "title") (metadata.strAt "subtitle") (metadata.strAt "studio") images
  else if metadataType = 2 then
    .tvShow (metadata.strAt "seriesTitle")
      (((metadata.get "episodeTitle").or (metadata.get "title")).bind asStr)
      (metadata.u32At "season") (metadata.u32At "episode") images
  else if metadataType = 3 then
    .musicTrack (metadata.strAt "title")
      (((metadata.get "artist").or (metadata.get "albumArtist")).bind asStr)
      (metadata.strAt "albumName") (metadata.strAt "composer") (metadata.u32At "trackNumber")
      (metadata.u32At "discNumber") images
  else if metadataType = 4 then
    .photo (metadata.strAt "title") (metadata.strAt "artist") (metadata.strAt "location")
      (metadata.f64At "latitude") (metadata.f64At "longitude") (metadata.u32At "width")
      (metadata.u32At "height") images
  else if metadataType = 5 then
    .audiobookChapter (metadata.strAt "bookTitle") (metadata.strAt "chapterTitle")
      (metadata.u32At "chapterNumber") (metadata.strAt "subtitle") images
  else
    -- type 0, and every unknown type
    .generic (metadata.strAt "title") (metadata.strAt "subtitle") images

/-! ## media status -/

def parsePlayerState (text : String) : Option PlayerState :=
  if text = "IDLE" then some .idle
  else if text = "PLAYING" then some .playing
  else if text = "PAUSED" then some .paused
  else if text = "BUFFERING" then some .buffering
  else none

def parseIdleReason (text : String) : Option IdleReason :=
  if text = "CANCELLED" then some .cancelled
  else if text = "INTERRUPTED" then some .interrupted
  else if text = "FINISHED" then some .finished
  else if text = "ERROR" then some .error
  else none

def parseStreamType (text : String) : StreamType :=
  if text = "BUFFERED" then .buffered
  else if text = "LIVE" then .live
  else .none

/-- `.get("duration").and_then(as_f64).filter(|d| *d > 0.0)`. -/
def parseDuration (media : Json) : Option F64 := (media.f64At "duration").filter F64.gtZero

def parseMediaInfo (m : Json) : Option MediaInfo := do
  return {
    contentId := ← (← m.get "contentId").asStr
    contentType := (m.strAt "contentType").getD ""
    streamType := parseStreamType ((m.strAt "streamType").getD "")
    duration := parseDuration m
    metadata := (m.get "metadata").map parseMetadata }

/-- The volume of a status; level 1.0 and not muted when absent. -/
def parseVolume (volumeObj : Option Json) : Volume :=
  { level := ((volumeObj.bind (f64At "level")).getD .one).toF32
    muted := (volumeObj.bind (boolAt "muted")).getD false }

/-- `parse_media_status`: the first entry of `status`. -/
def parseMediaStatus (json : Json) : Option MediaStatus := do
  let entry ← (← (← json.get "status").asArray).head?
  let playerState ← parsePlayerState (← (← entry.get "playerState").asStr)
  let mediaSessionId ← (← entry.get "mediaSessionId").asI64
  return {
    mediaSessionId := mediaSessionId.toInt32
    playerState
    idleReason := (entry.strAt "idleReason").bind parseIdleReason
    currentTime := (entry.f64At "currentTime").getD .zero
    duration := (entry.get "media").bind parseDuration
    volume := parseVolume (entry.get "volume")
    media := (entry.get "media").bind parseMediaInfo }

/-! ## receiver status -/

def parseApplication (app : Json) : Option Application := do
  return {
    appId := ← (← app.get "appId").asStr
    displayName := (app.strAt "displayName").getD ""
    sessionId := ← (← app.get "sessionId").asStr
    transportId := ← (← app.get "transportId").asStr
    namespaces := ((app.arrayAt "namespaces").map (List.filterMap (strAt "name"))).getD []
    statusText := (app.strAt "statusText").getD "" }

/-- `parse_receiver_status`. -/
def parseReceiverStatus (json : Json) : Option ReceiverStatus := do
  let status ← json.get "status"
  let volumeObj ← status.get "volume"
  return {
    volume := parseVolume (some volumeObj)
    applications := ((status.arrayAt "applications").map (List.filterMap parseApplication)).getD []
    isActiveInput := (status.boolAt "isActiveInput").getD false
    isStandBy := (status.boolAt "isStandBy").getD false }

/-! ## device errors -/

/-- `check_device_error`: the error a device answer stands for, if any. -/
def checkDeviceError (json : Json) : Except Error Unit :=
  match json.strAt "type" with
  | some type =>
      if type = msgLoadFailed then
        .error (.loadFailed "Chromecast rejected the media"
          (((json.get "detailedErrorCode").bind asI64).map fun c => s!"error code {c}"))
      else if type = msgLoadCancelled then
        .error (.loadFailed "load was cancelled" none)
      else if type = msgInvalidRequest then
        .error (.invalidRequest ((json.u64At "requestId").getD 0).toUInt32
          ((json.strAt "reason").getD "unknown"))
      else if type = "LAUNCH_ERROR" then
        .error (.launchFailed ((json.strAt "reason").getD "unknown"))
      else .ok ()
  | none => .ok ()

end Oxicast
