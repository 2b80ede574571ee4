import Oxicast.Operation
import Oxicast.Status.Echo

/-!
# Oxicast.Operation.Wish

What a device is asked to do by the requests of the client.

A `Wish` is the meaning of a request, and `Wish.read` the device's side of the
protocol: it looks at the namespace, the type and the members of a payload, in any
order.  Each method of the client sends what it is called for, to the place it is for;
only numbers that JSON does not have are missing (`wish_read`).
-/

namespace Oxicast

open Json Ns

/-- An item of a queue. -/
structure WishItem where
  media : MediaInfo
  autoplay : Bool
  startTime : Option F64

/-- What a request asks for. -/
inductive Wish where
  | receiverStatus
  | launch (appId : String)
  | stopApp (sessionId : String)
  | volume (level : Option F64) (muted : Option Bool)
  | mediaStatus
  | load (sessionId : String) (media : MediaInfo) (autoplay : Bool) (currentTime : Option F64)
      (customData : Json)
  | play (mediaSessionId : Int32)
  | pause (mediaSessionId : Int32)
  | stop (mediaSessionId : Int32)
  | seek (mediaSessionId : Int32) (position : Option F64)
  | queueLoad (sessionId : String) (items : List WishItem) (startIndex : UInt32)
      (repeatMode : RepeatMode)
  | queueInsert (mediaSessionId : Int32) (items : List WishItem) (insertBefore : Option UInt32)

namespace Wish

/-! ## the device's side -/

def readItem (json : Json) : Option WishItem := do
  return {
    media := ← (json.get "media").bind parseMediaInfo
    autoplay := ← json.boolAt "autoplay"
    startTime := json.f64At "startTime" }

def readItems (json : Json) : Option (List WishItem) :=
  (json.arrayAt "items").bind (·.mapM readItem)

def readRepeatMode (text : String) : Option RepeatMode :=
  if text = "REPEAT_OFF" then some .repeatOff
  else if text = "REPEAT_ALL" then some .repeatAll
  else if text = "REPEAT_SINGLE" then some .repeatSingle
  else if text = "REPEAT_ALL_AND_SHUFFLE" then some .repeatAllAndShuffle
  else none

def readSession (json : Json) : Option Int32 :=
  ((json.get "mediaSessionId").bind asI64).map Int64.toInt32

/-- A request on the receiver channel. -/
def readReceiver (type : String) (json : Json) : Option Wish :=
  if type = msgGetStatus then some .receiverStatus
  else if type = msgLaunch then (json.strAt "appId").map .launch
  else if type = msgStop then (json.strAt "sessionId").map .stopApp
  else if type = msgSetVolume then
    (json.get "volume").map fun volume => .volume (volume.f64At "level") (volume.boolAt "muted")
  else none

/-- A request on the media channel. -/
def readMedia (type : String) (json : Json) : Option Wish :=
  if type = msgGetStatus then some .mediaStatus
  else if type = msgLoad then do
    return .load (← json.strAt "sessionId") (← (json.get "media").bind parseMediaInfo)
      (← json.boolAt "autoplay") (json.f64At "currentTime") (← json.get "customData")
  else if type = msgPlay then (readSession json).map .play
  else if type = msgPause then (readSession json).map .pause
  else if type = msgMediaStop then (readSession json).map .stop
  else if type = msgSeek then (readSession json).map (.seek · (json.f64At "currentTime"))
  else if type = msgQueueLoad then do
    return .queueLoad (← json.strAt "sessionId") (← readItems json) (← json.u32At "startIndex")
      (← (json.strAt "repeatMode").bind readRepeatMode)
  else if type = msgQueueInsert then do
    return .queueInsert (← readSession json) (← readItems json) (json.u32At "insertBefore")
  else none

/-- A request with its id. -/
def read (ns : String) (json : Json) : Option (UInt32 × Wish) := do
  let id ← json.u32At "requestId"
  let type ← json.strAt "type"
  let wish ←
    if ns = nsReceiver then readReceiver type json
    else if ns = nsMedia then readMedia type json
    else none
  return (id, wish)

end Wish

/-! ## the client's side -/

/-- A call of a method that sends a request. -/
inductive Invocation where
  | receiverStatus
  | launchApp (appId : String)
  | stopApp (sessionId : String)
  | setVolume (level : F32)
  | setMuted (muted : Bool)
  | loadMedia (media : MediaInfo) (autoplay : Bool) (currentTime : F64) (customData : Option Json)
  | play
  | pause
  | stopMedia
  | seek (position : F64)
  | mediaStatus
  | queueLoad (items : List QueueItem) (startIndex : UInt32) (repeatMode : RepeatMode)
  | queueInsert (items : List QueueItem) (insertBefore : Option UInt32)

namespace Invocation

variable (serde : SerdeJson)

def operation : Invocation → Operation
  | receiverStatus => .receiverStatus serde
  | launchApp appId => .launchApp serde appId
  | stopApp sessionId => .stopApp serde sessionId
  | setVolume level => .setVolume serde level
  | setMuted muted => .setMuted serde muted
  | loadMedia media autoplay currentTime customData =>
      .loadMedia serde media autoplay currentTime customData
  | play => .play serde
  | pause => .pause serde
  | stopMedia => .stopMedia serde
  | seek position => .seek serde position
  | mediaStatus => .mediaStatus serde
  | queueLoad items startIndex repeatMode => .queueLoad serde items startIndex repeatMode
  | queueInsert items insertBefore => .queueInsert serde items insertBefore

/-- A number that JSON has. -/
def number (x : F64) : Option F64 := if x.isFinite then some x else none

/-- An item as a device reads it. -/
def item (item : QueueItem) : WishItem :=
  ⟨Media.normalize item.media, item.autoplay, number item.startTime⟩

/-- What a call asks for, with the ids it has read. -/
def wish (target : Target) : Invocation → Wish
  | receiverStatus => .receiverStatus
  | launchApp appId => .launch appId
  | stopApp sessionId => .stopApp sessionId
  | setVolume level => .volume (number level.clampUnit.toF64) none
  | setMuted muted => .volume none (some muted)
  | loadMedia media autoplay currentTime customData =>
      .load target.sessionId (Media.normalize media) autoplay (number currentTime)
        (customData.getD (.object []))
  | play => .play target.mediaSessionId
  | pause => .pause target.mediaSessionId
  | stopMedia => .stop target.mediaSessionId
  | seek position => .seek target.mediaSessionId (number position)
  | mediaStatus => .mediaStatus
  | queueLoad items startIndex repeatMode =>
      .queueLoad target.sessionId (items.map item) startIndex repeatMode
  | queueInsert items insertBefore =>
      .queueInsert target.mediaSessionId (items.map item) insertBefore

/-- The channel a call goes to. -/
def channel : Invocation → String
  | receiverStatus | launchApp _ | stopApp _ | setVolume _ | setMuted _ => nsReceiver
  | _ => nsMedia

end Invocation

/-! ## members -/

namespace Wish

variable {json : Json} {members : List (String × Json)} {type : String} {id : UInt32} {wish : Wish}

theorem asF64_ofF64 (x : F64) : (ofF64 x).asF64 = Invocation.number x := by
  unfold ofF64 Invocation.number
  split <;> rfl

theorem asI64_ofI32 (n : Int32) : (ofI32 n).asI64 = some n.toInt64 := by
  unfold ofI32
  split
  next hpos =>
    have hlt := n.toInt_lt
    have hnat : (UInt64.ofNat n.toInt.toNat).toNat = n.toInt.toNat := by
      rw [UInt64.toNat_ofNat']
      exact Nat.mod_eq_of_lt (by omega)
    have hsmall : n.toInt.toNat < 2 ^ 63 := by omega
    rw [asI64, hnat, if_pos hsmall]
    congr 1
    apply Int64.toInt_inj.1
    rw [Int64.toInt_ofNat_of_lt hsmall, Int32.toInt_toInt64]
    omega
  next => rfl

theorem readSession_eq {n : Int32} (h : json.get "mediaSessionId" = some (ofI32 n)) :
    readSession json = some n := by
  simp [readSession, h, asI64_ofI32]

theorem readItem_serialize (item : QueueItem) :
    readItem (Media.serializeQueueItem item) = some (Invocation.item item) := by
  have hmedia : (Media.serializeQueueItem item).get "media" =
      some (Media.loadMediaObj item.media) := rfl
  simp only [readItem, hmedia, Option.bind_some, Media.media_roundtrip]
  simp [Media.serializeQueueItem, boolAt, f64At, asBool, asF64_ofF64, Invocation.item]

theorem mapM_readItem (items : List QueueItem) :
    (items.map Media.serializeQueueItem).mapM readItem = some (items.map Invocation.item) := by
  induction items with
  | nil => rfl
  | cons item items ih =>
      rw [List.map_cons, List.mapM_cons, readItem_serialize, ih]
      rfl

theorem readItems_eq {items : List QueueItem}
    (h : json.get "items" = some (.array (items.map Media.serializeQueueItem))) :
    readItems json = some (items.map Invocation.item) := by
  simp only [readItems, arrayAt, h, Option.bind_some, asArray, mapM_readItem]

theorem readRepeatMode_text (mode : RepeatMode) :
    readRepeatMode (Media.repeatModeText mode) = some mode := by
  cases mode <;> decide

/-- A request is read by its channel and its type. -/
theorem read_eq (hid : json.get "requestId" = some (ofU32 id))
    (htype : json.get "type" = some (.string type))
    (ns : String) :
    read ns json =
      (if ns = nsReceiver then readReceiver type json
        else if ns = nsMedia then readMedia type json
        else none).map fun wish => (id, wish) := by
  have hid' : json.u32At "requestId" = some id := by simp [u32At, u64At, hid, ofU32, asU64]
  have htype' : json.strAt "type" = some type := by rw [strAt, htype]; rfl
  simp only [read, hid', htype', Option.bind_eq_bind, Option.bind_some, Option.pure_def]
  split_ifs
  · exact Option.map_eq_bind.symm
  · exact Option.map_eq_bind.symm
  · rfl

theorem read_receiver {rest : List (String × Json)}
    (h : readReceiver type (.object (("type", .string type) :: ("requestId", ofU32 id) :: rest)) =
      some wish) :
    read nsReceiver (.object (("type", .string type) :: ("requestId", ofU32 id) :: rest)) =
      some (id, wish) := by
  have hid : Json.get "requestId"
      (.object (("type", .string type) :: ("requestId", ofU32 id) :: rest)) =
      some (ofU32 id) := rfl
  rw [read_eq hid rfl, if_pos rfl, h]
  rfl

theorem read_media {rest : List (String × Json)}
    (h : readMedia type (.object (("type", .string type) :: ("requestId", ofU32 id) :: rest)) =
      some wish) :
    read nsMedia (.object (("type", .string type) :: ("requestId", ofU32 id) :: rest)) =
      some (id, wish) := by
  have hid : Json.get "requestId"
      (.object (("type", .string type) :: ("requestId", ofU32 id) :: rest)) =
      some (ofU32 id) := rfl
  rw [read_eq hid rfl, if_neg (by decide), if_pos rfl, h]
  rfl

/-! ## the types -/

theorem readMedia_load : readMedia msgLoad json = (do
    return .load (← json.strAt "sessionId") (← (json.get "media").bind parseMediaInfo)
      (← json.boolAt "autoplay") (json.f64At "currentTime") (← json.get "customData")) := rfl

theorem readMedia_seek :
    readMedia msgSeek json = (readSession json).map (.seek · (json.f64At "currentTime")) := rfl

theorem readMedia_queueLoad : readMedia msgQueueLoad json = (do
    return .queueLoad (← json.strAt "sessionId") (← readItems json) (← json.u32At "startIndex")
      (← (json.strAt "repeatMode").bind readRepeatMode)) := rfl

theorem readMedia_queueInsert : readMedia msgQueueInsert json = (do
    return .queueInsert (← readSession json) (← readItems json) (json.u32At "insertBefore")) := rfl

end Wish

/-- A request goes to its channel and its place, and the device reads in it the id and
what the method was called for. -/
theorem wish_read (serde : SerdeJson) (call : Invocation) (id : UInt32) (target : Target) :
    ∃ payload, (call.operation serde).message id target =
        buildMessage call.channel senderId
          (if (call.operation serde).reads = .nothing then receiverId else target.transportId)
          (serde.toString payload) ∧
      Wish.read call.channel payload = some (id, call.wish target) := by
  cases call with
  | receiverStatus => exact ⟨_, rfl, Wish.read_receiver rfl⟩
  | launchApp appId => exact ⟨_, rfl, Wish.read_receiver rfl⟩
  | stopApp sessionId => exact ⟨_, rfl, Wish.read_receiver rfl⟩
  | setVolume level =>
      refine ⟨_, rfl, Wish.read_receiver ?_⟩
      change some (Wish.volume (ofF64 level.clampUnit.toF64).asF64 none) = _
      rw [Wish.asF64_ofF64]
      rfl
  | setMuted muted => exact ⟨_, rfl, Wish.read_receiver rfl⟩
  | mediaStatus => exact ⟨_, rfl, Wish.read_media rfl⟩
  | play =>
      refine ⟨_, rfl, Wish.read_media ?_⟩
      exact congrArg (Option.map Wish.play) (Wish.readSession_eq rfl)
  | pause =>
      refine ⟨_, rfl, Wish.read_media ?_⟩
      exact congrArg (Option.map Wish.pause) (Wish.readSession_eq rfl)
  | stopMedia =>
      refine ⟨_, rfl, Wish.read_media ?_⟩
      exact congrArg (Option.map Wish.stop) (Wish.readSession_eq rfl)
  | seek position =>
      refine ⟨_, rfl, Wish.read_media ?_⟩
      rw [Wish.readMedia_seek, Wish.readSession_eq rfl]
      simp [Invocation.wish, f64At, Wish.asF64_ofF64]
  | loadMedia media autoplay currentTime customData =>
      refine ⟨_, rfl, Wish.read_media ?_⟩
      rw [Wish.readMedia_load]
      simp [Invocation.wish, strAt, asStr, boolAt, asBool, f64At, Wish.asF64_ofF64,
        Media.media_roundtrip]
  | queueLoad items startIndex repeatMode =>
      refine ⟨_, rfl, Wish.read_media ?_⟩
      rw [Wish.readMedia_queueLoad, Wish.readItems_eq rfl]
      simp [Invocation.wish, strAt, asStr, u32At, u64At, ofU32, asU64, Wish.readRepeatMode_text]
  | queueInsert items insertBefore =>
      refine ⟨_, rfl, Wish.read_media ?_⟩
      rw [Wish.readMedia_queueInsert, Wish.readItems_eq rfl, Wish.readSession_eq rfl]
      simp [Invocation.wish, Media.u32At_eq, Media.bind_asU32]

/-- The typed methods are called for something, all but the CLOSE of `disconnect`. -/
theorem Operation.Typed.invocation {serde : SerdeJson} {op : Operation}
    (h : Operation.Typed serde op) :
    op = Operation.close serde ∨ ∃ call : Invocation, op = call.operation serde := by
  cases h with
  | receiverStatus => exact .inr ⟨.receiverStatus, rfl⟩
  | launchApp appId => exact .inr ⟨.launchApp appId, rfl⟩
  | stopApp sessionId => exact .inr ⟨.stopApp sessionId, rfl⟩
  | setVolume level => exact .inr ⟨.setVolume level, rfl⟩
  | setMuted muted => exact .inr ⟨.setMuted muted, rfl⟩
  | loadMedia media autoplay currentTime customData =>
      exact .inr ⟨.loadMedia media autoplay currentTime customData, rfl⟩
  | play => exact .inr ⟨.play, rfl⟩
  | pause => exact .inr ⟨.pause, rfl⟩
  | stopMedia => exact .inr ⟨.stopMedia, rfl⟩
  | seek position => exact .inr ⟨.seek position, rfl⟩
  | mediaStatus => exact .inr ⟨.mediaStatus, rfl⟩
  | queueLoad items startIndex repeatMode =>
      exact .inr ⟨.queueLoad items startIndex repeatMode, rfl⟩
  | queueInsert items insertBefore => exact .inr ⟨.queueInsert items insertBefore, rfl⟩
  | close => exact .inl rfl

end Oxicast
