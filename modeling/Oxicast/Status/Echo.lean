import Oxicast.Status

/-!
# Oxicast.Status.Echo

The media description a load sends, read back out of the status that echoes it.

An optional field is a member of the object exactly when it has a value, so a
field is read by walking over the members in front of it (`get_insertOpt`).
Everything but three numbers comes back as it was: a duration that is not
positive and finite and a coordinate that is not finite are lost.
-/

namespace Oxicast.Media

open Json

variable {α : Type} {key k : String} {v : Option α} {f : α → Json} {rest : List (String × Json)}
  {value : Json}

/-! ## members -/

@[simp] theorem get_cons :
    Json.get key (.object ((k, value) :: rest)) =
      if key = k then some value else Json.get key (.object rest) := by
  simp only [Json.get, List.lookup_cons]
  by_cases h : key = k
  · simp [h]
  · simp [h, beq_eq_false_iff_ne.2 h]

@[simp] theorem get_nil : Json.get key (.object []) = none := rfl

/-- An optional field is a member when it has a value. -/
@[simp] theorem get_insertOpt :
    Json.get key (.object (insertOpt k v f ++ rest)) =
      if key = k then (v.map f).or (Json.get key (.object rest))
      else Json.get key (.object rest) := by
  cases v with
  | none => simp [insertOpt]
  | some a => simp [insertOpt]

@[simp] theorem get_insertOpt_last :
    Json.get key (.object (insertOpt k v f)) = if key = k then v.map f else none := by
  simpa using @get_insertOpt α key k v f []

/-! ## numbers -/

@[simp] theorem asU64_ofU32 (n : UInt32) : (ofU32 n).asU64 = some n.toUInt64 := rfl

/-- A number that is not finite is written as `null`, which is none. -/
theorem bind_asF64 (v : Option F64) : (v.map ofF64).bind asF64 = v.filter F64.isFinite := by
  cases v with
  | none => rfl
  | some x =>
      simp only [Option.map_some, Option.bind_some, Option.filter_some, ofF64]
      split <;> rfl

theorem bind_asStr (v : Option String) : (v.map Json.string).bind asStr = v := by cases v <;> rfl

theorem u32At_eq (json : Json) :
    json.u32At key = (json.get key).bind fun m => m.asU64.map UInt64.toUInt32 := by
  unfold u32At u64At
  cases json.get key <;> rfl

theorem bind_asU32 (v : Option UInt32) :
    ((v.map ofU32).bind fun m => m.asU64.map UInt64.toUInt32) = v := by
  cases v with
  | none => rfl
  | some n => simp [ofU32, asU64]

/-! ## the parts of a description -/

theorem parseImage_serialize (i : Image) :
    parseImage (.object ([("url", .string i.url)] ++ insertOpt "width" i.width ofU32 ++
      insertOpt "height" i.height ofU32)) = some i := by
  simp [parseImage, u32At_eq, asStr, bind_asU32]

/-- Images keep their order. -/
theorem images_roundtrip (images : List Image) :
    ((serializeImages images).asArray.map (List.filterMap parseImage)).getD [] = images := by
  simp only [serializeImages, asArray, Option.map_some, Option.getD_some, List.filterMap_map]
  have hsome : (parseImage ∘ fun i : Image =>
      .object ([("url", .string i.url)] ++ insertOpt "width" i.width ofU32 ++
        insertOpt "height" i.height ofU32)) = some := funext parseImage_serialize
  rw [hsome, List.filterMap_some]

/-- The coordinates of a photo that a device can echo. -/
def normalizeMetadata : MediaMetadata → MediaMetadata
  | .photo title artist location latitude longitude width height images =>
      .photo title artist location (latitude.filter F64.isFinite) (longitude.filter F64.isFinite)
        width height images
  | metadata => metadata

/-- The description that a device can echo. -/
def normalize (media : MediaInfo) : MediaInfo :=
  { media with
    duration := media.duration.filter fun d => d.isFinite && d.gtZero
    metadata := media.metadata.map normalizeMetadata }

theorem metadata_roundtrip (metadata : MediaMetadata) :
    parseMetadata (serializeMetadata metadata) = normalizeMetadata metadata := by
  cases metadata with
  | generic title subtitle images =>
      simp [serializeMetadata, parseMetadata, parseImages, normalizeMetadata, strAt, u64At, arrayAt,
        bind_asStr, images_roundtrip]
  | movie title subtitle studio images =>
      simp [serializeMetadata, parseMetadata, parseImages, normalizeMetadata, strAt, u64At, arrayAt,
        bind_asStr, images_roundtrip]
  | tvShow seriesTitle episodeTitle season episode images =>
      simp [serializeMetadata, parseMetadata, parseImages, normalizeMetadata, strAt, u32At_eq,
        u64At, arrayAt, bind_asStr, bind_asU32, images_roundtrip]
  | musicTrack title artist albumName composer trackNumber discNumber images =>
      simp [serializeMetadata, parseMetadata, parseImages, normalizeMetadata, strAt, u32At_eq,
        u64At, arrayAt, bind_asStr, bind_asU32, images_roundtrip]
  | photo title artist location latitude longitude width height images =>
      simp [serializeMetadata, parseMetadata, parseImages, normalizeMetadata, strAt, u32At_eq,
        u64At, f64At, arrayAt, bind_asStr, bind_asU32, bind_asF64, images_roundtrip]
  | audiobookChapter bookTitle chapterTitle chapterNumber subtitle images =>
      simp [serializeMetadata, parseMetadata, parseImages, normalizeMetadata, strAt, u32At_eq,
        u64At, arrayAt, bind_asStr, bind_asU32, images_roundtrip]

theorem streamType_roundtrip (t : StreamType) : parseStreamType (streamTypeText t) = t := by
  cases t <;> rfl

theorem duration_roundtrip (media : MediaInfo) :
    parseDuration (loadMediaObj media) = media.duration.filter fun d => d.isFinite && d.gtZero := by
  simp [parseDuration, loadMediaObj, f64At, bind_asF64, Option.filter_filter]

theorem media_roundtrip (media : MediaInfo) :
    parseMediaInfo (loadMediaObj media) = some (normalize media) := by
  have hduration := duration_roundtrip media
  simp only [parseMediaInfo, hduration]
  simp [loadMediaObj, normalize, strAt, asStr, streamType_roundtrip, metadata_roundtrip,
    Function.comp_def]

/-! ## the description in a load and in a status -/

/-- A status with all that is mandatory, whose first entry has the given `media`. -/
structure Echoes (json media : Json) : Prop where
  entry : ∃ entry rest, json.arrayAt "status" = some (entry :: rest) ∧
    (∃ state, (entry.strAt "playerState").bind parsePlayerState = some state) ∧
    (∃ id, (entry.get "mediaSessionId").bind asI64 = some id) ∧ entry.get "media" = some media

/-- The media of a status is what its first entry says. -/
theorem media_of_echoes {json media : Json} (h : Echoes json media) :
    ∃ status, parseMediaStatus json = some status ∧ status.media = parseMediaInfo media := by
  obtain ⟨entry, rest, hstatus, ⟨state, hstate⟩, ⟨id, hid⟩, hmedia⟩ := h.entry
  simp only [arrayAt, Option.bind_eq_some_iff] at hstatus
  obtain ⟨entries, hentries, harray⟩ := hstatus
  simp only [strAt, Option.bind_eq_some_iff] at hstate hid
  obtain ⟨text, ⟨player, hplayer, htext⟩, hstate⟩ := hstate
  obtain ⟨number, hnumber, hid⟩ := hid
  simp only [parseMediaStatus, hentries, harray, hplayer, htext, hstate, hnumber, hid, hmedia,
    List.head?_cons, Option.bind_eq_bind, Option.bind_some, Option.pure_def]
  exact ⟨_, rfl, rfl⟩

/-- **The media description is read back**: `load` and `serialize_queue_item` write
the same object, and the status that echoes it has the media that went into it,
but for the numbers no device can echo. -/
theorem media_echoed (serde : SerdeJson) (requestId : UInt32) (transportId sessionId : String)
    (item : QueueItem) (autoplay : Bool) (currentTime : F64) (customData : Option Json) :
    ∃ payload media,
      (load serde requestId transportId sessionId item.media autoplay currentTime
        customData).payloadUtf8 = some (serde.toString payload) ∧
      payload.get "media" = some media ∧ (serializeQueueItem item).get "media" = some media ∧
      ∀ json, Echoes json media →
        ∃ status, parseMediaStatus json = some status ∧
          status.media = some (normalize item.media) := by
  refine ⟨_, loadMediaObj item.media, rfl, by simp, rfl, fun json h => ?_⟩
  obtain ⟨status, hstatus, hmedia⟩ := media_of_echoes h
  exact ⟨status, hstatus, hmedia.trans (media_roundtrip item.media)⟩

/-- A photo of infinite latitude. -/
def photo (latitude : Option F64) : MediaInfo where
  contentId := "http://192.168.1.2/p.jpg"
  contentType := "image/jpeg"
  streamType := .none
  duration := none
  metadata := some (.photo (some "Pole") none none latitude none (some 640) none
    [⟨"http://192.168.1.2/t.jpg", some 64, none⟩, ⟨"http://192.168.1.2/s.jpg", none, none⟩])

def infinity : F64 := ⟨0x7ff0000000000000⟩

/-- The status of a player that shows it. -/
def photoStatus : Json := .object [("status", .array [.object [("playerState", .string "PLAYING"),
  ("mediaSessionId", .ofU32 1), ("media", loadMediaObj (photo (some infinity)))]])]

/-- The latitude is lost, and nothing else. -/
theorem media_echoed_photo :
    ∃ status, parseMediaStatus photoStatus = some status ∧ status.media = some (photo none) := by
  obtain ⟨payload, media, -, -, hitem, hecho⟩ := media_echoed (.ofText "" .null) 1 "web-1" "s-1"
    ⟨photo (some infinity), true, .zero⟩ true .zero none
  obtain rfl := Option.some.inj hitem
  exact hecho photoStatus ⟨_, _, rfl, ⟨.playing, rfl⟩, ⟨1, rfl⟩, rfl⟩

end Oxicast.Media
