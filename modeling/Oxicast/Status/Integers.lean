import Oxicast.Status
import Mathlib.Algebra.Group.Int.Defs
import Mathlib.Data.List.Forall2

/-!
# Oxicast.Status.Integers

The integers of a media status against those of the JSON it was read from.

The session id is read as an `i64` and every other integer as a `u64`, and all
of them are then narrowed with `as`, which keeps the low 32 bits: a field is
the integer it was read from exactly when that fits.
-/

namespace Oxicast

namespace Json

/-- The integer that a value is; a number with a fraction is none. -/
def asInt : Json → Option Int
  | .number (.posInt n) => some n.toNat
  | .number (.negInt n) => some n.toInt
  | _ => none

/-- The integer under a key. -/
def intAt (key : String) (json : Json) : Option Int := (json.get key).bind asInt

/-- `json["status"][0]`. -/
def firstEntry (json : Json) : Option Json := (json.arrayAt "status").bind List.head?

theorem asInt_of_asU64 {json : Json} {n : UInt64} (h : json.asU64 = some n) :
    json.asInt = some n.toNat := by
  unfold asU64 at h
  split at h
  · obtain rfl := Option.some.inj h
    rfl
  · contradiction

theorem asInt_of_asI64 {json : Json} {n : Int64} (h : json.asI64 = some n) :
    json.asInt = some n.toInt := by
  unfold asI64 at h
  split at h
  · split at h
    next n hlt =>
      obtain rfl := Option.some.inj h
      simp [asInt, Int64.toInt_ofNat_of_lt hlt]
    · contradiction
  · obtain rfl := Option.some.inj h
    rfl
  · contradiction

end Json

/-- `n as u32` keeps a number exactly when it is one. -/
theorem toNat_toUInt32_eq_iff (n : UInt64) : n.toUInt32.toNat = n.toNat ↔ n.toNat < 2 ^ 32 := by
  rw [UInt64.toNat_toUInt32, Nat.mod_eq_iff_lt (by decide)]

/-- `n as i32` keeps a number exactly when it is one. -/
theorem toInt_toInt32_eq_iff (n : Int64) :
    n.toInt32.toInt = n.toInt ↔ -2 ^ 31 ≤ n.toInt ∧ n.toInt < 2 ^ 31 := by
  rw [Int64.toInt_toInt32]
  constructor
  · intro h
    rw [← h]
    exact ⟨Int.le_bmod (by decide), Int.bmod_lt (by decide)⟩
  · rintro ⟨hle, hlt⟩
    exact Int.bmod_eq_of_le (by simpa using hle) (by simpa using hlt)

/-- A list read entry by entry, against the entries that are read. -/
theorem forall₂_filterMap {α β : Type} {R : α → β → Prop} {p : α → Bool} {f : α → Option β}
    (hp : ∀ a, p a = (f a).isSome) (l : List α) :
    List.Forall₂ R (l.filter p) (l.filterMap f) ↔ ∀ a ∈ l, ∀ b, f a = some b → R a b := by
  induction l with
  | nil => simp
  | cons a l ih =>
      cases hf : f a with
      | none => simp [hp, hf, ih]
      | some b => simp [hp, hf, ih]

/-! ## one field -/

/-- A `u32` field, if present, is the integer under its key. -/
def Exact (json : Json) (key : String) (v : Option UInt32) : Prop :=
  ∀ n, v = some n → json.intAt key = some (n.toNat : Int)

/-- The integer under a key is a `u32`. -/
def Fits (json : Json) (key : String) : Prop := ∀ n, json.u64At key = some n → n.toNat < 2 ^ 32

theorem exact_u32At_iff (json : Json) (key : String) :
    Exact json key (json.u32At key) ↔ Fits json key := by
  unfold Exact Fits Json.u32At
  cases h : json.u64At key with
  | none => simp
  | some n =>
      have hint : json.intAt key = some (n.toNat : Int) := by
        obtain ⟨member, hmember, hn⟩ := Option.bind_eq_some_iff.1 h
        rw [Json.intAt, hmember]
        exact Json.asInt_of_asU64 hn
      simp only [Option.map_some, Option.some.injEq, forall_eq', hint, Int.natCast_inj]
      rw [eq_comm, toNat_toUInt32_eq_iff]

/-! ## metadata -/

/-- The integers of a description, under their keys. -/
def MediaMetadata.numbers : MediaMetadata → List (String × Option UInt32)
  | .generic .. | .movie .. => []
  | .tvShow _ _ season episode _ => [("season", season), ("episode", episode)]
  | .musicTrack _ _ _ _ trackNumber discNumber _ =>
      [("trackNumber", trackNumber), ("discNumber", discNumber)]
  | .photo _ _ _ _ _ width height _ => [("width", width), ("height", height)]
  | .audiobookChapter _ _ chapterNumber _ _ => [("chapterNumber", chapterNumber)]

def MediaMetadata.images : MediaMetadata → List Image
  | .generic _ _ images | .movie _ _ _ images | .tvShow _ _ _ _ images
  | .musicTrack _ _ _ _ _ _ images | .photo _ _ _ _ _ _ _ images
  | .audiobookChapter _ _ _ _ images => images

/-- The keys of the integers that metadata of each type has. -/
def numberKeys (metadata : Json) : List String :=
  let metadataType := (metadata.u64At "metadataType").getD 0
  if metadataType = 2 then ["season", "episode"]
  else if metadataType = 3 then ["trackNumber", "discNumber"]
  else if metadataType = 4 then ["width", "height"]
  else if metadataType = 5 then ["chapterNumber"]
  else []

/-- The images that are read: those with a url. -/
def imageEntries (metadata : Json) : List Json :=
  ((metadata.arrayAt "images").getD []).filter fun img => (img.strAt "url").isSome

/-- The width and the height of an image are those of its entry. -/
def ImageExact (img : Json) (image : Image) : Prop :=
  Exact img "width" image.width ∧ Exact img "height" image.height

/-- The integers of a description are those of the JSON, image by image. -/
structure MetadataExact (json : Json) (metadata : MediaMetadata) : Prop where
  numbers : ∀ field ∈ metadata.numbers, Exact json field.1 field.2
  images : List.Forall₂ ImageExact (imageEntries json) metadata.images

/-- All integers that the metadata is read for are `u32`s. -/
structure MetadataFits (json : Json) : Prop where
  numbers : ∀ key ∈ numberKeys json, Fits json key
  images : ∀ img ∈ imageEntries json, Fits img "width" ∧ Fits img "height"

theorem numbers_parseMetadata (json : Json) :
    (parseMetadata json).numbers = (numberKeys json).map fun key => (key, json.u32At key) := by
  simp only [parseMetadata, numberKeys]
  split_ifs <;> simp_all [MediaMetadata.numbers]

theorem images_parseMetadata (json : Json) : (parseMetadata json).images = parseImages json := by
  simp only [parseMetadata]
  split_ifs <;> rfl

theorem parseImage_eq (img : Json) :
    parseImage img = (img.strAt "url").map fun url =>
      ⟨url, img.u32At "width", img.u32At "height"⟩ := by
  unfold parseImage Json.strAt
  cases img.get "url" with
  | none => rfl
  | some url =>
      simp only [Option.bind_eq_bind, Option.bind_some, Option.pure_def]
      cases url.asStr <;> rfl

theorem parseImages_eq (json : Json) :
    parseImages json = ((json.arrayAt "images").getD []).filterMap parseImage := by
  unfold parseImages
  cases json.arrayAt "images" <;> rfl

theorem imageExact_iff {img : Json} {image : Image} (h : parseImage img = some image) :
    ImageExact img image ↔ Fits img "width" ∧ Fits img "height" := by
  rw [parseImage_eq, Option.map_eq_some_iff] at h
  obtain ⟨url, -, rfl⟩ := h
  exact and_congr (exact_u32At_iff img "width") (exact_u32At_iff img "height")

theorem metadataExact_iff (json : Json) :
    MetadataExact json (parseMetadata json) ↔ MetadataFits json := by
  have hread (img : Json) : (img.strAt "url").isSome = (parseImage img).isSome := by
    simp [parseImage_eq]
  have hnumbers : (∀ field ∈ (parseMetadata json).numbers, Exact json field.1 field.2) ↔
      ∀ key ∈ numberKeys json, Fits json key := by
    simp [numbers_parseMetadata, exact_u32At_iff]
  have himages : List.Forall₂ ImageExact (imageEntries json) (parseMetadata json).images ↔
      ∀ img ∈ imageEntries json, Fits img "width" ∧ Fits img "height" := by
    rw [images_parseMetadata, parseImages_eq, imageEntries, forall₂_filterMap hread]
    constructor
    · intro h img himg
      obtain ⟨hmem, hurl⟩ := List.mem_filter.1 himg
      obtain ⟨image, himage⟩ := Option.isSome_iff_exists.1 (hread img ▸ hurl)
      exact (imageExact_iff himage).1 (h img hmem image himage)
    · intro h img hmem image himage
      have hurl : (img.strAt "url").isSome = true := by simp [hread, himage]
      exact (imageExact_iff himage).2 (h img (List.mem_filter.2 ⟨hmem, hurl⟩))
  exact ⟨fun h => ⟨hnumbers.1 h.numbers, himages.1 h.images⟩,
    fun h => ⟨hnumbers.2 h.numbers, himages.2 h.images⟩⟩

/-! ## the status -/

/-- The session id of the first entry is an `i32`. -/
def SessionFits (json : Json) : Prop :=
  ∀ n, (json.firstEntry.bind (Json.get "mediaSessionId")).bind Json.asI64 = some n →
    -2 ^ 31 ≤ n.toInt ∧ n.toInt < 2 ^ 31

/-- The integers of a status are those of its first entry. -/
structure StatusExact (json : Json) (status : MediaStatus) : Prop where
  mediaSessionId : json.firstEntry.bind (Json.intAt "mediaSessionId") =
    some status.mediaSessionId.toInt
  metadata : ∀ media metadata, status.media = some media → media.metadata = some metadata →
    ∃ m, (json.firstEntry.bind (Json.get "media")).bind (Json.get "metadata") = some m ∧
      MetadataExact m metadata

/-- All integers that the status is read for fit; its media is read when it has a
content id. -/
structure StatusFits (json : Json) : Prop where
  mediaSessionId : SessionFits json
  metadata : ∀ media m, json.firstEntry.bind (Json.get "media") = some media →
    (media.strAt "contentId").isSome → media.get "metadata" = some m → MetadataFits m

theorem parseMediaInfo_eq (m : Json) : parseMediaInfo m = (m.strAt "contentId").map fun contentId =>
    { contentId
      contentType := (m.strAt "contentType").getD ""
      streamType := parseStreamType ((m.strAt "streamType").getD "")
      duration := parseDuration m
      metadata := (m.get "metadata").map parseMetadata } := by
  simp only [parseMediaInfo, Json.strAt]
  cases m.get "contentId" with
  | none => rfl
  | some contentId =>
      simp only [Option.bind_eq_bind, Option.bind_some, Option.pure_def]
      cases contentId.asStr <;> rfl

/-- What a status that parses was read from. -/
theorem reads_of_parseMediaStatus {json : Json} {status : MediaStatus}
    (h : parseMediaStatus json = some status) :
    ∃ entry member id, json.firstEntry = some entry ∧ entry.get "mediaSessionId" = some member ∧
      member.asI64 = some id ∧ status.mediaSessionId = id.toInt32 ∧
      status.media = (entry.get "media").bind parseMediaInfo := by
  simp only [parseMediaStatus, Option.bind_eq_bind, Option.bind_eq_some_iff, Option.pure_def,
    Option.some.injEq] at h
  obtain ⟨value, hvalue, entries, hentries, entry, hentry, -, -, -, -, -, -, member, hmember,
    id, hid,
    rfl⟩ := h
  exact ⟨entry, member, id, by simp [Json.firstEntry, Json.arrayAt, hvalue, hentries, hentry],
    hmember, hid, rfl, rfl⟩

/-- The integers of a status are exact when all of them fit. -/
theorem statusExact_iff {json : Json} {status : MediaStatus}
    (h : parseMediaStatus json = some status) :
    StatusExact json status ↔ StatusFits json := by
  obtain ⟨entry, member, id, hentry, hmember, hid, hsession, hmedia⟩ := reads_of_parseMediaStatus h
  have hint : member.asInt = some id.toInt := Json.asInt_of_asI64 hid
  have hmediaSessionId : json.firstEntry.bind (Json.intAt "mediaSessionId") =
      some status.mediaSessionId.toInt ↔ SessionFits json := by
    simp only [SessionFits, hentry, hmember, hid, hint, hsession, Json.intAt, Option.bind_some,
      Option.some.injEq, forall_eq']
    rw [eq_comm, toInt_toInt32_eq_iff]
  refine ⟨fun hexact => ⟨hmediaSessionId.1 hexact.mediaSessionId, fun media m hm hurl hmeta => ?_⟩,
    fun hfits => ⟨hmediaSessionId.2 hfits.mediaSessionId, fun media metadata hm hmeta => ?_⟩⟩
  · rw [hentry, Option.bind_some] at hm
    obtain ⟨contentId, hcontent⟩ := Option.isSome_iff_exists.1 hurl
    rw [hm, Option.bind_some, parseMediaInfo_eq, hcontent, Option.map_some] at hmedia
    obtain ⟨m', hm', hexact⟩ := hexact.metadata _ (parseMetadata m) hmedia (by simp [hmeta])
    rw [hentry, Option.bind_some, hm, Option.bind_some, hmeta] at hm'
    obtain rfl := Option.some.inj hm'
    exact (metadataExact_iff m).1 hexact
  · obtain ⟨mediaJson, hget, hparse⟩ := Option.bind_eq_some_iff.1 (hmedia.symm.trans hm)
    rw [parseMediaInfo_eq, Option.map_eq_some_iff] at hparse
    obtain ⟨contentId, hcontent, rfl⟩ := hparse
    obtain ⟨m, hgetm, rfl⟩ := Option.map_eq_some_iff.1 hmeta
    refine ⟨m, by simp [hentry, hget, hgetm], (metadataExact_iff m).2 ?_⟩
    exact hfits.metadata mediaJson m (by simp [hentry, hget]) (by simp [hcontent]) hgetm

end Oxicast
