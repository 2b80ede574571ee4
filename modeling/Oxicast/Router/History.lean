import Oxicast.Router.Effects
import Oxicast.Router.MediaSession
import Oxicast.Scan

/-!
# Oxicast.Router.History

The router over a whole sequence of messages.

Two of its outputs are read as statements about the past: `MediaSessionEnded`
says that a session is over now, and the media watch says what is loaded.  Both
are made from the message at hand alone.  `lastWrite` is what a sequence of
messages says last; the results compare it with what the router has made of the
same messages.
-/

namespace Oxicast

namespace Router

open Ns

variable {serde : SerdeJson} {s : Router} {msg : CastMessage} {msgs : List CastMessage} {id : Int32}

/-- Route one message after another. -/
def routeAll (serde : SerdeJson) (s : Router) (msgs : List CastMessage) : Router :=
  msgs.foldl (route serde) s

theorem routeAll_snoc (serde : SerdeJson) (s : Router) (msgs : List CastMessage)
    (msg : CastMessage) :
    routeAll serde s (msgs ++ [msg]) = (routeAll serde s msgs).route serde msg := by
  rw [routeAll, List.foldl_append, List.foldl_cons, List.foldl_nil, routeAll]

/-! ## a session ends once -/

/-- In the state `s` the message leads to a `MediaSessionEnded` event for the session. -/
def AnnouncesEnd (serde : SerdeJson) (s : Router) (msg : CastMessage) (id : Int32) : Prop :=
  ∃ es reason, (s.route serde msg).offered = s.offered ++ es ∧ .mediaSessionEnded id reason ∈ es

/-- The message is a MEDIA_STATUS that reports the session in a state other than IDLE. -/
def ReportsInUse (serde : SerdeJson) (msg : CastMessage) (id : Int32) : Prop :=
  ∃ status, mediaStatusIn serde msg = some status ∧ status.mediaSessionId = id ∧
    status.playerState ≠ .idle

/-- Between two `MediaSessionEnded` events of one session it is reported in use. -/
def EndsOnce (serde : SerdeJson) (s : Router) (msgs : List CastMessage) : Prop :=
  ∀ pre msg mid msg' rest id, msgs = pre ++ msg :: mid ++ msg' :: rest →
    AnnouncesEnd serde (routeAll serde s pre) msg id →
    AnnouncesEnd serde (routeAll serde s (pre ++ msg :: mid)) msg' id →
    ∃ m ∈ mid, ReportsInUse serde m id

/-- What a message says about a session: that it is over, or that it is not. -/
def saysOver (serde : SerdeJson) (id : Int32) (msg : CastMessage) : Option Bool :=
  (mediaStatusIn serde msg).bind fun status =>
    if status.mediaSessionId ≠ id then none
    else if status.playerState ≠ .idle then some false
    else if 0 < id ∧ status.idleReason.isSome then some true
    else none

/-- The session is over according to the messages: it was reported IDLE for a
reason, and not in use since. -/
def isOver (serde : SerdeJson) (msgs : List CastMessage) (id : Int32) : Bool :=
  lastWrite (saysOver serde id) false msgs

theorem saysOver_eq_false_iff : saysOver serde id msg = some false ↔ ReportsInUse serde msg id := by
  unfold saysOver ReportsInUse
  cases mediaStatusIn serde msg with
  | none => simp
  | some status =>
      simp only [Option.bind_some, Option.some.injEq, exists_eq_left']
      split_ifs with hid hidle hreason <;> simp_all

theorem mem_eventsOf_ended_iff {reason : IdleReason} :
    .mediaSessionEnded id reason ∈ eventsOf serde msg ↔
      ∃ status, mediaStatusIn serde msg = some status ∧ status.playerState = .idle ∧
        0 < status.mediaSessionId ∧ id = status.mediaSessionId ∧
        status.idleReason = some reason := by
  have hfresh := offered_route serde (.new .new 0) msg
  rw [show (Router.new .new 0).offered = [] from rfl, List.nil_append] at hfresh
  rw [← hfresh]
  exact ended_route_iff rfl

/-- Whether a message announces an end does not depend on what came before. -/
theorem announcesEnd_iff : AnnouncesEnd serde s msg id ↔ saysOver serde id msg = some true := by
  have hevents : AnnouncesEnd serde s msg id ↔ ∃ reason, .mediaSessionEnded id reason ∈
      eventsOf serde msg := by
    unfold AnnouncesEnd
    rw [offered_route]
    constructor
    · rintro ⟨es, reason, heq, hmem⟩
      exact ⟨reason, List.append_cancel_left heq ▸ hmem⟩
    · rintro ⟨reason, hmem⟩
      exact ⟨_, reason, rfl, hmem⟩
  simp only [hevents, mem_eventsOf_ended_iff, saysOver]
  cases mediaStatusIn serde msg with
  | none => simp
  | some status =>
      simp only [Option.some.injEq, exists_eq_left', Option.bind_some]
      split_ifs with hid hidle hreason
      · simp only [iff_false, not_exists, not_and]
        intro reason _ _ heq
        exact absurd heq.symm hid
      · simp [hidle]
      · rw [not_not] at hid hidle
        obtain ⟨reason, hr⟩ := Option.isSome_iff_exists.1 hreason.2
        exact iff_of_true ⟨reason, hidle, hid ▸ hreason.1, hid.symm, hr⟩ rfl
      · rw [not_not] at hid
        simp only [iff_false, not_exists, not_and]
        intro reason _ hpos _ hr
        exact absurd ⟨hid ▸ hpos, by simp [hr]⟩ hreason

/-- **A media session ends once**: between two `MediaSessionEnded` events of a
session it is reported in use, exactly when no session that is over is reported
IDLE with a reason again. -/
theorem endsOnce_iff (serde : SerdeJson) (s : Router) (msgs : List CastMessage) :
    EndsOnce serde s msgs ↔
      ∀ pre msg rest id, msgs = pre ++ msg :: rest → isOver serde pre id = true →
        saysOver serde id msg ≠ some true := by
  constructor
  · intro h pre msg rest id hmsgs hover hends
    obtain ⟨front, first, mid, rfl, hfirst, hmid⟩ := (lastWrite_eq_iff (by simp)).1 hover
    obtain ⟨m, hm, huse⟩ := h front first mid msg rest id hmsgs (announcesEnd_iff.2 hfirst)
      (announcesEnd_iff.2 hends)
    rw [← saysOver_eq_false_iff] at huse
    rcases hmid m hm with hsay | hsay
    · rw [huse] at hsay; contradiction
    · rw [huse] at hsay; contradiction
  · intro h pre msg mid msg' rest id hmsgs hfirst hsecond
    by_contra hnone
    rw [not_exists] at hnone
    refine h (pre ++ msg :: mid) msg' rest id hmsgs ?_ (announcesEnd_iff.1 hsecond)
    refine (lastWrite_eq_iff (by simp)).2 ⟨pre, msg, mid, rfl, announcesEnd_iff.1 hfirst, ?_⟩
    intro m hm
    have huse : saysOver serde id m ≠ some false := fun hsay =>
      hnone m ⟨hm, saysOver_eq_false_iff.1 hsay⟩
    cases hsay : saysOver serde id m with
    | none => exact .inl rfl
    | some b =>
        cases b with
        | false => exact absurd hsay huse
        | true => exact .inr rfl

/-- A MEDIA_STATUS about session 5, FINISHED, and its text. -/
def finishedStatus : Json :=
  .object [("type", .string msgMediaStatus), ("status", .array [.object
    [("mediaSessionId", .ofU32 5), ("playerState", .string "IDLE"),
      ("idleReason", .string "FINISHED")]])]

def finishedMsg : CastMessage := buildMessage nsMedia "web-1" senderId "finished"

/-- The end of a session is announced as often as the device reports it. -/
theorem end_announced_twice : ¬ ∀ (serde : SerdeJson) (requests : Requests) (size : Nat)
    (msgs : List CastMessage), EndsOnce serde (.new requests size) msgs := by
  intro h
  have honce := h (.ofText "finished" finishedStatus) .new 256 [finishedMsg, finishedMsg]
  have hends : saysOver (.ofText "finished" finishedStatus) 5 finishedMsg = some true := by decide
  obtain ⟨m, hm, -⟩ := honce [] finishedMsg [] finishedMsg [] 5 rfl (announcesEnd_iff.2 hends)
    (announcesEnd_iff.2 hends)
  simp at hm

/-! ## the media watch -/

/-- The message is a MEDIA_STATUS on the media namespace. -/
def IsMediaStatus (serde : SerdeJson) (msg : CastMessage) : Prop :=
  msg.ns = nsMedia ∧ ∃ json, serde.fromStr (payloadOf msg) = some json ∧
    messageType json = msgMediaStatus

/-- What a message says about the media that is loaded: none, when its list of
sessions is empty, or else what the first entry says, if it parses. -/
def mediaReport (serde : SerdeJson) (msg : CastMessage) : Option (Option MediaStatus) :=
  if msg.ns = nsMedia then
    (serde.fromStr (payloadOf msg)).bind fun json =>
      if messageType json = msgMediaStatus then
        match json.arrayAt "status" with
        | some [] => some none
        | _ => (parseMediaStatus json).map some
      else none
  else none

/-- The media watch holds what was reported last, and only a MEDIA_STATUS changes it. -/
structure WatchSaysLoaded (serde : SerdeJson) (s : Router) (msgs : List CastMessage) : Prop where
  value : (routeAll serde s msgs).media.value = lastWrite (mediaReport serde) none msgs
  others : ∀ pre msg rest, msgs = pre ++ msg :: rest → ¬ IsMediaStatus serde msg →
    (routeAll serde s (pre ++ [msg])).media = (routeAll serde s pre).media

/-- The report of a message with a status is that status. -/
theorem mediaReport_eq_some_some_iff {status : MediaStatus} :
    mediaReport serde msg = some (some status) ↔ mediaStatusIn serde msg = some status := by
  unfold mediaReport mediaStatusIn payloadOf
  by_cases hns : msg.ns = nsMedia
  · simp only [if_pos hns, Option.bind_eq_some_iff]
    refine exists_congr fun json => and_congr_right fun _ => ?_
    split
    · cases harr : json.arrayAt "status" with
      | none => simp
      | some entries =>
          cases entries with
          | nil =>
              obtain ⟨value, hvalue, hentries⟩ := Option.bind_eq_some_iff.1 harr
              simp [parseMediaStatus, hvalue, hentries]
          | cons entry rest => simp
    · simp
  · simp [hns]

/-- The watch holds the status that parsed last. -/
theorem media_routeAll (serde : SerdeJson) (s : Router) (msgs : List CastMessage) :
    (routeAll serde s msgs).media.value =
      lastWrite (fun m => (mediaStatusIn serde m).map some) s.media.value msgs := by
  induction msgs using List.reverseRecOn with
  | nil => rfl
  | append_singleton msgs msg ih =>
      rw [routeAll_snoc, (watches_route serde _ msg).1, lastWrite_snoc, sent, ih]
      cases mediaStatusIn serde msg <;> rfl

/-- Statuses never take the watch back to `None`. -/
theorem lastWrite_status_eq_none_iff :
    lastWrite (fun m => (mediaStatusIn serde m).map some) none msgs = none ↔
      ∀ m ∈ msgs, mediaStatusIn serde m = none := by
  induction msgs using List.reverseRecOn with
  | nil => simp [lastWrite_nil]
  | append_singleton msgs msg ih =>
      rw [lastWrite_snoc, List.forall_mem_append, List.forall_mem_singleton, ← ih]
      cases mediaStatusIn serde msg <;> simp

/-- **The media watch says `None` when no media is loaded**, exactly when the last
report is not an empty list of sessions, or no status has ever parsed. -/
theorem watchSaysLoaded_iff (serde : SerdeJson) (requests : Requests) (size : Nat)
    (msgs : List CastMessage) :
    WatchSaysLoaded serde (.new requests size) msgs ↔
      (lastWrite (mediaReport serde) none msgs = none →
        ∀ m ∈ msgs, mediaStatusIn serde m = none) := by
  have hwatch := media_routeAll serde (.new requests size) msgs
  change _ = lastWrite _ none msgs at hwatch
  constructor
  · intro h hnone
    rw [← lastWrite_status_eq_none_iff, ← hwatch, h.value, hnone]
  · intro h
    constructor
    · rw [hwatch]
      cases hlast : lastWrite (mediaReport serde) none msgs with
      | none => exact lastWrite_status_eq_none_iff.2 (h hlast)
      | some status =>
          obtain ⟨pre, msg, post, rfl, hmsg, hpost⟩ := (lastWrite_eq_iff (by simp)).1 hlast
          refine (lastWrite_eq_iff (by simp)).2 ⟨pre, msg, post, rfl, ?_, fun m hm => ?_⟩
          · rw [mediaReport_eq_some_some_iff.1 hmsg]; rfl
          · rcases hpost m hm with hm | hm
            · left
              cases hin : mediaStatusIn serde m with
              | none => rfl
              | some other => rw [mediaReport_eq_some_some_iff.2 hin] at hm; contradiction
            · right
              rw [mediaReport_eq_some_some_iff.1 hm]; rfl
    · intro pre msg rest _ hother
      have hnone : mediaStatusIn serde msg = none := by
        by_contra hsome
        obtain ⟨status, hin⟩ := Option.ne_none_iff_exists'.1 hsome
        have hns : msg.ns = nsMedia := by
          by_contra hns
          rw [mediaStatusIn_of_ne hns] at hin
          contradiction
        rw [mediaStatusIn, if_pos hns, Option.bind_eq_some_iff] at hin
        obtain ⟨json, hjson, hin⟩ := hin
        split at hin
        next htype => exact hother ⟨hns, json, hjson, htype⟩
        next => contradiction
      rw [routeAll_snoc, media_route hnone]

/-- The device is playing, and then has no media session any more. -/
def playingStatus : Json :=
  .object [("type", .string msgMediaStatus), ("status", .array [.object
    [("mediaSessionId", .ofU32 5), ("playerState", .string "PLAYING")]])]

def emptyStatus : Json := .object [("type", .string msgMediaStatus), ("status", .array [])]

def unloadingSerde : SerdeJson := .ofTexts [("playing", playingStatus), ("empty", emptyStatus)]

def unloadingMsgs : List CastMessage :=
  [buildMessage nsMedia "web-1" senderId "playing", buildMessage nsMedia "web-1" senderId "empty"]

/-- The watch still says that session 5 is playing. -/
theorem watch_stays_loaded : ¬ ∀ (serde : SerdeJson) (requests : Requests) (size : Nat)
    (msgs : List CastMessage), WatchSaysLoaded serde (.new requests size) msgs := by
  intro h
  have hlast : lastWrite (mediaReport unloadingSerde) none unloadingMsgs = none := by decide
  have hvalue := (h unloadingSerde .new 256 unloadingMsgs).value
  rw [hlast] at hvalue
  exact absurd hvalue (by decide)

end Router

end Oxicast
