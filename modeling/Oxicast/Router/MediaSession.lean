import Oxicast.Operation
import Oxicast.Router.Consumers

/-!
# Oxicast.Router.MediaSession

What a routed message does to the tracked media session: a MEDIA_STATUS that
parses stores its id when that is positive and announces an end when it is idle
for a reason, and nothing else does either.
-/

namespace Oxicast

open Ns

/-- The media session id of the first status entry, as it is stored. -/
def Json.entryId (json : Json) : Option Int32 :=
  (((json.arrayAt "status").bind List.head?).bind fun entry =>
    (entry.get "mediaSessionId").bind Json.asI64).map Int64.toInt32

theorem entryId_of_parseMediaStatus {json : Json} {status : MediaStatus}
    (h : parseMediaStatus json = some status) : json.entryId = some status.mediaSessionId := by
  simp only [parseMediaStatus, Option.bind_eq_bind, Option.bind_eq_some_iff, Option.pure_def,
    Option.some.injEq] at h
  obtain ⟨value, hvalue, entries, hentries, entry, hentry, -, -, -, -, -, -, member, hmember,
    id, hid,
    rfl⟩ := h
  simp [Json.entryId, Json.arrayAt, hvalue, hentries, hentry, hmember, hid]

namespace Router

variable {serde : SerdeJson} {s s' : Router} {msg : CastMessage} {json : Json}
    {status : MediaStatus}

/-- No media session is stored, and no end of one announced. -/
structure KeepsSession (s s' : Router) : Prop where
  mediaSessionId : s'.mediaSessionId = s.mediaSessionId
  ended : ∀ id reason, .mediaSessionEnded id reason ∈ s'.offered →
    .mediaSessionEnded id reason ∈ s.offered

theorem KeepsSession.refl (s : Router) : KeepsSession s s := ⟨rfl, fun _ _ h => h⟩

theorem KeepsSession.offer (h : KeepsSession s s') {e : CastEvent}
    (he : ∀ id reason, e ≠ .mediaSessionEnded id reason) : KeepsSession s (s'.offer e) := by
  refine ⟨h.mediaSessionId, fun id reason hmem => h.ended id reason ?_⟩
  rcases List.mem_append.1 hmem with hmem | hmem
  · exact hmem
  · exact absurd (List.mem_singleton.1 hmem).symm (he id reason)

theorem keepsSession_resolveRequest (s : Router) (json : Json) :
    KeepsSession s (s.resolveRequest json) := by
  unfold resolveRequest
  split
  · split
    · exact ⟨rfl, fun _ _ h => h⟩
    · exact .refl s
  · exact .refl s

theorem keepsSession_routeReceiver (s : Router) (json : Json) :
    KeepsSession s (s.routeReceiver json) := by
  have h := keepsSession_resolveRequest s json
  simp only [routeReceiver]
  split
  · split
    · next status hp =>
      have hsent : KeepsSession s
          { s.resolveRequest json with
            receiver := (s.resolveRequest json).receiver.send (some status) } :=
        ⟨h.mediaSessionId, h.ended⟩
      exact hsent.offer fun _ _ => by simp
    · exact h
  · exact h

theorem keepsSession_routeCustom (s : Router) (msg : CastMessage) :
    KeepsSession s (s.routeCustom serde msg) := by
  have h : KeepsSession s (s.offer (rawEvent msg)) :=
    (KeepsSession.refl s).offer fun _ _ => by simp [rawEvent]
  unfold routeCustom
  split
  · split
    · split
      · exact ⟨rfl, fun _ _ h => h⟩
      · exact h
    · exact h
  · exact h

/-- A message without a MEDIA_STATUS that parses leaves the media session alone. -/
theorem keepsSession_route (h : mediaStatusIn serde msg = none) :
    KeepsSession s (s.route serde msg) := by
  simp only [route]
  split_ifs with hheart hping hconn hrecv hmedia
  · exact ⟨rfl, fun _ _ h => h⟩
  · exact .refl s
  · split
    · split
      · exact (KeepsSession.refl s).offer fun _ _ => by simp [rawEvent]
      · exact .refl s
    · exact .refl s
  · split
    · exact keepsSession_routeReceiver s _
    · exact .refl s
  · split
    · next json hjson =>
      simp only [mediaStatusIn, if_pos hmedia, hjson, Option.bind_some] at h
      have hresolve := keepsSession_resolveRequest s json
      have htype := classifyMediaMessage_eq_status_iff (messageType json)
      unfold routeMedia
      cases hc : classifyMediaMessage (messageType json) with
      | status =>
          rw [if_pos (htype.1 hc)] at h
          simp only [h]
          exact hresolve
      | unknown => exact .refl s
      | _ => exact hresolve
    · exact .refl s
  · exact keepsSession_routeCustom s msg

/-- A MEDIA_STATUS that parses is published. -/
theorem route_of_mediaStatusIn (h : mediaStatusIn serde msg = some status) :
    ∃ json, s.route serde msg = (s.resolveRequest json).publishMediaStatus status := by
  have hns : msg.ns = nsMedia := by
    by_contra hns
    simp [mediaStatusIn, hns] at h
  simp only [mediaStatusIn, if_pos hns, Option.bind_eq_some_iff] at h
  obtain ⟨json, hjson, hstatus⟩ := h
  split at hstatus
  next htype =>
    refine ⟨json, ?_⟩
    have hc := (classifyMediaMessage_eq_status_iff (messageType json)).2 htype
    simp [route, routeMedia, hns, hjson, hc, hstatus, nsMedia, nsHeartbeat, nsConnection,
      nsReceiver]
  next => contradiction

/-- The id that is tracked after a message. -/
theorem mediaSessionId_route (serde : SerdeJson) (s : Router) (msg : CastMessage) :
    (s.route serde msg).mediaSessionId =
    (mediaStatusIn serde msg).elim s.mediaSessionId fun status =>
      if 0 < status.mediaSessionId then status.mediaSessionId else s.mediaSessionId := by
  cases h : mediaStatusIn serde msg with
  | none => exact (keepsSession_route h).mediaSessionId
  | some status =>
      obtain ⟨json, hroute⟩ := route_of_mediaStatusIn (s := s) h
      have hresolve := (keepsSession_resolveRequest s json).mediaSessionId
      rw [hroute, Option.elim_some, ← hresolve]
      unfold publishMediaStatus
      split
      · split
        · split <;> rfl
        · rfl
      · split
        · split <;> rfl
        · rfl

/-- The ends that are announced: of a real session, with the reason it is idle for. -/
theorem ended_route_iff {id : Int32} {reason : IdleReason} (hs : s.offered = []) :
    .mediaSessionEnded id reason ∈ (s.route serde msg).offered ↔
      ∃ status, mediaStatusIn serde msg = some status ∧ status.playerState = .idle ∧
        0 < status.mediaSessionId ∧ id = status.mediaSessionId ∧
        status.idleReason = some reason := by
  cases h : mediaStatusIn serde msg with
  | none =>
      have hkeep := (keepsSession_route (s := s) h).ended id reason
      rw [hs] at hkeep
      simpa using hkeep
  | some status =>
      obtain ⟨json, hroute⟩ := route_of_mediaStatusIn (s := s) h
      have hresolve : (s.resolveRequest json).offered = [] := by
        unfold resolveRequest
        split
        · split <;> exact hs
        · exact hs
      rw [hroute]
      by_cases hpos : 0 < status.mediaSessionId
      · by_cases hidle : status.playerState = .idle
        · cases hreason : status.idleReason with
          | none => simp [publishMediaStatus, offer, hresolve, hpos, hidle, hreason]
          | some given =>
              simp only [publishMediaStatus, offer, hresolve, hpos, hidle, hreason, and_self,
                if_true,
                List.nil_append, List.singleton_append, List.mem_cons,
                CastEvent.mediaSessionEnded.injEq,
                reduceCtorEq, List.not_mem_nil, or_false, Option.some.injEq, exists_eq_left',
                true_and]
              rw [@eq_comm _ reason given]
        · simp [publishMediaStatus, offer, hresolve, hpos, hidle]
      · simp [publishMediaStatus, offer, hresolve, hpos]

end Router

end Oxicast
