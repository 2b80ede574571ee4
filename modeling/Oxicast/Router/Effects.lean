import Oxicast.Router.Consumers
import Oxicast.Router.Delivery

/-!
# Oxicast.Router.Effects

`route` as the list of the single writes it makes.

What a message leads to is read off the message alone: `effects` lists the
oneshot send, the atomic store, the watch sends, the event offers and the PONG
in the order `route` makes them, and `route` is these one after another
(`route_eq_foldl`).  The results about single fields of the router, and those
about readers that run between two writes, start from the list.
-/

namespace Oxicast.Router

open Ns

/-- One write of `route`. -/
inductive Effect where
  /-- the oneshot send of a `resolve` call -/
  | resolve (id : UInt32) (json : Json)
  | storeSession (id : Int32)
  | publishMedia (status : MediaStatus)
  | publishReceiver (status : ReceiverStatus)
  | offer (event : CastEvent)
  | reply (msg : CastMessage)

/-- The router after one write. -/
def apply (s : Router) : Effect → Router
  | .resolve id json => { s with requests := (s.requests.resolve id json).2 }
  | .storeSession id => { s with mediaSessionId := id }
  | .publishMedia status => { s with media := s.media.send (some status) }
  | .publishReceiver status => { s with receiver := s.receiver.send (some status) }
  | .offer event => s.offer event
  | .reply msg => { s with outbound := s.outbound ++ [msg] }

/-! ## the writes of a message -/

/-- The `resolve` call of a message. -/
def resolveEffects (serde : SerdeJson) (msg : CastMessage) : List Effect :=
  (resolveCall serde msg).toList.map fun call => .resolve call.1 call.2

/-- What a parsed RECEIVER_STATUS leads to. -/
def receiverEffects (status : ReceiverStatus) : List Effect :=
  [.publishReceiver status, .offer (.receiverStatusChanged status)]

/-- The event that announces the end of a session, if the status does. -/
def endedEvent (status : MediaStatus) : Option CastEvent :=
  if status.playerState = .idle ∧ 0 < status.mediaSessionId then
    status.idleReason.map (.mediaSessionEnded status.mediaSessionId)
  else none

/-- What a parsed MEDIA_STATUS leads to. -/
def mediaEffects (status : MediaStatus) : List Effect :=
  (if 0 < status.mediaSessionId then [.storeSession status.mediaSessionId] else []) ++
    (endedEvent status).toList.map .offer ++
    [.publishMedia status, .offer (.mediaStatusChanged status)]

/-- A CLOSE is passed on as it is, and so is a custom message that resolves nothing. -/
def PassedOn (serde : SerdeJson) (msg : CastMessage) : Prop :=
  (msg.ns = nsConnection ∧ (serde.fromStr (payloadOf msg)).bind (·.strAt "type") = some "CLOSE") ∨
    (msg.ns ∉ builtIn ∧ (resolveCall serde msg).isNone)

instance (serde : SerdeJson) (msg : CastMessage) : Decidable (PassedOn serde msg) :=
  inferInstanceAs (Decidable (_ ∧ _ ∨ _ ∧ _))

/-- What a message leads to, write by write. -/
def effects (serde : SerdeJson) (msg : CastMessage) : List Effect :=
  resolveEffects serde msg ++
    (receiverStatusIn serde msg).elim [] receiverEffects ++
    (mediaStatusIn serde msg).elim [] mediaEffects ++
    (if PassedOn serde msg then [.offer (rawEvent msg)] else []) ++
    (if isPing msg then [.reply (pong serde)] else [])

/-! ## `route` makes them one after another -/

variable {serde : SerdeJson} {s : Router} {msg : CastMessage} {json : Json}

/-- The router after an optional `resolve` call. -/
def resolving (s : Router) (call : Option (UInt32 × Json)) : Router :=
  { s with requests := resolved s.requests call }

theorem foldl_resolveEffects (serde : SerdeJson) (s : Router) (msg : CastMessage) :
    (resolveEffects serde msg).foldl apply s = s.resolving (resolveCall serde msg) := by
  unfold resolveEffects
  cases resolveCall serde msg <;> rfl

theorem resolveRequest_eq (s : Router) (json : Json) :
    s.resolveRequest json = s.resolving (checkedId json) := by
  unfold resolveRequest checkedId
  cases json.u64At "requestId" with
  | none => rfl
  | some requestId =>
      simp only [Option.bind_some]
      split <;> rfl

theorem publishMediaStatus_eq_foldl (s : Router) (status : MediaStatus) :
    s.publishMediaStatus status = (mediaEffects status).foldl apply s := by
  unfold publishMediaStatus mediaEffects endedEvent
  by_cases hpos : 0 < status.mediaSessionId
  · by_cases hidle : status.playerState = .idle
    · cases status.idleReason <;> simp [hpos, hidle, apply]
    · simp [hpos, hidle, apply]
  · simp [hpos, apply]

theorem isPing_of_ne (h : msg.ns ≠ nsHeartbeat) : isPing msg = false := by
  simp [isPing, h]

theorem mediaStatusIn_of_ne (h : msg.ns ≠ nsMedia) : mediaStatusIn serde msg = none := if_neg h

theorem receiverStatusIn_of_ne (h : msg.ns ≠ nsReceiver) : receiverStatusIn serde msg = none :=
  if_neg h

theorem not_passedOn (h : msg.ns ∈ builtIn) (hc : msg.ns ≠ nsConnection) :
    ¬ PassedOn serde msg := by
  rintro (⟨hconn, -⟩ | ⟨hns, -⟩)
  · exact hc hconn
  · exact hns h

theorem route_heartbeat (hns : msg.ns = nsHeartbeat) :
    s.route serde msg = (effects serde msg).foldl apply s := by
  have hnone : resolveCall serde msg = none := if_pos (.inl hns)
  rw [effects, resolveEffects, hnone, receiverStatusIn_of_ne (by rw [hns]; decide),
    mediaStatusIn_of_ne (by rw [hns]; decide),
    if_neg (not_passedOn (by rw [hns]; decide) (by rw [hns]; decide)), route, if_pos hns]
  split <;> rfl

theorem route_connection (hns : msg.ns = nsConnection) :
    s.route serde msg = (effects serde msg).foldl apply s := by
  have hnone : resolveCall serde msg = none := if_pos (.inr hns)
  have hpassed : PassedOn serde msg ↔
      (serde.fromStr (payloadOf msg)).bind (·.strAt "type") = some "CLOSE" := by
    simp [PassedOn, hns, builtIn]
  rw [effects, resolveEffects, hnone, receiverStatusIn_of_ne (by rw [hns]; decide),
    mediaStatusIn_of_ne (by rw [hns]; decide), isPing_of_ne (by rw [hns]; decide), route,
    if_neg (by rw [hns]; decide), if_pos hns]
  simp only [hpassed]
  cases serde.fromStr (payloadOf msg) with
  | none => rfl
  | some json =>
      simp only [Option.bind_some]
      split <;> rfl

theorem route_receiver (hns : msg.ns = nsReceiver) :
    s.route serde msg = (effects serde msg).foldl apply s := by
  rw [effects, mediaStatusIn_of_ne (by rw [hns]; decide),
    if_neg (not_passedOn (by rw [hns]; decide) (by rw [hns]; decide)),
    isPing_of_ne (by rw [hns]; decide), route, if_neg (by rw [hns]; decide),
    if_neg (by rw [hns]; decide), if_pos hns]
  simp only [Option.elim_none, List.append_nil, Bool.false_eq_true, if_false, List.foldl_append,
    foldl_resolveEffects]
  have hother : ¬ (msg.ns = nsHeartbeat ∨ msg.ns = nsConnection) := by rw [hns]; decide
  have hmedia : msg.ns ≠ nsMedia := by rw [hns]; decide
  cases hjson : serde.fromStr (msg.payloadUtf8.getD "") with
  | none => simp [resolveCall, receiverStatusIn, hother, hjson, resolving, resolved]
  | some json =>
      simp only [resolveCall, if_neg hother, hjson, Option.bind_some, hmedia, false_and, if_false,
        receiverStatusIn, if_pos hns, routeReceiver, resolveRequest_eq]
      split
      · cases parseReceiverStatus json <;> rfl
      · rfl

theorem route_media (hns : msg.ns = nsMedia) :
    s.route serde msg = (effects serde msg).foldl apply s := by
  rw [effects, receiverStatusIn_of_ne (by rw [hns]; decide),
    if_neg (not_passedOn (by rw [hns]; decide) (by rw [hns]; decide)),
    isPing_of_ne (by rw [hns]; decide), route, if_neg (by rw [hns]; decide),
    if_neg (by rw [hns]; decide), if_neg (by rw [hns]; decide), if_pos hns]
  simp only [Option.elim_none, List.append_nil, Bool.false_eq_true, if_false, List.foldl_append,
    foldl_resolveEffects]
  have hother : ¬ (msg.ns = nsHeartbeat ∨ msg.ns = nsConnection) := by rw [hns]; decide
  cases hjson : serde.fromStr (msg.payloadUtf8.getD "") with
  | none => simp [resolveCall, mediaStatusIn, hother, hjson, resolving, resolved]
  | some json =>
      have htype := classifyMediaMessage_eq_status_iff (messageType json)
      have hcall : resolveCall serde msg =
          if classifyMediaMessage (messageType json) = .unknown then none else checkedId json := by
        rw [resolveCall, if_neg hother, hjson, Option.bind_some]
        simp only [hns, true_and]
      have hin : mediaStatusIn serde msg =
          if messageType json = msgMediaStatus then parseMediaStatus json else none := by
        rw [mediaStatusIn, if_pos hns, hjson, Option.bind_some]
      simp only [hcall, hin, routeMedia, resolveRequest_eq]
      cases hc : classifyMediaMessage (messageType json) with
      | status =>
          rw [if_neg (by simp), if_pos (htype.1 hc)]
          cases parseMediaStatus json with
          | none => rfl
          | some status => exact publishMediaStatus_eq_foldl _ status
      | unknown =>
          rw [if_pos rfl, if_neg fun h => by simp [htype.2 h] at hc]
          rfl
      | _ =>
          rw [if_neg (by simp), if_neg fun h => by simp [htype.2 h] at hc]
          rfl

theorem resolveCall_of_custom (hns : msg.ns ∉ builtIn) :
    resolveCall serde msg = (customId serde msg).map fun found => (found.2.toUInt32, found.1) := by
  simp only [builtIn, List.mem_cons, List.not_mem_nil, or_false, not_or] at hns
  obtain ⟨hheart, hconn, -, hmedia⟩ := hns
  simp only [resolveCall, customId, payloadOf, hheart, hconn, hmedia, or_self, false_and, if_false]
  cases serde.fromStr (msg.payloadUtf8.getD "") with
  | none => rfl
  | some json =>
      simp only [Option.bind_some, checkedId]
      cases json.u64At "requestId" with
      | none => rfl
      | some requestId =>
          simp only [Option.bind_some]
          split <;> rfl

theorem route_custom (hns : msg.ns ∉ builtIn) :
    s.route serde msg = (effects serde msg).foldl apply s := by
  have hne := hns
  simp only [builtIn, List.mem_cons, List.not_mem_nil, or_false, not_or] at hne
  obtain ⟨hheart, hconn, hrecv, hmedia⟩ := hne
  have hpassed : PassedOn serde msg ↔ customId serde msg = none := by
    simp [PassedOn, hns, hconn, resolveCall_of_custom hns]
  rw [effects, receiverStatusIn_of_ne hrecv, mediaStatusIn_of_ne hmedia, isPing_of_ne hheart,
    route_of_custom hns, routeCustom_eq]
  simp only [Option.elim_none, List.append_nil, Bool.false_eq_true, if_false, List.foldl_append,
    foldl_resolveEffects, resolveCall_of_custom hns]
  cases hid : customId serde msg with
  | none => rw [if_pos (hpassed.2 hid)]; rfl
  | some found => rw [if_neg fun h => by simp [hid] at hpassed; exact hpassed h]; rfl

/-- `route` makes the writes of its message one after another. -/
theorem route_eq_foldl (serde : SerdeJson) (s : Router) (msg : CastMessage) :
    s.route serde msg = (effects serde msg).foldl apply s := by
  by_cases hns : msg.ns ∈ builtIn
  · simp only [builtIn, List.mem_cons, List.not_mem_nil, or_false] at hns
    rcases hns with h | h | h | h
    · exact route_heartbeat h
    · exact route_connection h
    · exact route_receiver h
    · exact route_media h
  · exact route_custom hns

/-! ## the writes of a media status -/

/-- A `resolve` call stores and offers nothing. -/
theorem mem_resolveEffects {e : Effect} (h : e ∈ resolveEffects serde msg) :
    ∃ id json, e = .resolve id json := by
  rw [resolveEffects, List.mem_map] at h
  obtain ⟨call, -, rfl⟩ := h
  exact ⟨call.1, call.2, rfl⟩

/-- Only a MEDIA_STATUS stores a media session or announces its end. -/
theorem mediaStatusIn_of_mem_effects {e : Effect} (h : e ∈ effects serde msg)
    (he : (∃ id, e = .storeSession id) ∨ ∃ id reason, e = .offer (.mediaSessionEnded id reason)) :
    ∃ status, mediaStatusIn serde msg = some status ∧ e ∈ mediaEffects status := by
  simp only [effects, List.mem_append] at h
  rcases h with (((h | h) | h) | h) | h
  · obtain ⟨id, json, rfl⟩ := mem_resolveEffects h
    simp at he
  · cases hin : receiverStatusIn serde msg with
    | none => simp [hin] at h
    | some status =>
        rw [hin] at h
        simp only [Option.elim_some, receiverEffects, List.mem_cons, List.not_mem_nil,
          or_false] at h
        rcases h with rfl | rfl <;> simp at he
  · cases hin : mediaStatusIn serde msg with
    | none => simp [hin] at h
    | some status =>
        rw [hin] at h
        exact ⟨status, rfl, h⟩
  · split at h <;> simp_all [rawEvent]
  · split at h <;> simp_all

theorem storeSession_mem_mediaEffects {status : MediaStatus} {id : Int32} :
    .storeSession id ∈ mediaEffects status ↔
      0 < status.mediaSessionId ∧ id = status.mediaSessionId := by
  unfold mediaEffects
  by_cases hpos : 0 < status.mediaSessionId
  · rw [if_pos hpos]
    cases endedEvent status <;> simp [hpos]
  · rw [if_neg hpos]
    cases endedEvent status <;> simp [hpos]

theorem ended_mem_mediaEffects {status : MediaStatus} {id : Int32} {reason : IdleReason}
    (h : .offer (.mediaSessionEnded id reason) ∈ mediaEffects status) :
    status.playerState = .idle ∧ 0 < status.mediaSessionId ∧ id = status.mediaSessionId ∧
      status.idleReason = some reason := by
  unfold mediaEffects endedEvent at h
  by_cases hidle : status.playerState = .idle ∧ 0 < status.mediaSessionId
  · rw [if_pos hidle, if_pos hidle.2] at h
    cases hreason : status.idleReason with
    | none => simp [hreason] at h
    | some own =>
        simp only [hreason, Option.map_some, Option.toList_some, List.map_cons, List.map_nil,
          List.mem_append, List.mem_cons, List.not_mem_nil, or_false, Effect.offer.injEq,
          CastEvent.mediaSessionEnded.injEq, reduceCtorEq, false_or] at h
        obtain ⟨rfl, rfl⟩ := h
        exact ⟨hidle.1, hidle.2, rfl, rfl⟩
  · rw [if_neg hidle] at h
    split at h <;> simp at h

/-! ## single fields -/

/-- The event a write offers. -/
def Effect.event? : Effect → Option CastEvent
  | .offer event => some event
  | _ => none

/-- The events a message leads to. -/
def eventsOf (serde : SerdeJson) (msg : CastMessage) : List CastEvent :=
  (effects serde msg).filterMap Effect.event?

theorem mem_eventsOf_iff {event : CastEvent} :
    event ∈ eventsOf serde msg ↔ .offer event ∈ effects serde msg := by
  rw [eventsOf, List.mem_filterMap]
  constructor
  · rintro ⟨e, he, hevent⟩
    cases e with
    | offer event' => exact Option.some.inj hevent ▸ he
    | _ => contradiction
  · intro h
    exact ⟨_, h, rfl⟩

/-- Every status event is the one of a parsed RECEIVER_STATUS. -/
theorem receiverStatusIn_of_mem_eventsOf {status : ReceiverStatus}
    (h : .receiverStatusChanged status ∈ eventsOf serde msg) :
    receiverStatusIn serde msg = some status := by
  rw [mem_eventsOf_iff] at h
  simp only [effects, List.mem_append] at h
  rcases h with (((h | h) | h) | h) | h
  · simp [resolveEffects] at h
  · cases hin : receiverStatusIn serde msg with
    | none => simp [hin] at h
    | some own =>
        rw [hin] at h
        simpa [receiverEffects, eq_comm] using h
  · cases hin : mediaStatusIn serde msg with
    | none => simp [hin] at h
    | some own =>
        rw [hin] at h
        simp only [mediaEffects, endedEvent, Option.elim_some, List.mem_append] at h
        rcases h with (h | h) | h
        · split at h <;> simp at h
        · split at h <;> simp at h
        · simp at h
  · split at h <;> simp [rawEvent] at h
  · split at h <;> simp at h

theorem offered_foldl (s : Router) (es : List Effect) :
    (es.foldl apply s).offered = s.offered ++ es.filterMap Effect.event? := by
  induction es generalizing s with
  | nil => simp
  | cons e es ih =>
      rw [List.foldl_cons, ih]
      cases e <;> simp [apply, offer, Effect.event?, List.filterMap_cons]

/-- The events `route` offers are told by the message. -/
theorem offered_route (serde : SerdeJson) (s : Router) (msg : CastMessage) :
    (s.route serde msg).offered = s.offered ++ eventsOf serde msg := by
  rw [route_eq_foldl, offered_foldl, eventsOf]

/-- The status a write puts on the media watch, and on the receiver watch. -/
def Effect.media? : Effect → Option MediaStatus
  | .publishMedia status => some status
  | _ => none

def Effect.receiver? : Effect → Option ReceiverStatus
  | .publishReceiver status => some status
  | _ => none

/-- What is neither resolved, offered nor replied comes from a status. -/
theorem filterMap_effects {γ : Type} (f : Effect → Option γ)
    (hresolve : ∀ id json, f (.resolve id json) = none)
    (hoffer : ∀ event, f (.offer event) = none) (hreply : ∀ msg, f (.reply msg) = none) :
    (effects serde msg).filterMap f =
      ((receiverStatusIn serde msg).elim [] receiverEffects).filterMap f ++
        ((mediaStatusIn serde msg).elim [] mediaEffects).filterMap f := by
  have hfirst : (resolveEffects serde msg).filterMap f = [] := by
    unfold resolveEffects
    cases resolveCall serde msg <;> simp [hresolve]
  have hpassed :
      (if PassedOn serde msg then [Effect.offer (rawEvent msg)] else []).filterMap f = [] := by
    split <;> simp [hoffer]
  have hping : (if isPing msg then [Effect.reply (pong serde)] else []).filterMap f = [] := by
    split <;> simp [hreply]
  simp only [effects, List.filterMap_append, hfirst, hpassed, hping, List.nil_append,
    List.append_nil]

/-- A message leads to one send on the media watch, of the status it carries. -/
theorem filterMap_media_effects (serde : SerdeJson) (msg : CastMessage) :
    (effects serde msg).filterMap Effect.media? = (mediaStatusIn serde msg).toList := by
  have hmedia (status : MediaStatus) :
      (mediaEffects status).filterMap Effect.media? = [status] := by
    unfold mediaEffects
    cases endedEvent status <;> split <;> simp [Effect.media?, List.filterMap_cons]
  rw [filterMap_effects _ (fun _ _ => rfl) (fun _ => rfl) (fun _ => rfl)]
  cases receiverStatusIn serde msg <;> cases mediaStatusIn serde msg <;>
    simp [receiverEffects, hmedia, Effect.media?, List.filterMap_cons]

/-- A message leads to one send on the receiver watch, of the status it carries. -/
theorem filterMap_receiver_effects (serde : SerdeJson) (msg : CastMessage) :
    (effects serde msg).filterMap Effect.receiver? = (receiverStatusIn serde msg).toList := by
  have hmedia (status : MediaStatus) : (mediaEffects status).filterMap Effect.receiver? = [] := by
    unfold mediaEffects
    cases endedEvent status <;> split <;> simp [Effect.receiver?, List.filterMap_cons]
  rw [filterMap_effects _ (fun _ _ => rfl) (fun _ => rfl) (fun _ => rfl)]
  cases receiverStatusIn serde msg <;> cases mediaStatusIn serde msg <;>
    simp [receiverEffects, hmedia, Effect.receiver?, List.filterMap_cons]

/-- Only the writes that publish a status change the media watch. -/
theorem media_foldl (s : Router) (es : List Effect) (h : es.filterMap Effect.media? = []) :
    (es.foldl apply s).media = s.media := by
  induction es generalizing s with
  | nil => rfl
  | cons e es ih =>
      rw [List.filterMap_cons] at h
      cases e with
      | publishMedia status => simp [Effect.media?] at h
      | _ => exact ih _ h

/-- A message without a status leaves the media watch alone. -/
theorem media_route (h : mediaStatusIn serde msg = none) : (s.route serde msg).media = s.media := by
  rw [route_eq_foldl]
  exact media_foldl s _ (by rw [filterMap_media_effects, h]; rfl)

/-- The message a write replies. -/
def Effect.reply? : Effect → Option CastMessage
  | .reply msg => some msg
  | _ => none

theorem outbound_foldl (s : Router) (es : List Effect) :
    (es.foldl apply s).outbound = s.outbound ++ es.filterMap Effect.reply? := by
  induction es generalizing s with
  | nil => simp
  | cons e es ih =>
      rw [List.foldl_cons, ih]
      cases e <;> simp [apply, offer, Effect.reply?, List.filterMap_cons]

/-- Only a PING is replied to. -/
theorem filterMap_reply_effects (serde : SerdeJson) (msg : CastMessage) :
    (effects serde msg).filterMap Effect.reply? = if isPing msg then [pong serde] else [] := by
  have hresolve : (resolveEffects serde msg).filterMap Effect.reply? = [] := by
    unfold resolveEffects
    cases resolveCall serde msg <;> rfl
  have hreceiver :
      ((receiverStatusIn serde msg).elim [] receiverEffects).filterMap Effect.reply? = [] := by
    cases receiverStatusIn serde msg <;> rfl
  have hmedia : ((mediaStatusIn serde msg).elim [] mediaEffects).filterMap Effect.reply? = [] := by
    cases mediaStatusIn serde msg with
    | none => rfl
    | some status =>
        simp only [Option.elim_some, mediaEffects]
        cases endedEvent status <;> split <;> rfl
  have hpassed : (if PassedOn serde msg then [Effect.offer (rawEvent msg)] else []).filterMap
      Effect.reply? = [] := by
    split <;> rfl
  simp only [effects, List.filterMap_append, hresolve, hreceiver, hmedia, hpassed, List.nil_append]
  split <;> rfl

theorem outbound_route (serde : SerdeJson) (s : Router) (msg : CastMessage) :
    (s.route serde msg).outbound = s.outbound ++ if isPing msg then [pong serde] else [] := by
  rw [route_eq_foldl, outbound_foldl, filterMap_reply_effects]

end Oxicast.Router
