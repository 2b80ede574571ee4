import Oxicast.Router
import Mathlib.Data.List.Induction

/-!
# Oxicast.Router.Consumers

The router against the pace of whoever reads its events.

`route` only ever writes to the event channel (`mute_route`), so two runs over
the same messages agree on everything else, whatever the capacities and however
the `next_event` calls fall in between.  What a run consumes is told from what
it offers by the room the buffer had at the time (`Lossy`).
-/

namespace Oxicast

/-! ## a bounded queue and what it is offered -/

namespace Mpsc

variable {α : Type*}

/-- What `try_send` makes of a list of items: each with whether the buffer had room. -/
def offers (q : Mpsc α) : List α → List (α × Bool)
  | [] => []
  | a :: as => (a, q.buffer.length < q.capacity) :: (q.trySend a).offers as

/-- The items there was room for. -/
def accepted (log : List (α × Bool)) : List α := (log.filter (·.2)).map (·.1)

theorem map_fst_offers (q : Mpsc α) (as : List α) : (q.offers as).map (·.1) = as := by
  induction as generalizing q with
  | nil => rfl
  | cons a as ih => rw [offers, List.map_cons, ih]

theorem accepted_append (log log' : List (α × Bool)) :
    accepted (log ++ log') = accepted log ++ accepted log' := by
  simp [accepted]

theorem accepted_sublist (log : List (α × Bool)) : (accepted log).Sublist (log.map (·.1)) :=
  List.filter_sublist.map _

/-- The buffer grows by the items there was room for. -/
theorem buffer_foldl_trySend (q : Mpsc α) (as : List α) :
    (as.foldl trySend q).buffer = q.buffer ++ accepted (q.offers as) := by
  induction as generalizing q with
  | nil => simp [offers, accepted]
  | cons a as ih =>
      rw [List.foldl_cons, ih, offers, trySend]
      by_cases h : q.buffer.length < q.capacity
      · simp [h, accepted]
      · simp [h, accepted]

end Mpsc

namespace Router

open Ns

variable {serde : SerdeJson} {s s' : Router} {msg : CastMessage} {json : Json}

/-! ## everything but the events -/

/-- The router without its event channel. -/
def mute (s : Router) : Router := { s with events := ⟨[], 0⟩ }

theorem mute_resolveRequest (s : Router) (json : Json) :
    (s.resolveRequest json).mute = s.mute.resolveRequest json := by
  unfold resolveRequest
  split
  · split <;> rfl
  · rfl

theorem mute_publishMediaStatus (s : Router) (status : MediaStatus) :
    (s.publishMediaStatus status).mute = (s.mute.publishMediaStatus status).mute := by
  unfold publishMediaStatus
  split
  · split
    · split <;> rfl
    · rfl
  · split
    · split <;> rfl
    · rfl

theorem mute_routeReceiver (s : Router) (json : Json) :
    (s.routeReceiver json).mute = (s.mute.routeReceiver json).mute := by
  unfold routeReceiver
  rw [← mute_resolveRequest]
  split
  · split <;> rfl
  · rfl

theorem mute_routeMedia (s : Router) (json : Json) :
    (s.routeMedia json).mute = (s.mute.routeMedia json).mute := by
  unfold routeMedia
  rw [← mute_resolveRequest]
  split
  · simp only
    split
    · exact mute_publishMediaStatus _ _
    · rfl
  all_goals rfl

theorem mute_routeCustom (s : Router) (msg : CastMessage) :
    (s.routeCustom serde msg).mute = (s.mute.routeCustom serde msg).mute := by
  unfold routeCustom
  split
  · split
    · split <;> rfl
    · rfl
  · rfl

/-- `route` reads nothing of the event channel. -/
theorem mute_route (serde : SerdeJson) (s : Router) (msg : CastMessage) :
    (s.route serde msg).mute = (s.mute.route serde msg).mute := by
  simp only [route]
  split_ifs
  · rfl
  · rfl
  · split
    · split <;> rfl
    · rfl
  · split
    · exact mute_routeReceiver s _
    · rfl
  · split
    · exact mute_routeMedia s _
    · rfl
  · exact mute_routeCustom s msg

/-! ## the events -/

/-- From `s` to `s'` the events `es` are offered to the channel, one by one. -/
structure Emits (s s' : Router) (es : List CastEvent) : Prop where
  offered : s'.offered = s.offered ++ es
  events : s'.events = es.foldl Mpsc.trySend s.events

theorem Emits.of_eq (ho : s'.offered = s.offered) (he : s'.events = s.events) : Emits s s' [] :=
  ⟨by simp [ho], he⟩

theorem Emits.offer {es : List CastEvent} (h : Emits s s' es) (e : CastEvent) :
    Emits s (s'.offer e) (es ++ [e]) :=
  ⟨by simp [Router.offer, h.offered], by simp [Router.offer, h.events]⟩

theorem emits_resolveRequest (s : Router) (json : Json) : Emits s (s.resolveRequest json) [] := by
  unfold resolveRequest
  split
  · split <;> exact .of_eq rfl rfl
  · exact .of_eq rfl rfl

theorem emits_publishMediaStatus (h : Emits s s' []) (status : MediaStatus) :
    ∃ es, Emits s (s'.publishMediaStatus status) es := by
  have hset (id : Int32) : Emits s { s' with mediaSessionId := id } [] := ⟨h.offered, h.events⟩
  have hpublish {t : Router} {es : List CastEvent} (ht : Emits s t es) :
      Emits s ({ t with media := t.media.send (some status) }.offer (.mediaStatusChanged status))
        (es ++ [.mediaStatusChanged status]) := by
    have hsend : Emits s { t with media := t.media.send (some status) } es :=
      ⟨ht.offered, ht.events⟩
    exact hsend.offer _
  unfold publishMediaStatus
  split
  · split
    · split
      · exact ⟨_, hpublish ((hset _).offer _)⟩
      · exact ⟨_, hpublish (hset _)⟩
    · exact ⟨_, hpublish (hset _)⟩
  · split
    · split
      · exact ⟨_, hpublish (h.offer _)⟩
      · exact ⟨_, hpublish h⟩
    · exact ⟨_, hpublish h⟩

theorem emits_routeReceiver (s : Router) (json : Json) :
    ∃ es, Emits s (s.routeReceiver json) es := by
  have hres := emits_resolveRequest s json
  unfold routeReceiver
  simp only
  split
  · split
    next status _ =>
      have hsend : Emits s { s.resolveRequest json with
          receiver := (s.resolveRequest json).receiver.send (some status) } [] :=
        ⟨hres.offered, hres.events⟩
      exact ⟨_, hsend.offer _⟩
    · exact ⟨_, hres⟩
  · exact ⟨_, hres⟩

theorem emits_routeMedia (s : Router) (json : Json) : ∃ es, Emits s (s.routeMedia json) es := by
  have hres := emits_resolveRequest s json
  unfold routeMedia
  split
  · simp only
    split
    · exact emits_publishMediaStatus hres _
    · exact ⟨_, hres⟩
  · exact ⟨_, hres⟩
  · exact ⟨_, hres⟩
  · exact ⟨_, hres⟩
  · exact ⟨_, .of_eq rfl rfl⟩

theorem emits_routeCustom (s : Router) (msg : CastMessage) :
    ∃ es, Emits s (s.routeCustom serde msg) es := by
  have hraw : Emits s (s.offer (rawEvent msg)) ([] ++ [rawEvent msg]) :=
    (Emits.of_eq rfl rfl).offer _
  unfold routeCustom
  split
  · split
    · split
      · exact ⟨_, .of_eq rfl rfl⟩
      · exact ⟨_, hraw⟩
    · exact ⟨_, hraw⟩
  · exact ⟨_, hraw⟩

/-- Everything `route` does to the event channel is to offer it events. -/
theorem emits_route (serde : SerdeJson) (s : Router) (msg : CastMessage) :
    ∃ es, Emits s (s.route serde msg) es := by
  have hraw : Emits s (s.offer (rawEvent msg)) ([] ++ [rawEvent msg]) :=
    (Emits.of_eq rfl rfl).offer _
  simp only [route]
  split_ifs
  · exact ⟨_, .of_eq rfl rfl⟩
  · exact ⟨_, .of_eq rfl rfl⟩
  · split
    · split
      · exact ⟨_, hraw⟩
      · exact ⟨_, .of_eq rfl rfl⟩
    · exact ⟨_, .of_eq rfl rfl⟩
  · split
    · exact emits_routeReceiver s _
    · exact ⟨_, .of_eq rfl rfl⟩
  · split
    · exact emits_routeMedia s _
    · exact ⟨_, .of_eq rfl rfl⟩
  · exact emits_routeCustom s msg

/-! ## the watches -/

/-- The MEDIA_STATUS a message carries, if it parses. -/
def mediaStatusIn (serde : SerdeJson) (msg : CastMessage) : Option MediaStatus :=
  if msg.ns = nsMedia then
    (serde.fromStr (msg.payloadUtf8.getD "")).bind fun json =>
      if messageType json = msgMediaStatus then parseMediaStatus json else none
  else none

/-- The RECEIVER_STATUS a message carries, if it parses. -/
def receiverStatusIn (serde : SerdeJson) (msg : CastMessage) : Option ReceiverStatus :=
  if msg.ns = nsReceiver then
    (serde.fromStr (msg.payloadUtf8.getD "")).bind fun json =>
      if messageType json = msgReceiverStatus then parseReceiverStatus json else none
  else none

/-- The status a message carries is what its payload parses to. -/
theorem parse_of_mediaStatusIn {json : Json} {status : MediaStatus}
    (hjson : serde.fromStr (msg.payloadUtf8.getD "") = some json)
    (h : mediaStatusIn serde msg = some status) : parseMediaStatus json = some status := by
  unfold mediaStatusIn at h
  split at h
  next =>
    rw [hjson, Option.bind_some] at h
    split at h
    next => exact h
    next => contradiction
  next => contradiction

theorem parse_of_receiverStatusIn {json : Json} {status : ReceiverStatus}
    (hjson : serde.fromStr (msg.payloadUtf8.getD "") = some json)
    (h : receiverStatusIn serde msg = some status) : parseReceiverStatus json = some status := by
  unfold receiverStatusIn at h
  split at h
  next =>
    rw [hjson, Option.bind_some] at h
    split at h
    next => exact h
    next => contradiction
  next => contradiction

/-- The value a watch has after an optional send. -/
def sent {α : Type} (w : Watch (Option α)) (status : Option α) : Option α :=
  status.elim w.value some

theorem watches_resolveRequest (s : Router) (json : Json) :
    (s.resolveRequest json).media = s.media ∧ (s.resolveRequest json).receiver = s.receiver := by
  unfold resolveRequest
  split
  · split <;> exact ⟨rfl, rfl⟩
  · exact ⟨rfl, rfl⟩

theorem watches_publishMediaStatus (s : Router) (status : MediaStatus) :
    (s.publishMediaStatus status).media.value = some status ∧
      (s.publishMediaStatus status).receiver = s.receiver := by
  unfold publishMediaStatus
  split
  · split
    · split <;> exact ⟨rfl, rfl⟩
    · exact ⟨rfl, rfl⟩
  · split
    · split <;> exact ⟨rfl, rfl⟩
    · exact ⟨rfl, rfl⟩

theorem watches_routeReceiver (s : Router) (json : Json) :
    (s.routeReceiver json).media = s.media ∧
      (s.routeReceiver json).receiver.value = sent s.receiver
        (if messageType json = msgReceiverStatus then parseReceiverStatus json else none) := by
  obtain ⟨hmedia, hreceiver⟩ := watches_resolveRequest s json
  simp only [routeReceiver]
  split
  · cases parseReceiverStatus json with
    | none => exact ⟨hmedia, by rw [hreceiver]; rfl⟩
    | some status => exact ⟨hmedia, rfl⟩
  · exact ⟨hmedia, by rw [hreceiver]; rfl⟩

theorem classifyMediaMessage_eq_status_iff (msgType : String) :
    classifyMediaMessage msgType = .status ↔ msgType = msgMediaStatus := by
  unfold classifyMediaMessage
  split_ifs <;> simp_all

theorem watches_routeMedia (s : Router) (json : Json) :
    (s.routeMedia json).receiver = s.receiver ∧
      (s.routeMedia json).media.value = sent s.media
        (if messageType json = msgMediaStatus then parseMediaStatus json else none) := by
  have htype := classifyMediaMessage_eq_status_iff (messageType json)
  obtain ⟨hmedia, hreceiver⟩ := watches_resolveRequest s json
  unfold routeMedia
  cases hc : classifyMediaMessage (messageType json) with
  | status =>
      rw [if_pos (htype.1 hc)]
      cases parseMediaStatus json with
      | none => exact ⟨hreceiver, by rw [hmedia]; rfl⟩
      | some status =>
          obtain ⟨hpub, hkeep⟩ := watches_publishMediaStatus (s.resolveRequest json) status
          exact ⟨hkeep.trans hreceiver, hpub⟩
  | unknown =>
      rw [if_neg fun h => by simp [htype.2 h] at hc]
      exact ⟨rfl, rfl⟩
  | _ =>
      rw [if_neg fun h => by simp [htype.2 h] at hc]
      exact ⟨hreceiver, by rw [hmedia]; rfl⟩

theorem watches_routeCustom (s : Router) (msg : CastMessage) :
    (s.routeCustom serde msg).media = s.media ∧
    (s.routeCustom serde msg).receiver = s.receiver := by
  unfold routeCustom
  split
  · split
    · split <;> exact ⟨rfl, rfl⟩
    · exact ⟨rfl, rfl⟩
  · exact ⟨rfl, rfl⟩

/-- The watches take up every status that parses, and nothing else. -/
theorem watches_route (serde : SerdeJson) (s : Router) (msg : CastMessage) :
    (s.route serde msg).media.value = sent s.media (mediaStatusIn serde msg) ∧
      (s.route serde msg).receiver.value = sent s.receiver (receiverStatusIn serde msg) := by
  simp only [route]
  split_ifs with hheart hping hconn hrecv hmedia
  · simp [mediaStatusIn, receiverStatusIn, hheart, nsHeartbeat, nsMedia, nsReceiver, sent]
  · simp [mediaStatusIn, receiverStatusIn, hheart, nsHeartbeat, nsMedia, nsReceiver, sent]
  · have hnone : mediaStatusIn serde msg = none ∧ receiverStatusIn serde msg = none := by
      simp [mediaStatusIn, receiverStatusIn, hconn, nsConnection, nsMedia, nsReceiver]
    rw [hnone.1, hnone.2]
    split
    · split <;> exact ⟨rfl, rfl⟩
    · exact ⟨rfl, rfl⟩
  · have hnone : mediaStatusIn serde msg = none := by
      simp [mediaStatusIn, hrecv, nsMedia, nsReceiver]
    rw [hnone, receiverStatusIn, if_pos hrecv]
    cases serde.fromStr (msg.payloadUtf8.getD "") with
    | none => exact ⟨rfl, rfl⟩
    | some json =>
        obtain ⟨hkeep, hsend⟩ := watches_routeReceiver s json
        exact ⟨by rw [hkeep]; rfl, hsend⟩
  · have hnone : receiverStatusIn serde msg = none := by
      simp [receiverStatusIn, hmedia, nsMedia, nsReceiver]
    rw [hnone, mediaStatusIn, if_pos hmedia]
    cases serde.fromStr (msg.payloadUtf8.getD "") with
    | none => exact ⟨rfl, rfl⟩
    | some json =>
        obtain ⟨hkeep, hsend⟩ := watches_routeMedia s json
        exact ⟨hsend, by rw [hkeep]; rfl⟩
  · obtain ⟨hm, hr⟩ := @watches_routeCustom serde s msg
    simp [mediaStatusIn, receiverStatusIn, hrecv, hmedia, hm, hr, sent]

end Router

/-! ## a consumer -/

/-- What happens at the router: a message comes in, or `next_event` is polled. -/
inductive RouterAct where
  | inbound (msg : CastMessage)
  | nextEvent

/-- The messages of a schedule. -/
def inbound (acts : List RouterAct) : List CastMessage :=
  acts.filterMap fun
    | .inbound msg => some msg
    | .nextEvent => none

theorem inbound_snoc_inbound (acts : List RouterAct) (msg : CastMessage) :
    inbound (acts ++ [.inbound msg]) = inbound acts ++ [msg] := by
  simp [inbound]

theorem inbound_snoc_nextEvent (acts : List RouterAct) :
    inbound (acts ++ [.nextEvent]) = inbound acts := by
  simp [inbound]

/-- The router and what has been consumed of its events.  `log` is a history
variable: the events offered, each with whether the buffer had room for it. -/
structure Consumer where
  router : Router
  consumed : List CastEvent
  log : List (CastEvent × Bool)

namespace Consumer

variable {serde : SerdeJson} {c : Consumer} {msgs : List CastMessage}
    {acts acts₁ acts₂ : List RouterAct}

def step (serde : SerdeJson) (c : Consumer) : RouterAct → Consumer
  | .inbound msg =>
      let after := c.router.route serde msg
      { c with
        router := after
        log := c.log ++ c.router.events.offers (after.offered.drop c.router.offered.length) }
  | .nextEvent =>
      match c.router.events.recv true with
      | (.item event, events) =>
          { c with router := { c.router with events }, consumed := c.consumed ++ [event] }
      | (_, events) => { c with router := { c.router with events } }

/-- A schedule on a new connection. -/
def run (serde : SerdeJson) (requests : Requests) (eventBufferSize : Nat) (acts : List RouterAct) :
    Consumer :=
  acts.foldl (step serde) ⟨.new requests eventBufferSize, [], []⟩

theorem run_snoc (serde : SerdeJson) (requests : Requests) (eventBufferSize : Nat)
    (acts : List RouterAct) (a : RouterAct) :
    run serde requests eventBufferSize (acts ++ [a]) =
      (run serde requests eventBufferSize acts).step serde a := by
  rw [run, List.foldl_append, List.foldl_cons, List.foldl_nil, run]

/-- What the events come to: those there was room for are consumed, or still in
the buffer, in the order they were offered in; and the watches are up to date. -/
structure Lossy (serde : SerdeJson) (msgs : List CastMessage) (c : Consumer) : Prop where
  logged : c.log.map (·.1) = c.router.offered
  kept : c.consumed ++ c.router.events.buffer = Mpsc.accepted c.log
  media : c.router.media.value = (msgs.filterMap (Router.mediaStatusIn serde)).getLast?
  receiver : c.router.receiver.value = (msgs.filterMap (Router.receiverStatusIn serde)).getLast?

/-- What is consumed is an ordered part of what the router emits. -/
theorem Lossy.sublist (h : Lossy serde msgs c) : c.consumed.Sublist c.router.offered := by
  have hpart : c.consumed.Sublist (Mpsc.accepted c.log) := by
    rw [← h.kept]; exact List.sublist_append_left _ _
  exact hpart.trans (h.logged ▸ Mpsc.accepted_sublist c.log)

/-- One more status, or none. -/
theorem getLast?_snoc {α : Type} (f : CastMessage → Option α) (msgs : List CastMessage)
    (msg : CastMessage) : ((msgs ++ [msg]).filterMap f).getLast? =
      (f msg).elim (msgs.filterMap f).getLast? some := by
  rw [List.filterMap_append]
  cases h : f msg <;> simp [h]

theorem Lossy.inbound (h : Lossy serde msgs c) (msg : CastMessage) :
    Lossy serde (msgs ++ [msg]) (c.step serde (.inbound msg)) := by
  obtain ⟨logged, kept, media, receiver⟩ := h
  obtain ⟨es, hoffered, hevents⟩ := Router.emits_route serde c.router msg
  obtain ⟨hmedia, hreceiver⟩ := Router.watches_route serde c.router msg
  have hnew : (c.router.route serde msg).offered.drop c.router.offered.length = es := by
    rw [hoffered, List.drop_left]
  have hlog : (c.step serde (.inbound msg)).log = c.log ++ c.router.events.offers es := by
    rw [← hnew]; rfl
  refine ⟨?_, ?_, ?_, ?_⟩
  · rw [hlog, List.map_append, logged, Mpsc.map_fst_offers]
    exact hoffered.symm
  · rw [hlog, Mpsc.accepted_append, ← kept,
      List.append_assoc, ← Mpsc.buffer_foldl_trySend, ← hevents]
    rfl
  · rw [getLast?_snoc, ← media]; exact hmedia
  · rw [getLast?_snoc, ← receiver]; exact hreceiver

/-- `next_event` moves the head of the buffer, if there is one. -/
theorem step_nextEvent (serde : SerdeJson) (c : Consumer) :
    ∃ events consumed, c.step serde .nextEvent =
        { c with router := { c.router with events }, consumed } ∧
      consumed ++ events.buffer = c.consumed ++ c.router.events.buffer := by
  simp only [step, Mpsc.recv]
  cases hb : c.router.events.buffer with
  | nil => exact ⟨_, _, rfl, by rw [hb]⟩
  | cons event rest => exact ⟨_, _, rfl, by simp⟩

theorem Lossy.nextEvent (h : Lossy serde msgs c) : Lossy serde msgs (c.step serde .nextEvent) := by
  obtain ⟨logged, kept, media, receiver⟩ := h
  obtain ⟨events, consumed, heq, hsame⟩ := c.step_nextEvent serde
  rw [heq]
  exact ⟨logged, hsame.trans kept, media, receiver⟩

theorem lossy_run (serde : SerdeJson) (requests : Requests) (eventBufferSize : Nat)
    (acts : List RouterAct) :
    Lossy serde (Oxicast.inbound acts) (run serde requests eventBufferSize acts) := by
  induction acts using List.reverseRecOn with
  | nil => exact ⟨rfl, rfl, rfl, rfl⟩
  | append_singleton acts a ih =>
      rw [run_snoc]
      cases a with
      | inbound msg => rw [inbound_snoc_inbound]; exact ih.inbound msg
      | nextEvent => rw [inbound_snoc_nextEvent]; exact ih.nextEvent

/-! ## two runs -/

/-- All that somebody can see who does not read events. -/
structure SameBesides (s s' : Router) : Prop where
  requests : s.requests = s'.requests
  media : s.media = s'.media
  receiver : s.receiver = s'.receiver
  mediaSessionId : s.mediaSessionId = s'.mediaSessionId
  outbound : s.outbound = s'.outbound
  offered : s.offered = s'.offered

theorem sameBesides_of_mute {s s' : Router} (h : s.mute = s'.mute) : SameBesides s s' := by
  simp only [Router.mute, Router.mk.injEq] at h
  obtain ⟨requests, -, offered, media, receiver, mediaSessionId, outbound⟩ := h
  exact ⟨requests, media, receiver, mediaSessionId, outbound, offered⟩

theorem mute_nextEvent (serde : SerdeJson) (c : Consumer) :
    (c.step serde .nextEvent).router.mute = c.router.mute := by
  obtain ⟨events, consumed, heq, -⟩ := c.step_nextEvent serde
  rw [heq]
  rfl

/-- Without its events a run is the routing of its messages. -/
theorem mute_run (serde : SerdeJson) (requests : Requests) (eventBufferSize : Nat)
    (acts : List RouterAct) :
    (run serde requests eventBufferSize acts).router.mute =
      (Oxicast.inbound acts).foldl (fun s msg => (s.route serde msg).mute) (.new requests 0) := by
  induction acts using List.reverseRecOn with
  | nil => rfl
  | append_singleton acts a ih =>
      rw [run_snoc]
      cases a with
      | inbound msg =>
          rw [inbound_snoc_inbound, List.foldl_append, List.foldl_cons, List.foldl_nil, ← ih,
            ← Router.mute_route]
          rfl
      | nextEvent => rw [inbound_snoc_nextEvent, mute_nextEvent, ih]

/-- **Slow consumers lose events and nothing else**: two runs over the same
messages agree on everything but the event channel, whatever the capacities and
the schedules of `next_event`; in each one the events consumed are an ordered
part of the events emitted, only a full buffer loses one, and the watches hold
the last status that parsed. -/
theorem slow_consumers (serde : SerdeJson) (requests : Requests) (size₁ size₂ : Nat)
    (h : Oxicast.inbound acts₁ = Oxicast.inbound acts₂) :
    SameBesides (run serde requests size₁ acts₁).router (run serde requests size₂ acts₂).router ∧
      ∀ size acts, Lossy serde (Oxicast.inbound acts) (run serde requests size acts) ∧
        (run serde requests size acts).consumed.Sublist
          (run serde requests size acts).router.offered := by
  refine ⟨sameBesides_of_mute ?_, fun size acts => ?_⟩
  · rw [mute_run, mute_run, h]
  · have hlossy := lossy_run serde requests size acts
    exact ⟨hlossy, hlossy.sublist⟩

/-- A custom message with the given text. -/
def newsMsg (payload : String) : CastMessage :=
  buildMessage "urn:x-cast:com.example" "web-1" "sender-0" payload

def newsSerde : SerdeJson := .ofText "" .null

/-- Two messages, read after both have come in and one by one. -/
def lateActs : List RouterAct :=
  [.inbound (newsMsg "one"), .inbound (newsMsg "two"), .nextEvent, .nextEvent]

def promptActs : List RouterAct :=
  [.inbound (newsMsg "one"), .nextEvent, .inbound (newsMsg "two"), .nextEvent]

/-- With room for one event the late reader misses the second one. -/
theorem slow_consumers_late :
    (run newsSerde .new 1 lateActs).consumed = [Router.rawEvent (newsMsg "one")] ∧
      (run newsSerde .new 1 promptActs).consumed.length = 2 ∧
      SameBesides (run newsSerde .new 1 lateActs).router (run newsSerde .new 1 promptActs).router :=
  ⟨by rfl, by rfl, (@slow_consumers lateActs promptActs newsSerde .new 1 1 rfl).1⟩

end Consumer

end Oxicast
