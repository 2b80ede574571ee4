import Oxicast.Router
import Oxicast.Tracker.Correlation

/-!
# Oxicast.Router.Delivery

Which request an inbound message answers.

`route` calls `resolve` at most once per message; `resolveCall` is the id and
the payload it does so with, read off the message alone.  Everything the router
does to the pending map and to the waiting requests is that one call
(`requests_route`), so the delivery properties are properties of `resolveCall`.
-/

namespace Oxicast.Router

open Ns

variable {serde : SerdeJson} {s : Router} {msg : CastMessage} {json : Json} {k : UInt32} {r : Nat}

/-! ## the one resolve call -/

@[simp] theorem requests_offer (s : Router) (e : CastEvent) : (s.offer e).requests = s.requests :=
  rfl
@[simp] theorem offered_offer (s : Router) (e : CastEvent) :
    (s.offer e).offered = s.offered ++ [e] := rfl

@[simp] theorem requests_publishMediaStatus (s : Router) (status : MediaStatus) :
    (s.publishMediaStatus status).requests = s.requests := by
  simp only [publishMediaStatus, requests_offer]
  split <;> split <;> try split
  all_goals rfl

/-- The id and payload a `requestId` check passes on to `resolve`. -/
def checkedId (json : Json) : Option (UInt32 × Json) :=
  (json.u64At "requestId").bind fun requestId =>
    if 0 < requestId then some (requestId.toUInt32, json) else none

/-- The `resolve` call `route` makes for a message. -/
def resolveCall (serde : SerdeJson) (msg : CastMessage) : Option (UInt32 × Json) :=
  if msg.ns = nsHeartbeat ∨ msg.ns = nsConnection then none
  else (serde.fromStr (msg.payloadUtf8.getD "")).bind fun json =>
    if msg.ns = nsMedia ∧ classifyMediaMessage (messageType json) = .unknown then none
    else checkedId json

/-- The requests after an optional `resolve` call. -/
def resolved (requests : Requests) : Option (UInt32 × Json) → Requests
  | some (id, json) => (requests.resolve id json).2
  | none => requests

theorem requests_resolveRequest (s : Router) (json : Json) :
    (s.resolveRequest json).requests = resolved s.requests (checkedId json) := by
  unfold resolveRequest checkedId
  cases json.u64At "requestId" with
  | none => rfl
  | some requestId =>
      simp only [Option.bind_some]
      split <;> rfl

theorem requests_routeReceiver (s : Router) (json : Json) :
    (s.routeReceiver json).requests = resolved s.requests (checkedId json) := by
  rw [← requests_resolveRequest]
  unfold routeReceiver
  split
  · split <;> rfl
  · rfl

theorem requests_routeMedia (s : Router) (json : Json) :
    (s.routeMedia json).requests = resolved s.requests
      (if classifyMediaMessage (messageType json) = .unknown then none else checkedId json) := by
  unfold routeMedia
  cases hc : classifyMediaMessage (messageType json) with
  | status =>
      rw [if_neg (by simp), ← requests_resolveRequest]
      simp only
      split <;> simp
  | loadFailed => rw [if_neg (by simp)]; exact requests_resolveRequest s json
  | loadCancelled => rw [if_neg (by simp)]; exact requests_resolveRequest s json
  | invalidRequest => rw [if_neg (by simp)]; exact requests_resolveRequest s json
  | unknown => rw [if_pos rfl]; rfl

theorem requests_routeCustom (serde : SerdeJson) (s : Router) (msg : CastMessage) :
    (s.routeCustom serde msg).requests =
      resolved s.requests ((serde.fromStr (msg.payloadUtf8.getD "")).bind checkedId) := by
  unfold routeCustom
  cases serde.fromStr (msg.payloadUtf8.getD "") with
  | none => rfl
  | some json =>
      simp only [Option.bind_some, checkedId]
      cases json.u64At "requestId" with
      | none => rfl
      | some requestId =>
          simp only [Option.bind_some]
          split <;> rfl

/-- Everything `route` does to the requests is its one `resolve` call. -/
theorem requests_route (serde : SerdeJson) (s : Router) (msg : CastMessage) :
    (s.route serde msg).requests = resolved s.requests (resolveCall serde msg) := by
  unfold route resolveCall
  by_cases hh : msg.ns = nsHeartbeat
  · simp only [hh, if_true, true_or]
    split <;> rfl
  by_cases hc : msg.ns = nsConnection
  · simp only [hc, if_true, or_true]
    rw [if_neg (by decide)]
    split
    · split <;> rfl
    · rfl
  simp only [hh, hc, if_false, or_self]
  by_cases hr : msg.ns = nsReceiver
  · have hm : nsReceiver ≠ nsMedia := by decide
    simp only [hr, hm, if_true, false_and, if_false]
    cases serde.fromStr (msg.payloadUtf8.getD "") with
    | none => rfl
    | some json => exact requests_routeReceiver s json
  by_cases hm : msg.ns = nsMedia
  · have hr' : nsMedia ≠ nsReceiver := by decide
    simp only [hm, hr', if_true, if_false, true_and]
    cases serde.fromStr (msg.payloadUtf8.getD "") with
    | none => rfl
    | some json => exact requests_routeMedia s json
  · simp only [hr, hm, if_false, false_and]
    exact requests_routeCustom serde s msg

/-! ## ids as `u64` and as `u32` -/

/-- An id below `2 ^ 32` survives the narrowing. -/
theorem toUInt64_toUInt32_of_lt {n : UInt64} (h : n.toNat < 2 ^ 32) : n.toUInt32.toUInt64 = n := by
  apply UInt64.toNat.inj
  rw [UInt32.toNat_toUInt64, UInt64.toNat_toUInt32, Nat.mod_eq_of_lt h]

theorem toUInt64_pos_iff (k : UInt32) : 0 < k.toUInt64 ↔ k ≠ 0 := by
  rw [UInt64.lt_iff_toNat_lt, UInt32.toNat_toUInt64, Ne, ← UInt32.toNat_inj]
  simp [Nat.pos_iff_ne_zero]

/-- A payload with the exact id `k` leads to a `resolve` call with `k`, unless
`k` is 0. -/
theorem checkedId_of_exact (h : json.u64At "requestId" = some k.toUInt64) :
    checkedId json = if k = 0 then none else some (k, json) := by
  rw [checkedId, h, Option.bind_some]
  by_cases hk : k = 0
  · subst hk; rfl
  · rw [if_pos ((toUInt64_pos_iff k).2 hk), if_neg hk, UInt32.toUInt32_toUInt64]

/-! ## handing a message over -/

/-- The message text. -/
abbrev payloadOf (msg : CastMessage) : String := msg.payloadUtf8.getD ""

/-- Between `before` and `after` the entry under `k` is taken out of the map and
`json` is put into the channel of the request `r` that was filed there. -/
def HandedOver (before after : Requests) (k : UInt32) (r : Nat) (json : Json) : Prop :=
  before.tracker.pending k = some r ∧ after.tracker.pending k = none ∧
    (after.request r).rx = .sent before.resolves json

/-- An entry is handed a payload exactly when `resolve` is called with its id. -/
theorem handedOver_resolved_iff {requests : Requests} {call : Option (UInt32 × Json)} :
    HandedOver requests (resolved requests call) k r json ↔
      requests.tracker.pending k = some r ∧ call = some (k, json) := by
  refine and_congr_right fun hp => ?_
  match call with
  | none => simp [resolved, hp]
  | some (id, payload) =>
      simp only [resolved, Requests.pending_resolve, Requests.request_resolve, hp]
      by_cases hk : k = id
      · subst hk; simp [hp]
      · simp [hk, Ne.symm hk]

/-- The request whose message was handed over returns it from `wait_for`. -/
theorem receive_of_handedOver {before after : Requests}
    (h : HandedOver before after k r json) (hp : (after.request r).phase = .registered k) :
    ∃ s, after.step (.receive r) = some s ∧ (s.request r).phase = .returned k (.ok json) := by
  obtain ⟨-, -, hrx⟩ := h
  exact ⟨after.update r fun q => { q with phase := .returned k (.ok json) },
    by simp only [Requests.step, hp, hrx], by simp [Requests.request_update]⟩

/-! ## every response reaches its request -/

/-- The media message types the router resolves requests for. -/
def resolvedMediaTypes : List String :=
  [msgMediaStatus, msgLoadFailed, msgLoadCancelled, msgInvalidRequest]

theorem classifyMediaMessage_eq_unknown_iff (msgType : String) :
    classifyMediaMessage msgType = .unknown ↔ msgType ∉ resolvedMediaTypes := by
  unfold classifyMediaMessage resolvedMediaTypes
  split_ifs <;> simp_all

/-- A response with the exact id of a pending request is handed to it exactly
when the id is not 0 and the message is not of a media type the router does not
know; the receiver and the custom arm resolve every type. -/
theorem response_handedOver_iff
    (hns : msg.ns = nsReceiver ∨ msg.ns = nsMedia ∨ msg.ns ∉ builtIn)
    (hjson : serde.fromStr (payloadOf msg) = some json)
    (hid : json.u64At "requestId" = some k.toUInt64)
    (hpend : s.requests.tracker.pending k = some r) :
    HandedOver s.requests (s.route serde msg).requests k r json ↔
      k ≠ 0 ∧ (msg.ns = nsMedia → messageType json ∈ resolvedMediaTypes) := by
  have hother : ¬ (msg.ns = nsHeartbeat ∨ msg.ns = nsConnection) := by
    rcases hns with h | h | h
    · rw [h]; decide
    · rw [h]; decide
    · simp only [builtIn, List.mem_cons, not_or] at h
      tauto
  have htype := classifyMediaMessage_eq_unknown_iff (messageType json)
  rw [requests_route, handedOver_resolved_iff, resolveCall, if_neg hother, hjson, Option.bind_some,
    checkedId_of_exact hid]
  by_cases hk : k = 0 <;> by_cases hm : msg.ns = nsMedia <;>
    by_cases ht : messageType json ∈ resolvedMediaTypes <;> simp [htype, hpend, hk, hm, ht]

/-- One request, sent and waiting under the id 1. -/
def oneWaiting : Requests := (Requests.new.beginRegister 0).insert 0 1

theorem reachable_oneWaiting : Requests.system.Reachable oneWaiting :=
  TransitionSystem.reachable_of_exec [.increment 0, .insert 0] rfl

/-- An answer with the id 1 and the given type, and its text. -/
def answer (type : String) : Json := .object [("type", .string type), ("requestId", .ofU32 1)]

def answerText (type : String) : String :=
  "\x7b\"type\":\"" ++ type ++ "\",\"requestId\":1\x7d"

/-- The inbound message with that answer. -/
def answerMsg (ns type : String) : CastMessage :=
  buildMessage ns receiverId senderId (answerText type)

/-- The serde_json that reads that answer. -/
def answerSerde (type : String) : SerdeJson := .ofText (answerText type) (answer type)

/-- A RECEIVER_STATUS response is handed to the request it answers. -/
theorem response_handedOver_receiverStatus :
    HandedOver oneWaiting
        ((Router.new oneWaiting 256).route (answerSerde msgReceiverStatus)
          (answerMsg nsReceiver msgReceiverStatus)).requests
        1 0 (answer msgReceiverStatus) ↔
      (1 : UInt32) ≠ 0 ∧ (nsReceiver = nsMedia →
        messageType (answer msgReceiverStatus) ∈ resolvedMediaTypes) :=
  @response_handedOver_iff (answerSerde msgReceiverStatus) (.new oneWaiting 256)
    (answerMsg nsReceiver msgReceiverStatus) (answer msgReceiverStatus) 1 0 (.inl rfl)
    (SerdeJson.fromStr_ofText _ _) (by decide) (by decide)

/-- A media response of a type the router does not know, such as QUEUE_ITEM_IDS,
does not reach its request. -/
theorem response_lost : ¬ ∀ (serde : SerdeJson) (s : Router) (msg : CastMessage) (json : Json)
    (k : UInt32) (r : Nat), Requests.system.Reachable s.requests →
    (msg.ns = nsReceiver ∨ msg.ns = nsMedia ∨ msg.ns ∉ builtIn) →
    serde.fromStr (payloadOf msg) = some json → json.u64At "requestId" = some k.toUInt64 →
    s.requests.tracker.pending k = some r →
    HandedOver s.requests (s.route serde msg).requests k r json := by
  intro h
  have hr := h (answerSerde "QUEUE_ITEM_IDS") (.new oneWaiting 256)
    (answerMsg nsMedia "QUEUE_ITEM_IDS") (answer "QUEUE_ITEM_IDS") 1 0 reachable_oneWaiting
    (.inr (.inl rfl)) (SerdeJson.fromStr_ofText _ _) (by decide) (by decide)
  exact absurd hr.2.1 (by decide)

/-! ## every custom message is answered or offered -/

/-- The message's JSON is handed to the request pending under its `requestId`. -/
def Answered (serde : SerdeJson) (msg : CastMessage) (before after : Requests) : Prop :=
  ∃ json k r, serde.fromStr (payloadOf msg) = some json ∧
    json.u64At "requestId" = some k.toUInt64 ∧ HandedOver before after k r json

/-- The `requestId` of a message, as far as the custom arm looks at it. -/
def customId (serde : SerdeJson) (msg : CastMessage) : Option (Json × UInt64) :=
  (serde.fromStr (payloadOf msg)).bind fun json =>
    (json.u64At "requestId").bind fun rid => if 0 < rid then some (json, rid) else none

theorem customId_eq_some_iff {rid : UInt64} :
    customId serde msg = some (json, rid) ↔
      serde.fromStr (payloadOf msg) = some json ∧ json.u64At "requestId" = some rid ∧ 0 < rid := by
  simp only [customId, Option.bind_eq_some_iff]
  constructor
  · rintro ⟨j, hj, i, hi, h⟩
    split at h
    next hpos => cases h; exact ⟨hj, hi, hpos⟩
    next => contradiction
  · rintro ⟨hj, hi, hpos⟩
    exact ⟨json, hj, rid, hi, if_pos hpos⟩

theorem route_of_custom (hns : msg.ns ∉ builtIn) : s.route serde msg = s.routeCustom serde msg := by
  simp only [builtIn, List.mem_cons, List.not_mem_nil, or_false, not_or] at hns
  simp only [route, hns, if_false]

/-- A custom message with a positive id is resolved and not offered, one without
is offered and nothing else. -/
theorem routeCustom_eq :
    s.routeCustom serde msg = match customId serde msg with
      | some (json, rid) => { s with requests := (s.requests.resolve rid.toUInt32 json).2 }
      | none => s.offer (rawEvent msg) := by
  unfold routeCustom customId payloadOf
  cases serde.fromStr (msg.payloadUtf8.getD "") with
  | none => rfl
  | some json =>
      simp only [Option.bind_some]
      cases json.u64At "requestId" with
      | none => rfl
      | some rid =>
          simp only [Option.bind_some]
          split <;> rfl

theorem ne_offer_of_offered {s t : Router} {e : CastEvent} (h : t.offered = s.offered) :
    t ≠ s.offer e := by
  intro he
  have hlen := congrArg (fun x : Router => x.offered.length) he
  simp [h] at hlen

/-- An exact id fits into 32 bits. -/
theorem toUInt64_eq_iff {rid : UInt64} :
    rid = k.toUInt64 ↔ rid.toNat < 2 ^ 32 ∧ rid.toUInt32 = k := by
  constructor
  · rintro rfl
    exact ⟨by rw [UInt32.toNat_toUInt64]; exact k.toNat_lt, UInt32.toUInt32_toUInt64 k⟩
  · rintro ⟨hlt, rfl⟩
    exact (toUInt64_toUInt32_of_lt hlt).symm

/-- Without a positive id no request is answered. -/
theorem not_answered_offer {e : CastEvent} :
    ¬ Answered serde msg s.requests (s.offer e).requests := by
  rintro ⟨json, k, r, -, -, hp, hgone, -⟩
  rw [requests_offer, hp] at hgone
  contradiction

/-- With a positive id the request under it is answered when the id fits into
32 bits and is pending. -/
theorem answered_resolve_iff {rid : UInt64} (h : customId serde msg = some (json, rid))
    (requests : Requests) :
    Answered serde msg requests (requests.resolve rid.toUInt32 json).2 ↔
      rid.toNat < 2 ^ 32 ∧ ∃ r, requests.tracker.pending rid.toUInt32 = some r := by
  obtain ⟨hjson, hrid, -⟩ := customId_eq_some_iff.1 h
  have hcall (k : UInt32) (r : Nat) :=
    @handedOver_resolved_iff json k r requests (some (rid.toUInt32, json))
  simp only [resolved, Option.some.injEq, Prod.mk.injEq, and_true] at hcall
  constructor
  · rintro ⟨json', k, r, hjson', hk, hover⟩
    obtain rfl : json = json' := Option.some.inj (hjson.symm.trans hjson')
    have hfit := toUInt64_eq_iff.1 (Option.some.inj (hrid.symm.trans hk))
    exact ⟨hfit.1, r, hfit.2 ▸ ((hcall k r).1 hover).1⟩
  · rintro ⟨hlt, r, hp⟩
    exact ⟨json, rid.toUInt32, r, hjson, by rw [hrid, toUInt64_toUInt32_of_lt hlt],
      (hcall _ r).2 ⟨hp, rfl⟩⟩

/-- A custom-namespace message is either handed to the request pending under
its id or passed on as a raw event, and not both, exactly when its id, if it
carries a positive one, fits into 32 bits and is pending. -/
theorem custom_answered_xor_offered_iff (hns : msg.ns ∉ builtIn) :
    Xor (Answered serde msg s.requests (s.route serde msg).requests)
        (s.route serde msg = s.offer (rawEvent msg)) ↔
      ∀ json rid, serde.fromStr (payloadOf msg) = some json →
        json.u64At "requestId" = some rid → 0 < rid →
        rid.toNat < 2 ^ 32 ∧ ∃ r, s.requests.tracker.pending rid.toUInt32 = some r := by
  rw [route_of_custom hns, routeCustom_eq]
  cases hid : customId serde msg with
  | none =>
      refine iff_of_true (.inr ⟨rfl, not_answered_offer⟩) ?_
      intro json rid hjson hrid hpos
      rw [customId_eq_some_iff.2 ⟨hjson, hrid, hpos⟩] at hid
      contradiction
  | some call =>
      obtain ⟨json, rid⟩ := call
      have hother : { s with requests := (s.requests.resolve rid.toUInt32 json).2 } ≠
          s.offer (rawEvent msg) := ne_offer_of_offered rfl
      have hread := customId_eq_some_iff.1 hid
      simp only [Xor, hother, not_false_eq_true, and_true, false_and, or_false,
        answered_resolve_iff hid]
      constructor
      · intro h json' rid' hjson' hrid' _
        obtain rfl : json = json' := Option.some.inj (hread.1.symm.trans hjson')
        obtain rfl : rid = rid' := Option.some.inj (hread.2.1.symm.trans hrid')
        exact h
      · exact fun h => h json rid hread.1 hread.2.1 hread.2.2

/-- The namespace of a receiver app. -/
def appNs : String := "urn:x-cast:com.example.app"

/-- An answer on the app's namespace, to a request that waits for it. -/
theorem custom_answered_xor_offered_app :
    Xor (Answered (answerSerde "STATE") (answerMsg appNs "STATE") oneWaiting
          ((Router.new oneWaiting 256).route (answerSerde "STATE")
            (answerMsg appNs "STATE")).requests)
        ((Router.new oneWaiting 256).route (answerSerde "STATE") (answerMsg appNs "STATE") =
          (Router.new oneWaiting 256).offer (rawEvent (answerMsg appNs "STATE"))) ↔
      ∀ json rid, (answerSerde "STATE").fromStr (payloadOf (answerMsg appNs "STATE")) = some json →
        json.u64At "requestId" = some rid → 0 < rid →
        rid.toNat < 2 ^ 32 ∧ ∃ r, oneWaiting.tracker.pending rid.toUInt32 = some r :=
  custom_answered_xor_offered_iff (s := .new oneWaiting 256) (by decide)

/-- The request of a receiver app itself, with an id nothing is pending under,
is neither handed over nor offered. -/
theorem custom_message_dropped : ¬ ∀ (serde : SerdeJson) (s : Router) (msg : CastMessage),
    Requests.system.Reachable s.requests → msg.ns ∉ builtIn →
    Xor (Answered serde msg s.requests (s.route serde msg).requests)
      (s.route serde msg = s.offer (rawEvent msg)) := by
  intro h
  have hx := h (answerSerde "STATE") (.new .new 256) (answerMsg appNs "STATE") .refl (by decide)
  rcases hx with ⟨⟨json, k, r, -, -, hp, -⟩, -⟩ | ⟨hoffer, -⟩
  · simp [Router.new, Requests.new, RequestTracker.new] at hp
  · have hid : customId (answerSerde "STATE") (answerMsg appNs "STATE") =
        some (answer "STATE", 1) :=
      customId_eq_some_iff.2 ⟨SerdeJson.fromStr_ofText _ _, rfl, by decide⟩
    refine ne_offer_of_offered ?_ hoffer
    rw [route_of_custom (by decide), routeCustom_eq, hid]

/-! ## the id alone decides -/

theorem resolveCall_eq_some_iff :
    resolveCall serde msg = some (k, json) ↔
      msg.ns ≠ nsHeartbeat ∧ msg.ns ≠ nsConnection ∧ serde.fromStr (payloadOf msg) = some json ∧
        (msg.ns = nsMedia → messageType json ∈ resolvedMediaTypes) ∧
        ∃ rid, json.u64At "requestId" = some rid ∧ 0 < rid ∧ rid.toUInt32 = k := by
  have hchecked (j : Json) : checkedId j = some (k, json) ↔
      j = json ∧ ∃ rid, json.u64At "requestId" = some rid ∧ 0 < rid ∧ rid.toUInt32 = k := by
    simp only [checkedId, Option.bind_eq_some_iff, Option.ite_none_right_eq_some, Option.some.injEq,
      Prod.mk.injEq]
    grind
  simp only [resolveCall, payloadOf, Option.ite_none_left_eq_some, Option.bind_eq_some_iff,
    hchecked,
    classifyMediaMessage_eq_unknown_iff]
  grind

/-- A pending request is handed only messages that carry its id (ids below
`2 ^ 32`), and every such message that arrives on the receiver or a custom
namespace, or on the media one with a type the router knows, completes it: the
namespace the request was sent on plays no part. -/
theorem handedOver_by_id :
    (HandedOver s.requests (s.route serde msg).requests k r json →
      msg.ns ≠ nsHeartbeat ∧ msg.ns ≠ nsConnection ∧ serde.fromStr (payloadOf msg) = some json ∧
        s.requests.tracker.pending k = some r ∧
        ∃ rid, json.u64At "requestId" = some rid ∧ 0 < rid ∧
          (rid.toNat < 2 ^ 32 → rid = k.toUInt64)) ∧
    (msg.ns = nsReceiver ∨ msg.ns ∉ builtIn ∨
        (msg.ns = nsMedia ∧ messageType json ∈ resolvedMediaTypes) →
      serde.fromStr (payloadOf msg) = some json → json.u64At "requestId" = some k.toUInt64 →
      k ≠ 0 → s.requests.tracker.pending k = some r →
      HandedOver s.requests (s.route serde msg).requests k r json) := by
  rw [requests_route, handedOver_resolved_iff, resolveCall_eq_some_iff]
  constructor
  · rintro ⟨hp, hh, hc, hjson, -, rid, hrid, hpos, hk⟩
    exact ⟨hh, hc, hjson, hp, rid, hrid, hpos, fun hlt => toUInt64_eq_iff.2 ⟨hlt, hk⟩⟩
  · intro hns hjson hrid hk hp
    have hother : msg.ns ≠ nsHeartbeat ∧ msg.ns ≠ nsConnection ∧
        (msg.ns = nsMedia → messageType json ∈ resolvedMediaTypes) := by
      rcases hns with h | h | ⟨h, ht⟩
      · rw [h]; exact ⟨by decide, by decide, fun hm => absurd hm (by decide)⟩
      · simp only [builtIn, List.mem_cons, not_or] at h; tauto
      · rw [h]; exact ⟨by decide, by decide, fun _ => ht⟩
    exact ⟨hp, hother.1, hother.2.1, hjson, hother.2.2, k.toUInt64, hrid, (toUInt64_pos_iff k).2 hk,
      UInt32.toUInt32_toUInt64 k⟩

/-- The app's own message with the id 1 completes a pending GET_STATUS request
of the receiver namespace. -/
theorem misdelivery_across_namespaces :
    ¬ ∀ (serde : SerdeJson) (s : Router) (sent : Nat → CastMessage)
    (msg : CastMessage) (json : Json) (k : UInt32) (r : Nat),
    Requests.system.Reachable s.requests → s.requests.tracker.pending k = some r →
    (∃ type rest, sent r = Receiver.request serde type k rest) →
    HandedOver s.requests (s.route serde msg).requests k r json → (sent r).ns = msg.ns := by
  intro h
  have hns := h (answerSerde "STATE") (.new oneWaiting 256)
    (fun _ => Receiver.getStatus (answerSerde "STATE") 1) (answerMsg appNs "STATE")
    (answer "STATE") 1 0
    reachable_oneWaiting (by decide) ⟨_, _, rfl⟩
    ⟨by decide, by decide, rfl⟩
  exact absurd hns (by decide)

/-! ## ids of 64 bits -/

/-- The router looks for a request that the message answers. -/
def Resolves (msg : CastMessage) (json : Json) : Prop :=
  msg.ns ≠ nsHeartbeat ∧ msg.ns ≠ nsConnection ∧
    (msg.ns = nsMedia → messageType json ∈ resolvedMediaTypes)

/-- Of the pending map at most the entry whose key is `rid` as an integer is
removed or completed. -/
structure ExactId (before after : Requests) (rid : UInt64) : Prop where
  removed : ∀ k, after.tracker.pending k ≠ before.tracker.pending k → k.toNat = rid.toNat
  completed : ∀ k r json, HandedOver before after k r json → k.toNat = rid.toNat
  wide : 2 ^ 32 ≤ rid.toNat → after.tracker.pending = before.tracker.pending

theorem ExactId.refl (requests : Requests) (rid : UInt64) : ExactId requests requests rid := by
  constructor
  · intro k hk
    exact absurd rfl hk
  · intro k r json h
    have hgone := h.2.1
    rw [h.1] at hgone
    contradiction
  · intro _
    rfl

/-- What the one `resolve` call takes is filed under the narrowed id. -/
theorem resolveCall_of_resolves {rid : UInt64} (hres : Resolves msg json)
    (hjson : serde.fromStr (payloadOf msg) = some json) (hid : json.u64At "requestId" = some rid)
    (hpos : 0 < rid) : resolveCall serde msg = some (rid.toUInt32, json) :=
  resolveCall_eq_some_iff.2 ⟨hres.1, hres.2.1, hjson, hres.2.2, rid, hid, hpos, rfl⟩

theorem resolveCall_of_not_resolves {rid : UInt64}
    (hjson : serde.fromStr (payloadOf msg) = some json)
    (hid : json.u64At "requestId" = some rid) (h : ¬ (Resolves msg json ∧ 0 < rid)) :
    resolveCall serde msg = none := by
  cases hc : resolveCall serde msg with
  | none => rfl
  | some call =>
      obtain ⟨k, payload⟩ := call
      obtain ⟨hh, hcon, hjson', htype, rid', hid', hpos, -⟩ := resolveCall_eq_some_iff.1 hc
      obtain rfl : json = payload := Option.some.inj (hjson.symm.trans hjson')
      obtain rfl : rid = rid' := Option.some.inj (hid.symm.trans hid')
      exact absurd ⟨⟨hh, hcon, htype⟩, hpos⟩ h

/-- A `resolve` call with the narrowed id is exact when the id fits, or nothing
is pending under what is left of it. -/
theorem exactId_resolve_iff (requests : Requests) (rid : UInt64) (json : Json) :
    ExactId requests (requests.resolve rid.toUInt32 json).2 rid ↔
      rid.toNat < 2 ^ 32 ∨ requests.tracker.pending rid.toUInt32 = none := by
  have hpending (k : UInt32) := @Requests.pending_resolve k requests rid.toUInt32 json
  have hover (k : UInt32) (r : Nat) (payload : Json) :=
    @handedOver_resolved_iff payload k r requests (some (rid.toUInt32, json))
  simp only [resolved, Option.some.injEq, Prod.mk.injEq] at hover
  constructor
  · intro h
    by_contra hne
    rw [not_or] at hne
    obtain ⟨hwide, hp⟩ := hne
    have hkeep := congrFun (h.wide (by omega)) rid.toUInt32
    rw [hpending, if_pos rfl] at hkeep
    exact hp hkeep.symm
  · rintro (hlt | hnone)
    · have hkey : rid.toUInt32.toNat = rid.toNat := by
        rw [UInt64.toNat_toUInt32, Nat.mod_eq_of_lt hlt]
      constructor
      · intro k hk
        rw [hpending] at hk
        by_cases hid : k = rid.toUInt32
        · rw [hid]; exact hkey
        · rw [if_neg hid] at hk; exact absurd rfl hk
      · intro k r payload h
        obtain ⟨-, hid, -⟩ := (hover k r payload).1 h
        rw [← hid]; exact hkey
      · intro hwide
        omega
    · have hsame : (requests.resolve rid.toUInt32 json).2.tracker.pending =
          requests.tracker.pending := by
        funext k
        rw [hpending]
        split
        next hid => rw [hid, hnone]
        next => rfl
      constructor
      · intro k hk
        exact absurd (congrFun hsame k) hk
      · intro k r payload h
        obtain ⟨hp, hid, -⟩ := (hover k r payload).1 h
        rw [← hid, hnone] at hp
        contradiction
      · intro _
        exact hsame

/-- **Exact request ids**: a message removes or completes the entry under its own
id at most, exactly when its id fits into 32 bits, or nothing is pending under
the low half of it, or it answers nothing anyway. -/
theorem exactId_route_iff {rid : UInt64} (hjson : serde.fromStr (payloadOf msg) = some json)
    (hid : json.u64At "requestId" = some rid) :
    ExactId s.requests (s.route serde msg).requests rid ↔
      (Resolves msg json → 2 ^ 32 ≤ rid.toNat →
        s.requests.tracker.pending rid.toUInt32 = none) := by
  rw [requests_route]
  by_cases hres : Resolves msg json ∧ 0 < rid
  · rw [resolveCall_of_resolves hres.1 hjson hid hres.2]
    have hiff := exactId_resolve_iff s.requests rid json
    constructor
    · intro h _ hwide
      exact (hiff.1 h).resolve_left (by omega)
    · intro h
      by_cases hlt : rid.toNat < 2 ^ 32
      · exact hiff.2 (.inl hlt)
      · exact hiff.2 (.inr (h hres.1 (by omega)))
  · rw [resolveCall_of_not_resolves hjson hid hres]
    refine iff_of_true (ExactId.refl s.requests rid) fun hr hwide => absurd ⟨hr, ?_⟩ hres
    rw [UInt64.lt_iff_toNat_lt]
    exact Nat.lt_of_lt_of_le (by decide) hwide

/-- A RECEIVER_STATUS under the id 1 is handed over under the id 1. -/
theorem exactId_route_receiverStatus :
    ExactId oneWaiting
      ((Router.new oneWaiting 256).route (answerSerde msgReceiverStatus)
        (answerMsg nsReceiver msgReceiverStatus)).requests 1 :=
  (@exactId_route_iff (answerSerde msgReceiverStatus) (.new oneWaiting 256)
    (answerMsg nsReceiver msgReceiverStatus) (answer msgReceiverStatus) 1
    (SerdeJson.fromStr_ofText _ _) rfl).2 fun _ hwide => absurd hwide (by decide)

/-- A status update with the id `2 ^ 32 + 1`. -/
def wideAnswer : Json :=
  .object [("type", .string msgReceiverStatus), ("requestId", .number (.posInt 4294967297))]

/-- It completes the request that waits under the id 1. -/
theorem wide_id_resolves : ¬ ∀ (serde : SerdeJson) (s : Router) (msg : CastMessage) (json : Json)
    (rid : UInt64), Requests.system.Reachable s.requests →
    serde.fromStr (payloadOf msg) = some json → json.u64At "requestId" = some rid →
    ExactId s.requests (s.route serde msg).requests rid := by
  intro h
  have hexact := h (.ofText (answerText msgReceiverStatus) wideAnswer) (.new oneWaiting 256)
    (answerMsg nsReceiver msgReceiverStatus) wideAnswer 4294967297 reachable_oneWaiting
    (SerdeJson.fromStr_ofText _ _) rfl
  have hkeep := congrFun (hexact.wide (by decide)) 1
  exact absurd hkeep (by decide)

end Oxicast.Router
