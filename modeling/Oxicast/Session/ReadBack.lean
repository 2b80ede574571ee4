import Oxicast.Router.History
import Oxicast.Session

/-!
# Oxicast.Session.ReadBack

Whether a caller reads its own response.

`route` completes the waiting request first and publishes the status of the same
message afterwards; the caller is another task and runs on in between.  `ReaderTask`
is the reader task between two writes of `route`, so every interleaving of it
with the callers is a run of `readerSystem`.  One reader is enough, as a
reconnect spawns its tasks over a client without any.
-/

namespace Oxicast

open Ns Router TransitionSystem

/-! ## the value of an answer -/

/-- What a method returns for an answer, if that is no error. -/
def Operation.returns (op : Operation) (json : Json) : Option Value :=
  match op.check json with
  | .error _ => none
  | .ok () =>
      match op.after with
      | .give parse => (parse json).toOption
      | .launch appId =>
          ((parseReceiverStatus json).bind (Session.findApp · appId)).map .application
      | .forgetApp => some .unit

namespace Value

/-- The media status a value is. -/
def media? : Value → Option MediaStatus
  | .mediaStatus status => some status
  | .optionMediaStatus status => status
  | _ => none

/-- The value is a receiver status, or a part of one. -/
def OfReceiver : Value → Prop
  | .receiverStatus _ | .volume _ | .application _ => True
  | _ => False

/-- The value is `status`, or a part of it. -/
def ReadFrom (status : ReceiverStatus) : Value → Prop
  | .receiverStatus own => own = status
  | .volume v => v = status.volume
  | .application app => app ∈ status.applications
  | _ => False

end Value

namespace Session

variable {s : Session} {r : Nat} {json : Json} {value : Value} {app : Application}

/-- A call that ends with its answer ends with what its method returns for it. -/
theorem returns_of_answer
    (h : ((s.answer r json).calls r).pc = .ended (some (.ok value))) :
    (s.calls r).op.returns json = some value := by
  rw [pc_answer] at h
  unfold Operation.returns
  cases hcheck : (s.calls r).op.check json with
  | error err => simp [hcheck] at h
  | ok =>
      simp only [hcheck] at h
      cases hafter : (s.calls r).op.after with
      | give parse =>
          simp only [hafter, CallPc.ended.injEq, Option.some.injEq] at h
          simp [h, Except.toOption]
      | launch appId =>
          simp only [hafter] at h
          cases happ : (parseReceiverStatus json).bind (findApp · appId) <;> simp [happ] at h
      | forgetApp => simp [hafter] at h

/-- A launch that goes on with an app of its answer returns that app. -/
theorem returns_of_launch (h : ((s.answer r json).calls r).pc = .send (.connect app)) :
    (s.calls r).op.returns json = some (.application app) := by
  rw [pc_answer] at h
  unfold Operation.returns
  cases hcheck : (s.calls r).op.check json with
  | error err => simp [hcheck] at h
  | ok =>
      simp only [hcheck] at h
      cases hafter : (s.calls r).op.after with
      | give parse => simp [hafter] at h
      | launch appId =>
          simp only [hafter] at h
          cases happ : (parseReceiverStatus json).bind (findApp · appId) with
          | none => simp [happ] at h
          | some found =>
              simp only [happ, CallPc.send.injEq, Outgoing.connect.injEq] at h
              simp only [happ, Option.map_some, h]
      | forgetApp => simp [hafter] at h

end Session

namespace Operation

variable {serde : SerdeJson} {op : Operation} {json : Json} {value : Value}

/-- Where a returned value comes from. -/
theorem returns_cases (h : op.returns json = some value) :
    (∃ parse, op.after = .give parse ∧ parse json = .ok value) ∨
      (∃ appId status app, op.after = .launch appId ∧ parseReceiverStatus json = some status ∧
        app ∈ status.applications ∧ value = .application app) ∨
      op.after = .forgetApp ∧ value = .unit := by
  unfold returns at h
  cases hcheck : op.check json with
  | error err => simp [hcheck] at h
  | ok =>
      simp only [hcheck] at h
      cases hafter : op.after with
      | give parse =>
          simp only [hafter] at h
          cases hparse : parse json with
          | error err => simp [hparse, Except.toOption] at h
          | ok v =>
              simp only [hparse, Except.toOption, Option.some.injEq] at h
              exact .inl ⟨parse, rfl, by rw [hparse, h]⟩
      | launch appId =>
          simp only [hafter, Option.map_eq_some_iff, Option.bind_eq_some_iff] at h
          obtain ⟨app, ⟨status, hstatus, hfind⟩, rfl⟩ := h
          exact .inr (.inl ⟨appId, status, app, rfl, hstatus, List.mem_of_find?_eq_some hfind, rfl⟩)
      | forgetApp =>
          simp only [hafter, Option.some.injEq] at h
          exact .inr (.inr ⟨rfl, h.symm⟩)

/-- What the parsers of the typed methods have in common: the media status they
give is the one of the payload, and so is the receiver status. -/
def Faithful (parse : Json → Except Error Value) : Prop :=
  ∀ json value, parse json = .ok value →
    (∀ status, value.media? = some status → parseMediaStatus json = some status) ∧
    (value.OfReceiver → ∃ status, parseReceiverStatus json = some status ∧ value.ReadFrom status)

theorem faithful_giveReceiverStatus : Faithful giveReceiverStatus := by
  intro json value h
  unfold giveReceiverStatus at h
  cases hparse : parseReceiverStatus json with
  | none => simp [hparse] at h
  | some status =>
      simp only [hparse, Except.ok.injEq] at h
      subst h
      exact ⟨by simp [Value.media?], fun _ => ⟨status, rfl, rfl⟩⟩

theorem faithful_giveVolume : Faithful giveVolume := by
  intro json value h
  unfold giveVolume at h
  cases hparse : parseReceiverStatus json with
  | none => simp [hparse] at h
  | some status =>
      simp only [hparse, Except.ok.injEq] at h
      subst h
      exact ⟨by simp [Value.media?], fun _ => ⟨status, rfl, rfl⟩⟩

theorem faithful_giveMediaStatus : Faithful giveMediaStatus := by
  intro json value h
  unfold giveMediaStatus at h
  cases hparse : parseMediaStatus json with
  | none => simp [hparse] at h
  | some status =>
      simp only [hparse, Except.ok.injEq] at h
      subst h
      exact ⟨by simp [Value.media?], False.elim⟩

theorem faithful_giveLoaded (noStatus : String) : Faithful (giveLoaded noStatus) := by
  intro json value h
  unfold giveLoaded at h
  cases hparse : parseMediaStatus json with
  | none => simp [hparse] at h
  | some status =>
      simp only [hparse] at h
      split at h
      next => contradiction
      next =>
        simp only [Except.ok.injEq] at h
        subst h
        exact ⟨by simp [Value.media?], False.elim⟩

theorem faithful_optionMediaStatus :
    Faithful fun json => .ok (.optionMediaStatus (parseMediaStatus json)) := by
  intro json value h
  simp only [Except.ok.injEq] at h
  subst h
  exact ⟨by simp [Value.media?], False.elim⟩

theorem faithful_unit : Faithful fun _ => .ok .unit := by
  intro json value h
  simp only [Except.ok.injEq] at h
  subst h
  exact ⟨by simp [Value.media?], False.elim⟩

theorem Typed.faithful {parse : Json → Except Error Value} (h : Typed serde op)
    (hafter : op.after = .give parse) : Faithful parse := by
  cases h with
  | launchApp => simp [Operation.launchApp] at hafter
  | stopApp => simp [Operation.stopApp] at hafter
  | receiverStatus => cases hafter; exact faithful_giveReceiverStatus
  | setVolume => cases hafter; exact faithful_giveVolume
  | setMuted => cases hafter; exact faithful_giveVolume
  | loadMedia => cases hafter; exact faithful_giveLoaded _
  | queueLoad => cases hafter; exact faithful_giveLoaded _
  | mediaStatus => cases hafter; exact faithful_optionMediaStatus
  | close => cases hafter; exact faithful_unit
  | _ => cases hafter; exact faithful_giveMediaStatus

/-- A typed method returns the statuses its answer parses to, and nothing else. -/
theorem Typed.parsed (h : Typed serde op) (hval : op.returns json = some value) :
    (∀ status, value.media? = some status → parseMediaStatus json = some status) ∧
    (value.OfReceiver → ∃ status, parseReceiverStatus json = some status ∧
      value.ReadFrom status) := by
  rcases returns_cases hval with
    ⟨parse, hafter, hok⟩ | ⟨appId, status, app, -, hstatus, happ, rfl⟩ | ⟨-, rfl⟩
  · exact h.faithful hafter json value hok
  · exact ⟨by simp [Value.media?], fun _ => ⟨status, hstatus, happ⟩⟩
  · exact ⟨by simp [Value.media?], False.elim⟩

end Operation

/-! ## the reader between two writes -/

/-- The reader task: what it has made of the messages so far, and the writes of
the message at hand that are still to come. -/
structure ReaderTask where
  router : Router
  todo : List Effect

inductive ReaderAct where
  /-- `route` starts with the next message -/
  | receive (msg : CastMessage)
  /-- the next write of the message at hand -/
  | write
  /-- an aborted reader ends at its only wait, for room for a PONG -/
  | abort
  /-- a step of a caller, or the `clear` of a task -/
  | request (a : TrackerAct)
  | nextEvent

namespace ReaderTask

variable (serde : SerdeJson)

/-- One step.  Only the reader resolves, and it routes one message at a time. -/
def step (x : ReaderTask) : ReaderAct → Option ReaderTask
  | .receive msg => if x.todo.isEmpty then some { x with todo := effects serde msg } else none
  | .write =>
      match x.todo with
      | e :: rest => some ⟨x.router.apply e, rest⟩
      | [] => none
  | .abort =>
      match x.todo with
      | [.reply _] => some { x with todo := [] }
      | _ => none
  | .request (.resolve _ _) => none
  | .request a =>
      (x.router.requests.step a).map fun requests => { x with router := { x.router with requests } }
  | .nextEvent =>
      some { x with router := { x.router with
        events := ⟨x.router.events.buffer.tail, x.router.events.capacity⟩ } }

def system (eventBufferSize : Nat) : TransitionSystem ReaderTask ReaderAct :=
  ⟨⟨.new .new eventBufferSize, []⟩, step serde⟩

end ReaderTask

/-- The messages the reader has started with, oldest first, and the index of the
one that has answered a request. -/
structure Heard where
  messages : List CastMessage
  answered : Nat → Option Nat

namespace Heard

def record (h : Heard) (x : ReaderTask) (a : ReaderAct) (_ : ReaderTask) : Heard :=
  match a with
  | .receive msg => { h with messages := h.messages ++ [msg] }
  | .write =>
      match x.todo with
      | .resolve id _ :: _ =>
          match x.router.requests.tracker.pending id with
          | some r =>
              { h with answered := Function.update h.answered r (some (h.messages.length - 1)) }
          | none => h
      | _ => h
  | _ => h

end Heard

/-- The reader with what it has heard. -/
def readerSystem (serde : SerdeJson) (eventBufferSize : Nat) :
    TransitionSystem (ReaderTask × Heard) ReaderAct :=
  (ReaderTask.system serde eventBufferSize).observe ⟨[], fun _ => none⟩ Heard.record

/-! ## the two watches -/

/-- A status watch: the status a payload parses to, the one a message carries, the
write that publishes it and the value of the watch. -/
structure Feed (serde : SerdeJson) (σ : Type) where
  parse : Json → Option σ
  statusIn : CastMessage → Option σ
  sends : Effect → Option σ
  value : Router → Option σ
  parse_of_statusIn : ∀ msg json status, serde.fromStr (payloadOf msg) = some json →
    statusIn msg = some status → parse json = some status
  sends_effects : ∀ msg, (effects serde msg).filterMap sends = (statusIn msg).toList
  sends_reply : ∀ msg, sends (.reply msg) = none
  value_apply : ∀ s e, value (s.apply e) = (sends e).elim (value s) some
  value_requests : ∀ (s : Router) requests, value { s with requests } = value s
  value_events : ∀ (s : Router) events, value { s with events } = value s

/-- The media watch. -/
def mediaFeed (serde : SerdeJson) : Feed serde MediaStatus where
  parse := parseMediaStatus
  statusIn := mediaStatusIn serde
  sends := Effect.media?
  value s := s.media.value
  parse_of_statusIn _ _ _ := parse_of_mediaStatusIn
  sends_effects := filterMap_media_effects serde
  sends_reply _ := rfl
  value_apply s e := by cases e <;> rfl
  value_requests _ _ := rfl
  value_events _ _ := rfl

/-- The receiver watch. -/
def receiverFeed (serde : SerdeJson) : Feed serde ReceiverStatus where
  parse := parseReceiverStatus
  statusIn := receiverStatusIn serde
  sends := Effect.receiver?
  value s := s.receiver.value
  parse_of_statusIn _ _ _ := parse_of_receiverStatusIn
  sends_effects := filterMap_receiver_effects serde
  sends_reply _ := rfl
  value_apply s e := by cases e <;> rfl
  value_requests _ _ := rfl
  value_events _ _ := rfl

namespace Feed

variable {serde : SerdeJson} {σ : Type} (F : Feed serde σ) {x x' : ReaderTask} {h : Heard}
  {a : ReaderAct}
  {size n r : Nat} {id : UInt32} {json : Json} {msg : CastMessage} {status : σ}

/-- The message at hand still has to be published. -/
def Ahead (x : ReaderTask) : Prop := x.todo.filterMap F.sends ≠ []

instance (x : ReaderTask) : Decidable (F.Ahead x) :=
  match h : x.todo.filterMap F.sends with
  | [] => isFalse (by simp [Ahead, h])
  | _ :: _ => isTrue (by simp [Ahead, h])

/-- The messages that are routed as far as this watch is concerned. -/
def routed (x : ReaderTask) (h : Heard) : List CastMessage :=
  if F.Ahead x then h.messages.dropLast else h.messages

/-- What the watch says after a list of messages. -/
def after (msgs : List CastMessage) : Option σ :=
  lastWrite (fun m => (F.statusIn m).map some) none msgs

/-- The watch holds the status of the `n`-th message, or one routed later. -/
def Fresh (x : ReaderTask) (h : Heard) (n : Nat) (status : σ) : Prop :=
  F.value x.router = some status ∨
    ∃ m ∈ (F.routed x h).drop (n + 1), (F.statusIn m).isSome ∧ F.statusIn m = F.value x.router

/-- The reader is past the watch send of the `n`-th message, or of a later one; or
the watch held an equal status before. -/
def Passed (x : ReaderTask) (h : Heard) (n : Nat) (status : σ) : Prop :=
  (∃ m ∈ (F.routed x h).drop n, (F.statusIn m).isSome) ∨ F.after (h.messages.take n) = some status

/-- The watch follows the messages: what is left to publish is the status of the
message at hand, and the value is the last status routed. -/
structure Follows (x : ReaderTask) (h : Heard) : Prop where
  ahead : F.Ahead x → ∃ front msg v, h.messages = front ++ [msg] ∧ F.statusIn msg = some v ∧
    x.todo.filterMap F.sends = [v]
  value : F.value x.router = F.after (F.routed x h)

variable {F}

theorem after_snoc (msgs : List CastMessage) (msg : CastMessage) :
    F.after (msgs ++ [msg]) = ((F.statusIn msg).map some).getD (F.after msgs) :=
  lastWrite_snoc _ _ _ _

theorem routed_of_ahead (ha : F.Ahead x) : F.routed x h = h.messages.dropLast := if_pos ha

theorem routed_of_not_ahead (ha : ¬ F.Ahead x) : F.routed x h = h.messages := if_neg ha

theorem Follows.receive (hf : F.Follows x h) (hempty : x.todo = []) (msg : CastMessage) :
    F.Follows { x with todo := effects serde msg } { h with messages := h.messages ++ [msg] } := by
  have hidle : ¬ F.Ahead x := by simp [Ahead, hempty]
  have hvalue := hf.value
  rw [routed_of_not_ahead hidle] at hvalue
  cases hin : F.statusIn msg with
  | none =>
      have hnot : ¬ F.Ahead { x with todo := effects serde msg } := by
        simp [Ahead, F.sends_effects, hin]
      refine ⟨fun ha => absurd ha hnot, ?_⟩
      rw [routed_of_not_ahead hnot, after_snoc, hin]
      exact hvalue
  | some v =>
      have hsends : (effects serde msg).filterMap F.sends = [v] := by rw [F.sends_effects, hin]; rfl
      have ha : F.Ahead { x with todo := effects serde msg } := by simp [Ahead, hsends]
      refine ⟨fun _ => ⟨h.messages, msg, v, rfl, hin, hsends⟩, ?_⟩
      rw [routed_of_ahead ha, List.dropLast_concat]
      exact hvalue

theorem Follows.write {e : Effect} {rest : List Effect} (hf : F.Follows x h)
    (htodo : x.todo = e :: rest)
    {answered : Nat → Option Nat} :
    F.Follows ⟨x.router.apply e, rest⟩ { h with answered } := by
  have hsplit : x.todo.filterMap F.sends = (F.sends e).toList ++ rest.filterMap F.sends := by
    rw [htodo, List.filterMap_cons]
    cases F.sends e <;> rfl
  have hvalue := hf.value
  cases he : F.sends e with
  | none =>
      rw [he] at hsplit
      have hsame : F.Ahead ⟨x.router.apply e, rest⟩ ↔ F.Ahead x := by
        simp [Ahead, hsplit]
      refine ⟨fun ha => ?_, ?_⟩
      · obtain ⟨front, msg, v, hmsgs, hin, hsends⟩ := hf.ahead (hsame.1 ha)
        exact ⟨front, msg, v, hmsgs, hin, by rw [← hsends, hsplit]; rfl⟩
      · change F.value (x.router.apply e) = _
        rw [F.value_apply, he, Option.elim_none, hvalue]
        unfold routed
        simp only [hsame]
  | some w =>
      rw [he] at hsplit
      have ha : F.Ahead x := by simp [Ahead, hsplit]
      obtain ⟨front, msg, v, hmsgs, hin, hsends⟩ := hf.ahead ha
      obtain ⟨rfl, hrest⟩ : w = v ∧ rest.filterMap F.sends = [] := by
        rw [hsplit] at hsends
        simpa using hsends
      have hnot : ¬ F.Ahead ⟨x.router.apply e, rest⟩ := by simp [Ahead, hrest]
      refine ⟨fun ha => absurd ha hnot, ?_⟩
      change F.value (x.router.apply e) = _
      rw [F.value_apply, he, Option.elim_some, routed_of_not_ahead hnot, hmsgs, after_snoc, hin]
      rfl

/-- A step that neither routes nor publishes. -/
theorem Follows.beside (hf : F.Follows x h) (hvalue : F.value x'.router = F.value x.router)
    (htodo : x'.todo.filterMap F.sends = x.todo.filterMap F.sends) : F.Follows x' h := by
  have hsame : F.Ahead x' ↔ F.Ahead x := by rw [Ahead, Ahead, htodo]
  refine ⟨fun ha => ?_, ?_⟩
  · rw [htodo]
    exact hf.ahead (hsame.1 ha)
  · rw [hvalue, hf.value]
    unfold routed
    simp only [hsame]

end Feed

/-! ## the steps -/

namespace ReaderTask

variable {serde : SerdeJson} {x x' : ReaderTask} {a : ReaderAct} {size r n : Nat} {json : Json}

/-- What one step can do. -/
inductive Step (serde : SerdeJson) (x : ReaderTask) : ReaderAct → ReaderTask → Prop
  | receive {msg : CastMessage} (h : x.todo = []) :
      Step serde x (.receive msg) { x with todo := effects serde msg }
  | write {e : Effect} {rest : List Effect} (h : x.todo = e :: rest) :
      Step serde x .write ⟨x.router.apply e, rest⟩
  | abort {msg : CastMessage} (h : x.todo = [.reply msg]) :
      Step serde x .abort { x with todo := [] }
  | request {a : TrackerAct} {requests : Requests} (ha : ∀ id payload, a ≠ .resolve id payload)
      (h : Requests.Step x.router.requests a requests) :
      Step serde x (.request a) { x with router := { x.router with requests } }
  | nextEvent : Step serde x .nextEvent { x with router := { x.router with
      events := ⟨x.router.events.buffer.tail, x.router.events.capacity⟩ } }

theorem step_cases (h : x.step serde a = some x') : Step serde x a x' := by
  cases a with
  | receive msg =>
      simp only [step, List.isEmpty_iff] at h
      split at h
      next hempty => cases h; exact .receive hempty
      next => contradiction
  | write =>
      simp only [step] at h
      split at h
      next htodo => cases h; exact .write htodo
      next => contradiction
  | abort =>
      simp only [step] at h
      split at h
      next htodo => cases h; exact .abort htodo
      next => contradiction
  | request a =>
      cases a with
      | resolve id payload => simp [step] at h
      | _ =>
          simp only [step, Option.map_eq_some_iff] at h
          obtain ⟨requests, hq, rfl⟩ := h
          exact .request (by simp) (Requests.step_cases hq)
  | nextEvent => cases h; exact .nextEvent

/-! ## the requests in the reader -/

/-- A write is a `resolve` call, or leaves the requests alone. -/
theorem requests_apply_run (s : Router) (e : Effect) :
    Requests.system.Run Any s.requests (s.apply e).requests := by
  cases e with
  | resolve id json => exact .tail (a := .resolve id json) .refl trivial rfl
  | _ => exact .refl

/-- The requests of the reader are requests. -/
theorem requests_run (h : (system serde size).Reachable x) :
    Requests.system.Reachable x.router.requests := by
  refine h.simulate (N := Requests.system) (fun x => x.router.requests) Any ?_
  intro y a y' _ hs
  cases step_cases hs with
  | receive hempty => exact .refl
  | @write e rest htodo => exact requests_apply_run y.router e
  | abort htodo => exact .refl
  | request ha hq => exact .tail .refl trivial hq.enabled
  | nextEvent => exact .refl

end ReaderTask

namespace Heard

variable {serde : SerdeJson} {x x' : ReaderTask} {h : Heard} {a : ReaderAct} {size r n : Nat}
  {json : Json}

/-- The message at hand is the last one the reader has started with, and every
payload handed over is the one of the message noted for it. -/
structure Answers (serde : SerdeJson) (x : ReaderTask) (h : Heard) : Prop where
  current : ∀ id payload, .resolve id payload ∈ x.todo →
    ∃ front msg, h.messages = front ++ [msg] ∧ serde.fromStr (payloadOf msg) = some payload
  payload : ∀ r n json, (x.router.requests.request r).rx = .sent n json →
    ∃ k msg, h.answered r = some k ∧ h.messages[k]? = some msg ∧
      serde.fromStr (payloadOf msg) = some json

theorem mem_effects_resolve {msg : CastMessage} {id : UInt32}
    (h : .resolve id json ∈ effects serde msg) : serde.fromStr (payloadOf msg) = some json := by
  have hfirst : .resolve id json ∈ resolveEffects serde msg := by
    unfold effects receiverEffects mediaEffects at h
    cases hr : receiverStatusIn serde msg <;> cases hm : mediaStatusIn serde msg <;>
      simp [hr, hm] at h <;> grind
  unfold resolveEffects at hfirst
  rw [List.mem_map] at hfirst
  obtain ⟨call, hcall, heq⟩ := hfirst
  obtain ⟨rfl, rfl⟩ := Effect.resolve.inj heq
  obtain ⟨-, -, hjson, -⟩ := resolveCall_eq_some_iff.1 (Option.mem_toList.1 hcall)
  exact hjson

/-- What is noted stays noted. -/
theorem Answers.keep (ha : Answers serde x h) (htodo : ∀ e ∈ x'.todo, e ∈ x.todo)
    (hrx : ∀ r n json, (x'.router.requests.request r).rx = .sent n json →
      (x.router.requests.request r).rx = .sent n json) : Answers serde x' h :=
  ⟨fun id payload hmem => ha.current id payload (htodo _ hmem),
    fun r n json h => ha.payload r n json (hrx r n json h)⟩

theorem Answers.step (ha : Answers serde x h) (hs : ReaderTask.Step serde x a x') :
    Answers serde x' (h.record x a x') := by
  cases hs with
  | @receive msg hempty =>
      refine ⟨fun id payload hmem => ⟨h.messages, msg, rfl, mem_effects_resolve hmem⟩, ?_⟩
      intro r n json hrx
      obtain ⟨k, m, hk, hm, hjson⟩ := ha.payload r n json hrx
      obtain ⟨hlt, -⟩ := List.getElem?_eq_some_iff.1 hm
      exact ⟨k, m, hk, by rw [← hm]; exact List.getElem?_append_left hlt, hjson⟩
  | @write e rest htodo =>
      have hrest : ∀ e ∈ rest, e ∈ x.todo :=
        fun e he => by rw [htodo]; exact List.mem_cons_of_mem _ he
      cases e with
      | resolve id json =>
          obtain ⟨front, msg, hmsgs, hjson⟩ :=
            ha.current id json (by rw [htodo]; exact List.mem_cons_self)
          have hrx (y : Nat) : (((x.router.apply (.resolve id json)).requests).request y).rx =
              if x.router.requests.tracker.pending id = some y then
                .sent x.router.requests.resolves json else (x.router.requests.request y).rx := by
            change ((x.router.requests.resolve id json).2.request y).rx = _
            rw [Requests.request_resolve]
          simp only [Heard.record, htodo]
          cases hp : x.router.requests.tracker.pending id with
          | none =>
              refine ha.keep hrest fun y n v h => ?_
              rwa [hrx, hp, if_neg (by simp)] at h
          | some r =>
              refine ⟨fun id payload hmem => ha.current id payload (hrest _ hmem),
                fun y n v h => ?_⟩
              rw [hrx, hp] at h
              by_cases hy : r = y
              · rw [if_pos (by rw [hy])] at h
                obtain ⟨-, rfl⟩ := Oneshot.sent.inj h
                refine ⟨front.length, msg, ?_, ?_, hjson⟩
                · simp [hy, hmsgs]
                · simp [hmsgs]
              · rw [if_neg (by simpa using hy)] at h
                obtain ⟨k, m, hk, hm⟩ := ha.payload y n v h
                exact ⟨k, m, by simp only [Function.update_of_ne (Ne.symm hy), hk], hm⟩
      | _ =>
          simp only [Heard.record, htodo]
          exact ha.keep hrest fun _ _ _ => id
  | abort htodo => exact ha.keep (by simp) fun _ _ _ => id
  | request hne hq => exact ha.keep (fun _ => id) fun r n json => Requests.sent_of_step hq hne
  | nextEvent => exact ha.keep (fun _ => id) fun _ _ _ => id

theorem answers_of_run {y : ReaderTask × Heard} (h : (readerSystem serde size).Reachable y) :
    Answers serde y.1 y.2 := by
  refine h.invariant_observed (J := fun _ => True) (fun _ _ => trivial) ?_ ?_
  · constructor
    · intro id payload hmem
      simp [readerSystem, observe, ReaderTask.system] at hmem
    · intro r n json hrx
      simp [readerSystem, observe, ReaderTask.system, Router.new, Requests.new,
        Request.fresh] at hrx
  · intro s e a t _ ha _ hs
    exact ha.step (ReaderTask.step_cases hs)

end Heard

/-! ## reading one's own response -/

namespace Feed

variable {serde : SerdeJson} {σ : Type} {F : Feed serde σ} {x x' : ReaderTask} {h : Heard}
  {a : ReaderAct}
  {size n r : Nat} {id : UInt32} {json : Json} {msg : CastMessage} {status : σ}

theorem Follows.step (hf : F.Follows x h) (hs : ReaderTask.Step serde x a x') :
    F.Follows x' (h.record x a x') := by
  cases hs with
  | receive hempty => exact hf.receive hempty _
  | @write e rest htodo =>
      cases e with
      | resolve id json =>
          simp only [Heard.record, htodo]
          split
          next => exact hf.write htodo
          next => exact hf.write htodo
      | _ =>
          simp only [Heard.record, htodo]
          exact hf.write htodo
  | abort htodo => exact hf.beside rfl (by simp [htodo, F.sends_reply])
  | request hne hq => exact hf.beside (F.value_requests _ _) rfl
  | nextEvent => exact hf.beside (F.value_events _ _) rfl

theorem follows_of_run {y : ReaderTask × Heard} (hstart : ∀ size, F.value (.new .new size) = none)
    (h : (readerSystem serde size).Reachable y) : F.Follows y.1 y.2 := by
  refine h.invariant_observed (J := fun _ => True) (fun _ _ => trivial) ?_ ?_
  · have hnot : ¬ F.Ahead ⟨.new .new size, []⟩ := by simp [Ahead]
    refine ⟨fun ha => absurd ha hnot, ?_⟩
    change F.value (.new .new size) = F.after (F.routed ⟨.new .new size, []⟩ ⟨[], fun _ => none⟩)
    rw [routed_of_not_ahead hnot, hstart]
    rfl
  · intro s e a t _ hf _ hs
    exact hf.step (ReaderTask.step_cases hs)

theorem routed_isPrefix (F : Feed serde σ) (x : ReaderTask) (h : Heard) :
    F.routed x h <+: h.messages := by
  unfold routed
  split
  next => exact List.dropLast_prefix _
  next => exact List.prefix_rfl

/-- The watch says what was published since a message, if anything was, and what it
said before otherwise. -/
theorem Follows.since (hf : F.Follows x h) (hn : h.messages[n]? = some msg) :
    (∀ m ∈ (F.routed x h).drop n, F.statusIn m = none) ∧
        F.value x.router = F.after (h.messages.take n) ∨
      ∃ m ∈ (F.routed x h).drop n, (F.statusIn m).isSome ∧ F.statusIn m = F.value x.router := by
  obtain ⟨hlt, -⟩ := List.getElem?_eq_some_iff.1 hn
  have htake : (F.routed x h).take n = h.messages.take n := by
    unfold routed
    split
    next => rw [List.dropLast_eq_take, List.take_take, Nat.min_eq_left (by omega)]
    next => rfl
  have hvalue := hf.value
  rw [← List.take_append_drop n (F.routed x h), htake, after, lastWrite_append] at hvalue
  rcases lastWrite_cases (fun m => (F.statusIn m).map some) (F.after (h.messages.take n))
    ((F.routed x h).drop n) with ⟨hnone, hkeep⟩ | ⟨m, hm, hwrite⟩
  · refine .inl ⟨fun m hm => by simpa using hnone m hm, ?_⟩
    rw [hvalue]
    exact hkeep
  · refine .inr ⟨m, hm, ?_⟩
    obtain ⟨v, hv, hwritten⟩ := Option.map_eq_some_iff.1 hwrite
    rw [hvalue, hv]
    exact ⟨rfl, hwritten⟩

/-- What is routed since a message is the message itself or comes later. -/
theorem eq_or_mem_of_since {m : CastMessage} (hn : h.messages[n]? = some msg)
    (hm : m ∈ (F.routed x h).drop n) : m = msg ∨ m ∈ (F.routed x h).drop (n + 1) := by
  obtain ⟨hlt, hmsg⟩ := List.getElem?_eq_some_iff.1 hn
  have hroom : n < (F.routed x h).length := by
    by_contra hle
    rw [List.drop_eq_nil_of_le (by omega)] at hm
    simp at hm
  rw [List.drop_eq_getElem_cons hroom, (routed_isPrefix F x h).getElem hroom, hmsg,
    List.mem_cons] at hm
  exact hm

/-- The watch is as new as the answer exactly when the reader has got past it. -/
theorem Follows.fresh_iff (hf : F.Follows x h) (hn : h.messages[n]? = some msg)
    (hjson : serde.fromStr (payloadOf msg) = some json) (hparse : F.parse json = some status) :
    F.Fresh x h n status ↔ F.Passed x h n status := by
  have hsub : ∀ m ∈ (F.routed x h).drop (n + 1), m ∈ (F.routed x h).drop n := fun m hm =>
    (List.drop_sublist_drop_left _ (Nat.le_succ n)).subset hm
  rcases hf.since hn with ⟨hnone, hvalue⟩ | ⟨m, hm, hsome, heq⟩
  · constructor
    · rintro (hval | ⟨m, hm, hsome, -⟩)
      · exact .inr (by rw [← hvalue, hval])
      · simp [hnone m (hsub m hm)] at hsome
    · rintro (⟨m, hm, hsome⟩ | hbefore)
      · simp [hnone m hm] at hsome
      · exact .inl (by rw [hvalue, hbefore])
  · refine iff_of_true ?_ (.inl ⟨m, hm, hsome⟩)
    rcases eq_or_mem_of_since hn hm with rfl | hlater
    · obtain ⟨v, hv⟩ := Option.isSome_iff_exists.1 hsome
      have hown := F.parse_of_statusIn m json v hjson hv
      rw [hparse] at hown
      exact .inl (by rw [← heq, hv, hown])
    · exact .inr ⟨m, hlater, hsome, heq⟩

end Feed

/-- **Read your own response**: in every state of every run, when a typed method
returns `Ok` with a status its answer parses to, the watch holds this status or
one routed later exactly when the reader has got past the watch send of the
answer or of a later status, or the watch held an equal status before. -/
theorem read_own_response_iff {serde : SerdeJson} {size r : Nat} {x : ReaderTask} {h : Heard}
    {op : Operation} {id : UInt32} {json : Json} {value : Value}
    (hrun : (readerSystem serde size).Reachable (x, h)) (hop : Operation.Typed serde op)
    (hret : (x.router.requests.request r).phase = .returned id (.ok json))
    (hval : op.returns json = some value) :
    ∃ n msg, h.answered r = some n ∧ h.messages[n]? = some msg ∧
      serde.fromStr (payloadOf msg) = some json ∧
      (∀ status, value.media? = some status → parseMediaStatus json = some status ∧
        ((mediaFeed serde).Fresh x h n status ↔ (mediaFeed serde).Passed x h n status)) ∧
      (value.OfReceiver → ∃ status, parseReceiverStatus json = some status ∧ value.ReadFrom status ∧
        ((receiverFeed serde).Fresh x h n status ↔ (receiverFeed serde).Passed x h n status)) := by
  have hrequests := ReaderTask.requests_run (hrun.unobserved fun _ _ _ => trivial)
  obtain ⟨call, hrx⟩ := (Requests.answering_of_run hrequests).result r id json hret
  obtain ⟨n, msg, hn, hmsg, hjson⟩ := (Heard.answers_of_run hrun).payload r call json hrx
  obtain ⟨hmedia, hreceiver⟩ := hop.parsed hval
  refine ⟨n, msg, hn, hmsg, hjson, fun status hstatus => ?_, fun hof => ?_⟩
  · have hparse := hmedia status hstatus
    have hf : (mediaFeed serde).Follows x h := Feed.follows_of_run (fun _ => rfl) hrun
    exact ⟨hparse, hf.fresh_iff hmsg hjson hparse⟩
  · obtain ⟨status, hparse, hread⟩ := hreceiver hof
    have hf : (receiverFeed serde).Follows x h := Feed.follows_of_run (fun _ => rfl) hrun
    exact ⟨status, hparse, hread, hf.fresh_iff hmsg hjson hparse⟩

/-- The answer to a GET_STATUS that was sent to an app. -/
def appStatus : Json := .object [("requestId", .ofU32 1), ("status", .array [.object
  [("mediaSessionId", .ofU32 5), ("playerState", .string "PLAYING")]]),
  ("type", .string msgMediaStatus)]

def appStatusSerde : SerdeJson := .ofText appStatus.compact appStatus

/-- The reader resolves the request, and the caller returns. -/
def returnedActs : List ReaderAct :=
  [.request (.increment 0), .request (.insert 0),
    .receive (buildMessage nsMedia "web-1" senderId appStatus.compact), .write,
    .request (.receive 0)]

theorem returns_appStatus : ∃ status, parseMediaStatus appStatus = some status ∧
    (Operation.mediaStatus appStatusSerde).returns appStatus =
      some (.optionMediaStatus (some status)) :=
  ⟨_, rfl, rfl⟩

/-- Two writes later the caller reads what it was given. -/
theorem read_own_response_published : ∃ x h status,
    (readerSystem appStatusSerde 256).exec (readerSystem appStatusSerde 256).init
      (returnedActs ++ [.write, .write]) = some (x, h) ∧
      (mediaFeed appStatusSerde).Fresh x h 0 status := by
  obtain ⟨status, -, hval⟩ := returns_appStatus
  have hrun := reachable_of_exec (M := readerSystem appStatusSerde 256)
    (returnedActs ++ [.write, .write]) rfl
  obtain ⟨n, msg, hn, -, -, hmedia, -⟩ := read_own_response_iff (r := 0) hrun .mediaStatus rfl hval
  obtain rfl : 0 = n := Option.some.inj hn
  exact ⟨_, _, status, rfl, (hmedia status rfl).2.2 (.inl ⟨_, List.mem_cons_self, rfl⟩)⟩

/-- The caller has returned, and the watch is still empty. -/
theorem response_before_watch : ¬ ∀ (serde : SerdeJson) (size r : Nat) (x : ReaderTask) (h : Heard)
    (op : Operation) (id : UInt32) (json : Json) (value : Value),
    (readerSystem serde size).Reachable (x, h) → Operation.Typed serde op →
      (x.router.requests.request r).phase = .returned id (.ok json) → op.returns json = some value →
      ∀ n status, h.answered r = some n → value.media? = some status →
        (mediaFeed serde).Fresh x h n status := by
  intro hall
  obtain ⟨status, -, hval⟩ := returns_appStatus
  have hrun := reachable_of_exec (M := readerSystem appStatusSerde 256) returnedActs rfl
  have hfresh := hall _ _ 0 _ _ _ _ _ _ hrun .mediaStatus rfl hval 0 status rfl rfl
  rcases hfresh with hvalue | ⟨m, hm, -⟩
  · have hempty : (none : Option MediaStatus) = some status := hvalue
    contradiction
  · have hnone : m ∈ ([] : List CastMessage) := hm
    contradiction

end Oxicast
