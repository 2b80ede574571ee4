import Oxicast.Router.Effects
import Oxicast.Session.Invariant

/-!
# Oxicast.Session.Routing

The client between two writes of its readers.

`Session.route` makes all writes of a message in one step.  `route` of the source
makes them one after another, and the callers run on in between: one whose request
has been resolved stores what it stores before the reader has stored the media
session of the same message.  `Routing` is the client with the writes its readers
have still to make, and with the calls whose result their caller has:

* `foldl_write` — all writes of a message together are `Session.route`;
* `run_of_session` — every run of the client is a run of its readers' single writes.
-/

namespace Oxicast

open TransitionSystem Router

/-! ## the writes of a reader -/

namespace Router

/-- The reply a reader makes last, and waits for room for. -/
def Effect.isReply : Effect → Bool
  | .reply _ => true
  | _ => false

end Router

namespace Session

variable {serde : SerdeJson} {cfg : ClientConfig} {s s' : Session} {a : SessionAct} {c : Nat}

/-- The reader of connection `c` makes one write. -/
def write (s : Session) (c : Nat) (e : Effect) : Session :=
  let after := s.router.apply e
  { s with
    requests := after.requests
    media := after.media
    receiver := after.receiver
    mediaSessionId := after.mediaSessionId
    life := s.life.emit c after.offered }

@[simp] theorem calls_write (s : Session) (c : Nat) (e : Effect) :
    (s.write c e).calls = s.calls := rfl

@[simp] theorem task_write (s : Session) (c : Nat) (e : Effect) :
    (s.write c e).life.task = s.life.task := rfl

/-- Only one of the writes stores a media session. -/
theorem mediaSessionId_write (s : Session) (c : Nat) (e : Effect) :
    (s.write c e).mediaSessionId = match e with
      | .storeSession id => id
      | _ => s.mediaSessionId := by
  cases e <;> rfl

/-- What a reader writes does not depend on the events and replies so far. -/
theorem foldl_apply_with (s : Router) (es : List Effect) (events : Mpsc CastEvent)
    (offered : List CastEvent) (outbound : List CastMessage) :
    ∃ events' offered' outbound',
      es.foldl Router.apply { s with events, offered, outbound } =
        { es.foldl Router.apply s with
          events := events', offered := offered', outbound := outbound' } := by
  induction es generalizing s events offered outbound with
  | nil => exact ⟨events, offered, outbound, rfl⟩
  | cons e es ih =>
      cases e with
      | offer event => exact ih (s.offer event) _ _ _
      | reply msg => exact ih (s.apply (.reply msg)) _ _ _
      | resolve id json => exact ih (s.apply (.resolve id json)) _ _ _
      | storeSession id => exact ih (s.apply (.storeSession id)) _ _ _
      | publishMedia status => exact ih (s.apply (.publishMedia status)) _ _ _
      | publishReceiver status => exact ih (s.apply (.publishReceiver status)) _ _ _

theorem emit_append (life : Lifecycle) (c : Nat) (es es' : List CastEvent) :
    life.emit c (es ++ es') = (life.emit c es).emit c es' := by
  unfold Lifecycle.emit Lifecycle.taskSendEvents
  by_cases hopen : life.taskEventTx c
  · simp only [hopen, if_true, List.foldl_append]
  · simp only [hopen, if_false, Bool.false_eq_true]

/-- All writes of a list. -/
theorem foldl_write (s : Session) (c : Nat) (es : List Effect) :
    es.foldl (write · c) s =
      { s with
        requests := (es.foldl Router.apply s.router).requests
        media := (es.foldl Router.apply s.router).media
        receiver := (es.foldl Router.apply s.router).receiver
        mediaSessionId := (es.foldl Router.apply s.router).mediaSessionId
        life := s.life.emit c (es.filterMap Effect.event?) } := by
  induction es generalizing s with
  | nil =>
      have hquiet : s.life.emit c [] = s.life := by simp [Lifecycle.emit, Lifecycle.taskSendEvents]
      rw [List.filterMap_nil, hquiet]
      rfl
  | cons e es ih =>
      obtain ⟨events, offered, outbound, hrest⟩ :=
        foldl_apply_with (s.router.apply e) es (s.write c e).life.events [] []
      have hrouter : (s.write c e).router =
          { s.router.apply e with
            events := (s.write c e).life.events, offered := [], outbound := [] } := rfl
      have hlife : (s.write c e).life = s.life.emit c ([e].filterMap Effect.event?) := by
        cases e <;> rfl
      rw [List.foldl_cons, ih, List.foldl_cons, hrouter, hrest, hlife, ← emit_append,
        ← List.filterMap_append]
      rfl

/-- All writes of a message are its routing. -/
theorem foldl_write_effects (serde : SerdeJson) (s : Session) (c : Nat) (msg : CastMessage) :
    (effects serde msg).foldl (write · c) s = s.route serde c msg := by
  rw [foldl_write, Session.route, ← route_eq_foldl]
  simp only [offered_route, eventsOf]
  rfl

end Session

/-! ## the client between two writes -/

/-- The client, the writes that the reader of every connection has still to make of the
message in its hand, and whether the caller of a call has its result. -/
structure Routing where
  session : Session
  todo : Nat → List Effect
  returned : Nat → Bool

inductive RoutingAct where
  /-- a step of the client that routes nothing -/
  | session (a : SessionAct)
  /-- the reader of connection `c` takes the next message -/
  | read (c : Nat) (msg : CastMessage)
  /-- it makes the next write -/
  | write (c : Nat)
  /-- a call returns to its caller -/
  | returns (r : Nat)

/-- The connection whose reader a step ends. -/
def SessionAct.endsReader : SessionAct → Option Nat
  | .life (.fail c .reader _) | .life (.noticeCancel c .reader) | .life (.noticeAbort c .reader) =>
      some c
  | _ => none

namespace Routing

variable (serde : SerdeJson) (cfg : ClientConfig)

/-- One step.  A reader in the middle of a message ends only where it waits: at its reply. -/
def step (x : Routing) : RoutingAct → Option Routing
  | .session (.route _ _) => none
  | .session a =>
      if a.endsReader.all fun c => (x.todo c).all Effect.isReply then
        (x.session.step serde cfg a).map fun session => { x with session }
      else none
  | .read c msg =>
      if x.session.life.task c .reader = .running ∧ (x.todo c).isEmpty then
        some { x with todo := Function.update x.todo c (effects serde msg) }
      else none
  | .write c =>
      match x.todo c with
      | e :: rest =>
          some { x with session := x.session.write c e, todo := Function.update x.todo c rest }
      | [] => none
  | .returns r =>
      match (x.session.calls r).pc, x.returned r with
      | .ended (some _), false => some { x with returned := Function.update x.returned r true }
      | _, _ => none

def start : Routing := ⟨.start cfg, fun _ => [], fun _ => false⟩

/-- All interleavings of the readers' writes with the steps of the callers. -/
def system : TransitionSystem Routing RoutingAct := ⟨start cfg, step serde cfg⟩

/-! ## every step of the client is a run of single writes -/

variable {serde cfg} {x y : Routing}

/-- The enabled steps. -/
inductive Step (serde : SerdeJson) (cfg : ClientConfig) (x : Routing) :
    RoutingAct → Routing → Prop
  | session {a : SessionAct} {session : Session} (hroute : ∀ c msg, a ≠ .route c msg)
      (hends : a.endsReader.all fun c => (x.todo c).all Effect.isReply)
      (h : Session.Step serde cfg x.session a session) :
      Step serde cfg x (.session a) { x with session }
  | read {c : Nat} {msg : CastMessage} (hrun : x.session.life.task c .reader = .running)
      (hidle : x.todo c = []) :
      Step serde cfg x (.read c msg)
        { x with todo := Function.update x.todo c (effects serde msg) }
  | write {c : Nat} {e : Effect} {rest : List Effect} (htodo : x.todo c = e :: rest) :
      Step serde cfg x (.write c)
        { x with session := x.session.write c e, todo := Function.update x.todo c rest }
  | returns {r : Nat} {result : Except Error Value}
      (hpc : (x.session.calls r).pc = .ended (some result)) (hnot : x.returned r = false) :
      Step serde cfg x (.returns r) { x with returned := Function.update x.returned r true }

theorem step_session {a : SessionAct} (hroute : ∀ c msg, a ≠ .route c msg) :
    step serde cfg x (.session a) =
      if a.endsReader.all fun c => (x.todo c).all Effect.isReply then
        (x.session.step serde cfg a).map fun session => { x with session }
      else none := by
  cases a with
  | route c msg => exact absurd rfl (hroute c msg)
  | _ => rfl

theorem step_cases {a : RoutingAct} (h : step serde cfg x a = some y) : Step serde cfg x a y := by
  cases a with
  | session a =>
      have hroute (c : Nat) (msg : CastMessage) : a ≠ .route c msg := by
        rintro rfl
        contradiction
      rw [step_session hroute] at h
      split at h
      next hends =>
        obtain ⟨session, hs, rfl⟩ := Option.map_eq_some_iff.1 h
        exact .session hroute hends (Session.step_cases hs)
      next => contradiction
  | read c msg =>
      obtain ⟨⟨hrun, hidle⟩, rfl⟩ := of_if h
      exact .read hrun (List.isEmpty_iff.1 hidle)
  | write c =>
      simp only [step] at h
      split at h
      next e rest htodo =>
        obtain rfl := Option.some.inj h
        exact .write htodo
      next => contradiction
  | returns r =>
      simp only [step] at h
      split at h
      next result hpc hnot =>
        obtain rfl := Option.some.inj h
        exact .returns hpc hnot
      next => contradiction

/-- A reader makes its next write whenever it has one. -/
theorem step_write {c : Nat} {e : Effect} {rest : List Effect} (htodo : x.todo c = e :: rest) :
    (system serde cfg).step x (.write c) =
      some { x with session := x.session.write c e, todo := Function.update x.todo c rest } := by
  change step serde cfg x (.write c) = _
  simp only [step, htodo]

/-- The writes of a message one after another. -/
theorem run_of_writes {c : Nat} {es : List Effect} (htodo : x.todo c = es) :
    (system serde cfg).Run Any x
      { x with
        session := es.foldl (Session.write · c) x.session
        todo := Function.update x.todo c [] } := by
  induction es generalizing x with
  | nil =>
      rw [← htodo, Function.update_eq_self, htodo]
      exact .refl
  | cons e es ih =>
      have hwrite := @step_write serde cfg x c e es htodo
      have hrest := ih (x := { x with
        session := x.session.write c e
        todo := Function.update x.todo c es }) (Function.update_self ..)
      rw [Function.update_idem] at hrest
      exact (Run.refl.tail trivial hwrite).trans hrest

/-- **Refinement**: what the client does in one step its readers do in several. -/
theorem run_of_session {s s' : Session} {returned : Nat → Bool}
    (h : (Session.system serde cfg).Run Any s s') :
    (system serde cfg).Run Any ⟨s, fun _ => [], returned⟩ ⟨s', fun _ => [], returned⟩ := by
  refine h.simulate (fun s => (⟨s, fun _ => [], returned⟩ : Routing)) Any fun s a s' _ hs => ?_
  by_cases hroute : ∃ c msg, a = .route c msg
  · obtain ⟨c, msg, rfl⟩ := hroute
    cases Session.step_cases (show s.step serde cfg (.route c msg) = some s' from hs) with
    | route hrun =>
        let busy : Routing := ⟨s, Function.update (fun _ => []) c (effects serde msg), returned⟩
        have hread : step serde cfg ⟨s, fun _ => [], returned⟩ (.read c msg) = some busy :=
          if_pos ⟨hrun, rfl⟩
        have htodo : busy.todo c = effects serde msg := by simp [busy]
        have hwrites := @run_of_writes serde cfg busy c _ htodo
        rw [Session.foldl_write_effects, Function.update_idem, Function.update_eq_self] at hwrites
        exact (Run.tail (a := .read c msg) .refl trivial hread).trans hwrites
  · have hall : a.endsReader.all fun _ => ([] : List Effect).all Effect.isReply := by
      cases a.endsReader <;> rfl
    refine .tail .refl trivial (a := .session a) ((step_session fun c msg heq => ?_).trans ?_)
    · exact hroute ⟨c, msg, heq⟩
    · rw [if_pos hall, show s.step serde cfg a = some s' from hs]
      rfl

end Routing

end Oxicast
