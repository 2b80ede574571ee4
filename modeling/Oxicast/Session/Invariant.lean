import Oxicast.Lifecycle.Invariant
import Oxicast.Router.Delivery
import Oxicast.Session

/-!
# Oxicast.Session.Invariant

What one step of the session can do, and its two projections: every run of the
session is a run of the lifecycle and a run of the request tracker, so that
what holds in these holds here.
-/

namespace Oxicast

/-- The call that takes a step, once it has begun. -/
def SessionAct.call? : SessionAct → Option Nat
  | .readTransport r | .readSession r | .readMediaSession r | .increment r | .incrementAgain r
  | .insert r | .cloneWriteTx r | .accept r | .sendFailed r | .receive r | .senderDropped r
  | .timeout r | .cleanup r | .appSeen r | .skipEvent r | .launchTimeout r | .storeTransport r
  | .storeSession r | .clearTransport r | .clearSession r | .drop r => some r
  | .life _ | .route _ _ | .begin _ _ => none

namespace Session

open TransitionSystem

variable {serde : SerdeJson} {cfg : ClientConfig} {s s' : Session} {a : SessionAct} {r : Nat}

/-- The lifecycle steps whose effect on the session is `afterLife`. -/
def Plain : LifecycleAct → Prop
  | .emit _ _ | .readTransport _ => False
  | _ => True

/-- What one step can do, with the guard it passes. -/
inductive Step (serde : SerdeJson) (cfg : ClientConfig) (s : Session) : SessionAct → Session → Prop
  | life {b : LifecycleAct} {life : Lifecycle} (hb : Plain b)
      (h : Lifecycle.Step cfg s.life b life) :
      Step serde cfg s (.life b) (s.afterLife serde b life)
  | lifeReadTransport {life : Lifecycle}
      (h : Lifecycle.Step cfg s.life (.readTransport s.transportId) life) :
      Step serde cfg s (.life (.readTransport s.transportId)) (s.afterReadTransport life)
  | route {c : Nat} {msg : CastMessage} (h : s.life.task c .reader = .running) :
      Step serde cfg s (.route c msg) (s.route serde c msg)
  | begin {r : Nat} {op : Operation} (hb : s.life.builder = .done) (h : (s.calls r).pc = .idle) :
      Step serde cfg s (.begin r op) (s.begin r op)
  | readTransport {r : Nat} (h : (s.calls r).pc = .readTransport)
      (hfree : resending s.life = none) :
      Step serde cfg s (.readTransport r) (s.readTransport r)
  | readSession {r : Nat} (h : (s.calls r).pc = .readSession) :
      Step serde cfg s (.readSession r) (s.readSession r)
  | readMediaSession {r : Nat} (h : (s.calls r).pc = .readMediaSession) :
      Step serde cfg s (.readMediaSession r) (s.readMediaSession r)
  | increment {r : Nat} {q : Requests} (h : (s.calls r).pc = .register)
      (hq : s.requests.step (.increment r) = some q) :
      Step serde cfg s (.increment r) { s with requests := q }
  | incrementAgain {r : Nat} {q : Requests} (h : (s.calls r).pc = .register)
      (hq : s.requests.step (.incrementAgain r) = some q) :
      Step serde cfg s (.incrementAgain r) { s with requests := q }
  | insert {r : Nat} {q : Requests} (h : (s.calls r).pc = .register)
      (hq : s.requests.step (.insert r) = some q) :
      Step serde cfg s (.insert r) ({ s with requests := q }.goto r (.send .request))
  | cloneWriteTx {r : Nat} {what : Outgoing} (h : (s.calls r).pc = .send what) :
      Step serde cfg s (.cloneWriteTx r) (s.goto r (.enqueue what s.life.writeTx))
  | accept {r c : Nat} {what : Outgoing} (h : (s.calls r).pc = .enqueue what c)
      (hopen : Open s.life c) : Step serde cfg s (.accept r) (s.accept serde r what c)
  | sendFailed {r c : Nat} {what : Outgoing} (h : (s.calls r).pc = .enqueue what c)
      (hopen : ¬ Open s.life c) :
      Step serde cfg s (.sendFailed r) (s.goto r (.ended (some (.error .disconnected))))
  | receive {r n : Nat} {json : Json} {q : Requests} (h : (s.calls r).pc = .wait)
      (hrx : (s.requests.request r).rx = .sent n json)
      (hq : s.requests.step (.receive r) = some q) :
      Step serde cfg s (.receive r) ({ s with requests := q }.answer r json)
  | senderDropped {r : Nat} {q : Requests} (h : (s.calls r).pc = .wait)
      (hq : s.requests.step (.senderDropped r) = some q) :
      Step serde cfg s (.senderDropped r) { s with requests := q }
  | timeout {r : Nat} {q : Requests} (h : (s.calls r).pc = .wait)
      (hq : s.requests.step (.timeout r) = some q) :
      Step serde cfg s (.timeout r) { s with requests := q }
  | cleanup {r : Nat} {id : UInt32} {err : Error} {q : Requests} (h : (s.calls r).pc = .wait)
      (hp : (s.requests.request r).phase = .cleanup id err)
      (hq : s.requests.step (.cleanup r) = some q) :
      Step serde cfg s (.cleanup r) ({ s with requests := q }.goto r (.ended (some (.error err))))
  | appSeen {r : Nat} {appId : String} {event : CastEvent} {rest : List CastEvent}
      {app : Application} (h : (s.calls r).pc = .awaitApp appId)
      (hbuf : s.life.events.buffer = event :: rest) (happ : appIn appId event = some app) :
      Step serde cfg s (.appSeen r)
        ({ s with life := s.life.nextEvent }.goto r (.send (.connect app)))
  | skipEvent {r : Nat} {appId : String} {event : CastEvent} {rest : List CastEvent}
      (h : (s.calls r).pc = .awaitApp appId) (hbuf : s.life.events.buffer = event :: rest)
      (happ : appIn appId event = none) :
      Step serde cfg s (.skipEvent r) { s with life := s.life.nextEvent }
  | launchTimeout {r : Nat} {appId : String} (h : (s.calls r).pc = .awaitApp appId) :
      Step serde cfg s (.launchTimeout r)
        (s.goto r (.ended (some (.error (Session.launchTimeout appId)))))
  | storeTransport {r : Nat} {app : Application} (h : (s.calls r).pc = .storeTransport app)
      (hfree : resending s.life = none) :
      Step serde cfg s (.storeTransport r)
        ({ s with transportId := some app.transportId }.goto r (.storeSession app))
  | storeSession {r : Nat} {app : Application} (h : (s.calls r).pc = .storeSession app) :
      Step serde cfg s (.storeSession r)
        ({ s with sessionId := some app.sessionId }.goto r (.ended (some (.ok (.application app)))))
  | clearTransport {r : Nat} (h : (s.calls r).pc = .clearTransport)
      (hfree : resending s.life = none) :
      Step serde cfg s (.clearTransport r) ({ s with transportId := none }.goto r .clearSession)
  | clearSession {r : Nat} (h : (s.calls r).pc = .clearSession) :
      Step serde cfg s (.clearSession r)
        ({ s with sessionId := none }.goto r (.ended (some (.ok .unit))))
  | drop {r : Nat} (hidle : (s.calls r).pc ≠ .idle)
      (hend : ∀ result, (s.calls r).pc ≠ .ended result) :
      Step serde cfg s (.drop r) (s.goto r (.ended none))

theorem of_requestStep {b : TrackerAct} {next : Session → Session}
    (h : s.requestStep b next = some s') :
    ∃ q, s.requests.step b = some q ∧ next { s with requests := q } = s' :=
  Option.map_eq_some_iff.1 h

/-- The step function does what `Step` says. -/
theorem step_cases (h : s.step serde cfg a = some s') : Step serde cfg s a s' := by
  cases a with
  | life b =>
      have plain (hb : Plain b)
          (h : (s.life.step cfg b).map (s.afterLife serde b) = some s') :
          Step serde cfg s (.life b) s' := by
        obtain ⟨life, hl, rfl⟩ := Option.map_eq_some_iff.1 h
        exact .life hb (Lifecycle.step_cases hl)
      cases b with
      | emit c es => contradiction
      | readTransport tid =>
          simp only [step] at h
          split at h
          next ht =>
            obtain ⟨life, hl, rfl⟩ := Option.map_eq_some_iff.1 h
            subst ht
            exact .lifeReadTransport (Lifecycle.step_cases hl)
          next => contradiction
      | _ => exact plain trivial h
  | route c msg => obtain ⟨ht, rfl⟩ := of_if h; exact .route ht
  | begin r op =>
      simp only [step] at h; split at h
      next hb hpc => cases h; exact .begin hb hpc
      next => contradiction
  | readTransport r =>
      simp only [step] at h; split at h
      next hpc => obtain ⟨hfree, rfl⟩ := of_if h; exact .readTransport hpc hfree
      next => contradiction
  | readSession r =>
      simp only [step] at h; split at h
      next hpc => cases h; exact .readSession hpc
      next => contradiction
  | readMediaSession r =>
      simp only [step] at h; split at h
      next hpc => cases h; exact .readMediaSession hpc
      next => contradiction
  | increment r =>
      simp only [step] at h; split at h
      next hpc => obtain ⟨q, hq, rfl⟩ := of_requestStep h; exact .increment hpc hq
      next => contradiction
  | incrementAgain r =>
      simp only [step] at h; split at h
      next hpc => obtain ⟨q, hq, rfl⟩ := of_requestStep h; exact .incrementAgain hpc hq
      next => contradiction
  | insert r =>
      simp only [step] at h; split at h
      next hpc => obtain ⟨q, hq, rfl⟩ := of_requestStep h; exact .insert hpc hq
      next => contradiction
  | cloneWriteTx r =>
      simp only [step] at h; split at h
      next what hpc => cases h; exact .cloneWriteTx hpc
      next => contradiction
  | accept r =>
      simp only [step] at h; split at h
      next what c hpc => obtain ⟨hopen, rfl⟩ := of_if h; exact .accept hpc hopen
      next => contradiction
  | sendFailed r =>
      simp only [step] at h; split at h
      next what c hpc =>
        split at h
        next => contradiction
        next hopen => cases h; exact .sendFailed hpc hopen
      next => contradiction
  | receive r =>
      simp only [step] at h; split at h
      next n json hpc hrx => obtain ⟨q, hq, rfl⟩ := of_requestStep h; exact .receive hpc hrx hq
      next => contradiction
  | senderDropped r =>
      simp only [step] at h; split at h
      next hpc => obtain ⟨q, hq, rfl⟩ := of_requestStep h; exact .senderDropped hpc hq
      next => contradiction
  | timeout r =>
      simp only [step] at h; split at h
      next hpc => obtain ⟨q, hq, rfl⟩ := of_requestStep h; exact .timeout hpc hq
      next => contradiction
  | cleanup r =>
      simp only [step] at h; split at h
      next id err hpc hp => obtain ⟨q, hq, rfl⟩ := of_requestStep h; exact .cleanup hpc hp hq
      next => contradiction
  | appSeen r =>
      simp only [step] at h; split at h
      next appId event rest hpc hbuf =>
        split at h
        next app happ => cases h; exact .appSeen hpc hbuf happ
        next => contradiction
      next => contradiction
  | skipEvent r =>
      simp only [step] at h; split at h
      next appId event rest hpc hbuf =>
        split at h
        next => contradiction
        next happ => cases h; exact .skipEvent hpc hbuf happ
      next => contradiction
  | launchTimeout r =>
      simp only [step] at h; split at h
      next appId hpc => cases h; exact .launchTimeout hpc
      next => contradiction
  | storeTransport r =>
      simp only [step] at h; split at h
      next app hpc => obtain ⟨hfree, rfl⟩ := of_if h; exact .storeTransport hpc hfree
      next => contradiction
  | storeSession r =>
      simp only [step] at h; split at h
      next app hpc => cases h; exact .storeSession hpc
      next => contradiction
  | clearTransport r =>
      simp only [step] at h; split at h
      next hpc => obtain ⟨hfree, rfl⟩ := of_if h; exact .clearTransport hpc hfree
      next => contradiction
  | clearSession r =>
      simp only [step] at h; split at h
      next hpc => cases h; exact .clearSession hpc
      next => contradiction
  | drop r =>
      simp only [step] at h; split at h
      next => contradiction
      next => contradiction
      next hidle hend =>
        cases h
        exact .drop (fun he => hidle he) (fun result he => hend result he)

/-! ## projections -/

/-- Where a call of an operation can be when it has started. -/
def CallPc.Begun (op : Operation) : CallPc → Prop
  | .readTransport => op.reads ≠ .nothing
  | .register => op.reads = .nothing ∧ op.answered = true
  | .send .request => op.reads = .nothing ∧ op.answered = false
  | .ended _ => True
  | _ => False

theorem begin_eq (s : Session) (r : Nat) (op : Operation) :
    ∃ pc, s.begin r op = { s with calls := s.setCall r fun _ => { Call.fresh with op, pc } } ∧
      CallPc.Begun op pc := by
  refine ⟨_, rfl, ?_⟩
  split
  · trivial
  next hreads =>
    cases hans : op.answered with
    | true => exact ⟨hreads, hans⟩
    | false => exact ⟨hreads, hans⟩
  next hreads => exact fun h => hreads h

/-- Where a call can be after its answer. -/
def CallPc.Answered : CallPc → Prop
  | .send (.connect _) | .awaitApp _ | .clearTransport | .ended _ => True
  | _ => False

/-- An answer stores a media session id and moves its call on. -/
theorem answer_eq (s : Session) (r : Nat) (json : Json) :
    ∃ m pc, s.answer r json = { s with mediaSessionId := m }.goto r pc ∧ CallPc.Answered pc := by
  simp only [answer]
  split
  · exact ⟨s.mediaSessionId, _, rfl, trivial⟩
  · refine ⟨_, _, rfl, ?_⟩
    split
    · trivial
    · split <;> trivial
    · trivial

@[simp, grind =] theorem life_answer (s : Session) (r : Nat) (json : Json) :
    (s.answer r json).life = s.life := by
  obtain ⟨m, pc, heq, -⟩ := s.answer_eq r json
  rw [heq]; rfl

@[simp, grind =] theorem requests_answer (s : Session) (r : Nat) (json : Json) :
    (s.answer r json).requests = s.requests := by
  obtain ⟨m, pc, heq, -⟩ := s.answer_eq r json
  rw [heq]; rfl

/-- Where a call goes on after it has read `transport_id`. -/
def CallPc.AfterTransport (op : Operation) : CallPc → Prop
  | .readSession => op.reads = .transportAndSession
  | .readMediaSession => op.reads = .transportAndMediaSession
  | .register => op.reads ≠ .transportAndSession ∧ op.reads ≠ .transportAndMediaSession
  | _ => False

/-- A call reads `transport_id` and goes on, or ends without one. -/
theorem readTransport_eq (s : Session) (r : Nat) :
    (s.transportId = none ∧
      s.readTransport r = s.goto r (.ended (some (s.calls r).op.noTransport))) ∨
    ∃ tid pc, s.transportId = some tid ∧ CallPc.AfterTransport (s.calls r).op pc ∧
      s.readTransport r = { s with calls := s.setCall r fun call =>
        { call with
          target := { call.target with transportId := tid }, epoch := s.opened, pc } } := by
  unfold readTransport
  cases htid : s.transportId with
  | none => exact .inl ⟨rfl, rfl⟩
  | some tid =>
      refine .inr ⟨tid, _, rfl, ?_, rfl⟩
      cases hreads : (s.calls r).op.reads with
      | nothing => simp [CallPc.AfterTransport, hreads]
      | transport => simp [CallPc.AfterTransport, hreads]
      | transportAndSession => exact hreads
      | transportAndMediaSession => exact hreads

@[simp, grind =] theorem life_readTransport (s : Session) (r : Nat) :
    (s.readTransport r).life = s.life := by
  simp only [readTransport]; split <;> rfl

@[simp, grind =] theorem requests_readTransport (s : Session) (r : Nat) :
    (s.readTransport r).requests = s.requests := by
  simp only [readTransport]; split <;> rfl

@[simp, grind =] theorem life_readSession (s : Session) (r : Nat) :
    (s.readSession r).life = s.life := by
  simp only [readSession]; split <;> rfl

@[simp, grind =] theorem requests_readSession (s : Session) (r : Nat) :
    (s.readSession r).requests = s.requests := by
  simp only [readSession]; split <;> rfl

@[simp, grind =] theorem life_readMediaSession (s : Session) (r : Nat) :
    (s.readMediaSession r).life = s.life := by
  simp only [readMediaSession]; split <;> rfl

@[simp, grind =] theorem requests_readMediaSession (s : Session) (r : Nat) :
    (s.readMediaSession r).requests = s.requests := by
  simp only [readMediaSession]; split <;> rfl

/-- Where a call can be after a send. -/
def CallPc.Accepted : CallPc → Prop
  | .wait | .storeTransport _ | .ended _ => True
  | _ => False

/-- A successful send pushes a message and moves its call on. -/
theorem accept_eq (serde : SerdeJson) (s : Session) (r c : Nat) (what : Outgoing) :
    ∃ msg f, s.accept serde r what c = { s with sent := s.push c msg, calls := s.setCall r f } ∧
      (f (s.calls r)).op = (s.calls r).op ∧ (f (s.calls r)).target = (s.calls r).target ∧
      CallPc.Accepted (f (s.calls r)).pc := by
  cases what with
  | request =>
      refine ⟨_, _, rfl, rfl, rfl, ?_⟩
      dsimp only
      split <;> trivial
  | connect app => exact ⟨_, _, rfl, rfl, rfl, trivial⟩

@[simp, grind =] theorem life_accept (s : Session) (r c : Nat) (what : Outgoing) :
    (s.accept serde r what c).life = s.life := by
  cases what <;> rfl

@[simp, grind =] theorem requests_accept (s : Session) (r c : Nat) (what : Outgoing) :
    (s.accept serde r what c).requests = s.requests := by
  cases what <;> rfl

/-- A routed message reaches the requests by its one `resolve` call. -/
@[grind =] theorem requests_route (s : Session) (c : Nat) (msg : CastMessage) :
    (s.route serde c msg).requests = Router.resolved s.requests (Router.resolveCall serde msg) :=
  Router.requests_route serde s.router msg

/-- A step of the session is a step of the lifecycle or leaves it alone. -/
theorem Step.life_step (h : Step serde cfg s a s') :
    s'.life = s.life ∨ ∃ b, Lifecycle.Step cfg s.life b s'.life := by
  cases h with
  | life hb h => exact .inr ⟨_, h⟩
  | lifeReadTransport h => exact .inr ⟨_, h⟩
  | route h => exact .inr ⟨_, .emit h⟩
  | appSeen h hbuf happ => exact .inr ⟨_, .nextEvent⟩
  | skipEvent h hbuf happ => exact .inr ⟨_, .nextEvent⟩
  | _ => exact .inl (by simp [Session.begin])

/-- A step of the session is a step of the request tracker or leaves it alone. -/
theorem Step.requests_step (h : Step serde cfg s a s') :
    s'.requests = s.requests ∨ ∃ b, Requests.Step s.requests b s'.requests := by
  cases h with
  | @life b life hb h =>
      cases b with
      | clearAndSpawn => exact .inr ⟨_, .clear⟩
      | readerCleared c => exact .inr ⟨_, .clear⟩
      | publishDisconnected d => exact .inr ⟨_, .clear⟩
      | _ => exact .inl rfl
  | @route c msg h =>
      rw [requests_route]
      cases Router.resolveCall serde msg with
      | none => exact .inl rfl
      | some call => exact .inr ⟨_, .resolve call.1 call.2⟩
  | increment h hq => exact .inr ⟨_, Requests.step_cases hq⟩
  | incrementAgain h hq => exact .inr ⟨_, Requests.step_cases hq⟩
  | insert h hq => exact .inr ⟨_, Requests.step_cases hq⟩
  | receive h hrx hq => exact .inr ⟨_, by simpa using Requests.step_cases hq⟩
  | senderDropped h hq => exact .inr ⟨_, Requests.step_cases hq⟩
  | timeout h hq => exact .inr ⟨_, Requests.step_cases hq⟩
  | cleanup h hp hq => exact .inr ⟨_, Requests.step_cases hq⟩
  | _ => exact .inl (by simp [Session.begin, afterReadTransport])

/-! ## what holds in the parts -/

variable {ok : Session → SessionAct → Prop}

/-- **A run of the session is a run of the lifecycle**, whatever the users do. -/
theorem life_run (h : (system serde cfg).Run ok (start cfg) s) :
    (Lifecycle.system cfg).Reachable s.life := by
  refine h.simulate Session.life Any fun x a y _ hs => ?_
  rcases (step_cases hs).life_step with heq | ⟨b, hb⟩
  · rw [heq]; exact .refl
  · exact .tail .refl trivial hb.enabled

/-- **A run of the session is a run of the request tracker.** -/
theorem requests_run (h : (system serde cfg).Run ok (start cfg) s) :
    Requests.system.Reachable s.requests := by
  refine h.simulate Session.requests Any fun x a y _ hs => ?_
  rcases (step_cases hs).requests_step with heq | ⟨b, hb⟩
  · rw [heq]; exact .refl
  · exact .tail .refl trivial hb.enabled

theorem tasks_of_run (h : (system serde cfg).Run ok (start cfg) s) : s.life.Tasks :=
  Lifecycle.tasks_of_run (life_run h)

theorem filing_of_run (h : (system serde cfg).Run ok (start cfg) s) : s.requests.Filing :=
  (requests_run h).invariant Requests.filing_new fun _ _ _ hi _ hs =>
    hi.step (Requests.step_cases hs)

/-! ## what a step of the lifecycle and a routed message leave as they are -/

@[simp, grind =] theorem phase_requestsAfter (s : Session) (b : LifecycleAct) (x : Nat) :
    ((s.requestsAfter b).request x).phase = (s.requests.request x).phase := by
  cases b <;> simp [requestsAfter, Requests.request_clear]

@[grind →] theorem pending_of_requestsAfter {b : LifecycleAct} {k : UInt32}
    (h : (s.requestsAfter b).tracker.pending k = some r) :
    s.requests.tracker.pending k = some r := by
  cases b <;> simp_all [requestsAfter]

@[simp, grind =] theorem phase_resolved (requests : Requests) (call : Option (UInt32 × Json))
    (x : Nat) :
    ((Router.resolved requests call).request x).phase = (requests.request x).phase := by
  cases call with
  | none => rfl
  | some call => simp [Router.resolved, Requests.request_resolve]

@[grind →] theorem pending_of_resolved {requests : Requests} {call : Option (UInt32 × Json)}
    {k : UInt32} (h : (Router.resolved requests call).tracker.pending k = some r) :
    requests.tracker.pending k = some r := by
  cases call with
  | none => exact h
  | some call =>
      simp only [Router.resolved, Requests.pending_resolve] at h
      split at h
      · contradiction
      · exact h

/-- A step of the lifecycle moves no call. -/
@[simp, grind =] theorem pc_callsAfter (s : Session) (b : LifecycleAct) (x : Nat) :
    (s.callsAfter b x).pc = (s.calls x).pc := by
  cases b <;> simp only [callsAfter]
  split <;> rfl

@[simp, grind =] theorem op_callsAfter (s : Session) (b : LifecycleAct) (x : Nat) :
    (s.callsAfter b x).op = (s.calls x).op := by
  cases b <;> simp only [callsAfter]
  split <;> rfl

@[simp, grind =] theorem target_callsAfter (s : Session) (b : LifecycleAct) (x : Nat) :
    (s.callsAfter b x).target = (s.calls x).target := by
  cases b <;> simp only [callsAfter]
  split <;> rfl

/-- A step moves its own call at most. -/
theorem call_of_ne (hs : Step serde cfg s a s') (hcall : a.call? ≠ some r)
    (hbegin : ∀ op, a ≠ .begin r op) :
    (s'.calls r).pc = (s.calls r).pc ∧ (s'.calls r).op = (s.calls r).op := by
  cases hs with
  | life hb hl => simp [afterLife]
  | @begin x op hb hpc =>
      have hne : r ≠ x := by rintro rfl; exact hbegin op rfl
      simp [Session.begin, Function.update_of_ne hne]
  | @readTransport x hpc hfree =>
      have hne : r ≠ x := by rintro rfl; exact hcall rfl
      obtain ⟨-, heq⟩ | ⟨tid, pc, -, -, heq⟩ := s.readTransport_eq x
      · simp [heq, calls_goto, hne]
      · simp [heq, setCall_apply, hne]
  | @readSession x hpc =>
      have hne : r ≠ x := by rintro rfl; exact hcall rfl
      unfold Session.readSession
      split <;> simp [goto, setCall_apply, hne]
  | @readMediaSession x hpc =>
      have hne : r ≠ x := by rintro rfl; exact hcall rfl
      unfold Session.readMediaSession
      split <;> simp [goto, setCall_apply, hne]
  | @accept x c what hpc hopen =>
      have hne : r ≠ x := by rintro rfl; exact hcall rfl
      obtain ⟨msg, f, heq, -⟩ := accept_eq serde s x c what
      simp [heq, setCall_apply, hne]
  | @receive x n json q hpc hrx hq =>
      have hne : r ≠ x := by rintro rfl; exact hcall rfl
      obtain ⟨m, pc, heq, -⟩ := Session.answer_eq { s with requests := q } x json
      simp [heq, calls_goto, hne]
  | lifeReadTransport hl => exact ⟨rfl, rfl⟩
  | route hl => exact ⟨rfl, rfl⟩
  | increment hpc hq => exact ⟨rfl, rfl⟩
  | incrementAgain hpc hq => exact ⟨rfl, rfl⟩
  | senderDropped hpc hq => exact ⟨rfl, rfl⟩
  | timeout hpc hq => exact ⟨rfl, rfl⟩
  | skipEvent hpc hbuf happ => exact ⟨rfl, rfl⟩
  | @insert x q hpc hq | @cloneWriteTx x what hpc | @sendFailed x c what hpc hopen
  | @cleanup x id err q hpc hp hq | @appSeen x appId event rest app hpc hbuf happ
  | @launchTimeout x appId hpc | @storeTransport x app hpc hfree | @storeSession x app hpc
  | @clearTransport x hpc hfree | @clearSession x hpc | @drop x hidle hend =>
      have hne : r ≠ x := by rintro rfl; exact hcall rfl
      simp [calls_goto, hne]

/-! ## what a call reads -/

/-- A call is at a read its operation makes. -/
def CallPc.ReadOf (op : Operation) : CallPc → Prop
  | .readSession => op.reads = .transportAndSession
  | .readMediaSession => op.reads = .transportAndMediaSession
  | _ => True

/-- The call has read its cells and is about to send its request. -/
def CallPc.Sending : CallPc → Prop
  | .register | .send .request | .enqueue .request _ => True
  | _ => False

def Reading (s : Session) : Prop := ∀ r, CallPc.ReadOf (s.calls r).op (s.calls r).pc

theorem Reading.move {f : Call → Call} (h : Reading s)
    (hf : CallPc.ReadOf (f (s.calls r)).op (f (s.calls r)).pc) :
    Reading { s with calls := s.setCall r f } := by
  intro x
  simp only [setCall_apply]
  split
  · exact hf
  · exact h x

theorem Reading.step (h : Reading s) (hs : Step serde cfg s a s') : Reading s' := by
  cases hs with
  | life hb hl => exact fun x => by simpa [afterLife] using h x
  | @begin r op hb hpc =>
      obtain ⟨pc, heq, hbegun⟩ := begin_eq s r op
      rw [heq]
      refine h.move ?_
      cases pc <;> simp_all [CallPc.Begun, CallPc.ReadOf]
  | @readTransport r hpc hfree =>
      obtain ⟨-, heq⟩ | ⟨tid, pc, -, hafter, heq⟩ := s.readTransport_eq r
      · rw [heq]; exact h.move trivial
      · rw [heq]
        refine h.move ?_
        cases pc <;> simp_all [CallPc.AfterTransport, CallPc.ReadOf]
  | readSession hpc => unfold Session.readSession; split <;> exact h.move trivial
  | readMediaSession hpc => unfold Session.readMediaSession; split <;> exact h.move trivial
  | @accept r c what hpc hopen =>
      obtain ⟨msg, f, heq, -, -, hpc'⟩ := accept_eq serde s r c what
      rw [heq]
      refine h.move (f := f) ?_
      cases hf : (f (s.calls r)).pc <;> simp_all [CallPc.Accepted, CallPc.ReadOf]
  | @receive r n json q hpc hrx hq =>
      obtain ⟨m, pc, heq, hans⟩ := Session.answer_eq { s with requests := q } r json
      rw [heq]
      refine h.move (f := fun call => { call with pc }) ?_
      cases pc <;> simp_all [CallPc.Answered, CallPc.ReadOf]
  | lifeReadTransport hl => exact h
  | route hl => exact h
  | increment hpc hq => exact h
  | incrementAgain hpc hq => exact h
  | senderDropped hpc hq => exact h
  | timeout hpc hq => exact h
  | skipEvent hpc hbuf happ => exact h
  | _ => exact Reading.move h trivial

theorem reading_of_run (h : (system serde cfg).Run ok (start cfg) s) : Reading s :=
  h.invariant (fun _ => trivial) fun _ _ _ hi _ hs => hi.step (step_cases hs)

end Session

end Oxicast
