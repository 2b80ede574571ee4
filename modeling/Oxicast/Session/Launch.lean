import Oxicast.Router.Effects
import Oxicast.Session.Events
import Oxicast.Session.Sources
import Mathlib.Data.List.Forall2

/-!
# Oxicast.Session.Launch

Which status a launch takes its application from.

`launch_app` looks into the answer first.  When the app is not in it, it reads
the event channel from the oldest event on and takes the first status that
lists the app, whenever that status came.  `LaunchLog` numbers the routed
messages and records which of them every event, answer and launched app is from,
and how much of the channel's backlog of a launch is left.
-/

namespace Oxicast

/-- The app a launch goes on with, or returns. -/
def CallPc.app? : CallPc → Option Application
  | .send (.connect app) | .enqueue (.connect app) _ | .storeTransport app | .storeSession app
  | .ended (some (.ok (.application app))) => some app
  | _ => none

namespace Session

open TransitionSystem Lifecycle Ns

variable {serde : SerdeJson} {cfg : ClientConfig} {s s' : Session} {a : SessionAct} {r k n : Nat}
  {appId : String} {app : Application}

/-! ## the history of the launches -/

/-- The messages routed so far, oldest first; the index of the message that every
event in the channel is from, or that came next; and for each call how many
messages had been routed when its request was enqueued, how many of the events that
waited in the channel then are still there, the index of the message that answered
it, the one its app is from, and what it stored in the two cells. -/
structure LaunchLog where
  routed : List CastMessage
  stamps : List Nat
  enqueued : Nat → Option Nat
  before : Nat → Nat
  answered : Nat → Option Nat
  took : Nat → Option Nat
  transport : Nat → Option String
  session : Nat → Option String

/-- The request a message answers. -/
def answeredBy (serde : SerdeJson) (requests : Requests) (msg : CastMessage) : Option Nat :=
  (Router.resolveCall serde msg).bind fun call => requests.tracker.pending call.1

namespace LaunchLog

variable (h : LaunchLog)

def recordRouted : SessionAct → List CastMessage
  | .route _ msg => h.routed ++ [msg]
  | _ => h.routed

def recordStamps (s : Session) (a : SessionAct) (s' : Session) : List Nat :=
  match takerOf a with
  | some _ => h.stamps.tail
  | none =>
      h.stamps ++
        List.replicate (s'.life.events.buffer.length - s.life.events.buffer.length) h.routed.length

def recordEnqueued (s : Session) : SessionAct → Nat → Option Nat
  | .accept r =>
      match (s.calls r).pc with
      | .enqueue .request _ => Function.update h.enqueued r (some h.routed.length)
      | _ => h.enqueued
  | _ => h.enqueued

def recordBefore (s : Session) (a : SessionAct) : Nat → Nat :=
  match a, takerOf a with
  | _, some _ => fun r => h.before r - 1
  | .accept r, none =>
      match (s.calls r).pc with
      | .enqueue .request _ => Function.update h.before r s.life.events.buffer.length
      | _ => h.before
  | _, none => h.before

def recordAnswered (serde : SerdeJson) (s : Session) : SessionAct → Nat → Option Nat
  | .route _ msg =>
      match answeredBy serde s.requests msg with
      | some r => Function.update h.answered r (some h.routed.length)
      | none => h.answered
  | _ => h.answered

def recordTook : SessionAct → Nat → Option Nat
  | .receive r => Function.update h.took r (h.answered r)
  | .appSeen r => Function.update h.took r h.stamps.head?
  | _ => h.took

def record (serde : SerdeJson) (s : Session) (a : SessionAct) (s' : Session) : LaunchLog where
  routed := h.recordRouted a
  stamps := h.recordStamps s a s'
  enqueued := h.recordEnqueued s a
  before := h.recordBefore s a
  answered := h.recordAnswered serde s a
  took := h.recordTook a
  transport := match a with
    | .storeTransport r => Function.update h.transport r s'.transportId
    | _ => h.transport
  session := match a with
    | .storeSession r => Function.update h.session r s'.sessionId
    | _ => h.session

def empty : LaunchLog where
  routed := []
  stamps := []
  enqueued _ := none
  before _ := 0
  answered _ := none
  took _ := none
  transport _ := none
  session _ := none

end LaunchLog

/-- The client and the history of its launches. -/
def launchSystem (serde : SerdeJson) (cfg : ClientConfig) :
    TransitionSystem (Session × LaunchLog) SessionAct :=
  (system serde cfg).observe .empty fun h => h.record serde

/-! ## what the log says -/

variable {h : LaunchLog}

/-- The event is no status, or from a routed message. -/
def FromMessage (serde : SerdeJson) (routed : List CastMessage) (event : CastEvent) (k : Nat) :
    Prop :=
  ∀ status, event = .receiverStatusChanged status →
    ∃ msg, routed[k]? = some msg ∧ Router.receiverStatusIn serde msg = some status

/-- Every event in the channel is from the message it is stamped with. -/
def Stamped (serde : SerdeJson) (s : Session) (h : LaunchLog) : Prop :=
  List.Forall₂ (FromMessage serde h.routed) s.life.events.buffer h.stamps

theorem getElem?_of_prefix {α : Type} {xs ys : List α} {k : Nat} {x : α} (h : xs <+: ys)
    (hx : xs[k]? = some x) : ys[k]? = some x := by
  obtain ⟨zs, rfl⟩ := h
  obtain ⟨hlt, -⟩ := List.getElem?_eq_some_iff.1 hx
  rw [List.getElem?_append_left hlt, hx]

theorem routed_grows (h : LaunchLog) (a : SessionAct) : h.routed <+: h.recordRouted a := by
  unfold LaunchLog.recordRouted
  split
  · exact List.prefix_append _ _
  · exact List.prefix_rfl

theorem FromMessage.mono {routed routed' : List CastMessage} {event : CastEvent}
    (hf : FromMessage serde routed event k) (hp : routed <+: routed') :
    FromMessage serde routed' event k := by
  intro status heq
  obtain ⟨msg, hmsg, hin⟩ := hf status heq
  exact ⟨msg, getElem?_of_prefix hp hmsg, hin⟩

theorem forall₂_replicate {α β : Type} {R : α → β → Prop} {xs : List α} {b : β}
    (h : ∀ x ∈ xs, R x b) :
    List.Forall₂ R xs (List.replicate xs.length b) := by
  induction xs with
  | nil => exact .nil
  | cons x xs ih =>
      exact .cons (h x List.mem_cons_self) (ih fun y hy => h y (List.mem_cons_of_mem _ hy))

theorem Stamped.step (hst : Stamped serde s h) (hs : Step serde cfg s a s') :
    Stamped serde s' (h.record serde s a s') := by
  have hold : List.Forall₂ (FromMessage serde (h.recordRouted a)) s.life.events.buffer h.stamps :=
    hst.imp fun _ _ hf => hf.mono (routed_grows h a)
  unfold Stamped
  simp only [LaunchLog.record, LaunchLog.recordStamps]
  cases ha : takerOf a with
  | some taker =>
      rw [buffer_of_takerOf hs (by simp [ha]), ← List.drop_one]
      exact List.forall₂_drop 1 hold
  | none =>
      have hquiet (e : CastEvent) (he : e.Quiet) :
          FromMessage serde (h.recordRouted a) e h.routed.length := by
        rintro status rfl
        exact False.elim he
      have hroute (c : Nat) (msg : CastMessage) (heq : a = .route c msg)
          (e : CastEvent) (he : e ∈ (s.router.route serde msg).offered) :
          FromMessage serde (h.recordRouted a) e h.routed.length := by
        rintro status rfl
        rw [Router.offered_route] at he
        exact ⟨msg, by simp [heq, LaunchLog.recordRouted],
          Router.receiverStatusIn_of_mem_eventsOf he⟩
      obtain ⟨new, hnew, hfrom⟩ := adds_of_step hs ha hquiet hroute
      rw [hnew, List.length_append, Nat.add_sub_cancel_left]
      exact List.rel_append hold (forall₂_replicate hfrom)

/-- Every payload handed over is the one of the message noted for it. -/
def Answered (serde : SerdeJson) (s : Session) (h : LaunchLog) : Prop :=
  ∀ r n json, (s.requests.request r).rx = .sent n json → ∃ k msg, h.answered r = some k ∧
    h.routed[k]? = some msg ∧ serde.fromStr (Router.payloadOf msg) = some json

/-- Only a routed message puts a payload into a channel. -/
theorem sent_of_step {json : Json} (hs : Step serde cfg s a s') (ha : ∀ c msg, a ≠ .route c msg)
    (h : (s'.requests.request r).rx = .sent n json) : (s.requests.request r).rx = .sent n json := by
  cases hs with
  | @life b life hb hl =>
      cases b with
      | clearAndSpawn => exact Requests.sent_of_step .clear (by simp) h
      | readerCleared c => exact Requests.sent_of_step .clear (by simp) h
      | publishDisconnected d => exact Requests.sent_of_step .clear (by simp) h
      | _ => exact h
  | route hl => exact absurd rfl (ha _ _)
  | increment hpc hq => exact Requests.sent_of_step (Requests.step_cases hq) (by simp) h
  | incrementAgain hpc hq => exact Requests.sent_of_step (Requests.step_cases hq) (by simp) h
  | insert hpc hq => exact Requests.sent_of_step (Requests.step_cases hq) (by simp) h
  | receive hpc hrx hq =>
      rw [requests_answer] at h
      exact Requests.sent_of_step (Requests.step_cases hq) (by simp) h
  | senderDropped hpc hq => exact Requests.sent_of_step (Requests.step_cases hq) (by simp) h
  | timeout hpc hq => exact Requests.sent_of_step (Requests.step_cases hq) (by simp) h
  | cleanup hpc hp hq => exact Requests.sent_of_step (Requests.step_cases hq) (by simp) h
  | readTransport hpc hfree => rwa [requests_readTransport] at h
  | readSession hpc => rwa [requests_readSession] at h
  | readMediaSession hpc => rwa [requests_readMediaSession] at h
  | accept hpc hopen => rwa [requests_accept] at h
  | _ => exact h

/-- What a `resolve` call hands over, and to whom. -/
theorem sent_of_route {msg : CastMessage} {c : Nat} {json : Json}
    (h : ((s.route serde c msg).requests.request r).rx = .sent n json) :
    (s.requests.request r).rx = .sent n json ∧ answeredBy serde s.requests msg ≠ some r ∨
      answeredBy serde s.requests msg = some r ∧
      serde.fromStr (Router.payloadOf msg) = some json := by
  rw [requests_route] at h
  unfold answeredBy
  cases hcall : Router.resolveCall serde msg with
  | none =>
      rw [hcall] at h
      exact .inl ⟨h, by simp⟩
  | some call =>
      obtain ⟨id, payload⟩ := call
      rw [hcall, Router.resolved, Requests.request_resolve] at h
      simp only [Option.bind_some]
      by_cases hp : s.requests.tracker.pending id = some r
      · rw [if_pos hp] at h
        obtain ⟨-, rfl⟩ := Oneshot.sent.inj h
        obtain ⟨-, -, hjson, -⟩ := Router.resolveCall_eq_some_iff.1 hcall
        exact .inr ⟨hp, hjson⟩
      · rw [if_neg hp] at h
        exact .inl ⟨h, hp⟩

theorem Answered.step (hans : Answered serde s h) (hs : Step serde cfg s a s') :
    Answered serde s' (h.record serde s a s') := by
  intro r n json hrx
  cases a with
  | route c msg =>
      cases hs with
      | route hl =>
          simp only [LaunchLog.record, LaunchLog.recordAnswered, LaunchLog.recordRouted]
          rcases sent_of_route hrx with ⟨hold, hother⟩ | ⟨hown, hjson⟩
          · obtain ⟨k, m, hk, hm, hjson⟩ := hans r n json hold
            refine ⟨k, m, ?_, getElem?_of_prefix (List.prefix_append _ _) hm, hjson⟩
            cases hx : answeredBy serde s.requests msg with
            | none => exact hk
            | some x => exact (Function.update_of_ne (by rintro rfl; exact hother hx) _ _).trans hk
          · refine ⟨h.routed.length, msg, ?_, by simp, hjson⟩
            rw [hown]
            simp
  | _ =>
      obtain ⟨k, m, hk, hm, hjson⟩ := hans r n json (sent_of_step hs (by simp) hrx)
      exact ⟨k, m, hk, hm, hjson⟩

/-! ## the way of a launch -/

/-- The call has no app, and waits for none. -/
def Off (pc : CallPc) : Prop := pc.app? = none ∧ ∀ id, pc ≠ .awaitApp id

/-- What the log does not record. -/
def Silent (a : SessionAct) (r : Nat) : Prop :=
  a ≠ .accept r ∧ a ≠ .receive r ∧ a ≠ .appSeen r ∧ a ≠ .storeTransport r ∧ a ≠ .storeSession r

/-- Where one step takes a launch that waits for its app or has it. -/
inductive Move (s : Session) (a : SessionAct) (r : Nat) (appId : String) : CallPc → Prop
  | stay (ha : Silent a r) : Move s a r appId (s.calls r).pc
  | waits (ha : a = .receive r) : Move s a r appId (.awaitApp appId)
  | answered {n : Nat} {json : Json} {app : Application} (ha : a = .receive r)
      (hrx : (s.requests.request r).rx = .sent n json) (hcheck : checkDeviceError json = .ok ())
      (hfind : (parseReceiverStatus json).bind (findApp · appId) = some app) :
      Move s a r appId (.send (.connect app))
  | seen {id : String} {event : CastEvent} {rest : List CastEvent} {app : Application}
      (ha : a = .appSeen r) (hpc : (s.calls r).pc = .awaitApp id)
      (hbuf : s.life.events.buffer = event :: rest) (happ : appIn id event = some app) :
      Move s a r appId (.send (.connect app))
  | cloned {app : Application} (ha : a = .cloneWriteTx r)
      (hpc : (s.calls r).pc = .send (.connect app))
      (c : Nat) : Move s a r appId (.enqueue (.connect app) c)
  | connected {app : Application} {c : Nat} (ha : a = .accept r)
      (hpc : (s.calls r).pc = .enqueue (.connect app) c) : Move s a r appId (.storeTransport app)
  | stored {app : Application} (ha : a = .storeTransport r)
      (hpc : (s.calls r).pc = .storeTransport app) :
      Move s a r appId (.storeSession app)
  | returned {app : Application} (ha : a = .storeSession r)
      (hpc : (s.calls r).pc = .storeSession app) :
      Move s a r appId (.ended (some (.ok (.application app))))

theorem answer_of_find {json : Json} (hop : (s.calls r).op = .launchApp serde appId)
    (hcheck : checkDeviceError json = .ok ())
    (hfind : (parseReceiverStatus json).bind (findApp · appId) = some app) :
    ((s.answer r json).calls r).pc = .send (.connect app) := by
  have hcheck' : (s.calls r).op.check = checkDeviceError := by rw [hop]; rfl
  have hafter : (s.calls r).op.after = .launch appId := by rw [hop]; rfl
  simp only [pc_answer, hcheck', hcheck, hafter, hfind]

/-- The answer of a launch. -/
theorem answer_of_launch {json : Json} (hop : (s.calls r).op = .launchApp serde appId) :
    (∃ err, ((s.answer r json).calls r).pc = .ended (some (.error err))) ∨
    checkDeviceError json = .ok () ∧
      (((s.answer r json).calls r).pc = .awaitApp appId ∨
        ∃ app, (parseReceiverStatus json).bind (findApp · appId) = some app ∧
          ((s.answer r json).calls r).pc = .send (.connect app)) := by
  have hcheck : (s.calls r).op.check = checkDeviceError := by rw [hop]; rfl
  have hafter : (s.calls r).op.after = .launch appId := by rw [hop]; rfl
  simp only [pc_answer, hcheck, hafter]
  cases checkDeviceError json with
  | error err => exact .inl ⟨err, rfl⟩
  | ok =>
      refine .inr ⟨rfl, ?_⟩
      cases hfind : (parseReceiverStatus json).bind (findApp · appId) with
      | none => exact .inl rfl
      | some app => exact .inr ⟨app, rfl, rfl⟩

@[simp] theorem op_answer (s : Session) (r x : Nat) (json : Json) :
    ((s.answer r json).calls x).op = (s.calls x).op := by
  obtain ⟨m, pc, heq, -⟩ := s.answer_eq r json
  rw [heq, calls_goto]
  split
  next hx => rw [hx]
  next => rfl

/-- A step leaves a launch without an app, or is one of its moves. -/
theorem move_of_step (hs : Step serde cfg s a s') (hop : (s'.calls r).op = .launchApp serde appId) :
    Off (s'.calls r).pc ∨
      (s.calls r).op = .launchApp serde appId ∧ Move s a r appId (s'.calls r).pc := by
  by_cases hown : a.call? = some r ∨ ∃ op, a = .begin r op
  · cases hs with
    | life hb hl => simp [SessionAct.call?] at hown
    | lifeReadTransport hl => simp [SessionAct.call?] at hown
    | route hl => simp [SessionAct.call?] at hown
    | @begin x op hb hpc =>
        obtain rfl : x = r := by simpa [SessionAct.call?] using hown
        obtain rfl : op = .launchApp serde appId := by simpa [Session.begin] using hop
        left
        simp [Session.begin, Operation.launchApp, Off, CallPc.app?]
    | @readTransport x hpc hfree =>
        obtain rfl : x = r := by simpa [SessionAct.call?] using hown
        left
        obtain ⟨-, heq⟩ | ⟨tid, pc, -, hafter, heq⟩ := s.readTransport_eq x
        · have hnone : (s.calls x).op.noTransport = .error .noApplication := by
            rw [heq] at hop
            rw [show (s.calls x).op = .launchApp serde appId by simpa [calls_goto] using hop]
            rfl
          simp [heq, calls_goto, hnone, Off, CallPc.app?]
        · cases pc <;> simp_all [setCall_apply, CallPc.AfterTransport, Off, CallPc.app?]
    | @readSession x hpc =>
        obtain rfl : x = r := by simpa [SessionAct.call?] using hown
        left
        unfold Session.readSession
        split <;> simp [calls_goto, setCall_apply, Off, CallPc.app?]
    | @readMediaSession x hpc =>
        obtain rfl : x = r := by simpa [SessionAct.call?] using hown
        left
        unfold Session.readMediaSession
        split <;> simp [calls_goto, setCall_apply, Off, CallPc.app?]
    | @accept x c what hpc hopen =>
        obtain rfl : x = r := by simpa [SessionAct.call?] using hown
        cases what with
        | request =>
            left
            simp only [Session.accept, setCall_apply, if_true]
            split <;> simp [Off, CallPc.app?]
        | connect app =>
            right
            simp only [Session.accept, setCall_apply, if_true] at hop ⊢
            exact ⟨hop, .connected rfl hpc⟩
    | @receive x n json q hpc hrx hq =>
        obtain rfl : x = r := by simpa [SessionAct.call?] using hown
        have hlaunch : (s.calls x).op = .launchApp serde appId := by simpa using hop
        rcases @answer_of_launch serde { s with requests := q } x appId json hlaunch with
          ⟨err, hend⟩ | ⟨hcheck, hwait | ⟨app, hfind, hsend⟩⟩
        · rw [hend]
          exact .inl ⟨rfl, by simp⟩
        · rw [hwait]
          exact .inr ⟨hlaunch, .waits rfl⟩
        · rw [hsend]
          exact .inr ⟨hlaunch, .answered rfl hrx hcheck hfind⟩
    | @appSeen x id event rest app hpc hbuf happ =>
        obtain rfl : x = r := by simpa [SessionAct.call?] using hown
        right
        simp only [calls_goto, if_true] at hop ⊢
        exact ⟨hop, .seen rfl hpc hbuf happ⟩
    | @skipEvent x id event rest hpc hbuf happ =>
        obtain rfl : x = r := by simpa [SessionAct.call?] using hown
        exact .inr ⟨hop, .stay ⟨by simp, by simp, by simp, by simp, by simp⟩⟩
    | @cloneWriteTx x what hpc =>
        obtain rfl : x = r := by simpa [SessionAct.call?] using hown
        simp only [calls_goto, if_true] at hop ⊢
        cases what with
        | request => exact .inl ⟨rfl, by simp⟩
        | connect app => exact .inr ⟨hop, .cloned rfl hpc _⟩
    | @storeTransport x app hpc hfree =>
        obtain rfl : x = r := by simpa [SessionAct.call?] using hown
        right
        simp only [calls_goto, if_true] at hop ⊢
        exact ⟨hop, .stored rfl hpc⟩
    | @storeSession x app hpc =>
        obtain rfl : x = r := by simpa [SessionAct.call?] using hown
        right
        simp only [calls_goto, if_true] at hop ⊢
        exact ⟨hop, .returned rfl hpc⟩
    | @increment x q hpc hq | @incrementAgain x q hpc hq | @senderDropped x q hpc hq
    | @timeout x q hpc hq =>
        obtain rfl : x = r := by simpa [SessionAct.call?] using hown
        left
        simp [hpc, Off, CallPc.app?]
    | @insert x q hpc hq | @sendFailed x c what hpc hopen | @cleanup x id err q hpc hp hq
    | @launchTimeout x id hpc | @clearTransport x hpc hfree | @clearSession x hpc
    | @drop x hidle hend =>
        obtain rfl : x = r := by simpa [SessionAct.call?] using hown
        left
        simp [calls_goto, Off, CallPc.app?]
  · rw [not_or, not_exists] at hown
    obtain ⟨hpc, hop'⟩ := call_of_ne hs hown.1 hown.2
    rw [hpc]
    refine .inr ⟨hop' ▸ hop, .stay ⟨?_, ?_, ?_, ?_, ?_⟩⟩ <;> rintro rfl <;> exact hown.1 rfl

/-! ## what a launch has and has stored -/

theorem took_receive (h : LaunchLog) :
    (h.record serde s (.receive r) s').took r = h.answered r := by
  simp [LaunchLog.record, LaunchLog.recordTook]

theorem took_appSeen (h : LaunchLog) :
    (h.record serde s (.appSeen r) s').took r = h.stamps.head? := by
  simp [LaunchLog.record, LaunchLog.recordTook]

/-- The number of messages is noted when the request itself is accepted. -/
theorem recordEnqueued_accept (h : LaunchLog) (s : Session) (r : Nat) :
    h.recordEnqueued s (.accept r) = h.enqueued ∨ ∃ c, (s.calls r).pc = .enqueue .request c ∧
      h.recordEnqueued s (.accept r) = Function.update h.enqueued r (some h.routed.length) := by
  simp only [LaunchLog.recordEnqueued]
  split
  next c hpc => exact .inr ⟨c, hpc, rfl⟩
  next => exact .inl rfl

theorem record_of_silent (serde : SerdeJson) (h : LaunchLog) (s s' : Session) (ha : Silent a r) :
    (h.record serde s a s').enqueued r = h.enqueued r ∧ (h.record serde s a s').took r = h.took r ∧
      (h.record serde s a s').transport r = h.transport r ∧
      (h.record serde s a s').session r = h.session r := by
  obtain ⟨haccept, hreceive, hseen, hstore, hsession⟩ := ha
  cases a with
  | accept x =>
      have hne : r ≠ x := by rintro rfl; exact haccept rfl
      refine ⟨?_, rfl, rfl, rfl⟩
      change h.recordEnqueued s (.accept x) r = _
      rcases recordEnqueued_accept h s x with heq | ⟨-, -, heq⟩
      · rw [heq]
      · rw [heq, Function.update_of_ne hne]
  | receive x =>
      have hne : r ≠ x := by rintro rfl; exact hreceive rfl
      exact ⟨rfl, Function.update_of_ne hne _ _, rfl, rfl⟩
  | appSeen x =>
      have hne : r ≠ x := by rintro rfl; exact hseen rfl
      exact ⟨rfl, Function.update_of_ne hne _ _, rfl, rfl⟩
  | storeTransport x =>
      have hne : r ≠ x := by rintro rfl; exact hstore rfl
      exact ⟨rfl, rfl, Function.update_of_ne hne _ _, rfl⟩
  | storeSession x =>
      have hne : r ≠ x := by rintro rfl; exact hsession rfl
      exact ⟨rfl, rfl, rfl, Function.update_of_ne hne _ _⟩
  | _ => exact ⟨rfl, rfl, rfl, rfl⟩

/-- A launch has the app it has asked for, and has stored its ids as far as it has got. -/
structure Tidy (s : Session) (h : LaunchLog) (r : Nat) (appId : String) : Prop where
  waits : ∀ id, (s.calls r).pc = .awaitApp id → id = appId
  names : ∀ app, (s.calls r).pc.app? = some app → app.appId = appId
  transport : ∀ app, (s.calls r).pc = .storeSession app ∨
    (s.calls r).pc = .ended (some (.ok (.application app))) → h.transport r = some app.transportId
  session : ∀ app, (s.calls r).pc = .ended (some (.ok (.application app))) →
    h.session r = some app.sessionId

theorem appId_of_findApp {status : ReceiverStatus} (h : findApp status appId = some app) :
    app.appId = appId := by
  simpa using List.find?_some h

theorem appId_of_appIn {event : CastEvent} (h : appIn appId event = some app) :
    app.appId = appId := by
  cases event with
  | receiverStatusChanged status => exact appId_of_findApp h
  | _ => contradiction

theorem tidy_of_off (hoff : Off (s.calls r).pc) : Tidy s h r appId := by
  obtain ⟨hnone, hwait⟩ := hoff
  refine ⟨fun id hpc => absurd hpc (hwait id), fun app happ => ?_, fun app hpc => ?_,
    fun app hpc => ?_⟩
  · rw [hnone] at happ
    contradiction
  · rcases hpc with hpc | hpc <;> simp [hpc, CallPc.app?] at hnone
  · simp [hpc, CallPc.app?] at hnone

/-- A launch that has an app it has not stored yet. -/
theorem tidy_of_app {pc : CallPc} (hpc : (s'.calls r).pc = pc) (happ : pc.app? = some app)
    (hname : app.appId = appId) (hwait : ∀ id, pc ≠ .awaitApp id)
    (hstore : ∀ app, pc ≠ .storeSession app ∧ pc ≠ .ended (some (.ok (.application app)))) :
    Tidy s' h r appId := by
  refine ⟨fun id heq => ?_, fun app' heq => ?_, fun app' heq => ?_, fun app' heq => ?_⟩
  · exact absurd (hpc.symm.trans heq) (hwait id)
  · rw [hpc, happ] at heq
    rw [← Option.some.inj heq, hname]
  · rcases heq with heq | heq
    · exact absurd (hpc.symm.trans heq) (hstore app').1
    · exact absurd (hpc.symm.trans heq) (hstore app').2
  · exact absurd (hpc.symm.trans heq) (hstore app').2

theorem tidy_step (ht : ∀ r appId, (s.calls r).op = .launchApp serde appId → Tidy s h r appId)
    (hs : Step serde cfg s a s') (hop : (s'.calls r).op = .launchApp serde appId) :
    Tidy s' (h.record serde s a s') r appId := by
  rcases move_of_step hs hop with hoff | ⟨hop', hmove⟩
  · exact tidy_of_off hoff
  have hold := ht r appId hop'
  generalize hpc' : (s'.calls r).pc = pc at hmove
  cases hmove with
  | stay ha =>
      obtain ⟨-, -, htransport, hsession⟩ := record_of_silent serde h s s' ha
      refine ⟨?_, ?_, ?_, ?_⟩
      · rw [hpc']; exact hold.waits
      · rw [hpc']; exact hold.names
      · rw [hpc', htransport]; exact hold.transport
      · rw [hpc', hsession]; exact hold.session
  | waits ha =>
      refine ⟨fun id heq => ?_, fun app happ => ?_, fun app heq => ?_, fun app heq => ?_⟩
      · rw [hpc'] at heq
        exact (CallPc.awaitApp.inj heq).symm
      · rw [hpc'] at happ
        contradiction
      · rw [hpc'] at heq
        simp at heq
      · rw [hpc'] at heq
        simp at heq
  | answered ha hrx hcheck hfind =>
      obtain ⟨status, -, happ⟩ := Option.bind_eq_some_iff.1 hfind
      exact tidy_of_app hpc' rfl (appId_of_findApp happ) (by simp) (by simp)
  | seen ha hpc hbuf happ =>
      obtain rfl := hold.waits _ hpc
      exact tidy_of_app hpc' rfl (appId_of_appIn happ) (by simp) (by simp)
  | cloned ha hpc c =>
      exact tidy_of_app hpc' rfl (hold.names _ (by rw [hpc]; rfl)) (by simp) (by simp)
  | connected ha hpc =>
      exact tidy_of_app hpc' rfl (hold.names _ (by rw [hpc]; rfl)) (by simp) (by simp)
  | @stored app ha hpc =>
      subst ha
      cases hs with
      | @storeTransport _ app' hpc'' hfree =>
          obtain rfl : app = app' := by simpa [hpc] using hpc''
          have hname := hold.names app (by rw [hpc]; rfl)
          refine ⟨fun id heq => ?_, fun app' happ => ?_, fun app' heq => ?_, fun app' heq => ?_⟩
          · simp [hpc'] at heq
          · rw [hpc'] at happ
            rw [← Option.some.inj happ, hname]
          · obtain rfl : app = app' := by simpa [hpc'] using heq
            exact Function.update_self ..
          · simp [hpc'] at heq
  | @returned app ha hpc =>
      subst ha
      cases hs with
      | @storeSession _ app' hpc'' =>
          obtain rfl : app = app' := by simpa [hpc] using hpc''
          have hname := hold.names app (by rw [hpc]; rfl)
          refine ⟨fun id heq => ?_, fun app' happ => ?_, fun app' heq => ?_, fun app' heq => ?_⟩
          · simp [hpc'] at heq
          · rw [hpc'] at happ
            rw [← Option.some.inj happ, hname]
          · obtain rfl : app = app' := by simpa [hpc'] using heq
            exact hold.transport app (.inl hpc)
          · obtain rfl : app = app' := by simpa [hpc'] using heq
            exact Function.update_self ..

/-! ## along a run -/

theorem log_of_run {ok : Session × LaunchLog → SessionAct → Prop} {x : Session × LaunchLog}
    (hrun : (launchSystem serde cfg).Run ok (start cfg, .empty) x) :
    Answered serde x.1 x.2 ∧ Stamped serde x.1 x.2 ∧
      ∀ r appId, (x.1.calls r).op = .launchApp serde appId → Tidy x.1 x.2 r appId := by
  refine hrun.invariant_observed
    (I := fun s h => Answered serde s h ∧ Stamped serde s h ∧
      ∀ r appId, (s.calls r).op = .launchApp serde appId → Tidy s h r appId)
    (J := fun _ => True) (fun _ _ => trivial) ⟨?_, .nil, ?_⟩ ?_
  · intro r n json hrx
    contradiction
  · exact fun r appId _ => tidy_of_off ⟨rfl, fun id hpc => by contradiction⟩
  · intro s h a s' _ hi _ hs
    obtain ⟨hans, hst, htidy⟩ := hi
    have hstep := step_cases hs
    exact ⟨hans.step hstep, hst.step hstep, fun r appId hop => tidy_step htidy hstep hop⟩

/-- Whatever status it comes from, the app a launch returns is the one it was asked for. -/
theorem launch_returns_requested {appId : String} {app : Application}
    (hrun : (system serde cfg).Reachable s) (hop : (s.calls r).op = .launchApp serde appId)
    (hpc : (s.calls r).pc = .ended (some (.ok (.application app)))) : app.appId = appId := by
  obtain ⟨h, hlogged⟩ :
    ∃ h, (launchSystem serde cfg).Run (fun x => Any x.1) (start cfg, .empty) (s, h) :=
    hrun.observed LaunchLog.empty
  have htidy : Tidy s h r appId := (log_of_run hlogged).2.2 r appId hop
  exact htidy.names app (by rw [hpc]; rfl)

end Session

end Oxicast
