import Oxicast.Session.Launch
import Oxicast.Session.Once

/-!
# Oxicast.Session.Fresh

Whether a launch returns an application that has been reported since.

The channel is first in, first out: behind the events that waited in it when a
LAUNCH was enqueued come only later ones (`Backlog`).  So a launch takes its app
from a later status exactly when this backlog is gone.
-/

namespace Oxicast.Session

open TransitionSystem Lifecycle Ns

variable {serde : SerdeJson} {cfg : ClientConfig} {s s' : Session} {a : SessionAct} {r k n : Nat}
  {appId : String} {app : Application} {h : LaunchLog}

/-! ## fresh applications -/

/-- The app is listed by the RECEIVER_STATUS the call has taken it from, and this
one was routed after the request of the call was enqueued. -/
def FromLaterStatus (serde : SerdeJson) (h : LaunchLog) (r : Nat) (app : Application) : Prop :=
  ∃ n k msg status, h.enqueued r = some n ∧ h.took r = some k ∧ n ≤ k ∧ h.routed[k]? = some msg ∧
    Router.receiverStatusIn serde msg = some status ∧ app ∈ status.applications

/-- Every launch goes on with an app of a later status. -/
def AllFresh (serde : SerdeJson) (x : Session × LaunchLog) : Prop :=
  ∀ r appId app, (x.1.calls r).op = .launchApp serde appId → (x.1.calls r).pc.app? = some app →
    FromLaterStatus serde x.2 r app

/-- The payload answers a launch, and lists its app. -/
def Lists (appId : String) (json : Json) (app : Application) : Prop :=
  checkDeviceError json = .ok () ∧ (parseReceiverStatus json).bind (findApp · appId) = some app

/-- A message that answers a launch and lists its app is a RECEIVER_STATUS, and comes
when the call is waiting for its answer, unless the call has ended. -/
def AnswersWaiting (serde : SerdeJson) (s : Session) : SessionAct → Prop
  | .route _ msg => ∀ r appId json app, answeredBy serde s.requests msg = some r →
      (s.calls r).op = .launchApp serde appId → (∀ result, (s.calls r).pc ≠ .ended result) →
      serde.fromStr (Router.payloadOf msg) = some json → Lists appId json app →
      (s.calls r).pc = .wait ∧ (Router.receiverStatusIn serde msg).isSome
  | _ => True

/-- A launch takes an event that lists its app only when as many events have been taken
out of the channel since its LAUNCH was enqueued as waited there then. -/
def BacklogGone (serde : SerdeJson) (x : Session × LaunchLog) : SessionAct → Prop
  | .appSeen r => ∀ appId, (x.1.calls r).op = .launchApp serde appId → x.2.before r = 0
  | _ => True

/-- What the answers and the channel have to be like for launches to be fresh. -/
def TakesLater (serde : SerdeJson) (x : Session × LaunchLog) (a : SessionAct) : Prop :=
  AnswersWaiting serde x.1 a ∧ BacklogGone serde x a

/-! ## when a launch is enqueued -/

/-- The call waits for its answer, or for its app. -/
def CallPc.Asking : CallPc → Prop
  | .wait | .awaitApp _ => True
  | _ => False

/-- A call starts to wait when its request is accepted. -/
theorem asking_of_step (hs : Step serde cfg s a s') (hask : CallPc.Asking (s'.calls r).pc) :
    CallPc.Asking (s.calls r).pc ∨ a = .accept r ∧ ∃ c, (s.calls r).pc = .enqueue .request c := by
  by_cases hown : a.call? = some r ∨ ∃ op, a = .begin r op
  · cases hs with
    | life hb hl => simp [SessionAct.call?] at hown
    | lifeReadTransport hl => simp [SessionAct.call?] at hown
    | route hl => simp [SessionAct.call?] at hown
    | @begin x op hb hpc =>
        obtain rfl : x = r := by simpa [SessionAct.call?] using hown
        obtain ⟨pc, heq, hbegun⟩ := begin_eq s x op
        rw [heq] at hask
        simp only [setCall_apply, if_true] at hask
        cases pc <;> simp_all [CallPc.Asking, CallPc.Begun]
    | @readTransport x hpc hfree =>
        obtain rfl : x = r := by simpa [SessionAct.call?] using hown
        obtain ⟨-, heq⟩ | ⟨tid, pc, -, hafter, heq⟩ := s.readTransport_eq x
        · simp [heq, calls_goto, CallPc.Asking] at hask
        · cases pc <;> simp_all [setCall_apply, CallPc.AfterTransport, CallPc.Asking]
    | @readSession x hpc =>
        obtain rfl : x = r := by simpa [SessionAct.call?] using hown
        unfold Session.readSession at hask
        split at hask <;> simp [calls_goto, setCall_apply, CallPc.Asking] at hask
    | @readMediaSession x hpc =>
        obtain rfl : x = r := by simpa [SessionAct.call?] using hown
        unfold Session.readMediaSession at hask
        split at hask <;> simp [calls_goto, setCall_apply, CallPc.Asking] at hask
    | @accept x c what hpc hopen =>
        obtain rfl : x = r := by simpa [SessionAct.call?] using hown
        cases what with
        | request => exact .inr ⟨rfl, c, hpc⟩
        | connect app => simp [Session.accept, setCall_apply, CallPc.Asking] at hask
    | @receive x n json q hpc hrx hq | @senderDropped x q hpc hq | @timeout x q hpc hq
    | @cleanup x id err q hpc hp hq =>
        obtain rfl : x = r := by simpa [SessionAct.call?] using hown
        exact .inl (by rw [hpc]; trivial)
    | @appSeen x id event rest app hpc hbuf happ | @skipEvent x id event rest hpc hbuf happ
    | @launchTimeout x id hpc =>
        obtain rfl : x = r := by simpa [SessionAct.call?] using hown
        exact .inl (by rw [hpc]; trivial)
    | @increment x q hpc hq | @incrementAgain x q hpc hq =>
        exact .inl hask
    | @insert x q hpc hq | @cloneWriteTx x what hpc | @sendFailed x c what hpc hopen
    | @storeTransport x app hpc hfree | @storeSession x app hpc | @clearTransport x hpc hfree
    | @clearSession x hpc | @drop x hidle hend =>
        obtain rfl : x = r := by simpa [SessionAct.call?] using hown
        simp [calls_goto, CallPc.Asking] at hask
  · rw [not_or, not_exists] at hown
    obtain ⟨hpc, -⟩ := call_of_ne hs hown.1 hown.2
    rw [hpc] at hask
    exact .inl hask

/-- What the log says of a request that is enqueued: the number of the messages and of the
events so far. -/
theorem record_of_enqueue (serde : SerdeJson) (h : LaunchLog) (s s' : Session) {c : Nat}
    (hpc : (s.calls r).pc = .enqueue .request c) :
    (h.record serde s (.accept r) s').enqueued r = some h.routed.length ∧
    (h.record serde s (.accept r) s').before r = s.life.events.buffer.length := by
  simp [LaunchLog.record, LaunchLog.recordEnqueued, LaunchLog.recordBefore, takerOf, hpc]

/-- A CONNECT that is enqueued is not noted. -/
theorem record_of_connect (serde : SerdeJson) (h : LaunchLog) (s s' : Session)
    (hpc : ¬ ∃ c, (s.calls r).pc = .enqueue .request c) :
    (h.record serde s (.accept r) s').enqueued = h.enqueued ∧
    (h.record serde s (.accept r) s').before = h.before := by
  simp only [LaunchLog.record, LaunchLog.recordEnqueued, LaunchLog.recordBefore, takerOf]
  constructor
  · split
    next c heq => exact absurd ⟨c, heq⟩ hpc
    next => rfl
  · split
    next c heq => exact absurd ⟨c, heq⟩ hpc
    next => rfl

/-- The log of the enqueued requests changes in no other way, but for the events taken. -/
theorem record_of_other (serde : SerdeJson) (h : LaunchLog) (s s' : Session)
    (ha : ¬ (a = .accept r ∧ ∃ c, (s.calls r).pc = .enqueue .request c)) :
    (h.record serde s a s').enqueued r = h.enqueued r ∧
    (h.record serde s a s').before r = if takerOf a = none then h.before r else h.before r - 1 := by
  cases a with
  | accept x =>
      by_cases hpc : ∃ c, (s.calls x).pc = .enqueue .request c
      · have hne : r ≠ x := by
          rintro rfl
          exact ha ⟨rfl, hpc⟩
        obtain ⟨c, hpc⟩ := hpc
        simp only [LaunchLog.record, LaunchLog.recordEnqueued, LaunchLog.recordBefore, takerOf, hpc,
          Function.update_of_ne hne, if_true, and_self]
      · obtain ⟨henqueued, hbefore⟩ := record_of_connect serde h s s' hpc
        exact ⟨congrFun henqueued r, congrFun hbefore r⟩
  | life b => cases b <;> exact ⟨rfl, rfl⟩
  | _ => exact ⟨rfl, rfl⟩

/-! ## the backlog -/

/-- Of the events in the channel the first ones, `before` many, waited there when the
request of the call was enqueued behind `n` messages, and the others came later. -/
structure Backlog (s : Session) (h : LaunchLog) (r n : Nat) : Prop where
  le : h.before r ≤ s.life.events.buffer.length
  old : ∀ i status k, i < h.before r →
    s.life.events.buffer[i]? = some (.receiverStatusChanged status) → h.stamps[i]? = some k → k < n
  new : ∀ i k, h.before r ≤ i → h.stamps[i]? = some k → n ≤ k

/-- When the request is enqueued the backlog is all that waits. -/
theorem backlog_of_enqueue (hst : Stamped serde s h)
    (hbefore : h.before r = s.life.events.buffer.length) :
    Backlog s h r h.routed.length := by
  have hlength := hst.length_eq
  refine ⟨Nat.le_of_eq hbefore, fun i status k _ hi hk => ?_, fun i k hi hk => ?_⟩
  · obtain ⟨hlt, hget⟩ := List.getElem?_eq_some_iff.1 hi
    obtain ⟨hlt', hget'⟩ := List.getElem?_eq_some_iff.1 hk
    have hfrom := List.Forall₂.get hst hlt hlt'
    obtain ⟨msg, hmsg, -⟩ := hfrom status hget
    rw [List.get_eq_getElem, hget'] at hmsg
    exact (List.getElem?_eq_some_iff.1 hmsg).1
  · obtain ⟨hlt, -⟩ := List.getElem?_eq_some_iff.1 hk
    omega

/-- Whoever takes an event takes it from the backlog, as long as there is one. -/
theorem Backlog.take {h' : LaunchLog} (hb : Backlog s h r n)
    (hbuf : s'.life.events.buffer = s.life.events.buffer.drop 1)
    (hstamps : h'.stamps = h.stamps.drop 1)
    (hbefore : h'.before r = h.before r - 1) : Backlog s' h' r n := by
  have hle := hb.le
  refine ⟨?_, fun i status k hi he hk => ?_, fun i k hi hk => ?_⟩
  · rw [hbuf, List.length_drop]
    omega
  · rw [hbuf, List.getElem?_drop] at he
    rw [hstamps, List.getElem?_drop] at hk
    exact hb.old (1 + i) status k (by omega) he hk
  · rw [hstamps, List.getElem?_drop] at hk
    exact hb.new (1 + i) k (by omega) hk

/-- What is put into the channel comes behind the backlog. -/
theorem Backlog.put {h' : LaunchLog} {new : List CastEvent} {m : Nat} (hb : Backlog s h r n)
    (hlength : s.life.events.buffer.length = h.stamps.length) (hn : n ≤ m)
    (hbuf : s'.life.events.buffer = s.life.events.buffer ++ new)
    (hstamps : h'.stamps = h.stamps ++ List.replicate new.length m)
    (hbefore : h'.before r = h.before r) :
    Backlog s' h' r n := by
  have hle := hb.le
  refine ⟨?_, fun i status k hi he hk => ?_, fun i k hi hk => ?_⟩
  · rw [hbuf, List.length_append]
    omega
  · rw [hbuf, List.getElem?_append_left (by omega)] at he
    rw [hstamps, List.getElem?_append_left (by omega)] at hk
    exact hb.old i status k (by omega) he hk
  · rw [hbefore] at hi
    rw [hstamps] at hk
    by_cases hi' : i < h.stamps.length
    · rw [List.getElem?_append_left hi'] at hk
      exact hb.new i k hi hk
    · rw [List.getElem?_append_right (by omega)] at hk
      rw [(List.mem_replicate.1 (List.mem_of_getElem? hk)).2]
      exact hn

/-- When which request was enqueued: not before the call sends it, not later than it
waits for an answer, and behind the messages routed then and the events waiting then. -/
structure Timed (s : Session) (h : LaunchLog) : Prop where
  unsent : ∀ r, ¬ CallPc.Past (s.calls r).pc → h.enqueued r = none
  asking : ∀ r, CallPc.Asking (s.calls r).pc → ∃ n, h.enqueued r = some n
  past : ∀ r n, h.enqueued r = some n → n ≤ h.routed.length
  backlog : ∀ r n, h.enqueued r = some n → Backlog s h r n

theorem timed_start : Timed (start cfg) .empty :=
  ⟨fun _ _ => rfl, fun _ hask => hask.elim, fun _ _ hn => (Option.some_ne_none _ hn.symm).elim,
    fun _ _ hn => (Option.some_ne_none _ hn.symm).elim⟩

theorem length_routed_le (h : LaunchLog) (a : SessionAct) :
    h.routed.length ≤ (h.recordRouted a).length :=
  (routed_grows h a).length_le

/-- The channel goes on, with all backlogs. -/
theorem Backlog.step (hb : Backlog s h r n) (hst : Stamped serde s h) (hn : n ≤ h.routed.length)
    (hs : Step serde cfg s a s')
    (ha : ¬ (a = .accept r ∧ ∃ c, (s.calls r).pc = .enqueue .request c)) :
    Backlog s' (h.record serde s a s') r n := by
  have hbefore := (record_of_other serde h s s' ha).2
  cases htaker : takerOf a with
  | some taker =>
      rw [htaker, if_neg (by simp)] at hbefore
      refine hb.take (buffer_of_takerOf hs (by simp [htaker])) ?_ hbefore
      simp only [LaunchLog.record, LaunchLog.recordStamps, htaker, List.drop_one]
  | none =>
      rw [htaker, if_pos rfl] at hbefore
      obtain ⟨new, hnew, -⟩ := adds_of_step (P := fun _ => True) hs htaker (fun _ _ => trivial)
        fun _ _ _ _ _ => trivial
      refine hb.put hst.length_eq hn hnew ?_ hbefore
      simp only [LaunchLog.record, LaunchLog.recordStamps, htaker, hnew, List.length_append,
        Nat.add_sub_cancel_left]

theorem Timed.step (ht : Timed s h) (hst : Stamped serde s h) (hs : Step serde cfg s a s') :
    Timed s' (h.record serde s a s') := by
  have hlength := length_routed_le h a
  -- the log of a request is as it was, or the request has just been enqueued
  have hcases (r : Nat) :
      ((h.record serde s a s').enqueued r = h.enqueued r ∧
        ¬ (a = .accept r ∧ ∃ c, (s.calls r).pc = .enqueue .request c)) ∨
      (a = .accept r ∧ (∃ c, (s.calls r).pc = .enqueue .request c) ∧
        (h.record serde s a s').enqueued r = some h.routed.length) := by
    by_cases ha : a = .accept r ∧ ∃ c, (s.calls r).pc = .enqueue .request c
    · obtain ⟨rfl, c, hpc⟩ := ha
      refine .inr ⟨rfl, ⟨c, hpc⟩, ?_⟩
      exact (record_of_enqueue serde h s s' hpc).1
    · exact .inl ⟨(record_of_other serde h s s' ha).1, ha⟩
  refine ⟨fun r hpast => ?_, fun r hask => ?_, fun r n hn => ?_, fun r n hn => ?_⟩
  · rcases hcases r with ⟨heq, -⟩ | ⟨rfl, ⟨c, hpc⟩, -⟩
    · rw [heq]
      exact ht.unsent r fun hp => hpast (past_of_step hs hp).1
    · cases hs with
      | @accept _ c' what hpc' hopen =>
          obtain ⟨rfl, rfl⟩ := CallPc.enqueue.inj (hpc'.symm.trans hpc)
          refine absurd ?_ hpast
          simp only [Session.accept, setCall_apply, if_true]
          split <;> trivial
  · rcases hcases r with ⟨heq, ha⟩ | ⟨-, -, heq⟩
    · rw [heq]
      exact ht.asking r ((asking_of_step hs hask).resolve_right ha)
    · exact ⟨_, heq⟩
  · rcases hcases r with ⟨heq, -⟩ | ⟨-, -, heq⟩
    · exact Nat.le_trans (ht.past r n (heq ▸ hn)) hlength
    · obtain rfl := Option.some.inj (heq.symm.trans hn)
      exact hlength
  · rcases hcases r with ⟨heq, ha⟩ | ⟨rfl, ⟨c, hpc⟩, heq⟩
    · have hold := heq ▸ hn
      exact (ht.backlog r n hold).step hst (ht.past r n hold) hs ha
    · obtain rfl := Option.some.inj (heq.symm.trans hn)
      have hbefore := (record_of_enqueue serde h s s' hpc).2
      have hlife : s'.life = s.life := by
        cases hs with
        | accept hpc' hopen => exact life_accept ..
      rw [← hlife] at hbefore
      exact backlog_of_enqueue (hst.step hs) hbefore

/-! ## answers in time -/

/-- A launch that has not ended finds its app only in a RECEIVER_STATUS routed after its
LAUNCH was enqueued. -/
def InTime (serde : SerdeJson) (s : Session) (h : LaunchLog) : Prop :=
  ∀ r appId n json app, (s.calls r).op = .launchApp serde appId →
    (∀ result, (s.calls r).pc ≠ .ended result) → (s.requests.request r).rx = .sent n json →
    Lists appId json app →
    ∃ n k msg, h.enqueued r = some n ∧ h.answered r = some k ∧ n ≤ k ∧ h.routed[k]? = some msg ∧
      (Router.receiverStatusIn serde msg).isSome

theorem op_of_not_begin (hs : Step serde cfg s a s') (hbegin : ∀ op, a ≠ .begin r op) :
    (s'.calls r).op = (s.calls r).op := by
  by_cases hcall : a.call? = some r
  · exact op_of_step hs hcall
  · exact (call_of_ne hs hcall hbegin).2

/-- Nothing has been handed over to a call that begins. -/
theorem rx_of_idle (hp : Placed s) (hf : s.requests.Filing) (hpc : (s.calls r).pc = .idle) :
    (s.requests.request r).rx = .empty := by
  have hphase : (s.requests.request r).phase = .idle := by simpa [hpc, CallPc.Allows] using hp r
  exact (hf.quiet r (by rw [hphase]; rfl)).1

theorem InTime.step (hi : InTime serde s h) (ht : Timed s h) (hp : Placed s)
    (hf : s.requests.Filing) (hok : AnswersWaiting serde s a) (hs : Step serde cfg s a s') :
    InTime serde s' (h.record serde s a s') := by
  intro r appId n json app hop hend hrx hlists
  have hrouted := routed_grows h a
  by_cases hroute : ∃ c msg, a = .route c msg
  · obtain ⟨c, msg, rfl⟩ := hroute
    cases hs with
    | route hl =>
        simp only [LaunchLog.record, LaunchLog.recordAnswered, LaunchLog.recordRouted,
          LaunchLog.recordEnqueued] at hrouted ⊢
        rcases sent_of_route hrx with ⟨hold, hother⟩ | ⟨hown, hjson⟩
        · obtain ⟨n, k, m, hn, hk, hle, hm, hstatus⟩ := hi r appId n json app hop hend hold hlists
          refine ⟨n, k, m, hn, ?_, hle, getElem?_of_prefix hrouted hm, hstatus⟩
          cases hx : answeredBy serde s.requests msg with
          | none => exact hk
          | some x => exact (Function.update_of_ne (by rintro rfl; exact hother hx) _ _).trans hk
        · obtain ⟨hwait, hstatus⟩ := hok r appId json app hown hop hend hjson hlists
          obtain ⟨n, hn⟩ := ht.asking r (by rw [hwait]; trivial)
          refine ⟨n, h.routed.length, msg, hn, ?_, ht.past r n hn, by simp, hstatus⟩
          simp only [hown, Function.update_self]
  rw [not_exists] at hroute
  have hold := sent_of_step hs (fun c msg heq => hroute c ⟨msg, heq⟩) hrx
  have hbegin (op : Operation) : a ≠ .begin r op := by
    rintro rfl
    cases hs with
    | begin hb hpc =>
        rw [rx_of_idle hp hf hpc] at hold
        contradiction
  rw [op_of_not_begin hs hbegin] at hop
  obtain ⟨n, k, m, hn, hk, hle, hm, hstatus⟩ :=
    hi r appId n json app hop (fun result hpc => hend result (ended_of_step hs hpc)) hold hlists
  refine ⟨n, k, m, ?_, ?_, hle, getElem?_of_prefix hrouted hm, hstatus⟩
  · -- a request that has been answered is not enqueued any more
    refine (record_of_other serde h s s' ?_).1.trans hn
    rintro ⟨-, c, hpc⟩
    rw [ht.unsent r (by rw [hpc]; exact id)] at hn
    contradiction
  · cases a with
    | route c msg => exact absurd ⟨msg, rfl⟩ (hroute c)
    | _ => exact hk

/-! ## fresh or stale -/

theorem FromLaterStatus.mono {h' : LaunchLog} (hf : FromLaterStatus serde h r app)
    (henqueued : h'.enqueued r = h.enqueued r) (htook : h'.took r = h.took r)
    (hrouted : h.routed <+: h'.routed) : FromLaterStatus serde h' r app := by
  obtain ⟨n, k, msg, status, hn, hk, hle, hmsg, hstatus, happ⟩ := hf
  exact ⟨n, k, msg, status, henqueued.trans hn, htook.trans hk, hle,
    getElem?_of_prefix hrouted hmsg, hstatus, happ⟩

/-- An app that is found is listed. -/
theorem mem_of_findApp {status : ReceiverStatus} (h : findApp status appId = some app) :
    app ∈ status.applications := List.mem_of_find?_eq_some h

theorem fromLaterStatus_of_answer {json : Json} (hi : InTime serde s h) (hans : Answered serde s h)
    (hop : (s.calls r).op = .launchApp serde appId)
    (hend : ∀ result, (s.calls r).pc ≠ .ended result)
    (hrx : (s.requests.request r).rx = .sent n json) (hlists : Lists appId json app) :
    FromLaterStatus serde (h.record serde s (.receive r) s') r app := by
  obtain ⟨n, k, msg, hn, hk, hle, hmsg, hsome⟩ := hi r appId _ json app hop hend hrx hlists
  obtain ⟨k', msg', hk', hmsg', hjson⟩ := hans r _ json hrx
  obtain rfl : k = k' := Option.some.inj (hk.symm.trans hk')
  obtain rfl : msg = msg' := Option.some.inj (hmsg.symm.trans hmsg')
  obtain ⟨status, hstatus⟩ := Option.isSome_iff_exists.1 hsome
  obtain ⟨own, hown, happ⟩ := Option.bind_eq_some_iff.1 hlists.2
  rw [Router.parse_of_receiverStatusIn hjson hstatus] at hown
  obtain rfl := Option.some.inj hown
  exact ⟨n, k, msg, status, hn, (took_receive h).trans hk, hle, hmsg, hstatus,
    mem_of_findApp happ⟩

/-- The status at the head of the channel came before the request of the call was enqueued
exactly when a part of the backlog is left. -/
theorem fromLaterStatus_iff_of_event {event : CastEvent} {rest : List CastEvent} {id : String}
    (ht : Timed s h) (hst : Stamped serde s h) (hpc : (s.calls r).pc = .awaitApp id)
    (hbuf : s.life.events.buffer = event :: rest) (happ : appIn id event = some app) :
    FromLaterStatus serde (h.record serde s (.appSeen r) s') r app ↔ h.before r = 0 := by
  obtain ⟨n, hn⟩ := ht.asking r (by rw [hpc]; trivial)
  have hback := ht.backlog r n hn
  cases event with
  | receiverStatusChanged status =>
      have hst' := hst
      rw [Stamped, hbuf] at hst'
      obtain ⟨k, ks, hfirst, -, hstamps⟩ := List.forall₂_cons_left_iff.1 hst'
      obtain ⟨msg, hmsg, hin⟩ := hfirst status rfl
      have hhead : h.stamps[0]? = some k := by rw [hstamps]; rfl
      have htook : (h.record serde s (.appSeen r) s').took r = some k := by
        rw [took_appSeen, hstamps, List.head?_cons]
      constructor
      · rintro ⟨n', k', -, -, hn', hk', hle, -⟩
        obtain rfl : n = n' := Option.some.inj (hn.symm.trans hn')
        obtain rfl : k = k' := Option.some.inj (htook.symm.trans hk')
        by_contra hleft
        have hlt := hback.old 0 status k (Nat.pos_of_ne_zero hleft) (by rw [hbuf]; rfl) hhead
        exact Nat.not_lt.2 hle hlt
      · intro hgone
        have hle := hback.new 0 k (Nat.le_of_eq hgone) hhead
        exact ⟨n, k, msg, status, hn, htook, hle, hmsg, hin, mem_of_findApp happ⟩
  | _ => contradiction

/-- A step keeps all launches fresh exactly when it takes no app out of the backlog. -/
theorem allFresh_iff (hfresh : AllFresh serde (s, h)) (hi : InTime serde s h) (ht : Timed s h)
    (hans : Answered serde s h) (hst : Stamped serde s h) (hs : Step serde cfg s a s') :
    AllFresh serde (s', h.record serde s a s') ↔ BacklogGone serde (s, h) a := by
  constructor
  · intro hall
    cases hs with
    | @appSeen r id event rest app hpc hbuf happ =>
        intro appId hop
        have hlater := hall r appId app (by simpa [calls_goto] using hop)
          (by simp [calls_goto, CallPc.app?])
        exact (fromLaterStatus_iff_of_event ht hst hpc hbuf happ).1 hlater
    | _ => trivial
  · intro hgone r appId app hop happ
    rcases move_of_step hs hop with hoff | ⟨hop', hmove⟩
    · rw [hoff.1] at happ
      contradiction
    generalize (s'.calls r).pc = pc at happ hmove
    have hrouted := routed_grows h a
    cases hmove with
    | stay ha =>
        obtain ⟨henqueued, htook, -⟩ := record_of_silent serde h s s' ha
        exact (hfresh r appId app hop' happ).mono henqueued htook hrouted
    | waits ha => contradiction
    | @answered n json found ha hrx hcheck hfind =>
        obtain rfl : found = app := Option.some.inj happ
        subst ha
        refine fromLaterStatus_of_answer hi hans hop' ?_ hrx ⟨hcheck, hfind⟩
        cases hs with
        | receive hpc hrx' hq => simp [hpc]
    | @seen id event rest found ha hpc hbuf hfound =>
        obtain rfl : found = app := Option.some.inj happ
        subst ha
        exact (fromLaterStatus_iff_of_event ht hst hpc hbuf hfound).2 (hgone appId hop')
    | @cloned found ha hpc c =>
        subst ha
        exact (hfresh r appId app hop' (by rw [hpc]; exact happ)).mono rfl rfl hrouted
    | @connected found c ha hpc =>
        subst ha
        refine (hfresh r appId app hop' (by rw [hpc]; exact happ)).mono ?_ rfl hrouted
        rcases recordEnqueued_accept h s r with heq | ⟨c', hpc', -⟩
        · exact congrFun heq r
        · simp [hpc] at hpc'
    | @stored found ha hpc =>
        subst ha
        exact (hfresh r appId app hop' (by rw [hpc]; exact happ)).mono rfl rfl hrouted
    | @returned found ha hpc =>
        subst ha
        exact (hfresh r appId app hop' (by rw [hpc]; exact happ)).mono rfl rfl hrouted

/-! ## a launch returns a fresh application -/

theorem timed_of_run {ok : Session × LaunchLog → SessionAct → Prop} {x : Session × LaunchLog}
    (hrun : (launchSystem serde cfg).Run ok (start cfg, .empty) x) : Timed x.1 x.2 := by
  refine hrun.invariant_with (I := fun y => Timed y.1 y.2) (fun y hy => log_of_run hy)
    timed_start ?_
  intro y a z hlog ht _ hs
  obtain ⟨hstep, hhist⟩ := step_observe_iff.1 hs
  rw [hhist]
  exact ht.step hlog.2.1 (step_cases hstep)

theorem inTime_of_run {x : Session × LaunchLog}
    (hrun : (launchSystem serde cfg).Run (TakesLater serde) (start cfg, .empty) x) :
    InTime serde x.1 x.2 := by
  have hreach (y : Session × LaunchLog)
      (hy : (launchSystem serde cfg).Run (TakesLater serde) (start cfg, .empty) y) :
      (system serde cfg).Reachable y.1 := hy.unobserved fun _ _ _ => trivial
  refine hrun.invariant_with (I := fun y => InTime serde y.1 y.2)
    (fun y hy => And.intro (timed_of_run hy)
      (And.intro (placed_of_run (hreach y hy)) (filing_of_run (hreach y hy)))) ?_ ?_
  · intro r appId n json app hop hend hrx
    contradiction
  · intro y a z hgood hi hok hs
    obtain ⟨ht, hp, hf⟩ := hgood
    obtain ⟨hstep, hhist⟩ := step_observe_iff.1 hs
    rw [hhist]
    exact hi.step ht hp hf hok.1 (step_cases hstep)

theorem allFresh_of_run {x : Session × LaunchLog}
    (hrun : (launchSystem serde cfg).Run (TakesLater serde) (start cfg, .empty) x) :
    AllFresh serde x := by
  refine hrun.invariant_with (fun y hy => And.intro (inTime_of_run hy)
    (And.intro (timed_of_run hy) (log_of_run hy))) ?_ ?_
  · intro r appId app hop happ
    contradiction
  · intro y a z hgood hfresh hok hs
    obtain ⟨hi, ht, hans, hst, -⟩ := hgood
    obtain ⟨hstep, hhist⟩ := step_observe_iff.1 hs
    rw [show z = (z.1, y.2.record serde y.1 a z.1) from Prod.ext rfl hhist]
    exact (allFresh_iff hfresh hi ht hans hst (step_cases hstep)).2 hok.2

/-- **A launch returns a fresh application**: in every run in which the answers to
launches come when these wait for them, and launches leave the backlog of the channel
alone, a launch that returns `Ok` returns an app with the requested id, from a
RECEIVER_STATUS routed after its LAUNCH was enqueued, and has stored its ids; and the
next step keeps it so exactly when it takes no app out of the backlog either. -/
theorem launch_returns_fresh {h : LaunchLog}
    (hrun : (launchSystem serde cfg).Run (TakesLater serde) (start cfg, .empty) (s, h)) :
    (∀ r appId app, (s.calls r).op = .launchApp serde appId →
      (s.calls r).pc = .ended (some (.ok (.application app))) →
      app.appId = appId ∧ FromLaterStatus serde h r app ∧
        h.transport r = some app.transportId ∧ h.session r = some app.sessionId) ∧
    ∀ a y, (launchSystem serde cfg).step (s, h) a = some y →
      (AllFresh serde y ↔ BacklogGone serde (s, h) a) := by
  have hlog : Answered serde s h ∧ Stamped serde s h ∧
    ∀ r appId, (s.calls r).op = .launchApp serde appId → Tidy s h r appId := log_of_run hrun
  obtain ⟨hans, hst, htidy⟩ := hlog
  have hfresh := allFresh_of_run hrun
  refine ⟨fun r appId app hop hpc => ?_, fun a y hs => ?_⟩
  · have ht := htidy r appId hop
    have happ : (s.calls r).pc.app? = some app := by rw [hpc]; rfl
    exact ⟨ht.names app happ, hfresh r appId app hop happ, ht.transport app (.inr hpc),
      ht.session app hpc⟩
  · obtain ⟨hstep, hhist⟩ := step_observe_iff.1 hs
    rw [show y = (y.1, h.record serde s a y.1) from Prod.ext rfl hhist]
    exact allFresh_iff hfresh (inTime_of_run hrun) (timed_of_run hrun) hans hst (step_cases hstep)

/-- The steps that neither answer a launch nor take its app out of the channel. -/
def answersNothing (_ : Session × LaunchLog) : SessionAct → Bool
  | .route _ _ | .appSeen _ => false
  | _ => true

theorem takesLater_of_test {x : Session × LaunchLog} (h : answersNothing x a = true) :
    TakesLater serde x a := by
  cases a with
  | route c msg => contradiction
  | appSeen r => contradiction
  | _ => exact ⟨trivial, trivial⟩

/-- A RECEIVER_STATUS that answers a call that waits for it. -/
theorem takesLater_of_answer {x : Session × LaunchLog} {c : Nat} {msg : CastMessage}
    (hans : answeredBy serde x.1.requests msg = some r) (hpc : (x.1.calls r).pc = .wait)
    (hin : (Router.receiverStatusIn serde msg).isSome) : TakesLater serde x (.route c msg) := by
  refine ⟨fun r' appId json app hr _ _ _ _ => ?_, trivial⟩
  obtain rfl : r = r' := Option.some.inj (hans.symm.trans hr)
  exact ⟨hpc, hin⟩

set_option maxRecDepth 8000 in
/-- The app is in the answer to the LAUNCH. -/
theorem launch_returns_fresh_answered : ∃ s h app,
    (launchSystem launchSerde autoCfg).Run (TakesLater launchSerde) (start autoCfg, .empty) (s, h) ∧
      (s.calls 0).pc = .ended (some (.ok (.application app))) ∧
      FromLaterStatus launchSerde h 0 app := by
  have hsent : (launchSystem launchSerde autoCfg).Run (TakesLater launchSerde)
      (start autoCfg, .empty) _ :=
    run_of_execIf (p := answersNothing)
      ([.life .builderSent, .life .builderDone] ++ sendLaunch launchSerde 0)
      (fun _ _ => takesLater_of_test) rfl
  have hlists : (Router.receiverStatusIn launchSerde (receiverMsg launched)).isSome := by decide
  have hanswered := hsent.tail (a := .route 0 (receiverMsg launched))
    (takesLater_of_answer (r := 0) (by decide) rfl hlists) rfl
  have hrun := hanswered.trans (run_of_execIf (p := answersNothing)
    [.receive 0, .cloneWriteTx 0, .accept 0, .storeTransport 0, .storeSession 0]
    (fun _ _ => takesLater_of_test) rfl)
  exact ⟨_, _, _, hrun, rfl, ((launch_returns_fresh hrun).1 0 "CC1AD845" _ rfl rfl).2.1⟩

/-- A RECEIVER_STATUS with the apps that run. -/
def runningApps (requestId : UInt32) (apps : List Json) : Json :=
  .object [("requestId", .ofU32 requestId),
    ("status", .object [("applications", .array apps), ("volume", .object [])]),
    ("type", .string msgReceiverStatus)]

/-- An instance of the app is reported, and then that nothing runs; and the answer
to a LAUNCH that does not list the app yet. -/
def staleStatus : Json := runningApps 0 [.object [("appId", .string "CC1AD845"),
  ("sessionId", .string "s-0"), ("transportId", .string "web-0")]]
def stoppedStatus : Json := runningApps 0 []
def loadingStatus : Json := runningApps 1 []

def staleSerde : SerdeJson := .ofTexts [(staleStatus.compact, staleStatus),
  (stoppedStatus.compact, stoppedStatus), (loadingStatus.compact, loadingStatus)]

/-- Both reports are waiting in the channel when the user launches the app. -/
def staleActs : List SessionAct :=
  [.life .builderSent, .life .builderDone, .route 0 (receiverMsg staleStatus),
    .route 0 (receiverMsg stoppedStatus)] ++ sendLaunch staleSerde 0 ++
    [.route 0 (receiverMsg loadingStatus), .receive 0, .skipEvent 0, .appSeen 0, .cloneWriteTx 0,
      .accept 0, .storeTransport 0, .storeSession 0]

set_option maxRecDepth 8000 in
/-- The launch returns the instance that has been stopped. -/
theorem stale_app_returned : ¬ ∀ (serde : SerdeJson) (cfg : ClientConfig) (s : Session)
    (h : LaunchLog) (r : Nat) (appId : String) (app : Application),
      (launchSystem serde cfg).Reachable (s, h) → (s.calls r).op = .launchApp serde appId →
      (s.calls r).pc = .ended (some (.ok (.application app))) → FromLaterStatus serde h r app := by
  intro hall
  have hrun := reachable_of_exec (M := launchSystem staleSerde autoCfg) staleActs rfl
  obtain ⟨n, k, -, -, hn, hk, hle, -⟩ := hall _ _ _ _ 0 "CC1AD845" _ hrun rfl rfl
  have hn' : some 2 = some n := hn
  have hk' : some 0 = some k := hk
  simp only [Option.some.injEq] at hn' hk'
  omega

end Oxicast.Session
