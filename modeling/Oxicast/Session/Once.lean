import Oxicast.Session.ConnectFirst
import Oxicast.Session.Advance
import Oxicast.Status.Echo
import Oxicast.Tracker.Correlation
import Mathlib.Data.List.Forall2
import Mathlib.Data.List.ReduceOption

/-!
# Oxicast.Session.Once

What the write channels have accepted, over all connections: CONNECT messages, and
the request of every call at most once, on one connection, with the id the call has
registered.

`Sends` is what one step does to the queues; the senders of a queue are read off its
messages one by one (`Senders`).
-/

namespace Oxicast.Session

open Ns TransitionSystem

variable {serde : SerdeJson} {cfg : ClientConfig} {s s' : Session} {a : SessionAct} {r c : Nat}

/-! ## after the request -/

/-- The call has sent its request, or has ended. -/
def CallPc.Past : CallPc → Prop
  | .wait | .awaitApp _ | .send (.connect _) | .enqueue (.connect _) _ | .storeTransport _
  | .storeSession _ | .clearTransport | .clearSession | .ended _ => True
  | _ => False

theorem CallPc.Answered.past {pc : CallPc} (h : CallPc.Answered pc) : CallPc.Past pc := by
  cases pc with
  | send what =>
      cases what with
      | request => exact h.elim
      | connect app => trivial
  | awaitApp appId => trivial
  | clearTransport => trivial
  | ended result => trivial
  | _ => exact h.elim

/-- What is sent stays sent, and its request keeps its id. -/
theorem Advance.past {op : Operation} {pc pc' : CallPc} {p p' : Phase} (h : Advance op pc p pc' p')
    (hp : CallPc.Past pc) : CallPc.Past pc' ∧ p'.id? = p.id? := by
  cases h with
  | @cloneWriteTx what c p =>
      cases what with
      | request => exact hp.elim
      | connect app => exact ⟨trivial, rfl⟩
  | acceptConnect => exact ⟨trivial, rfl⟩
  | receive hans hresult => exact ⟨hans.past, rfl⟩
  | giveUp => exact ⟨trivial, rfl⟩
  | cleanup => exact ⟨trivial, rfl⟩
  | appSeen => exact ⟨trivial, rfl⟩
  | storeTransport => exact ⟨trivial, rfl⟩
  | clearTransport => exact ⟨trivial, rfl⟩
  | ends hend => exact ⟨trivial, rfl⟩
  | _ => exact hp.elim

theorem past_of_step (hs : Step serde cfg s a s') (hp : CallPc.Past (s.calls r).pc) :
    CallPc.Past (s'.calls r).pc ∧ (s'.calls r).op = (s.calls r).op ∧
      (s'.requests.request r).phase.id? = (s.requests.request r).phase.id? := by
  by_cases hcall : a.call? = some r
  · by_cases hdrop : a = .drop r
    · subst hdrop
      cases hs with
      | drop hidle hend =>
          rw [calls_goto, if_pos rfl]
          exact ⟨trivial, rfl, rfl⟩
    by_cases hskip : a = .skipEvent r
    · subst hskip
      cases hs with
      | skipEvent hpc hbuf happ => exact ⟨hp, rfl, rfl⟩
    obtain ⟨hpast, hid⟩ := (advance_of_step hs hcall hdrop hskip).past hp
    exact ⟨hpast, op_of_step hs hcall, hid⟩
  · have hbegin (op : Operation) : a ≠ .begin r op := by
      rintro rfl
      cases hs with
      | begin hb hidle =>
          rw [hidle] at hp
          exact hp
    obtain ⟨hpc, hop⟩ := call_of_ne hs hcall hbegin
    rw [hpc, hop, phase_of_other hs hcall]
    exact ⟨hp, rfl, rfl⟩

/-- A call that has sent its request keeps what it has read. -/
theorem target_of_step (hs : Step serde cfg s a s') (hp : CallPc.Past (s.calls r).pc) :
    (s'.calls r).target = (s.calls r).target := by
  have hgoto (u : Session) (x : Nat) (pc : CallPc) (hu : u.calls = s.calls) :
      ((u.goto x pc).calls r).target = (s.calls r).target := by
    rw [calls_goto, hu]
    split
    next hx => rw [hx]
    next => rfl
  have hother {x : Nat} {f : Call → Call} {pc : CallPc} (h : (s.calls x).pc = pc)
      (hpc : ¬ CallPc.Past pc) : (s.setCall x f r).target = (s.calls r).target := by
    have hne : r ≠ x := by
      rintro rfl
      exact hpc (h ▸ hp)
    rw [setCall_apply, if_neg hne]
  cases hs with
  | life hb h => exact target_callsAfter s _ r
  | lifeReadTransport h => rfl
  | route h => rfl
  | @begin x op hb h =>
      obtain ⟨pc, heq, -⟩ := begin_eq s x op
      rw [heq]
      exact hother h id
  | @readTransport x h hfree =>
      obtain ⟨-, heq⟩ | ⟨tid, pc, -, -, heq⟩ := s.readTransport_eq x <;> rw [heq]
      · exact hgoto s x _ rfl
      · exact hother h id
  | @readSession x h =>
      unfold Session.readSession
      split
      · exact hgoto s x _ rfl
      · exact hother h id
  | @readMediaSession x h =>
      unfold Session.readMediaSession
      split
      · exact hother h id
      · exact hgoto s x _ rfl
  | @accept x c what h hopen =>
      cases what with
      | request => exact hother h id
      | connect app =>
          simp only [Session.accept, setCall_apply]
          split
          next hx => rw [hx]
          next => rfl
  | @receive x n json q h hrx hq =>
      obtain ⟨m, pc, heq, -⟩ := Session.answer_eq { s with requests := q } x json
      rw [heq]
      exact hgoto _ x pc rfl
  | increment h hq => rfl
  | incrementAgain h hq => rfl
  | senderDropped h hq => rfl
  | timeout h hq => rfl
  | skipEvent h hbuf happ => rfl
  | _ => exact hgoto _ _ _ rfl

theorem message_of_step (hs : Step serde cfg s a s') (hp : CallPc.Past (s.calls r).pc) :
    s'.message r = s.message r := by
  obtain ⟨-, hop, hid⟩ := past_of_step hs hp
  rw [message, message, hop, hid, target_of_step hs hp]

/-- A call whose arguments are refused ends at once. -/
def Refused (s : Session) : Prop :=
  ∀ r, (s.calls r).op.reject ≠ none → (s.calls r).pc = .idle ∨ Ended s r

theorem Refused.step (h : Refused s) (hs : Step serde cfg s a s') : Refused s' := by
  intro r hreject
  by_cases hcall : a.call? = some r
  · rw [op_of_step hs hcall] at hreject
    by_cases hdrop : a = .drop r
    · subst hdrop
      cases hs with
      | drop hidle hend => exact .inr ⟨none, by rw [calls_goto, if_pos rfl]⟩
    by_cases hskip : a = .skipEvent r
    · subst hskip
      cases hs with
      | skipEvent hpc hbuf happ => exact h r hreject
    have hadv := advance_of_step hs hcall hdrop hskip
    obtain hidle | ⟨result, hend⟩ := h r hreject
    · rw [hidle] at hadv
      exact hadv.not_idle.elim
    · rw [hend] at hadv
      exact hadv.not_ended.elim
  · by_cases hbegin : ∃ op, a = .begin r op
    · obtain ⟨op, rfl⟩ := hbegin
      cases hs with
      | begin hb hpc =>
          have hop : ((s.begin r op).calls r).op = op := by
            simp only [Session.begin, Function.update_self]
          rw [hop] at hreject
          obtain ⟨err, herr⟩ := Option.ne_none_iff_exists'.1 hreject
          exact .inr ⟨some (.error err), by simp only [Session.begin, Function.update_self, herr]⟩
    · obtain ⟨hpc, hop⟩ := call_of_ne hs hcall fun op heq => hbegin ⟨op, heq⟩
      rw [hop] at hreject
      rw [Ended, hpc]
      exact h r hreject

theorem refused_of_run {ok : Session → SessionAct → Prop}
    (h : (system serde cfg).Run ok (start cfg) s) :
    Refused s :=
  h.invariant (fun _ _ => .inl rfl) fun _ _ _ hi _ hs => hi.step (step_cases hs)

/-! ## what a step sends -/

/-- What a step does to the queues: nothing, a CONNECT, or the request of a call. -/
inductive Sends (serde : SerdeJson) (s s' : Session) : Prop
  | quiet (hsent : s'.sent = s.sent) (hacc : ∀ x, (s'.calls x).acceptedOn = (s.calls x).acceptedOn)
  | connect (c : Nat) (tid : String) (hsent : s'.sent = s.push c (connectMsg serde tid))
      (hacc : ∀ x, (s'.calls x).acceptedOn = (s.calls x).acceptedOn)
  | request (r c : Nat) (hpc : (s.calls r).pc = .enqueue .request c)
      (hpast : CallPc.Past (s'.calls r).pc)
      (hwait : (s.calls r).op.answered = true → (s'.calls r).pc = .wait)
      (hkeep : (s'.calls r).op = (s.calls r).op ∧
        (s'.requests.request r).phase = (s.requests.request r).phase)
      (hmessage : s'.message r = s.message r)
      (hsent : s'.sent = s.push c (s.message r))
      (hacc : ∀ x, (s'.calls x).acceptedOn = if x = r then some c else (s.calls x).acceptedOn)

/-- Whoever's request has been accepted has sent it. -/
def Accepted (s : Session) : Prop := ∀ r, (s.calls r).acceptedOn ≠ none → CallPc.Past (s.calls r).pc

theorem sends_of_step (hacc : Accepted s) (hs : Step serde cfg s a s') : Sends serde s s' := by
  have hset {x : Nat} {f : Call → Call} (hf : (f (s.calls x)).acceptedOn = (s.calls x).acceptedOn)
      (y : Nat) :
      (s.setCall x f y).acceptedOn = (s.calls y).acceptedOn := by
    rw [setCall_apply]
    split
    next hx => rw [hx, hf]
    next => rfl
  have hgoto (u : Session) (x : Nat) (pc : CallPc) (hu : u.calls = s.calls) (y : Nat) :
      ((u.goto x pc).calls y).acceptedOn = (s.calls y).acceptedOn := by
    rw [calls_goto, hu]
    split
    next hx => rw [hx]
    next => rfl
  cases hs with
  | life hb h =>
      have hlife (b : LifecycleAct) (x : Nat) := acceptedOn_callsAfter s b x
      cases h with
      | builderSent hpc hw => exact .connect 0 receiverId rfl (hlife _)
      | connectSent hw hf hpc => exact .connect _ receiverId rfl (hlife _)
      | @transportSent f tid hw hf hpc =>
          refine .connect s.life.writeTx tid ?_ (hlife _)
          have hres : resending s.life = some tid := by
            rw [resending, hf, Option.bind_some, hpc]
          rw [afterLife, sentAfter, hres]
      | _ => exact .quiet rfl (hlife _)
  | lifeReadTransport h => exact .quiet rfl fun _ => rfl
  | route h => exact .quiet rfl fun _ => rfl
  | @begin x op hb h =>
      obtain ⟨pc, heq, -⟩ := begin_eq s x op
      have hnone : (s.calls x).acceptedOn = none := by
        by_contra hsome
        have hpast := hacc x hsome
        rw [h] at hpast
        exact hpast
      rw [heq]
      exact .quiet rfl (hset hnone.symm)
  | @readTransport x h hfree =>
      obtain ⟨-, heq⟩ | ⟨tid, pc, -, -, heq⟩ := s.readTransport_eq x <;> rw [heq]
      · exact .quiet rfl (hset rfl)
      · exact .quiet rfl (hset rfl)
  | readSession h => unfold Session.readSession; split <;> exact .quiet rfl (hset rfl)
  | readMediaSession h => unfold Session.readMediaSession; split <;> exact .quiet rfl (hset rfl)
  | @accept x c what h hopen =>
      cases what with
      | request =>
          refine .request x c h ?_ (fun hans => ?_) ⟨?_, rfl⟩ ?_ rfl fun y => ?_
          · simp only [Session.accept, setCall_apply, if_pos]
            split <;> trivial
          · simp only [Session.accept, setCall_apply, if_pos, hans]
          · simp only [Session.accept, setCall_apply, if_pos]
          · simp only [message, Session.accept, setCall_apply, if_pos]
          · simp only [Session.accept, setCall_apply]
            split <;> rfl
      | connect app => exact .connect c app.transportId rfl (hset rfl)
  | @receive x n json q h hrx hq =>
      obtain ⟨m, pc, heq, -⟩ := Session.answer_eq { s with requests := q } x json
      rw [heq]
      exact .quiet rfl (hgoto _ x pc rfl)
  | increment h hq => exact .quiet rfl fun _ => rfl
  | incrementAgain h hq => exact .quiet rfl fun _ => rfl
  | senderDropped h hq => exact .quiet rfl fun _ => rfl
  | timeout h hq => exact .quiet rfl fun _ => rfl
  | skipEvent h hbuf happ => exact .quiet rfl fun _ => rfl
  | _ => exact .quiet rfl (hgoto _ _ _ rfl)

/-! ## the senders of a queue -/

/-- Where a message comes from: a call whose request it is, or whoever sends CONNECT. -/
inductive From (serde : SerdeJson) (s : Session) : Option Nat → CastMessage → Prop
  | connect (tid : String) : From serde s none (connectMsg serde tid)
  | request (r : Nat) : From serde s (some r) (s.message r)

/-- The senders of the messages of one queue: each call is one of them when its request
has been accepted there, and only once. -/
structure Senders (serde : SerdeJson) (s : Session) (c : Nat) (senders : List (Option Nat)) :
    Prop where
  sent : List.Forall₂ (From serde s) senders (s.sent c)
  once : senders.reduceOption.Nodup
  accepted : ∀ r, r ∈ senders.reduceOption ↔ (s.calls r).acceptedOn = some c

/-- Every message accepted has its one sender, which has registered an id for it when it
waits for an answer. -/
structure Once (serde : SerdeJson) (s : Session) : Prop where
  accepted : Accepted s
  registered : ∀ r, (s.calls r).acceptedOn ≠ none → (s.calls r).op.reject = none ∧
    ((s.calls r).op.answered = true → ∃ id, (s.requests.request r).phase.id? = some id)
  senders : ∀ c, ∃ senders, Senders serde s c senders

theorem once_start : Once serde (start cfg) :=
  ⟨fun _ h => absurd rfl h, fun _ h => absurd rfl h,
    fun _ => ⟨[], .nil, List.nodup_nil, fun _ => by simp [start, Call.fresh]⟩⟩

/-- The messages already in a queue keep their senders. -/
theorem Once.kept (h : Once serde s) (hs : Step serde cfg s a s') {senders : List (Option Nat)}
    (hsenders : Senders serde s c senders) : List.Forall₂ (From serde s') senders (s.sent c) := by
  rw [List.forall₂_iff_zip]
  obtain ⟨hlength, hall⟩ := List.forall₂_iff_zip.1 hsenders.sent
  refine ⟨hlength, fun {sender msg} hmem => ?_⟩
  have hfrom := hall hmem
  have hsender := (List.of_mem_zip hmem).1
  cases hfrom with
  | connect tid => exact .connect tid
  | request r =>
      have hacc := (hsenders.accepted r).1 (List.reduceOption_mem_iff.2 hsender)
      rw [← message_of_step hs (h.accepted r (hacc ▸ Option.some_ne_none c))]
      exact .request r

theorem Once.step (h : Once serde s) (hp : Placed s) (hrefused : Refused s)
    (hs : Step serde cfg s a s') : Once serde s' := by
  have hpast (r : Nat) (hacc : (s.calls r).acceptedOn ≠ none) : CallPc.Past (s'.calls r).pc :=
    (past_of_step hs (h.accepted r hacc)).1
  have hregistered (r : Nat) (hacc : (s.calls r).acceptedOn ≠ none) :
      (s'.calls r).op.reject = none ∧ ((s'.calls r).op.answered = true →
        ∃ id, (s'.requests.request r).phase.id? = some id) := by
    obtain ⟨-, hop, hid⟩ := past_of_step hs (h.accepted r hacc)
    rw [hop, hid]
    exact h.registered r hacc
  have hsends := sends_of_step h.accepted hs
  cases hsends with
  | quiet hsent hacc =>
      refine ⟨fun r hr => hpast r (hacc r ▸ hr), fun r hr => hregistered r (hacc r ▸ hr),
        fun c => ?_⟩
      obtain ⟨senders, hsenders⟩ := h.senders c
      refine ⟨senders, ?_, hsenders.once, fun r => ?_⟩
      · rw [hsent]
        exact h.kept hs hsenders
      · rw [hacc]
        exact hsenders.accepted r
  | connect c' tid hsent hacc =>
      refine ⟨fun r hr => hpast r (hacc r ▸ hr), fun r hr => hregistered r (hacc r ▸ hr),
        fun c => ?_⟩
      obtain ⟨senders, hsenders⟩ := h.senders c
      have hkept := h.kept hs hsenders
      by_cases hc : c = c'
      · refine ⟨senders ++ [none], ?_, ?_, fun r => ?_⟩
        · rw [hsent, push_apply, if_pos hc, ← hc]
          exact List.rel_append hkept (.cons (.connect tid) .nil)
        · rw [List.reduceOption_append]
          simpa using hsenders.once
        · rw [List.reduceOption_append, hacc]
          simpa using hsenders.accepted r
      · refine ⟨senders, ?_, hsenders.once, fun r => ?_⟩
        · rw [hsent, push_apply, if_neg hc]
          exact hkept
        · rw [hacc]
          exact hsenders.accepted r
  | request r₀ c' hpc hpast' hwait hkeep hmessage hsent hacc =>
      have hnew (c : Nat) : (s.calls r₀).acceptedOn ≠ some c := by
        intro hsome
        have hp := h.accepted r₀ (hsome ▸ Option.some_ne_none c)
        rw [hpc] at hp
        exact hp
      refine ⟨fun r hr => ?_, fun r hr => ?_, fun c => ?_⟩
      · by_cases hr₀ : r = r₀
        · rw [hr₀]
          exact hpast'
        · rw [hacc, if_neg hr₀] at hr
          exact hpast r hr
      · by_cases hr₀ : r = r₀
        · rw [hr₀, hkeep.1, hkeep.2]
          have hallows := hp r₀
          rw [hpc] at hallows
          refine ⟨?_, fun hans => ?_⟩
          · by_contra hreject
            obtain hidle | ⟨result, hend⟩ := hrefused r₀ hreject
            · rw [hpc] at hidle
              cases hidle
            · rw [hpc] at hend
              cases hend
          · obtain ⟨id, hid⟩ := hallows hans
            exact ⟨id, by rw [hid]; rfl⟩
        · rw [hacc, if_neg hr₀] at hr
          exact hregistered r hr
      obtain ⟨senders, hsenders⟩ := h.senders c
      have hkept := h.kept hs hsenders
      by_cases hc : c = c'
      · refine ⟨senders ++ [some r₀], ?_, ?_, fun r => ?_⟩
        · rw [hsent, push_apply, if_pos hc, ← hc, ← hmessage]
          exact List.rel_append hkept (.cons (.request r₀) .nil)
        · rw [List.reduceOption_append, List.nodup_append]
          refine ⟨hsenders.once, by simp, fun x hx y hy => ?_⟩
          obtain rfl : y = r₀ := by simpa using hy
          rintro rfl
          exact hnew c ((hsenders.accepted x).1 hx)
        · rw [List.reduceOption_append, List.mem_append, hsenders.accepted, hacc, hc]
          by_cases hr₀ : r = r₀
          · simp [hr₀]
          · simp [hr₀]
      · refine ⟨senders, ?_, hsenders.once, fun r => ?_⟩
        · rw [hsent, push_apply, if_neg hc]
          exact hkept
        · rw [hsenders.accepted, hacc]
          split
          next hr₀ =>
            rw [hr₀]
            have hc' : c' ≠ c := Ne.symm hc
            simp [hnew c, hc']
          next => rfl

theorem once_of_run {ok : Session → SessionAct → Prop}
    (h : (system serde cfg).Run ok (start cfg) s) :
    Once serde s :=
  h.invariant_with (fun _ h => And.intro (placed_of_run h) (refused_of_run h)) once_start
    fun _ _ _ hj hi _ hs => hi.step hj.1 hj.2 (step_cases hs)

/-- **Requests are sent once**: over all connections, a write channel has accepted CONNECT
messages, and the requests of some calls, each of them once and on one connection. -/
theorem requests_sent_once (h : (system serde cfg).Reachable s) (c : Nat) :
    ∃ senders : List (Option Nat), List.Forall₂ (From serde s) senders (s.sent c) ∧
      senders.reduceOption.Nodup ∧
      ∀ r, r ∈ senders.reduceOption ↔ (s.calls r).acceptedOn = some c := by
  obtain ⟨senders, hsenders⟩ := (once_of_run h).senders c
  exact ⟨senders, hsenders.sent, hsenders.once, hsenders.accepted⟩

set_option maxRecDepth 8000 in
/-- The launch went over the first connection, and the request to the app over the next. -/
theorem requests_sent_once_reopened :
    ∃ s, (system launchSerde Lifecycle.autoCfg).exec (start Lifecycle.autoCfg)
        (launchActs ++ reopenActs ++ mediaStatusActs) = some s ∧
      ∃ senders : List (Option Nat), List.Forall₂ (From launchSerde s) senders (s.sent 1) ∧
        senders.reduceOption.Nodup ∧
        ∀ r, r ∈ senders.reduceOption ↔ (s.calls r).acceptedOn = some 1 := by
  have hrun := reachable_of_exec (M := system launchSerde Lifecycle.autoCfg)
    (launchActs ++ reopenActs ++ mediaStatusActs) rfl
  exact ⟨_, rfl, requests_sent_once hrun 1⟩

/-! ## the ids on the wire -/

/-- Tickets count from one. -/
def Ticketed (requests : Requests) : Prop :=
  ∀ r, (requests.request r).phase ≠ .idle → 0 < (requests.request r).ticket

theorem Ticketed.step {requests requests' : Requests} {b : TrackerAct} (h : Ticketed requests)
    (hs : Requests.Step requests b requests') : Ticketed requests' := by
  unfold Ticketed at h ⊢
  cases hs with
  | increment hp => grind
  | incrementAgain hp => grind
  | insert hp => grind
  | resolve id payload => grind
  | clear => grind
  | receive hp hrx => grind
  | senderDropped hp hrx => grind
  | timeout hp => grind
  | cleanup hp => grind

theorem ticketed_of_run {requests : Requests} (h : Requests.system.Reachable requests) :
    Ticketed requests :=
  h.invariant (fun _ hr => absurd rfl hr) fun _ _ _ hi _ hs => hi.step (Requests.step_cases hs)

theorem not_idle_of_id {requests : Requests} {id : UInt32}
    (hid : (requests.request r).phase.id? = some id) :
    (requests.request r).phase ≠ .idle := by
  intro hidle
  rw [hidle] at hid
  cases hid

/-- Before the counter has been through all ids, an id is the ticket of its request. -/
theorem ticket_of_id {requests : Requests} {id : UInt32} (hn : requests.Numbering)
    (hfew : requests.increments < 2 ^ 32) (hid : (requests.request r).phase.id? = some id) :
    id.toNat = (requests.request r).ticket := by
  have hnat := hn.id r id hid
  have hle := (hn.started r (not_idle_of_id hid)).2
  rwa [Nat.mod_eq_of_lt (by omega)] at hnat

/-- So no two requests have the same. -/
theorem eq_of_id {requests : Requests} {r' : Nat} {id : UInt32} (hn : requests.Numbering)
    (hfew : requests.increments < 2 ^ 32) (hid' : (requests.request r').phase.id? = some id)
    (hid : (requests.request r).phase.id? = some id) : r' = r := by
  refine hn.distinct r' r (not_idle_of_id hid') (not_idle_of_id hid) ?_
  rw [← ticket_of_id hn hfew hid', ← ticket_of_id hn hfew hid]

/-- What the users of a client call: its typed methods, and the two raw ones. -/
inductive Method (serde : SerdeJson) : Operation → Prop
  | typed {op : Operation} (h : Operation.Typed serde op) : Method serde op
  | raw (ns destination : String) (payload : Json) :
      Method serde (Operation.sendRaw serde ns destination payload)
  | rawNoReply (ns destination : String) (payload : Json) :
      Method serde (Operation.sendRawNoReply serde ns destination payload)

/-- The message is an object with this `requestId`. -/
def Carries (serde : SerdeJson) (msg : CastMessage) (id : UInt32) : Prop :=
  ∃ ns destination payload, msg = buildMessage ns senderId destination (serde.toString payload) ∧
    payload.get "requestId" = some (.ofU32 id)

theorem get_setRequestId (id : UInt32) (members : List (String × Json)) :
    (Json.object (Operation.setRequestId id members)).get "requestId" = some (.ofU32 id) := by
  unfold Operation.setRequestId
  split
  next hany =>
    induction members with
    | nil => cases hany
    | cons m members ih =>
        rw [List.map_cons]
        by_cases hm : m.1 = "requestId"
        · rw [if_pos hm, Media.get_cons, if_pos rfl]
        · rw [if_neg hm, Media.get_cons, if_neg (Ne.symm hm)]
          rw [List.any_cons, decide_eq_false hm, Bool.false_or] at hany
          exact ih hany
  next hany =>
    induction members with
    | nil => rfl
    | cons m members ih =>
        rw [List.any_cons, Bool.or_eq_true, not_or, decide_eq_true_eq] at hany
        rw [List.cons_append, Media.get_cons, if_neg (Ne.symm hany.1)]
        exact ih hany.2

/-- Every request of a method carries the id it is given. -/
theorem Method.carries {op : Operation} (h : Method serde op) (hreject : op.reject = none)
    (hans : op.answered = true) (id : UInt32) (target : Target) :
    Carries serde (op.message id target) id := by
  cases h with
  | typed htyped =>
      cases htyped with
      | close => cases hans
      | _ => exact ⟨_, _, _, rfl, rfl⟩
  | raw ns destination payload =>
      cases payload with
      | object members => exact ⟨_, _, _, rfl, get_setRequestId id members⟩
      | _ => cases hreject
  | rawNoReply ns destination payload => cases hans

/-- The users call the methods of the client. -/
def CallsMethods (serde : SerdeJson) (_ : Session) : SessionAct → Prop
  | .begin _ op => Method serde op
  | _ => True

theorem callsMethods_of (h : ∀ r op, a = .begin r op → Method serde op) :
    CallsMethods serde s a := by
  cases a with
  | begin r op => exact h r op rfl
  | _ => trivial

/-- Every call that has begun is one of a method. -/
def OfMethods (serde : SerdeJson) (s : Session) : Prop :=
  ∀ r, (s.calls r).pc = .idle ∨ Method serde (s.calls r).op

theorem OfMethods.step (h : OfMethods serde s) (hok : CallsMethods serde s a)
    (hs : Step serde cfg s a s') : OfMethods serde s' := by
  intro r
  by_cases hbegin : ∃ op, a = .begin r op
  · obtain ⟨op, rfl⟩ := hbegin
    cases hs with
    | begin hb hpc =>
        have hop : ((s.begin r op).calls r).op = op := by
          simp only [Session.begin, Function.update_self]
        rw [hop]
        exact .inr hok
  · by_cases hcall : a.call? = some r
    · rw [op_of_step hs hcall]
      rcases h r with hidle | hmethod
      · exact absurd hidle (begun_of_own hs hcall)
      · exact .inr hmethod
    · obtain ⟨hpc, hop⟩ := call_of_ne hs hcall fun op heq => hbegin ⟨op, heq⟩
      rw [hpc, hop]
      exact h r

theorem ofMethods_of_run (h : (system serde cfg).Run (CallsMethods serde) (start cfg) s) :
    OfMethods serde s :=
  h.invariant (fun _ => .inl rfl) fun _ _ _ hi hok hs => hi.step hok (step_cases hs)

/-- The id a call has registered. -/
def requestId (s : Session) (r : Nat) : UInt32 := (s.requests.request r).phase.id?.getD 0

/-- **No id twice**: as long as the counter has not been through all ids, a request that
was accepted on whatever connection carries the id of its call, which is not 0, and no
other such request carries the same. -/
theorem request_ids_distinct (h : (system serde cfg).Run (CallsMethods serde) (start cfg) s)
    (hfew : s.requests.increments < 2 ^ 32) (hacc : (s.calls r).acceptedOn ≠ none)
    (hans : (s.calls r).op.answered = true) :
    Carries serde (s.message r) (s.requestId r) ∧ s.requestId r ≠ 0 ∧
      ∀ r', (s.calls r').acceptedOn ≠ none → (s.calls r').op.answered = true →
        s.requestId r' = s.requestId r → r' = r := by
  have honce := once_of_run h
  have hnumbers := Requests.numbering_of_run (requests_run h)
  have hregistered {r : Nat} (hacc : (s.calls r).acceptedOn ≠ none)
      (hans : (s.calls r).op.answered = true) :
      (s.requests.request r).phase.id? = some (s.requestId r) := by
    obtain ⟨id, hid⟩ := (honce.registered r hacc).2 hans
    rw [requestId, hid, Option.getD_some]
  have hid := hregistered hacc hans
  refine ⟨?_, fun hzero => ?_, fun r' hacc' hans' heq => ?_⟩
  · have hmethod := (ofMethods_of_run h r).resolve_left fun hpc => by
      have hpast := honce.accepted r hacc
      rw [hpc] at hpast
      exact hpast
    exact hmethod.carries (honce.registered r hacc).1 hans _ _
  · have hticket := ticketed_of_run (requests_run h) r (not_idle_of_id hid)
    rw [← ticket_of_id hnumbers hfew hid, hzero] at hticket
    exact absurd hticket (by decide)
  · have hid' := hregistered hacc' hans'
    rw [heq] at hid'
    exact eq_of_id hnumbers hfew hid' hid

/-- The users of the launch and the reconnect call typed methods. -/
theorem callsMethods_reopened (ha : a ∈ launchActs ++ reopenActs ++ mediaStatusActs) :
    CallsMethods launchSerde s a := by
  refine callsMethods_of fun r op heq => ?_
  subst heq
  simp [launchActs, registerActs, reopenActs, Lifecycle.lostAndConnecting, mediaStatusActs] at ha
  rcases ha with ⟨-, rfl⟩ | ⟨-, rfl⟩
  · exact .typed (.launchApp "CC1AD845")
  · exact .typed .mediaStatus

set_option maxRecDepth 8000 in
theorem request_ids_distinct_reopened :
    ∃ s, (system launchSerde Lifecycle.autoCfg).exec (start Lifecycle.autoCfg)
        (launchActs ++ reopenActs ++ mediaStatusActs) = some s ∧
      Carries launchSerde (s.message 1) (s.requestId 1) ∧ s.requestId 1 ≠ 0 ∧
      ∀ r', (s.calls r').acceptedOn ≠ none → (s.calls r').op.answered = true →
        s.requestId r' = s.requestId 1 → r' = 1 := by
  have hrun : (system launchSerde Lifecycle.autoCfg).Run (CallsMethods launchSerde)
      (start Lifecycle.autoCfg) _ :=
    run_of_execIf_mem (p := fun _ _ => true) (launchActs ++ reopenActs ++ mediaStatusActs)
      (fun _ ha _ _ => callsMethods_reopened ha) rfl
  exact ⟨_, rfl, request_ids_distinct hrun (by decide : 2 < 2 ^ 32) (Option.some_ne_none 1) rfl⟩

end Oxicast.Session
