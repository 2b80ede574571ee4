import Oxicast.Lifecycle.Disconnect
import Oxicast.Session.Invariant

/-!
# Oxicast.Session.Leak

Who owns the entries of the pending map.

The cleanup of an entry lives in `wait_for`, so an operation that ends before
or inside it — a failed send, a dropped future — leaves its entry behind,
unless an answer or a `clear` has taken it out already.  In every run without
such ends every entry belongs to an operation that is still under way.
-/

namespace Oxicast.Session

open TransitionSystem

variable {serde : SerdeJson} {cfg : ClientConfig} {s s' : Session} {a : SessionAct} {r : Nat}

/-- The call is between the insert of its entry and the end of `wait_for`. -/
def CallPc.MayHold : CallPc → Prop
  | .send .request | .enqueue .request _ | .wait => True
  | _ => False

/-- The call reads its cells or registers. -/
def CallPc.Registering : CallPc → Prop
  | .readTransport | .readSession | .readMediaSession | .register => True
  | _ => False

/-- The call has returned or was dropped. -/
def Ended (s : Session) (r : Nat) : Prop := ∃ result, (s.calls r).pc = .ended result

/-- No operation ends by a failed send or a dropped future while its entry is in
the map. -/
def Clean (s : Session) : SessionAct → Prop
  | .sendFailed r | .drop r => ∀ k, s.requests.tracker.pending k ≠ some r
  | _ => True

/-- How far a call's request has got by the point the call has reached. -/
structure Progress (s : Session) : Prop where
  idle : ∀ r, (s.calls r).pc = .idle → (s.requests.request r).phase = .idle
  registering : ∀ r, CallPc.Registering (s.calls r).pc → (s.calls r).op.answered = true
  silent : ∀ r, (s.calls r).op.answered = false → (s.requests.request r).phase = .idle

theorem progress_start : Progress (start cfg) := by
  constructor <;>
    simp [start, Call.fresh, Requests.new, Request.fresh, Operation.receiverStatus,
      CallPc.Registering]

/-- A call goes on; one that comes to register waits for an answer. -/
theorem Progress.move {f : Call → Call} (h : Progress s) (hop : (f (s.calls r)).op = (s.calls r).op)
    (hidle : (f (s.calls r)).pc ≠ .idle)
    (hpc : CallPc.Registering (f (s.calls r)).pc → (s.calls r).op.answered = true) :
    Progress { s with calls := s.setCall r f } := by
  obtain ⟨idle, registering, silent⟩ := h
  refine ⟨fun x hx => ?_, fun x hx => ?_, fun x hx => ?_⟩
  · simp only [setCall_apply] at hx
    split at hx
    · exact absurd hx hidle
    · exact idle x hx
  · simp only [setCall_apply] at hx ⊢
    split at hx
    next hr => rw [if_pos hr, hop]; exact hpc hx
    next hr => rw [if_neg hr]; exact registering x hx
  · simp only [setCall_apply] at hx
    split at hx
    next hr => subst hr; exact silent x (hop ▸ hx)
    next => exact silent x hx

/-- A call goes on, to a point after its registration. -/
theorem Progress.goto {pc : CallPc} (h : Progress s) (hidle : pc ≠ .idle)
    (hpc : ¬ CallPc.Registering pc) : Progress (s.goto r pc) :=
  h.move rfl hidle fun hreg => absurd hreg hpc

/-- What has registered waits for an answer. -/
theorem Progress.answered (h : Progress s) (hp : (s.requests.request r).phase ≠ .idle) :
    (s.calls r).op.answered = true := by
  cases hans : (s.calls r).op.answered with
  | true => rfl
  | false => exact absurd (h.silent r hans) hp

/-- A call that is beyond its start takes a step of its request. -/
theorem Progress.request {b : TrackerAct} {q : Requests} (h : Progress s)
    (hq : Requests.Step s.requests b q)
    (hb : ∀ x, b.request? = some x → (s.calls x).pc ≠ .idle ∧ (s.calls x).op.answered = true) :
    Progress { s with requests := q } := by
  obtain ⟨idle, registering, silent⟩ := h
  refine ⟨fun x hx => ?_, registering, fun x hx => ?_⟩
  · exact (hq.phase_of_ne fun hr => (hb x hr).1 hx).trans (idle x hx)
  · refine (hq.phase_of_ne fun hr => ?_).trans (silent x hx)
    exact Bool.noConfusion (hx.symm.trans (hb x hr).2)

/-- A call that starts by reading or registering waits for an answer. -/
theorem CallPc.Begun.answered {op : Operation} {pc : CallPc} (h : CallPc.Begun op pc)
    (hpc : CallPc.Registering pc) : op.answered = true := by
  cases pc with
  | readTransport =>
      cases hans : op.answered with
      | true => rfl
      | false => exact absurd (op.silent hans) h
  | register => exact h.2
  | readSession => exact h.elim
  | readMediaSession => exact h.elim
  | _ => exact hpc.elim

theorem Progress.step (h : Progress s) (hs : Step serde cfg s a s') : Progress s' := by
  have hh := h
  obtain ⟨idle, registering, silent⟩ := h
  cases hs with
  | life hb h =>
      refine ⟨fun x hx => ?_, fun x hx => ?_, fun x hx => ?_⟩
      · simp only [afterLife, pc_callsAfter, phase_requestsAfter] at hx ⊢; exact idle x hx
      · simp only [afterLife, pc_callsAfter, op_callsAfter] at hx ⊢; exact registering x hx
      · simp only [afterLife, op_callsAfter, phase_requestsAfter] at hx ⊢; exact silent x hx
  | lifeReadTransport h => exact ⟨idle, registering, silent⟩
  | route h =>
      refine ⟨fun x hx => ?_, registering, fun x hx => ?_⟩
      · rw [requests_route, phase_resolved]; exact idle x hx
      · rw [requests_route, phase_resolved]; exact silent x hx
  | @begin r op hb h =>
      obtain ⟨pc, heq, hpc⟩ := Session.begin_eq s r op
      rw [heq]
      refine ⟨fun x hx => ?_, fun x hx => ?_, fun x hx => ?_⟩ <;>
        simp only [setCall_apply] at hx ⊢ <;> split at hx
      next hr => rw [hr]; exact idle r h
      next => exact idle x hx
      next hr => rw [if_pos hr]; exact hpc.answered hx
      next hr => rw [if_neg hr]; exact registering x hx
      next hr => rw [hr]; exact idle r h
      next => exact silent x hx
  | @readTransport r h hfree =>
      have hans := registering r (by simp [h, CallPc.Registering])
      unfold Session.readTransport
      split
      · exact hh.goto (by simp) id
      · exact hh.move rfl (by dsimp only; split <;> simp) fun _ => hans
  | @readSession r h =>
      have hans := registering r (by simp [h, CallPc.Registering])
      unfold Session.readSession
      split
      · exact hh.goto (by simp) id
      · exact hh.move rfl (by simp) fun _ => hans
  | @readMediaSession r h =>
      have hans := registering r (by simp [h, CallPc.Registering])
      unfold Session.readMediaSession
      split
      · exact hh.move rfl (by simp) fun _ => hans
      · exact hh.goto (by simp) id
  | increment h hq =>
      refine hh.request (Requests.step_cases hq) ?_
      rintro x ⟨⟩
      exact ⟨by simp [h], registering _ (by simp [h, CallPc.Registering])⟩
  | incrementAgain h hq =>
      refine hh.request (Requests.step_cases hq) ?_
      rintro x ⟨⟩
      exact ⟨by simp [h], registering _ (by simp [h, CallPc.Registering])⟩
  | insert h hq =>
      refine (hh.request (Requests.step_cases hq) ?_).goto (by simp) id
      rintro x ⟨⟩
      exact ⟨by simp [h], registering _ (by simp [h, CallPc.Registering])⟩
  | cloneWriteTx h => exact hh.goto (by simp) id
  | @accept r c what h hopen =>
      cases what with
      | request =>
          have hmove := @Progress.move s r (fun call =>
            { call with
              acceptedOn := some c
              pc := if call.op.answered then .wait else .ended (some (.ok .unit)) }) hh rfl
            (by dsimp only; split <;> simp) (by dsimp only; split <;> exact False.elim)
          exact ⟨hmove.idle, hmove.registering, hmove.silent⟩
      | connect app =>
          have hmove := @Progress.move s r (fun call =>
            { call with connectedOn := some c, pc := .storeTransport app }) hh rfl (by simp)
              False.elim
          exact ⟨hmove.idle, hmove.registering, hmove.silent⟩
  | sendFailed h hopen => exact hh.goto (by simp) id
  | @receive r n json q h hrx hq =>
      obtain ⟨m, pc, heq, hpc⟩ := Session.answer_eq { s with requests := q } r json
      have hstep := Requests.step_cases hq
      have hreq := hh.request hstep
        (by rintro x ⟨⟩; exact ⟨by simp [h], hh.answered (by cases hstep; simp_all)⟩)
      rw [heq]
      refine Progress.goto ⟨hreq.idle, hreq.registering, hreq.silent⟩ ?_ ?_
      · rintro rfl; exact hpc
      · cases pc <;> first | exact id | exact hpc.elim
  | senderDropped h hq =>
      have hstep := Requests.step_cases hq
      refine hh.request hstep ?_
      rintro x ⟨⟩
      exact ⟨by simp [h], hh.answered (by cases hstep; simp_all)⟩
  | timeout h hq =>
      have hstep := Requests.step_cases hq
      refine hh.request hstep ?_
      rintro x ⟨⟩
      exact ⟨by simp [h], hh.answered (by cases hstep; simp_all)⟩
  | cleanup h hp hq =>
      refine (hh.request (Requests.step_cases hq) ?_).goto (by simp) id
      rintro x ⟨⟩
      exact ⟨by simp [h], hh.answered (by simp [hp])⟩
  | appSeen h hbuf happ =>
      refine Progress.goto ⟨idle, registering, silent⟩ (by simp) id
  | skipEvent h hbuf happ => exact ⟨idle, registering, silent⟩
  | launchTimeout h => exact hh.goto (by simp) id
  | storeTransport h hfree => exact Progress.goto ⟨idle, registering, silent⟩ (by simp) id
  | storeSession h => exact Progress.goto ⟨idle, registering, silent⟩ (by simp) id
  | clearTransport h hfree => exact Progress.goto ⟨idle, registering, silent⟩ (by simp) id
  | clearSession h => exact Progress.goto ⟨idle, registering, silent⟩ (by simp) id
  | drop hidle hend => exact hh.goto (by simp) id

theorem progress_of_run {ok : Session → SessionAct → Prop}
    (h : (system serde cfg).Run ok (start cfg) s) : Progress s :=
  h.invariant progress_start fun _ _ _ hi _ hs => hi.step (step_cases hs)

/-- Every entry belongs to a call between its insert and the end of `wait_for`. -/
def Owned (s : Session) : Prop :=
  ∀ k r, s.requests.tracker.pending k = some r → CallPc.MayHold (s.calls r).pc

/-- A call elsewhere has no entry. -/
theorem Owned.not_pending (h : Owned s) (hpc : ¬ CallPc.MayHold (s.calls r).pc) (k : UInt32) :
    s.requests.tracker.pending k ≠ some r := fun hp => hpc (h k r hp)

/-- No entry is new, and nobody moves. -/
theorem Owned.shrink (h : Owned s)
    (hpending : ∀ k x, s'.requests.tracker.pending k = some x →
      s.requests.tracker.pending k = some x)
    (hpc : ∀ x, (s'.calls x).pc = (s.calls x).pc) : Owned s' := by
  intro k x hx
  rw [hpc]
  exact h k x (hpending k x hx)

/-- A call goes on that has no entry, or may go on with it. -/
theorem Owned.move {f : Call → Call} (h : Owned s)
    (hf : (∀ k, s.requests.tracker.pending k ≠ some r) ∨ CallPc.MayHold (f (s.calls r)).pc) :
    Owned { s with calls := s.setCall r f } := by
  intro k x hx
  simp only [setCall_apply]
  split
  next heq =>
    rcases hf with hnone | hmay
    · exact absurd (heq ▸ hx) (hnone k)
    · exact hmay
  next => exact h k x hx

theorem Owned.goto {pc : CallPc} (h : Owned s)
    (hpc : (∀ k, s.requests.tracker.pending k ≠ some r) ∨ CallPc.MayHold pc) :
    Owned (s.goto r pc) := h.move hpc

/-- A call leaves a point at which it has no entry. -/
theorem Owned.leave {pc : CallPc} (h : Owned s) (hpc : ¬ CallPc.MayHold (s.calls r).pc) :
    Owned (s.goto r pc) := h.goto (.inl (h.not_pending hpc))

/-- What its request has given up, the call has no entry for. -/
theorem not_pending_of_filed {q : Requests} (hf : q.Filing) (hq : (q.request r).phase.filed? = none)
    (k : UInt32) : q.tracker.pending k ≠ some r := by
  intro hp
  rw [hf.owner k r hp] at hq
  contradiction

theorem Owned.step (h : Owned s) (hp : Progress s) (hf : s.requests.Filing)
    (hf' : s'.requests.Filing)
    (hok : Clean s a) (hs : Step serde cfg s a s') : Owned s' := by
  have hh := h
  cases hs with
  | life hb h =>
      refine hh.shrink (fun k x hx => pending_of_requestsAfter hx) fun x => ?_
      rw [afterLife, pc_callsAfter]
  | lifeReadTransport h => exact hh
  | route h =>
      refine hh.shrink (fun k x hx => ?_) fun _ => rfl
      rw [requests_route] at hx
      exact pending_of_resolved hx
  | @begin r op hb h =>
      obtain ⟨pc, heq, -⟩ := Session.begin_eq s r op
      rw [heq]
      exact hh.move (.inl (hh.not_pending (by rw [h]; exact id)))
  | @readTransport r h hfree =>
      have hnone := hh.not_pending (r := r) (by rw [h]; exact id)
      obtain ⟨-, heq⟩ | ⟨tid, pc, -, -, heq⟩ := s.readTransport_eq r
      · rw [heq]; exact hh.goto (.inl hnone)
      · rw [heq]; exact hh.move (.inl hnone)
  | @readSession r h =>
      have hnone := hh.not_pending (r := r) (by rw [h]; exact id)
      unfold Session.readSession
      split
      · exact hh.goto (.inl hnone)
      · exact hh.move (.inl hnone)
  | @readMediaSession r h =>
      have hnone := hh.not_pending (r := r) (by rw [h]; exact id)
      unfold Session.readMediaSession
      split
      · exact hh.move (.inl hnone)
      · exact hh.goto (.inl hnone)
  | increment h hq => cases Requests.step_cases hq; exact hh
  | incrementAgain h hq => cases Requests.step_cases hq; exact hh
  | @insert r q h hq =>
      cases Requests.step_cases hq with
      | @insert _ id hid =>
          intro k x hx
          rw [calls_goto]
          split
          next => trivial
          next hne =>
            rw [requests_goto, Requests.tracker_insert, RequestTracker.pending_insert] at hx
            split at hx
            next => exact absurd (Option.some.inj hx).symm hne
            next => exact hh k x hx
  | @cloneWriteTx r what h =>
      cases what with
      | request => exact hh.goto (.inr trivial)
      | connect app => exact hh.leave (by rw [h]; exact id)
  | @accept r c what h hopen =>
      cases what with
      | connect app => exact Owned.move hh (.inl (hh.not_pending (by rw [h]; exact id)))
      | request =>
          refine Owned.move hh ?_
          cases hans : (s.calls r).op.answered with
          | true => exact .inr (by simp [CallPc.MayHold])
          | false =>
              refine .inl (not_pending_of_filed hf ?_)
              rw [hp.silent r hans]
              rfl
  | sendFailed h hopen => exact hh.goto (.inl hok)
  | @receive r n json q h hrx hq =>
      obtain ⟨m, pc, heq, hpc⟩ := Session.answer_eq { s with requests := q } r json
      rw [requests_answer] at hf'
      rw [heq]
      cases Requests.step_cases hq with
      | receive hid _ =>
          refine Owned.goto hh (.inl (not_pending_of_filed hf' ?_))
          rw [Requests.request_update, if_pos rfl]
          rfl
  | senderDropped h hq => cases Requests.step_cases hq; exact hh
  | timeout h hq => cases Requests.step_cases hq; exact hh
  | @cleanup r id err q h hid hq =>
      cases Requests.step_cases hq with
      | @cleanup _ id' err' hid' =>
          have hshrink : Owned { s with requests := s.requests.cleanup r id' err' } := by
            refine hh.shrink (fun k x hx => ?_) fun _ => rfl
            simp only [Requests.tracker_cleanup, RequestTracker.pending_remove] at hx
            split at hx
            next => contradiction
            next => exact hx
          refine hshrink.goto (.inl (not_pending_of_filed hf' ?_))
          simp only [Requests.request_cleanup, if_true]
          rfl
  | appSeen h hbuf happ => exact Owned.leave hh (by rw [h]; exact id)
  | skipEvent h hbuf happ => exact hh
  | launchTimeout h => exact hh.leave (by rw [h]; exact id)
  | storeTransport h hfree => exact Owned.leave hh (by rw [h]; exact id)
  | storeSession h => exact Owned.leave hh (by rw [h]; exact id)
  | clearTransport h hfree => exact Owned.leave hh (by rw [h]; exact id)
  | clearSession h => exact Owned.leave hh (by rw [h]; exact id)
  | drop hidle hend => exact hh.goto (.inl hok)

theorem owned_of_run (h : (system serde cfg).Run Clean (start cfg) s) : Owned s := by
  induction h with
  | refl => simp [Owned, start, Requests.new, RequestTracker.new]
  | tail hrun hok hstep ih =>
      exact ih.step (progress_of_run hrun) (filing_of_run hrun)
        (filing_of_run (.tail hrun hok hstep)) hok (step_cases hstep)

/-! ## no leak -/

/-- **No entry is leaked**: in every run in which no operation ends by a failed
send or a dropped future with its entry in the map, an operation that has ended
has none; what is filed under its id then is the entry of another operation
under way that was given the same id after the counter had wrapped. -/
theorem no_leak (h : (system serde cfg).Run Clean (start cfg) s) (hend : s.Ended r) (k : UInt32)
    (_ : (s.requests.request r).phase.id? = some k) :
    s.requests.tracker.pending k = none ∨
      ∃ x, x ≠ r ∧ s.requests.tracker.pending k = some x ∧ ¬ s.Ended x := by
  cases hp : s.requests.tracker.pending k with
  | none => exact .inl rfl
  | some x =>
      have hholds := owned_of_run h k x hp
      have hunder : ¬ s.Ended x := by
        rintro ⟨result, hx⟩
        simp [hx, CallPc.MayHold] at hholds
      exact .inr ⟨x, fun hx => hunder (hx ▸ hend), rfl, hunder⟩

/-- The condition is exact: the step that breaks it leaves an entry behind. -/
theorem leak_of_unclean (hs : s.step serde cfg a = some s') (hbad : ¬ Clean s a) :
    ∃ r k, s'.Ended r ∧ s'.requests.tracker.pending k = some r := by
  cases step_cases hs with
  | @sendFailed r c what h hopen =>
      obtain ⟨k, hk⟩ : ∃ k, s.requests.tracker.pending k = some r := by simpa [Clean] using hbad
      exact ⟨r, k, ⟨_, by rw [calls_goto, if_pos rfl]⟩, hk⟩
  | @drop r hidle hend =>
      obtain ⟨k, hk⟩ : ∃ k, s.requests.tracker.pending k = some r := by simpa [Clean] using hbad
      exact ⟨r, k, ⟨_, by rw [calls_goto, if_pos rfl]⟩, hk⟩
  | _ => exact absurd trivial hbad

def cleanTest (_ : Session) : SessionAct → Bool
  | .sendFailed _ | .drop _ => false
  | _ => true

theorem clean_of_test (h : cleanTest s a = true) : Clean s a := by
  cases a with
  | sendFailed r => simp [cleanTest] at h
  | drop r => simp [cleanTest] at h
  | _ => trivial

/-- The client is built and operation 0 has registered the id 1. -/
def registerActs (op : Operation) : List SessionAct :=
  [.life .builderSent, .life .builderDone, .begin 0 op, .increment 0, .insert 0, .cloneWriteTx 0]

/-- The schedule of a raw request and its answer. -/
def answeredActs : List SessionAct :=
  registerActs (.sendRaw (Router.answerSerde "STATE") Router.appNs "web-1" (.object [])) ++
    [.accept 0, .route 0 (Router.answerMsg Router.appNs "STATE"), .receive 0]

/-- The answer has been taken, and the entry with it. -/
theorem no_leak_answered :
    ∃ s, (system (Router.answerSerde "STATE") Lifecycle.autoCfg).execIf cleanTest
        (start Lifecycle.autoCfg) answeredActs = some s ∧
      (s.requests.tracker.pending 1 = none ∨
        ∃ x, x ≠ 0 ∧ s.requests.tracker.pending 1 = some x ∧ ¬ s.Ended x) := by
  refine ⟨_, rfl, ?_⟩
  exact @no_leak (Router.answerSerde "STATE") Lifecycle.autoCfg _ 0
    (run_of_execIf answeredActs (fun _ _ => clean_of_test) rfl) ⟨_, rfl⟩ 1 rfl

/-- The send of a GET_STATUS fails on a dead connection; its entry stays. -/
theorem entry_leaked :
    ¬ ∀ (serde : SerdeJson) (cfg : ClientConfig) (s : Session) (r : Nat) (k : UInt32),
    (system serde cfg).Reachable s → s.Ended r → (s.requests.request r).phase.id? = some k →
    s.requests.tracker.pending k = none := by
  intro h
  have hgone := h (Router.answerSerde "STATE") Lifecycle.autoCfg _ 0 1 (reachable_of_exec
    (registerActs (.receiverStatus (Router.answerSerde "STATE")) ++
      [.life (.fail 0 .writer none), .life (.publishLoss 0 .writer), .sendFailed 0]) rfl)
        ⟨_, rfl⟩ rfl
  exact absurd hgone (by decide)

end Oxicast.Session
