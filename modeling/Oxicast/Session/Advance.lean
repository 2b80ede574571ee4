import Oxicast.Session.Leak

/-!
# Oxicast.Session.Advance

What a call does by its own steps.

`Advance` says it in terms of the call alone: the point it is at and the phase its
request is in, before and after.  All other steps leave both as they are
(`call_of_ne`, `phase_of_other`), so an invariant of a single call is one case
analysis over its moves; `Placed`, the phases a request can be in where its call
is, is the first of them.
-/

namespace Oxicast.Session

open TransitionSystem

variable {serde : SerdeJson} {cfg : ClientConfig} {s s' : Session} {a : SessionAct} {r : Nat}

/-- Points at which a call can end by its own step. -/
def CallPc.MayEnd : CallPc → Prop
  | .readTransport | .readSession | .readMediaSession | .enqueue _ _ | .awaitApp _ | .storeSession _
  | .clearSession => True
  | _ => False

/-- A step of a call, other than a drop and an event it passes over. -/
inductive Advance (op : Operation) : CallPc → Phase → CallPc → Phase → Prop
  | readTransport {pc : CallPc} {p : Phase} (h : CallPc.AfterTransport op pc) :
      Advance op .readTransport p pc p
  | readSession {p : Phase} : Advance op .readSession p .register p
  | readMediaSession {p : Phase} : Advance op .readMediaSession p .register p
  | increment {p : Phase} (h : p = .skippingZero ∨ ∃ id, p = .allocated id) :
      Advance op .register .idle .register p
  | incrementAgain {id : UInt32} : Advance op .register .skippingZero .register (.allocated id)
  | insert {id : UInt32} : Advance op .register (.allocated id) (.send .request) (.registered id)
  | cloneWriteTx {what : Outgoing} {c : Nat} {p : Phase} :
      Advance op (.send what) p (.enqueue what c) p
  | acceptRequest {c : Nat} {p : Phase} (h : op.answered = true) :
      Advance op (.enqueue .request c) p .wait p
  | acceptConnect {app : Application} {c : Nat} {p : Phase} :
      Advance op (.enqueue (.connect app) c) p (.storeTransport app) p
  | receive {id : UInt32} {v : Json} {pc : CallPc} (h : CallPc.Answered pc)
      (hresult : pc ≠ .ended none) :
      Advance op .wait (.registered id) pc (.returned id (.ok v))
  | giveUp {id : UInt32} {err : Error} : Advance op .wait (.registered id) .wait (.cleanup id err)
  | cleanup {id : UInt32} {err : Error} :
      Advance op .wait (.cleanup id err) (.ended (some (.error err))) (.returned id (.error err))
  | appSeen {appId : String} {app : Application} {p : Phase} :
      Advance op (.awaitApp appId) p (.send (.connect app)) p
  | storeTransport {app : Application} {p : Phase} :
      Advance op (.storeTransport app) p (.storeSession app) p
  | clearTransport {p : Phase} : Advance op .clearTransport p .clearSession p
  | ends {pc : CallPc} {p : Phase} {result : Except Error Value} (h : CallPc.MayEnd pc) :
      Advance op pc p (.ended (some result)) p

section Ends

variable {op : Operation} {pc : CallPc} {p p' : Phase}

theorem Advance.ne_idle (h : Advance op pc p .idle p') : False := by
  cases h with
  | readTransport hafter => exact hafter
  | receive hans hresult => exact hans

theorem Advance.not_idle {pc' : CallPc} (h : Advance op .idle p pc' p') : False := by
  cases h with
  | ends hend => exact hend

theorem Advance.not_ended {result : Option (Except Error Value)} {pc' : CallPc}
    (h : Advance op (.ended result) p pc' p') : False := by
  cases h with
  | ends hend => exact hend

theorem Advance.has_result (h : Advance op pc p (.ended none) p') : False := by
  cases h with
  | readTransport hafter => exact hafter
  | receive hans hresult => exact hresult rfl

end Ends

/-- What a call does with its answer does not drop it. -/
theorem answer_has_result (s : Session) (r : Nat) (json : Json) :
    ((s.answer r json).calls r).pc ≠ .ended none := by
  rw [pc_answer]
  split
  · simp
  · split
    · simp
    · split <;> simp
    · simp

/-- A step of a call is one of `Advance`. -/
theorem advance_of_step (hs : Step serde cfg s a s') (hcall : a.call? = some r)
    (hdrop : a ≠ .drop r)
    (hskip : a ≠ .skipEvent r) :
    Advance (s.calls r).op (s.calls r).pc (s.requests.request r).phase (s'.calls r).pc
      (s'.requests.request r).phase := by
  cases hs with
  | life hb h => cases hcall
  | lifeReadTransport h => cases hcall
  | route h => cases hcall
  | begin hb h => cases hcall
  | readTransport h hfree =>
      cases hcall
      rw [requests_readTransport, h]
      obtain ⟨-, heq⟩ | ⟨tid, pc, -, hafter, heq⟩ := s.readTransport_eq r
      · rw [heq, calls_goto, if_pos rfl]
        exact .ends trivial
      · rw [heq]
        simp only [setCall_apply, if_pos]
        exact .readTransport hafter
  | readSession h =>
      cases hcall
      rw [requests_readSession, h]
      unfold Session.readSession
      split
      · rw [calls_goto, if_pos rfl]
        exact .ends trivial
      · simp only [setCall_apply, if_pos]
        exact .readSession
  | readMediaSession h =>
      cases hcall
      rw [requests_readMediaSession, h]
      unfold Session.readMediaSession
      split
      · simp only [setCall_apply, if_pos]
        exact .readMediaSession
      · rw [calls_goto, if_pos rfl]
        exact .ends trivial
  | increment h hq =>
      cases hcall
      rw [h]
      cases Requests.step_cases hq with
      | increment hp =>
          rw [hp]
          simp only [Requests.beginRegister, Requests.request_update, if_pos]
          refine .increment ?_
          split
          · exact .inl rfl
          · exact .inr ⟨_, rfl⟩
  | incrementAgain h hq =>
      cases hcall
      rw [h]
      cases Requests.step_cases hq with
      | incrementAgain hp =>
          rw [hp]
          simp only [Requests.skipZero, Requests.request_update, if_pos]
          exact .incrementAgain
  | insert h hq =>
      cases hcall
      rw [h]
      cases Requests.step_cases hq with
      | insert hp =>
          rw [hp, calls_goto, if_pos rfl, requests_goto]
          simp only [Requests.request_insert, if_pos]
          exact .insert
  | cloneWriteTx h =>
      cases hcall
      rw [h, calls_goto, if_pos rfl]
      exact .cloneWriteTx
  | @accept _ c what h hopen =>
      cases hcall
      rw [requests_accept, h]
      cases what with
      | request =>
          simp only [Session.accept, setCall_apply, if_pos]
          split
          next hans => exact .acceptRequest hans
          next => exact .ends trivial
      | connect app =>
          simp only [Session.accept, setCall_apply, if_pos]
          exact .acceptConnect
  | sendFailed h hopen =>
      cases hcall
      rw [h, calls_goto, if_pos rfl]
      exact .ends trivial
  | @receive _ n json q h hrx hq =>
      cases hcall
      rw [requests_answer, h]
      obtain ⟨m, pc, heq, hans⟩ := Session.answer_eq { s with requests := q } r json
      have hresult := Session.answer_has_result { s with requests := q } r json
      rw [heq, calls_goto, if_pos rfl] at hresult
      rw [heq, calls_goto, if_pos rfl]
      cases Requests.step_cases hq with
      | receive hp hrx =>
          rw [hp]
          simp only [Requests.request_update, if_pos]
          exact .receive hans hresult
  | senderDropped h hq =>
      cases hcall
      rw [h]
      cases Requests.step_cases hq with
      | senderDropped hp hrx =>
          rw [hp]
          simp only [Requests.request_update, if_pos]
          exact .giveUp
  | timeout h hq =>
      cases hcall
      rw [h]
      cases Requests.step_cases hq with
      | timeout hp =>
          rw [hp]
          simp only [Requests.request_update, if_pos]
          exact .giveUp
  | cleanup h hp hq =>
      cases hcall
      rw [h, hp]
      cases Requests.step_cases hq with
      | cleanup hp' =>
          obtain ⟨rfl, rfl⟩ := Phase.cleanup.inj (hp.symm.trans hp')
          rw [calls_goto, if_pos rfl, requests_goto]
          simp only [Requests.request_cleanup, if_pos]
          exact .cleanup
  | appSeen h hbuf happ =>
      cases hcall
      rw [h, calls_goto, if_pos rfl]
      exact .appSeen
  | skipEvent h hbuf happ =>
      cases hcall
      exact absurd rfl hskip
  | launchTimeout h =>
      cases hcall
      rw [h, calls_goto, if_pos rfl]
      exact .ends trivial
  | storeTransport h hfree =>
      cases hcall
      rw [h, calls_goto, if_pos rfl]
      exact .storeTransport
  | storeSession h =>
      cases hcall
      rw [h, calls_goto, if_pos rfl]
      exact .ends trivial
  | clearTransport h hfree =>
      cases hcall
      rw [h, calls_goto, if_pos rfl]
      exact .clearTransport
  | clearSession h =>
      cases hcall
      rw [h, calls_goto, if_pos rfl]
      exact .ends trivial
  | drop hidle hend =>
      cases hcall
      exact absurd rfl hdrop

/-- Only a call that has begun takes a step of its own. -/
theorem begun_of_own (hs : Step serde cfg s a s') (hcall : a.call? = some r) :
    (s.calls r).pc ≠ .idle := by
  intro hidle
  by_cases hdrop : a = .drop r
  · subst hdrop
    cases hs with
    | drop hne hend => exact hne hidle
  by_cases hskip : a = .skipEvent r
  · subst hskip
    cases hs with
    | skipEvent hpc hbuf happ =>
        rw [hidle] at hpc
        cases hpc
  have hadv := advance_of_step hs hcall hdrop hskip
  rw [hidle] at hadv
  exact hadv.not_idle

/-- The steps of the others leave a request in its phase. -/
theorem phase_of_other (hs : Step serde cfg s a s') (hcall : a.call? ≠ some r) :
    (s'.requests.request r).phase = (s.requests.request r).phase := by
  cases hs with
  | life hb h => exact phase_requestsAfter s _ r
  | route h => rw [requests_route, phase_resolved]
  | increment h hq => exact (Requests.step_cases hq).phase_of_ne hcall
  | incrementAgain h hq => exact (Requests.step_cases hq).phase_of_ne hcall
  | insert h hq => exact (Requests.step_cases hq).phase_of_ne hcall
  | receive h hrx hq =>
      rw [requests_answer]
      exact (Requests.step_cases hq).phase_of_ne hcall
  | senderDropped h hq => exact (Requests.step_cases hq).phase_of_ne hcall
  | timeout h hq => exact (Requests.step_cases hq).phase_of_ne hcall
  | cleanup h hp hq => exact (Requests.step_cases hq).phase_of_ne hcall
  | readTransport h hfree => rw [requests_readTransport]
  | readSession h => rw [requests_readSession]
  | readMediaSession h => rw [requests_readMediaSession]
  | accept h hopen => rw [requests_accept]
  | _ => rfl

/-- A call keeps its operation. -/
theorem op_of_step (hs : Step serde cfg s a s') (hcall : a.call? = some r) :
    (s'.calls r).op = (s.calls r).op := by
  cases hs with
  | life hb h => cases hcall
  | lifeReadTransport h => cases hcall
  | route h => cases hcall
  | begin hb h => cases hcall
  | readTransport h hfree =>
      obtain ⟨-, heq⟩ | ⟨tid, pc, -, -, heq⟩ := s.readTransport_eq r <;> cases hcall <;> rw [heq]
      · rw [calls_goto, if_pos rfl]
      · simp only [setCall_apply, if_pos]
  | readSession h =>
      cases hcall
      unfold Session.readSession
      split <;> simp only [goto, setCall_apply, if_pos]
  | readMediaSession h =>
      cases hcall
      unfold Session.readMediaSession
      split <;> simp only [goto, setCall_apply, if_pos]
  | @accept _ c what h hopen =>
      cases hcall
      obtain ⟨msg, f, heq, hop, -⟩ := accept_eq serde s r c what
      rw [heq]
      simp only [setCall_apply, if_pos]
      exact hop
  | @receive _ n json q h hrx hq =>
      cases hcall
      obtain ⟨m, pc, heq, -⟩ := Session.answer_eq { s with requests := q } r json
      rw [heq, calls_goto, if_pos rfl]
  | increment h hq => rfl
  | incrementAgain h hq => rfl
  | senderDropped h hq => rfl
  | timeout h hq => rfl
  | skipEvent h hbuf happ => rfl
  | _ => cases hcall; rw [calls_goto, if_pos rfl]

/-- What has ended stays so. -/
theorem ended_of_step {result : Option (Except Error Value)} (hs : Step serde cfg s a s')
    (hend : (s.calls r).pc = .ended result) : (s'.calls r).pc = .ended result := by
  by_cases hcall : a.call? = some r
  · by_cases hdrop : a = .drop r
    · subst hdrop
      cases hs with
      | drop hidle hne => exact absurd hend (hne result)
    by_cases hskip : a = .skipEvent r
    · subst hskip
      cases hs with
      | skipEvent hpc hbuf happ => exact hend
    have hadv := advance_of_step hs hcall hdrop hskip
    rw [hend] at hadv
    exact hadv.not_ended.elim
  · have hbegin (op : Operation) : a ≠ .begin r op := by
      rintro rfl
      cases hs with
      | begin hb hpc =>
          rw [hpc] at hend
          contradiction
    rw [(call_of_ne hs hcall hbegin).1, hend]

/-! ## where a call's request stands -/

/-- The phases the request of a call can be in at a point. -/
def CallPc.Allows (op : Operation) : CallPc → Phase → Prop
  | .idle, p | .readTransport, p | .readSession, p | .readMediaSession, p => p = .idle
  | .register, p => p = .idle ∨ p = .skippingZero ∨ ∃ id, p = .allocated id
  | .send .request, p | .enqueue .request _, p => op.answered = true → ∃ id, p = .registered id
  | .wait, p => (∃ id, p = .registered id) ∨ ∃ id err, p = .cleanup id err
  | _, _ => True

theorem Advance.allowed {op : Operation} {pc pc' : CallPc} {p p' : Phase}
    (h : Advance op pc p pc' p')
    (hp : CallPc.Allows op pc p) : CallPc.Allows op pc' p' := by
  cases h with
  | readTransport hafter =>
      cases pc' with
      | readSession => exact hp
      | readMediaSession => exact hp
      | register => exact .inl hp
      | _ => exact hafter.elim
  | readSession => exact .inl hp
  | readMediaSession => exact .inl hp
  | increment hnew => exact .inr hnew
  | incrementAgain => exact .inr (.inr ⟨_, rfl⟩)
  | insert => exact fun _ => ⟨_, rfl⟩
  | @cloneWriteTx what c p =>
      cases what with
      | request => exact hp
      | connect app => trivial
  | acceptRequest hans => exact .inl (hp hans)
  | receive hans hresult =>
      cases pc' with
      | send what =>
          cases what with
          | request => exact hans.elim
          | connect app => trivial
      | awaitApp appId => trivial
      | clearTransport => trivial
      | ended result => trivial
      | _ => exact hans.elim
  | giveUp => exact .inr ⟨_, _, rfl⟩
  | _ => trivial

/-- Every request is in a phase its call allows. -/
def Placed (s : Session) : Prop :=
  ∀ r, CallPc.Allows (s.calls r).op (s.calls r).pc (s.requests.request r).phase

theorem CallPc.Begun.allows {op : Operation} {pc : CallPc} (h : CallPc.Begun op pc) :
    CallPc.Allows op pc .idle := by
  cases pc with
  | readTransport => rfl
  | register => exact .inl rfl
  | send what =>
      cases what with
      | request => exact fun hans => Bool.noConfusion (hans.symm.trans h.2)
      | connect app => trivial
  | ended result => trivial
  | _ => exact h.elim

theorem Placed.step (hp : Progress s) (h : Placed s) (hs : Step serde cfg s a s') : Placed s' := by
  intro r
  by_cases hcall : a.call? = some r
  · have hop := op_of_step hs hcall
    by_cases hdrop : a = .drop r
    · subst hdrop
      cases hs with
      | drop hidle hend =>
          rw [calls_goto, if_pos rfl]
          trivial
    by_cases hskip : a = .skipEvent r
    · subst hskip
      cases hs with
      | skipEvent hpc hbuf happ => exact h r
    rw [hop]
    exact (advance_of_step hs hcall hdrop hskip).allowed (h r)
  · by_cases hbegin : ∃ op, a = .begin r op
    · obtain ⟨op, rfl⟩ := hbegin
      cases hs with
      | begin hb hpc =>
          obtain ⟨pc, heq, hbegun⟩ := begin_eq s r op
          rw [heq]
          simp only [setCall_apply, if_pos]
          rw [hp.idle r hpc]
          exact hbegun.allows
    · obtain ⟨hpc, hop⟩ := call_of_ne hs hcall fun op heq => hbegin ⟨op, heq⟩
      rw [hpc, hop, phase_of_other hs hcall]
      exact h r

theorem placed_of_run {ok : Session → SessionAct → Prop}
    (h : (system serde cfg).Run ok (start cfg) s) :
    Placed s :=
  h.invariant_with (fun _ => progress_of_run) (fun _ => rfl)
    fun _ _ _ hp hi _ hs => hi.step hp (step_cases hs)

end Oxicast.Session
