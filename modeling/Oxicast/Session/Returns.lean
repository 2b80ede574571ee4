import Oxicast.Liveness
import Oxicast.Session.ConnectFirst
import Oxicast.Session.Advance

/-!
# Oxicast.Session.Returns

Every operation returns.

A reconnect sends CONNECT to the recorded transport with the lock of `transport_id`
in its hand, and a call that reads or writes `transport_id` waits for it meanwhile.
Nobody else holds that lock over a wait, so it is free again and again; a call makes
at most fourteen moves, one of which is always open to it when the lock is free.

A send waits for room in the channel of its connection, and no timeout ends this wait:
that the writer makes room, or the channel closes, is an assumption about the network
beside the fairness of the scheduler (`CallFair`).
-/

namespace Oxicast.Session

open TransitionSystem

variable {serde : SerdeJson} {cfg : ClientConfig} {s s' : Session} {a : SessionAct} {r : Nat}

/-- How many moves a call has still ahead at most. -/
def CallPc.left : CallPc → Phase → Nat
  | .readTransport, _ => 14
  | .readSession, _ | .readMediaSession, _ => 13
  | .register, .idle => 12
  | .register, .skippingZero => 11
  | .register, _ => 10
  | .send .request, _ => 9
  | .enqueue .request _, _ => 8
  | .wait, .registered _ => 7
  | .wait, _ => 6
  | .awaitApp _, _ => 5
  | .send (.connect _), _ => 4
  | .enqueue (.connect _) _, _ => 3
  | .storeTransport _, _ | .clearTransport, _ => 2
  | .storeSession _, _ | .clearSession, _ => 1
  | .idle, _ | .ended _, _ => 0

theorem CallPc.left_answered {pc : CallPc} (h : CallPc.Answered pc) (p : Phase) :
    CallPc.left pc p ≤ 5 := by
  cases pc with
  | send what =>
      cases what with
      | request => exact h.elim
      | connect app => exact (by decide : 4 ≤ 5)
  | awaitApp appId => exact Nat.le_refl 5
  | clearTransport => exact (by decide : 2 ≤ 5)
  | ended result => exact Nat.zero_le 5
  | _ => exact h.elim

/-- A move leaves fewer of them. -/
theorem Advance.left_lt {op : Operation} {pc pc' : CallPc} {p p' : Phase}
    (h : Advance op pc p pc' p')
    (hp : CallPc.Allows op pc p) : CallPc.left pc' p' < CallPc.left pc p := by
  cases h with
  | readTransport hafter =>
      obtain rfl : p = .idle := hp
      cases pc' with
      | readSession => exact (by decide : 13 < 14)
      | readMediaSession => exact (by decide : 13 < 14)
      | register => exact (by decide : 12 < 14)
      | _ => exact hafter.elim
  | readSession =>
      obtain rfl : p = .idle := hp
      exact (by decide : 12 < 13)
  | readMediaSession =>
      obtain rfl : p = .idle := hp
      exact (by decide : 12 < 13)
  | increment hnew =>
      obtain rfl | ⟨id, rfl⟩ := hnew
      · exact (by decide : 11 < 12)
      · exact (by decide : 10 < 12)
  | incrementAgain => exact (by decide : 10 < 11)
  | insert => exact (by decide : 9 < 10)
  | @cloneWriteTx what c p =>
      cases what with
      | request => exact (by decide : 8 < 9)
      | connect app => exact (by decide : 3 < 4)
  | acceptRequest hans =>
      obtain ⟨id, rfl⟩ := hp hans
      exact (by decide : 7 < 8)
  | acceptConnect => exact (by decide : 2 < 3)
  | receive hans hresult =>
      exact Nat.lt_of_le_of_lt (CallPc.left_answered hans _) (by decide : 5 < 7)
  | giveUp => exact (by decide : 6 < 7)
  | cleanup => exact (by decide : 0 < 6)
  | appSeen => exact (by decide : 4 < 5)
  | storeTransport => exact (by decide : 1 < 2)
  | clearTransport => exact (by decide : 1 < 2)
  | ends hend =>
      cases pc with
      | enqueue what c => cases what <;> exact Nat.succ_pos _
      | readTransport => exact Nat.succ_pos _
      | readSession => exact Nat.succ_pos _
      | readMediaSession => exact Nat.succ_pos _
      | awaitApp appId => exact Nat.succ_pos _
      | storeSession app => exact Nat.succ_pos _
      | clearSession => exact Nat.succ_pos _
      | _ => exact hend.elim

/-- The steps that bring a call on. -/
def Own (r : Nat) (a : SessionAct) : Prop := a.call? = some r ∧ a ≠ .drop r ∧ a ≠ .skipEvent r

/-- The same of call `r`. -/
def left (r : Nat) (s : Session) : Nat := CallPc.left (s.calls r).pc (s.requests.request r).phase

/-- The send that call `r` waits with is accepted, or fails. -/
def Enqueues (r : Nat) (a : SessionAct) : Prop := a = .accept r ∨ a = .sendFailed r

theorem Enqueues.own (h : Enqueues r a) : Own r a := by
  obtain rfl | rfl := h <;> simp [Own, SessionAct.call?]

/-- By the moves it has ahead, a call is seen to wait for room. -/
theorem enqueue_of_left (h : s.left r = 8 ∨ s.left r = 3) :
    ∃ what c, (s.calls r).pc = .enqueue what c := by
  unfold left at h
  cases hpc : (s.calls r).pc with
  | enqueue what c => exact ⟨what, c, rfl⟩
  | register | wait =>
      rw [hpc] at h
      cases hphase : (s.requests.request r).phase <;> simp [hphase, CallPc.left] at h
  | send what =>
      rw [hpc] at h
      cases what <;> simp [CallPc.left] at h
  | _ => simp [hpc, CallPc.left] at h

theorem left_of_enqueues (hs : Step serde cfg s a s') (ha : Enqueues r a) :
    s.left r = 8 ∨ s.left r = 3 := by
  have hleft {what : Outgoing} {c : Nat} (hpc : (s.calls r).pc = .enqueue what c) :
      s.left r = 8 ∨ s.left r = 3 := by
    rw [left, hpc]
    cases what with
    | request => exact .inl rfl
    | connect app => exact .inr rfl
  obtain rfl | rfl := ha
  · cases hs with
    | accept h hopen => exact hleft h
  · cases hs with
    | sendFailed h hopen => exact hleft h

theorem own_step (hp : Placed s) (hs : Step serde cfg s a s') (ha : Own r a) :
    s'.left r < s.left r :=
  (advance_of_step hs ha.1 ha.2.1 ha.2.2).left_lt (hp r)

/-- A call that has begun stays where it is, makes a move, or is dropped. -/
theorem begun_step (hp : Placed s) (hs : Step serde cfg s a s') (hpc : (s.calls r).pc ≠ .idle) :
    Ended s' r ∨ (s'.calls r).pc ≠ .idle ∧ (s'.left r = s.left r ∨ s'.left r < s.left r) := by
  by_cases hcall : a.call? = some r
  · by_cases hdrop : a = .drop r
    · subst hdrop
      cases hs with
      | drop hidle hend => exact .inl ⟨none, by rw [calls_goto, if_pos rfl]⟩
    by_cases hskip : a = .skipEvent r
    · subst hskip
      cases hs with
      | skipEvent h hbuf happ => exact .inr ⟨hpc, .inl rfl⟩
    have hadv := advance_of_step hs hcall hdrop hskip
    have hless := hadv.left_lt (hp r)
    refine .inr ⟨fun hidle => ?_, .inr hless⟩
    rw [hidle] at hadv
    exact hadv.ne_idle
  · have hbegin (op : Operation) : a ≠ .begin r op := by
      rintro rfl
      cases hs with
      | begin hb hidle => exact hpc hidle
    obtain ⟨hsame, -⟩ := call_of_ne hs hcall hbegin
    rw [left, left, hsame, phase_of_other hs hcall]
    exact .inr ⟨hpc, .inl rfl⟩

/-! ## what is enabled -/

theorem not_enabled_of_ended (h : Ended s r) : ¬ (system serde cfg).Enabled (Own r) s := by
  rintro ⟨a, t, ha, hs⟩
  obtain ⟨result, hpc⟩ := h
  have hadv := advance_of_step (step_cases hs) ha.1 ha.2.1 ha.2.2
  rw [hpc] at hadv
  exact hadv.not_ended

/-- A call that has not ended can make a move when the lock of `transport_id` is free. -/
theorem enabled_of_free (hp : Placed s) (hpc : (s.calls r).pc ≠ .idle) (hend : ¬ Ended s r)
    (hfree : resending s.life = none) : (system serde cfg).Enabled (Own r) s := by
  have enabled (a : SessionAct) (ha : Own r a) (hs : (s.step serde cfg a).isSome) :
      (system serde cfg).Enabled (Own r) s :=
    have ⟨t, ht⟩ := Option.isSome_iff_exists.1 hs
    ⟨a, t, ha, ht⟩
  have hphase := hp r
  cases h : (s.calls r).pc with
  | idle => exact absurd h hpc
  | ended result => exact absurd ⟨result, h⟩ hend
  | readTransport =>
      exact enabled (.readTransport r) (by simp [Own, SessionAct.call?]) (by simp [step, h, hfree])
  | readSession =>
      exact enabled (.readSession r) (by simp [Own, SessionAct.call?]) (by simp [step, h])
  | readMediaSession =>
      exact enabled (.readMediaSession r) (by simp [Own, SessionAct.call?]) (by simp [step, h])
  | register =>
      rw [h] at hphase
      obtain hidle | hskip | ⟨id, hid⟩ := hphase
      · exact enabled (.increment r) (by simp [Own, SessionAct.call?])
          (by simp [step, h, requestStep, Requests.step, hidle])
      · exact enabled (.incrementAgain r) (by simp [Own, SessionAct.call?])
          (by simp [step, h, requestStep, Requests.step, hskip])
      · exact enabled (.insert r) (by simp [Own, SessionAct.call?])
          (by simp [step, h, requestStep, Requests.step, hid])
  | send what =>
      exact enabled (.cloneWriteTx r) (by simp [Own, SessionAct.call?]) (by simp [step, h])
  | enqueue what c =>
      by_cases hopen : Open s.life c
      · exact enabled (.accept r) (by simp [Own, SessionAct.call?]) (by simp [step, h, hopen])
      · exact enabled (.sendFailed r) (by simp [Own, SessionAct.call?]) (by simp [step, h, hopen])
  | wait =>
      rw [h] at hphase
      obtain ⟨id, hid⟩ | ⟨id, err, hid⟩ := hphase
      · exact enabled (.timeout r) (by simp [Own, SessionAct.call?])
          (by simp [step, h, requestStep, Requests.step, hid])
      · exact enabled (.cleanup r) (by simp [Own, SessionAct.call?])
          (by simp [step, h, requestStep, Requests.step, hid])
  | awaitApp appId =>
      exact enabled (.launchTimeout r) (by simp [Own, SessionAct.call?]) (by simp [step, h])
  | storeTransport app =>
      exact enabled (.storeTransport r) (by simp [Own, SessionAct.call?]) (by simp [step, h, hfree])
  | storeSession app =>
      exact enabled (.storeSession r) (by simp [Own, SessionAct.call?]) (by simp [step, h])
  | clearTransport =>
      exact enabled (.clearTransport r) (by simp [Own, SessionAct.call?]) (by simp [step, h, hfree])
  | clearSession =>
      exact enabled (.clearSession r) (by simp [Own, SessionAct.call?]) (by simp [step, h])

/-- A call that waits for room can go on when there is some, or the channel is closed. -/
theorem enqueues_enabled (h : s.left r = 8 ∨ s.left r = 3) :
    (system serde cfg).Enabled (Enqueues r) s := by
  obtain ⟨what, c, hpc⟩ := enqueue_of_left h
  by_cases hopen : Open s.life c
  · have hs : s.step serde cfg (.accept r) = some (s.accept serde r what c) := by
      simp only [step, hpc, if_pos hopen]
    exact ⟨.accept r, _, .inl rfl, hs⟩
  · have hs : s.step serde cfg (.sendFailed r) =
        some (s.goto r (.ended (some (.error .disconnected)))) := by
      simp only [step, hpc, if_neg hopen]
    exact ⟨.sendFailed r, _, .inr rfl, hs⟩

/-! ## the lock of `transport_id` -/

/-- The CONNECT a reconnect sends with the lock in its hand is accepted, or fails. -/
def Resends (a : SessionAct) : Prop := a = .life .transportSent ∨ a = .life .transportFailed

theorem resends_enabled (h : resending s.life ≠ none) : (system serde cfg).Enabled Resends s := by
  obtain ⟨tid, htid⟩ := Option.ne_none_iff_exists'.1 h
  obtain ⟨f, hf, hpc⟩ := Option.bind_eq_some_iff.1 htid
  obtain ⟨caller, attempt, pc, eventTx⟩ := f
  cases pc with
  | sendTransport tid' =>
      by_cases hw : s.life.task s.life.writeTx .writer = .stopped
      · have hs := (Lifecycle.Step.transportFailed hw hf rfl : Lifecycle.Step cfg _ _ _).enabled
        exact ⟨.life .transportFailed, _, .inr rfl, Option.map_eq_some_iff.2 ⟨_, hs, rfl⟩⟩
      · have hs := (Lifecycle.Step.transportSent hw hf rfl : Lifecycle.Step cfg _ _ _).enabled
        exact ⟨.life .transportSent, _, .inl rfl, Option.map_eq_some_iff.2 ⟨_, hs, rfl⟩⟩
  | _ => cases hpc

theorem resends_step (hs : Step serde cfg s a s') (ha : Resends a) : resending s'.life = none := by
  obtain rfl | rfl := ha
  · cases hs with
    | life hb h => cases h; rfl
  · cases hs with
    | life hb h =>
        cases h
        rw [afterLife, resending, Lifecycle.reconnecting_returnErr]
        rfl

variable {b : (system serde cfg).Behavior}

/-- The lock is free again and again. -/
theorem transport_free (hfair : b.WeaklyFair Resends) :
    b.LeadsTo (fun _ => True) fun s => resending s.life = none := by
  have hheld : b.LeadsTo (fun s => resending s.life ≠ none) fun s => resending s.life = none :=
    Behavior.leadsTo_of_weaklyFair hfair (fun _ _ _ _ _ _ => ne_or_eq _ _)
      (fun _ _ h => resends_enabled h) fun _ _ _ _ _ ha hs => resends_step (step_cases hs) ha
  intro n _
  by_cases hfree : resending (b.state n).life = none
  · exact ⟨n, Nat.le_refl n, hfree⟩
  · exact hheld n hfree

/-! ## operations return -/

/-- The call is scheduled fairly, and the channels get room: the one its send waits for
has room at some time or closes, and so does the one into which a reconnect sends CONNECT
with the lock of `transport_id` in its hand. -/
structure CallFair (b : (system serde cfg).Behavior) (r : Nat) : Prop where
  scheduled : b.StronglyFair fun a => Own r a ∧ ¬ Enqueues r a
  room : b.WeaklyFair (Enqueues r)
  resendRoom : b.WeaklyFair Resends

theorem call_ends (hfair : CallFair b r) :
    b.LeadsTo (fun s => (s.calls r).pc ≠ .idle) fun s => Ended s r := by
  refine Behavior.leadsTo_of_rank (left r) fun v => ?_
  have hkeep (s : Session) (a : SessionAct) (t : Session) (hr : (system serde cfg).Reachable s)
      (h : (s.calls r).pc ≠ .idle ∧ s.left r = v) (hs : (system serde cfg).step s a = some t) :
      ((t.calls r).pc ≠ .idle ∧ t.left r = v) ∨ Ended t r ∨
        (t.calls r).pc ≠ .idle ∧ t.left r < v := by
    rw [← h.2]
    obtain hend | ⟨hpc, hsame | hless⟩ := begun_step (placed_of_run hr) (step_cases hs) h.1
    · exact .inr (.inl hend)
    · exact .inl ⟨hpc, hsame⟩
    · exact .inr (.inr ⟨hpc, hless⟩)
  have hgoal (s : Session) (a : SessionAct) (t : Session) (hr : (system serde cfg).Reachable s)
      (h : (s.calls r).pc ≠ .idle ∧ s.left r = v) (ha : Own r a)
      (hs : (system serde cfg).step s a = some t) :
      Ended t r ∨ (t.calls r).pc ≠ .idle ∧ t.left r < v := by
    have hless := own_step (placed_of_run hr) (step_cases hs) ha
    rw [h.2] at hless
    obtain hend | ⟨hpc, -⟩ := begun_step (placed_of_run hr) (step_cases hs) h.1
    · exact .inl hend
    · exact .inr ⟨hpc, hless⟩
  by_cases hsending : v = 8 ∨ v = 3
  · exact Behavior.leadsTo_of_weaklyFair hfair.room hkeep
      (fun s _ h => enqueues_enabled (h.2 ▸ hsending)) fun s a t hr h ha => hgoal s a t hr h ha.own
  have hfree : b.LeadsTo (fun s => (s.calls r).pc ≠ .idle ∧ s.left r = v) fun s =>
      resending s.life = none := fun n _ => transport_free hfair.resendRoom n trivial
  refine Behavior.leadsTo_of_stronglyFair hfair.scheduled hkeep ?_
    fun s a t hr h ha => hgoal s a t hr h ha.1
  refine (hfree.keeping hkeep).trans (Behavior.leadsTo_of_imp fun s hr h => ?_)
  rcases h with hdone | ⟨⟨hpc, hv⟩, hl⟩
  · exact .inr hdone
  by_cases hend : Ended s r
  · exact .inr (.inl hend)
  obtain ⟨a, t, ha, hs⟩ := enabled_of_free (placed_of_run hr) hpc hend hl
  exact .inl ⟨a, t, ⟨ha, fun hsend => hsending (hv ▸ left_of_enqueues (step_cases hs) hsend)⟩, hs⟩

/-- A step other than a drop ends no call without a result. -/
theorem result_of_step (hs : Step serde cfg s a s') (hdrop : a ≠ .drop r)
    (hpc : (s.calls r).pc ≠ .ended none) : (s'.calls r).pc ≠ .ended none := by
  intro hnone
  by_cases hcall : a.call? = some r
  · by_cases hskip : a = .skipEvent r
    · subst hskip
      cases hs with
      | skipEvent h hbuf happ => exact hpc hnone
    have hadv := advance_of_step hs hcall hdrop hskip
    rw [hnone] at hadv
    exact hadv.has_result
  · by_cases hbegin : ∃ op, a = .begin r op
    · obtain ⟨op, rfl⟩ := hbegin
      cases hs with
      | begin hb hidle =>
          simp only [Session.begin, Function.update_self] at hnone
          split at hnone
          · cases hnone
          · split at hnone <;> cases hnone
          · cases hnone
    · obtain ⟨hsame, -⟩ := call_of_ne hs hcall fun op heq => hbegin ⟨op, heq⟩
      exact hpc (hsame.symm.trans hnone)

/-- **Every operation returns**: under fair scheduling, and when the channels get room for
the sends that are waited for, a call that its caller does not drop comes to a result,
whatever the device answers and whatever is lost, closed or reconnected beside it. -/
theorem call_returns (hfair : CallFair b r) (hkept : ∀ n, b.action n ≠ some (.drop r)) :
    b.LeadsTo (fun s => (s.calls r).pc ≠ .idle)
      fun s => ∃ result, (s.calls r).pc = .ended (some result) := by
  have hresult (n : Nat) : ((b.state n).calls r).pc ≠ .ended none := by
    induction n with
    | zero =>
        rw [b.start]
        intro h
        cases h
    | succ n ih =>
        rcases b.step_or_stay n with ⟨a, haction, hstep⟩ | hstay
        · have hdrop : a ≠ .drop r := fun h => hkept n (h ▸ haction)
          exact result_of_step (step_cases hstep) hdrop ih
        · rw [hstay]
          exact ih
  intro n hn
  obtain ⟨m, hm, result, hpc⟩ := call_ends hfair n hn
  cases result with
  | none => exact absurd hpc (hresult m)
  | some result => exact ⟨m, hm, result, hpc⟩

/-- Operation 1 begins while a reconnect has the lock of `transport_id`; nobody answers it. -/
def unansweredActs : List SessionAct :=
  launchActs ++ reopenActs.dropLast.dropLast ++
    [.begin 1 (.mediaStatus launchSerde), .life .transportSent, .readTransport 1, .increment 1,
      .insert 1,
      .cloneWriteTx 1, .accept 1, .timeout 1, .cleanup 1]

set_option maxRecDepth 8000 in
theorem call_returns_unanswered :
    ∃ s, ∃ h : (system launchSerde Lifecycle.autoCfg).exec (start Lifecycle.autoCfg)
        unansweredActs = some s,
      (Behavior.ofSchedule unansweredActs h).LeadsTo (fun s => (s.calls 1).pc ≠ .idle)
        fun s => ∃ result, (s.calls 1).pc = .ended (some result) := by
  refine ⟨_, rfl, call_returns ⟨?_, ?_, ?_⟩ fun n hn => ?_⟩
  · refine Behavior.stronglyFair_ofSchedule ?_
    rintro ⟨a, t, ha, hs⟩
    exact not_enabled_of_ended ⟨_, rfl⟩ ⟨a, t, ha.1, hs⟩
  · refine (Behavior.stronglyFair_ofSchedule ?_).weaklyFair
    rintro ⟨a, t, ha, hs⟩
    exact not_enabled_of_ended ⟨_, rfl⟩ ⟨a, t, ha.own, hs⟩
  · refine (Behavior.stronglyFair_ofSchedule ?_).weaklyFair
    rintro ⟨a, t, rfl | rfl, hs⟩ <;> cases hs
  · have hmem := List.mem_of_getElem? (hn : unansweredActs[n]? = _)
    simp [unansweredActs, launchActs, registerActs, reopenActs, Lifecycle.lostAndConnecting] at hmem

end Oxicast.Session
