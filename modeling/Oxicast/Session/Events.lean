import Oxicast.Session.Leak

/-!
# Oxicast.Session.Events

Where the events of the channel go.

The user's `next_event` is not the only reader of the channel: a launch whose
app is not in the first answer calls it too, keeps the status that lists the
app and throws everything else away.  `EventLog` records what the channel has
accepted, what the user was given and what launches took; without the last one
nothing is lost between the two others.
-/

namespace Oxicast

/-! ## what the channel keeps -/

namespace Mpsc

variable {α : Type*} {P : α → Prop}

/-- All that happened to the buffer is that items with `P` were appended. -/
def Adds (P : α → Prop) (q q' : Mpsc α) : Prop :=
  ∃ new, q'.buffer = q.buffer ++ new ∧ ∀ a ∈ new, P a

theorem adds_refl (q : Mpsc α) : q.Adds P q := ⟨[], by simp, by simp⟩

/-- `try_send` appends, at most. -/
theorem adds_trySend (q : Mpsc α) {a : α} (h : P a) : q.Adds P (q.trySend a) := by
  unfold trySend
  split
  · exact ⟨[a], rfl, by simpa using h⟩
  · exact q.adds_refl

theorem adds_foldl (q : Mpsc α) {as : List α} (h : ∀ a ∈ as, P a) :
    q.Adds P (as.foldl trySend q) := by
  induction as generalizing q with
  | nil => exact q.adds_refl
  | cons a as ih =>
      obtain ⟨first, hfirst, hP⟩ := q.adds_trySend (h a List.mem_cons_self)
      obtain ⟨rest, hrest, hQ⟩ := ih (q.trySend a) fun b hb => h b (List.mem_cons_of_mem _ hb)
      refine ⟨first ++ rest, by rw [List.foldl_cons, hrest, hfirst, List.append_assoc],
        fun b hb => ?_⟩
      exact (List.mem_append.1 hb).elim (hP b) (hQ b)

end Mpsc

/-- The events of the lifecycle; the others report what the device has sent. -/
def CastEvent.Quiet : CastEvent → Prop
  | .receiverStatusChanged _ | .mediaStatusChanged _ | .mediaSessionEnded _ _
  | .rawMessage _ _ _ _ => False
  | _ => True

namespace Lifecycle

variable {cfg : ClientConfig} {s s' : Lifecycle} {a : LifecycleAct} {P : CastEvent → Prop}

theorem adds_sendEvent (s : Lifecycle) {e : CastEvent} (h : P e) :
    s.events.Adds P (s.sendEvent e) := by
  unfold sendEvent
  split
  · exact s.events.adds_trySend h
  · exact s.events.adds_refl

theorem adds_taskSendEvents (s : Lifecycle) (c : Nat) {es : List CastEvent} (h : ∀ e ∈ es, P e) :
    s.events.Adds P (s.taskSendEvents c es) := by
  unfold taskSendEvents
  split
  · exact s.events.adds_foldl h
  · exact s.events.adds_refl

section Quiet

variable (hquiet : ∀ e : CastEvent, e.Quiet → P e)

include hquiet

theorem adds_returnErr (s : Lifecycle) (caller : Caller) (n : Nat) :
    s.events.Adds P (s.returnErr cfg caller n).events := by
  cases caller with
  | manual => exact s.events.adds_refl
  | auto =>
      simp only [returnErr, attemptFailed]
      split
      · exact adds_sendEvent { s with reconnecting := none } (hquiet _ trivial)
      · exact s.events.adds_refl

theorem adds_acquire (s : Lifecycle) (caller : Caller) (n : Nat) :
    s.events.Adds P (s.acquire cfg caller n).events := by
  unfold acquire
  split_ifs
  · exact adds_returnErr hquiet s caller n
  · exact s.events.adds_refl
  · exact s.adds_sendEvent (hquiet _ trivial)

/-- Only `next_event` takes an event out of the buffer, and only a routed message
puts one in that is not of the lifecycle. -/
theorem adds_of_step (hs : Step cfg s a s') (ha : a ≠ .nextEvent)
    (hemit : ∀ c es, a = .emit c es → ∀ e ∈ es, P e) : s.events.Adds P s'.events := by
  cases hs with
  | builderDone h => exact s.adds_sendEvent (hquiet _ trivial)
  | @fail c k reason h =>
      simp only [Lifecycle.fail]
      split
      · exact s.adds_taskSendEvents c (by simpa using hquiet (.disconnected reason) trivial)
      · exact s.events.adds_refl
  | @publishLoss c k h =>
      simp only [Lifecycle.publishLoss]
      split
      · exact s.adds_taskSendEvents c (by simpa using hquiet .heartbeatTimeout trivial)
      · exact s.events.adds_refl
  | @emit c es h => exact s.adds_taskSendEvents c (hemit c es rfl)
  | reconnect hb h => exact adds_acquire hquiet s _ _
  | attempt ha h => exact adds_acquire hquiet s _ _
  | tlsFailed h hpc => exact adds_returnErr hquiet s _ _
  | tlsConnected h hpc =>
      unfold Lifecycle.tlsConnected
      split
      · exact adds_returnErr hquiet s _ _
      · exact s.events.adds_refl
  | connectFailed hw h hpc => exact adds_returnErr hquiet s _ _
  | transportFailed hw h hpc => exact adds_returnErr hquiet s _ _
  | publishConnected h hpc => exact s.adds_sendEvent (hquiet _ trivial)
  | publishDisconnected h => exact s.adds_sendEvent (hquiet _ trivial)
  | nextEvent => exact absurd rfl ha
  | _ => exact s.events.adds_refl

end Quiet

end Lifecycle

namespace Session

open TransitionSystem Lifecycle Ns

variable {serde : SerdeJson} {cfg : ClientConfig} {s s' : Session} {a : SessionAct}

/-! ## the history of the channel -/

/-- Who takes the head of the buffer. -/
inductive Taker where
  | user
  | launch

/-- The taker of the step, if it is one that takes an event. -/
def takerOf : SessionAct → Option Taker
  | .life .nextEvent => some .user
  | .appSeen _ | .skipEvent _ => some .launch
  | _ => none

/-- The events the channel has accepted, those `next_event` has returned to the
user and those launches have taken, in this order each. -/
structure EventLog where
  accepted : List CastEvent
  returned : List CastEvent
  taken : List CastEvent

def EventLog.record (h : EventLog) (s : Session) (a : SessionAct) (s' : Session) : EventLog :=
  match takerOf a with
  | some .user => { h with returned := h.returned ++ s.life.events.buffer.take 1 }
  | some .launch => { h with taken := h.taken ++ s.life.events.buffer.take 1 }
  | none =>
      { h with
        accepted := h.accepted ++ s'.life.events.buffer.drop s.life.events.buffer.length }

/-- The client and what became of its events. -/
def eventSystem (serde : SerdeJson) (cfg : ClientConfig) :
    TransitionSystem (Session × EventLog) SessionAct :=
  (system serde cfg).observe ⟨[], [], []⟩ EventLog.record

/-- A step that takes no event leaves the waiting ones where they are, and a routed
message adds the events it offers, at most. -/
theorem adds_of_step {P : CastEvent → Prop} (hs : Step serde cfg s a s') (ha : takerOf a = none)
    (hquiet : ∀ e : CastEvent, e.Quiet → P e)
    (hroute : ∀ c msg, a = .route c msg → ∀ e ∈ (s.router.route serde msg).offered, P e) :
    s.life.events.Adds P s'.life.events := by
  cases hs with
  | @life b life hb h =>
      refine Lifecycle.adds_of_step hquiet h ?_ ?_
      · rintro rfl
        contradiction
      · rintro c es rfl
        exact False.elim hb
  | lifeReadTransport h => exact Lifecycle.adds_of_step hquiet h (by simp) (by simp)
  | @route c msg h => exact s.life.adds_taskSendEvents c (hroute c msg rfl)
  | appSeen h hbuf happ => contradiction
  | skipEvent h hbuf happ => contradiction
  | @accept r c what h hopen =>
      rw [life_accept]
      exact s.life.events.adds_refl
  | readTransport h hfree => rw [life_readTransport]; exact s.life.events.adds_refl
  | readSession h => rw [life_readSession]; exact s.life.events.adds_refl
  | readMediaSession h => rw [life_readMediaSession]; exact s.life.events.adds_refl
  | receive h hrx hq => rw [life_answer]; exact s.life.events.adds_refl
  | _ => exact s.life.events.adds_refl

/-- A step that takes an event takes the head of the buffer. -/
theorem buffer_of_takerOf (hs : Step serde cfg s a s') (ha : takerOf a ≠ none) :
    s'.life.events.buffer = s.life.events.buffer.drop 1 := by
  cases hs with
  | @life b life hb h =>
      cases h with
      | nextEvent => simp [afterLife, Lifecycle.nextEvent]
      | _ => exact absurd rfl ha
  | appSeen h hbuf happ => simp [Lifecycle.nextEvent]
  | skipEvent h hbuf happ => simp [Lifecycle.nextEvent]
  | _ => exact absurd rfl ha

/-- A launch takes an event only when there is one. -/
theorem buffer_ne_nil_of_launch (hs : Step serde cfg s a s') (ha : takerOf a = some .launch) :
    s.life.events.buffer ≠ [] := by
  cases hs with
  | appSeen h hbuf happ => simp [hbuf]
  | skipEvent h hbuf happ => simp [hbuf]
  | @life b life hb h =>
      cases b with
      | nextEvent => injection ha with ha; contradiction
      | _ => contradiction
  | _ => contradiction

/-! ## nothing is lost between the channel and the user -/

/-- What has become of every accepted event. -/
structure Accounted (s : Session) (h : EventLog) : Prop where
  count : h.accepted.length =
    h.returned.length + h.taken.length + s.life.events.buffer.length
  order : h.taken = [] → h.returned ++ s.life.events.buffer = h.accepted

variable {hist : EventLog}

theorem accounted_start : Accounted (start cfg) ⟨[], [], []⟩ := ⟨rfl, fun _ => rfl⟩

theorem Accounted.step (h : Accounted s hist) (hs : Step serde cfg s a s') :
    Accounted s' (hist.record s a s') := by
  obtain ⟨count, order⟩ := h
  unfold EventLog.record
  cases ha : takerOf a with
  | none =>
      obtain ⟨new, hnew, -⟩ := adds_of_step (P := fun _ => True) hs ha (fun _ _ => trivial)
        fun _ _ _ _ _ => trivial
      refine ⟨?_, fun ht => ?_⟩
      · simp only [hnew, List.length_append, List.drop_left, count]
        omega
      · simp only [hnew, List.drop_left, ← order ht, List.append_assoc]
  | some taker =>
      have htail := buffer_of_takerOf hs (by simp [ha])
      cases taker with
      | user =>
          refine ⟨?_, fun ht => ?_⟩
          · simp only [htail, List.length_append, List.length_take, List.length_drop, count]
            omega
          · rw [htail, List.append_assoc, List.take_append_drop, order ht]
      | launch =>
          have hne := buffer_ne_nil_of_launch hs ha
          refine ⟨?_, fun ht => ?_⟩
          · have hpos := List.length_pos_iff.2 hne
            simp only [htail, List.length_append, List.length_take, List.length_drop, count]
            omega
          · simp [hne] at ht

theorem accounted_of_reachable {x : Session × EventLog} (h : (eventSystem serde cfg).Reachable x) :
    Accounted x.1 x.2 := by
  refine h.invariant_observed (J := fun _ => True) (fun _ _ => trivial) accounted_start ?_
  intro t hist a t' _ hi _ hs
  exact hi.step (step_cases hs)

/-- **Event conservation**: the events returned to the user are a prefix of the
accepted ones, and all others are still waiting, exactly when no launch has
taken an event out of the channel. -/
theorem events_conserved_iff (h : (eventSystem serde cfg).Reachable (s, hist)) :
    (hist.returned <+: hist.accepted ∧
      hist.returned ++ s.life.events.buffer = hist.accepted) ↔ hist.taken = [] := by
  have hacc : Accounted s hist := accounted_of_reachable h
  obtain ⟨count, order⟩ := hacc
  constructor
  · rintro ⟨-, heq⟩
    have hlen := congrArg List.length heq
    rw [List.length_append] at hlen
    exact List.length_eq_zero_iff.1 (by omega)
  · intro ht
    have heq := order ht
    exact ⟨⟨_, heq⟩, heq⟩

/-- Operation 0 launches an app that the first answer does not list. -/
def waitingLaunchActs : List SessionAct :=
  registerActs (.launchApp (Router.answerSerde msgReceiverStatus) "CC1AD845") ++
    [.accept 0, .route 0 (Router.answerMsg nsReceiver msgReceiverStatus), .receive 0]

/-- The launch is still waiting, and the user has read the `Connected`. -/
theorem events_conserved_waiting : ∃ s hist,
    (eventSystem (Router.answerSerde msgReceiverStatus) autoCfg).exec
        (eventSystem (Router.answerSerde msgReceiverStatus) autoCfg).init
        (waitingLaunchActs ++ [.life .nextEvent]) = some (s, hist) ∧
      hist.returned <+: hist.accepted ∧ hist.returned ++ s.life.events.buffer = hist.accepted := by
  have hrun := reachable_of_exec (M := eventSystem (Router.answerSerde msgReceiverStatus) autoCfg)
    (waitingLaunchActs ++ [.life .nextEvent]) rfl
  exact ⟨_, _, rfl, (events_conserved_iff hrun).2 rfl⟩

/-- The launch takes the `Connected`, and the user's first event is the loss. -/
theorem event_taken : ¬ ∀ (serde : SerdeJson) (cfg : ClientConfig) (s : Session) (hist : EventLog),
    (eventSystem serde cfg).Reachable (s, hist) → hist.returned <+: hist.accepted := by
  intro h
  have hrun := reachable_of_exec (M := eventSystem (Router.answerSerde msgReceiverStatus) autoCfg)
    (waitingLaunchActs ++ [.skipEvent 0, .life (.fail 0 .reader none), .life .nextEvent]) rfl
  obtain ⟨rest, heq⟩ := h _ _ _ _ hrun
  have hhead : some (CastEvent.disconnected none) = some CastEvent.connected :=
    congrArg List.head? heq
  contradiction

end Session

end Oxicast
