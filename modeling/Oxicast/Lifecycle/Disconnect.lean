import Oxicast.Lifecycle.Invariant

/-!
# Oxicast.Lifecycle.Disconnect

`disconnect` against reconnects that are under way.

A reconnect that resets `shutting_down` after `disconnect` has set it, that
has new tasks whose handles `disconnect` does not find, or that publishes
`Connected` after the `Disconnected` of `disconnect` undoes it.  In every run
without these three steps a returned `disconnect` is final.
-/

namespace Oxicast.Lifecycle

open TransitionSystem

variable {cfg : ClientConfig} {s s' : Lifecycle} {a : LifecycleAct}

/-- A sender of the channel `next_event` reads is left: in `event_tx`, in a
reader or heartbeat task, or in a reconnect that is about to spawn these. -/
def SenderLeft (s : Lifecycle) : Prop :=
  s.eventTx = true ∨
  (∃ c k, k ≠ .writer ∧ s.task c k ≠ .stopped ∧ s.taskEventTx c = true) ∨
  ∃ f, s.reconnecting = some f ∧ f.eventTx = true

/-- Nothing is left of the connection. -/
structure Final (s : Lifecycle) : Prop where
  alive : s.alive = false
  shuttingDown : s.shuttingDown = true
  connection : s.connection.value = .disconnected
  tasks : ∀ c k, s.task c k = .stopped
  senders : ¬ s.SenderLeft
  /-- `next_event` drains the buffer and then returns `None` -/
  nextEvent : ∀ senders : Bool, (senders = true ↔ s.SenderLeft) →
    s.events.polls senders (s.events.buffer.length + 1) = s.events.buffer.map .item ++ [.closed]

/-- A reconnect does not store its flags while `shutting_down` is set,
`disconnect` does not take the handles while those of new tasks are missing, and
no reconnect publishes `Connected` after a `disconnect` has published. -/
def Yields (s : Lifecycle) : LifecycleAct → Prop
  | .arm => s.shuttingDown = false
  | .lockHandles (.disconnect _) => ∀ f, s.reconnecting = some f → ¬ f.pc.Unrecorded
  | .publishConnected => ∀ d, ¬ (s.disconnects d).Published
  | _ => True

/-- How far each `disconnect` has got, and what it has achieved by then. -/
structure Finality (s : Lifecycle) : Prop where
  flag : ∀ d, s.disconnects d ≠ .idle → s.shuttingDown = true
  dead : ∀ d, (s.disconnects d).Flagged → s.alive = false
  holder : ∀ d k, s.handlesLock = some (.disconnect d, k) →
    ∀ f, s.reconnecting = some f → ¬ f.pc.Unrecorded
  stopped : ∀ d, (s.disconnects d).Stopped →
    (∀ c k, s.task c k = .stopped) ∧ ∀ f, s.reconnecting = some f → ¬ f.pc.Unrecorded
  published : ∀ d, (s.disconnects d).Published → s.connection.value = .disconnected
  closed : ∀ d, s.disconnects d = .returned → s.eventTx = false

theorem finality_start : Finality (start cfg) :=
  ⟨fun _ hd => absurd rfl hd, nofun, nofun, nofun, nofun, nofun⟩

/-- While `shutting_down` is not set, nobody has called `disconnect`. -/
theorem Finality.idle (h : Finality s) (hoff : s.shuttingDown = false) (d : Nat) :
    s.disconnects d = .idle := by
  by_contra hd
  rw [h.flag d hd] at hoff
  contradiction

/-- A call of `reconnect_with_attempt` goes on, not to new tasks. -/
theorem Finality.proceed {f g : Reconnect} (h : Finality s) (hf : s.reconnecting = some f)
    (hg : g.pc.Unrecorded → f.pc.Unrecorded) : Finality { s with reconnecting := some g } := by
  refine ⟨h.flag, h.dead, fun d k hl x hx => ?_, fun d hd => ⟨(h.stopped d hd).1, fun x hx => ?_⟩,
    h.published, h.closed⟩
  · obtain rfl := Option.some.inj hx
    exact fun hu => h.holder d k hl f hf (hg hu)
  · obtain rfl := Option.some.inj hx
    exact fun hu => (h.stopped d hd).2 f hf (hg hu)

/-- A call of `reconnect_with_attempt` returns. -/
theorem Finality.release {auto : AutoPc} {connection : Watch ConnectionState}
    {events : Mpsc CastEvent} (h : Finality s)
    (hconn : ∀ d, (s.disconnects d).Published → connection.value = .disconnected) :
    Finality { s with reconnecting := none, auto, connection, events } :=
  ⟨h.flag, h.dead, fun _ _ _ _ => nofun, fun d hd => ⟨(h.stopped d hd).1, nofun⟩, hconn, h.closed⟩

theorem Finality.returnErr (h : Finality s) (caller : Caller) (n : Nat) :
    Finality (s.returnErr cfg caller n) := by
  cases caller with
  | manual => exact h.release h.published
  | auto =>
      refine h.release fun d hd => ?_
      dsimp only
      split
      · rfl
      · exact h.published d hd

theorem Finality.acquire (h : Finality s) (caller : Caller) (n : Nat) :
    Finality (s.acquire cfg caller n) := by
  unfold Lifecycle.acquire
  split_ifs with hdown hup
  · exact h.returnErr caller n
  · exact h.release h.published
  · have hidle := h.idle (by simpa using hdown)
    refine ⟨h.flag, h.dead, fun d k hl f hf => ?_, fun d hd => ?_, fun d hd => ?_, h.closed⟩
    · obtain rfl := Option.some.inj hf
      exact id
    · rw [hidle d] at hd; exact hd.elim
    · rw [hidle d] at hd; exact hd.elim

/-- A `disconnect` goes on. -/
theorem Finality.disconnecting {d : Nat} {pc : DisconnectPc} {alive shuttingDown eventTx : Bool}
    {connection : Watch ConnectionState} {events : Mpsc CastEvent} (h : Finality s)
    (hflag : shuttingDown = true)
    (hdead : alive = false ∨ alive = s.alive ∧ (pc.Flagged → (s.disconnects d).Flagged))
    (hstopped : pc.Stopped → (s.disconnects d).Stopped)
    (hconn : connection.value = .disconnected ∨ connection = s.connection ∧ ¬ pc.Published ∨
      connection = s.connection ∧ (s.disconnects d).Published)
    (hclosed : eventTx = false ∨ eventTx = s.eventTx ∧ pc ≠ .returned) :
    Finality { s with
      disconnects := Function.update s.disconnects d pc
      alive, shuttingDown, eventTx, connection, events } := by
  have hupdate (x : Nat) : Function.update s.disconnects d pc x =
      if x = d then pc else s.disconnects x := Function.update_apply ..
  refine ⟨fun _ _ => hflag, fun x hx => ?_, h.holder, fun x hx => ?_, fun x hx => ?_,
    fun x hx => ?_⟩ <;> simp only [hupdate] at hx <;> split at hx
  next => exact hdead.elim id fun hd => hd.1.trans (h.dead d (hd.2 hx))
  next => exact hdead.elim id fun hd => hd.1.trans (h.dead x hx)
  next => exact h.stopped d (hstopped hx)
  next => exact h.stopped x hx
  next =>
    rcases hconn with hv | ⟨-, hnot⟩ | ⟨rfl, hd⟩
    · exact hv
    · exact absurd hx hnot
    · exact h.published d hd
  next =>
    rcases hconn with hv | ⟨rfl, -⟩ | ⟨rfl, -⟩
    · exact hv
    · exact h.published x hx
    · exact h.published x hx
  next => exact hclosed.elim id fun hc => absurd hx hc.2
  next => exact hclosed.elim id fun hc => hc.1.trans (h.closed x hx)

theorem Finality.takeNext {who : ShutdownCaller} (h : Finality s) (ht : Tasks s)
    (hin : s.InShutdown who)
    (hl : ∀ k, s.handlesLock.map (·.2) = some k → s.task s.handles.connection k = .stopped)
    (hwho : ∀ d, who = .disconnect d → ∀ f, s.reconnecting = some f → ¬ f.pc.Unrecorded) :
    Finality (s.takeNext who) := by
  cases who with
  | reconnect =>
      obtain ⟨f, hf, hpc⟩ := inShutdown_reconnect_iff.1 hin
      have hdisconnects : (s.takeNext .reconnect).disconnects = s.disconnects := by
        simp [Lifecycle.takeNext]
      have hgo : ∃ g, (s.takeNext .reconnect).reconnecting = some g ∧ ¬ g.pc.Unrecorded := by
        cases hn : s.handles.next <;>
          simp [Lifecycle.takeNext, hn, hf, hpc, ReconnectPc.Unrecorded]
      obtain ⟨g, hg, hu⟩ := hgo
      have hgone : ∀ f, (s.takeNext .reconnect).reconnecting = some f → ¬ f.pc.Unrecorded := by
        intro x hx
        obtain rfl := Option.some.inj (hg.symm.trans hx)
        exact hu
      constructor
      · rw [hdisconnects]; exact h.flag
      · rw [hdisconnects]; exact h.dead
      · exact fun _ _ _ => hgone
      · rw [hdisconnects]; exact fun d hd => ⟨(h.stopped d hd).1, hgone⟩
      · rw [hdisconnects]; exact h.published
      · rw [hdisconnects]; exact h.closed
  | disconnect d =>
      have hpc : s.disconnects d = .shutdown := hin
      have hrec : (s.takeNext (.disconnect d)).reconnecting = s.reconnecting := by
        simp [Lifecycle.takeNext]
      have hgone := hwho d rfl
      rw [← hrec] at hgone
      -- the call itself may have taken the last handle
      have hdisconnects (x : Nat) : (s.takeNext (.disconnect d)).disconnects x = s.disconnects x ∨
          s.handles.next = none ∧ (s.takeNext (.disconnect d)).disconnects x = .clear := by
        simp only [Lifecycle.takeNext]
        split
        next hn => exact .inr ⟨hn.1, rfl⟩
        next => exact .inl rfl
      refine ⟨fun x hx => ?_, fun x hx => ?_, fun _ _ _ => hgone, fun x hx => ⟨?_, hgone⟩,
        fun x hx => ?_, fun x hx => ?_⟩
      · exact h.flag d (by simp [hpc])
      · exact h.dead d (by simp [hpc, DisconnectPc.Flagged])
      · rcases hdisconnects x with heq | ⟨hn, -⟩
        · exact (h.stopped x (heq ▸ hx)).1
        · refine ht.all_stopped hn hl fun f hf hinstall => hwho d rfl f hf ?_
          rw [hinstall]
          trivial
      · rcases hdisconnects x with heq | ⟨-, heq⟩
        · exact h.published x (heq ▸ hx)
        · rw [heq] at hx; exact hx.elim
      · rcases hdisconnects x with heq | ⟨-, heq⟩
        · exact h.closed x (heq ▸ hx)
        · rw [heq] at hx; contradiction

/-- A task ends, or goes on to report a loss. -/
theorem Finality.endTask {c : Nat} {k : TaskKind} {t : TaskState} {alive : Bool}
    {connection : Watch ConnectionState} {events : Mpsc CastEvent} (h : Finality s)
    (hrun : s.task c k ≠ .stopped) (halive : alive = false ∨ alive = s.alive)
    (hconn : connection.value = .disconnected ∨ connection = s.connection) :
    Finality { s with task := setTask s.task c k t, alive, connection, events } := by
  refine ⟨h.flag, fun d hd => ?_, h.holder, fun d hd => absurd ((h.stopped d hd).1 c k) hrun,
    fun d hd => ?_, h.closed⟩
  · exact halive.elim id fun heq => heq.trans (h.dead d hd)
  · rcases hconn with hv | rfl
    · exact hv
    · exact h.published d hd

theorem Finality.step (h : Finality s) (ht : Tasks s) (hok : Yields s a) (hs : Step cfg s a s') :
    Finality s' := by
  have hh := h
  obtain ⟨flag, dead, holder, stopped, published, closed⟩ := h
  cases hs with
  | builderSent h hw => exact ⟨flag, dead, holder, stopped, published, closed⟩
  | builderFailed h hw => exact ⟨flag, dead, holder, stopped, published, closed⟩
  | builderDone h =>
      -- nobody can call `disconnect` before the client is built
      have hidle := (ht.building (by simp [h])).2.1
      refine ⟨flag, dead, holder, stopped, fun d hd => ?_, closed⟩
      rw [show (s.builderDone cfg).disconnects d = .idle from hidle d] at hd
      exact hd.elim
  | fail h => exact hh.endTask (by simp [h]) (.inl rfl) (.inr rfl)
  | publishLoss h => exact hh.endTask (by simp [h]) (.inr rfl) (.inl rfl)
  | readerCleared h => exact hh.endTask (by simp [h]) (.inr rfl) (.inr rfl)
  | noticeCancel hc h => exact hh.endTask (by simp [h]) (.inr rfl) (.inr rfl)
  | noticeAbort ha h =>
      exact hh.endTask (by rcases h with h | h <;> simp [h]) (.inr rfl) (.inr rfl)
  | heartbeatQuit h hw => exact hh.endTask (by simp [h]) (.inr rfl) (.inr rfl)
  | emit h => exact ⟨flag, dead, holder, stopped, published, closed⟩
  | lockHandles hl hin =>
      refine Finality.takeNext ⟨flag, dead, holder, stopped, published, closed⟩ ?_
        (inShutdown_cancel hin) (by simp [hl]) ?_
      · exact ht.cancel
      · rintro d rfl
        exact hok
  | awaitHandle hl ht' =>
      refine hh.takeNext ht (ht.inShutdown hl) (fun k hk => ?_) ?_
      · rw [hl] at hk
        obtain rfl := Option.some.inj hk
        exact ht'
      · rintro d rfl
        exact holder d _ hl
  | reconnect hb h => exact hh.acquire _ _
  | tlsFailed h hpc => exact hh.returnErr _ _
  | tlsConnected h hpc =>
      unfold Lifecycle.tlsConnected
      split
      · exact hh.returnErr _ _
      · exact hh.proceed h False.elim
  | @swapWriteTx f h hpc =>
      have hgo := @Finality.proceed s f { f with pc := .arm } hh h False.elim
      exact ⟨hgo.flag, hgo.dead, hgo.holder, hgo.stopped, hgo.published, hgo.closed⟩
  | arm h hpc =>
      -- the flag is down, so no `disconnect` has started
      have hidle := hh.idle hok
      have hnone {P : DisconnectPc → Prop} (hP : ¬ P .idle) (d : Nat) : ¬ P (s.disconnects d) := by
        rw [hidle d]; exact hP
      refine ⟨fun d hd => absurd (hidle d) hd, fun d hd => absurd hd (hnone id d),
        fun d k hl => ?_, fun d hd => absurd hd (hnone id d), fun d hd => absurd hd (hnone id d),
        closed⟩
      have hshutdown := ht.byDisconnect d k hl
      rw [hidle d] at hshutdown
      contradiction
  | @clearAndSpawn f h hpc =>
      have hgo := @Finality.proceed s f { f with pc := .install, eventTx := false } hh h
        (by simp [hpc, ReconnectPc.Unrecorded])
      refine ⟨hgo.flag, hgo.dead, hgo.holder, fun d hd => ?_, hgo.published, hgo.closed⟩
      exact absurd (by simp [hpc, ReconnectPc.Unrecorded]) ((stopped d hd).2 f h)
  | @install f hl h hpc =>
      have hgo := @Finality.proceed s f { f with pc := .sendConnect } hh h False.elim
      exact ⟨hgo.flag, hgo.dead, hgo.holder, hgo.stopped, hgo.published, hgo.closed⟩
  | connectSent hw h hpc => exact hh.proceed h False.elim
  | connectFailed hw h hpc => exact hh.returnErr _ _
  | @readTransport f tid h hpc => cases tid <;> exact hh.proceed h False.elim
  | transportSent hw h hpc => exact hh.proceed h False.elim
  | transportFailed hw h hpc => exact hh.returnErr _ _
  | publishConnected h hpc => exact hh.release fun d hd => absurd hd (hok d)
  | disconnect hb h =>
      exact hh.disconnecting rfl (.inr ⟨rfl, False.elim⟩) False.elim (.inr (.inl ⟨rfl, id⟩))
        (.inr ⟨rfl, by simp⟩)
  | @flagDead d h =>
      exact hh.disconnecting (flag d (by simp [h])) (.inl rfl) False.elim (.inr (.inl ⟨rfl, id⟩))
        (.inr ⟨rfl, by simp⟩)
  | @publishDisconnected d h =>
      exact hh.disconnecting (flag d (by simp [h]))
        (.inr ⟨rfl, by simp [h, DisconnectPc.Flagged]⟩) (by simp [h, DisconnectPc.Stopped])
        (.inl rfl)
        (.inr ⟨rfl, by simp⟩)
  | @dropEventTx d h =>
      exact hh.disconnecting (flag d (by simp [h])) (.inr ⟨rfl, by simp [h, DisconnectPc.Flagged]⟩)
        (by simp [h, DisconnectPc.Stopped]) (.inr (.inr ⟨rfl, by simp [h, DisconnectPc.Published]⟩))
        (.inl rfl)
  | wake h hc => exact ⟨flag, dead, holder, stopped, published, closed⟩
  | beginAttempt h => exact ⟨flag, dead, holder, stopped, published, closed⟩
  | attempt ha h => exact hh.acquire _ _
  | nextEvent => exact ⟨flag, dead, holder, stopped, published, closed⟩

theorem finality_of_run (h : (system cfg).Run Yields (start cfg) s) : Finality s :=
  h.invariant_with (fun _ => tasks_of_run) finality_start
    fun _ _ _ ht hf hok hs => hf.step ht hok (step_cases hs)

/-! ## finality -/

/-- **Disconnect is final**: in every run in which no reconnect stores its flags
while `shutting_down` is set, no `disconnect` misses the tasks of a new
connection and no reconnect publishes after a `disconnect` has, the state after
a returned `disconnect` with no reconnect under way is final. -/
theorem disconnect_final (h : (system cfg).Run Yields (start cfg) s) {d : Nat}
    (hd : s.disconnects d = .returned) (hr : s.reconnecting = none) : Final s := by
  have hf := finality_of_run h
  have htasks := (hf.stopped d (by simp [hd, DisconnectPc.Stopped])).1
  have hsenders : ¬ s.SenderLeft := by
    rintro (htx | ⟨c, k, -, hrun, -⟩ | ⟨f, hf', -⟩)
    · rw [hf.closed d hd] at htx; contradiction
    · exact hrun (htasks c k)
    · rw [hr] at hf'; contradiction
  refine ⟨hf.dead d (by simp [hd, DisconnectPc.Flagged]), hf.flag d (by simp [hd]),
    hf.published d (by simp [hd, DisconnectPc.Published]), htasks, hsenders, ?_⟩
  intro senders hleft
  obtain rfl : senders = false := by simpa [hsenders] using hleft
  exact s.events.polls_drain

/-- The first connection is up, is lost by a write error, and a manual reconnect
has shut its tasks down and is in the TLS handshake. -/
def lostAndConnecting : List LifecycleAct :=
  [.builderSent, .builderDone, .fail 0 .writer none, .publishLoss 0 .writer, .reconnect,
    .lockHandles .reconnect, .noticeAbort 0 .reader, .awaitHandle, .awaitHandle,
    .noticeAbort 0 .heartbeat, .awaitHandle]

/-- A whole `disconnect` that finds no handle to take. -/
def disconnectActs : List LifecycleAct :=
  [.disconnect 0, .flagDead 0, .lockHandles (.disconnect 0), .publishDisconnected 0, .dropEventTx 0]

/-- Auto-reconnect with up to three attempts. -/
def autoCfg : ClientConfig := ⟨true, 3, 256⟩

/-- Only `lockHandles` is tested: the schedule has no other restricted step. -/
def yieldsTest (s : Lifecycle) : LifecycleAct → Bool
  | .lockHandles (.disconnect _) => s.reconnecting.all (·.pc = .connecting)
  | .arm | .publishConnected => false
  | _ => true

theorem yields_of_test (h : yieldsTest s a = true) : Yields s a := by
  cases a with
  | lockHandles who =>
      cases who with
      | reconnect => trivial
      | disconnect d =>
          intro f hf
          have hpc : f.pc = .connecting := by simpa [yieldsTest, hf] using h
          simp [hpc, ReconnectPc.Unrecorded]
  | arm => simp [yieldsTest] at h
  | publishConnected => simp [yieldsTest] at h
  | _ => trivial

/-- `disconnect` runs during the TLS handshake, which then succeeds in vain. -/
theorem disconnect_final_during_handshake :
    ∃ s, (system autoCfg).execIf yieldsTest (start autoCfg)
      (lostAndConnecting ++ disconnectActs ++ [.tlsConnected]) = some s ∧ Final s := by
  refine ⟨_, rfl, ?_⟩
  exact @disconnect_final autoCfg _
    (run_of_execIf (lostAndConnecting ++ disconnectActs ++ [.tlsConnected])
      (fun _ _ => yields_of_test) rfl) 0 rfl rfl

/-- The whole `disconnect` falls between the last check of `shutting_down` and
the store that resets it: the client comes back to life. -/
theorem disconnect_undone : ¬ ∀ (cfg : ClientConfig) (s : Lifecycle) (d : Nat),
    (system cfg).Reachable s → s.disconnects d = .returned → s.reconnecting = none → Final s := by
  intro h
  have hf := h autoCfg _ 0 (reachable_of_exec
    (lostAndConnecting ++ [.tlsConnected] ++ disconnectActs ++ [.swapWriteTx, .arm, .clearAndSpawn,
      .install, .connectSent, .readTransport none, .publishConnected]) rfl) rfl rfl
  exact absurd hf.alive (by decide)

end Oxicast.Lifecycle
