import Oxicast.Lifecycle.Generations

/-!
# Oxicast.Lifecycle.Reopen

A manual `reconnect` on a client that has been closed.

`disconnect` leaves `shutting_down` set, and `reconnect` gives up on it before
it does anything.  Should an overlapping reconnect have reset the flag, the
sender `disconnect` has replaced is still dead: the tasks of every later
connection get a clone of it, and none of their events arrives.
-/

namespace Oxicast.Lifecycle

open TransitionSystem

variable {cfg : ClientConfig} {s s' t : Lifecycle} {a : LifecycleAct} {ok : Bool}

/-! ## one manual reconnect -/

/-- No call is in progress, and no attempt of the auto-reconnect task. -/
structure Quiescent (s : Lifecycle) : Prop where
  reconnecting : s.reconnecting = none
  disconnects : ∀ d, s.disconnects d = .idle ∨ s.disconnects d = .returned
  auto : ∀ n, s.auto ≠ .attempting n

/-- What the reconnect under way returns by the step, if it returns. -/
def outcome (s : Lifecycle) : LifecycleAct → Option Bool
  | .reconnect =>
      match s.acquired with
      | .err => some false
      | .ok => some true
      | .reconnecting => none
  | .tlsConnected => if s.shuttingDown then some false else none
  | .tlsFailed | .connectFailed | .transportFailed => some false
  | .publishConnected => some true
  | _ => none

/-- A call returns `Ok` where it starts or where it publishes `Connected`. -/
theorem published_of_outcome (h : s.outcome a = some true) :
    a = .reconnect ∨ a = .publishConnected := by
  cases a with
  | reconnect => exact .inl rfl
  | publishConnected => exact .inr rfl
  | tlsConnected => cases hdown : s.shuttingDown <;> simp [outcome, hdown] at h
  | _ => simp [outcome] at h

/-- The handshake succeeds, the tasks of the connection `n` do not fail and nobody
calls `disconnect`. -/
def Untroubled (n : Nat) : LifecycleAct → Prop
  | .tlsFailed | .disconnect _ => False
  | .fail c _ _ | .heartbeatQuit c => c ≠ n
  | _ => True

/-- A manual reconnect, called in `s` and untroubled since, returns in `t`: `Ok` or
`Err`.  Other tasks run in between. -/
inductive Returned (cfg : ClientConfig) (s : Lifecycle) : Bool → Lifecycle → Prop
  | atOnce {ok : Bool} {t : Lifecycle} (hs : s.step cfg .reconnect = some t)
      (hout : s.outcome .reconnect = some ok) : Returned cfg s ok t
  | later {ok : Bool} {s₁ s₂ t : Lifecycle} {a : LifecycleAct}
      (hs : s.step cfg .reconnect = some s₁)
      (hout : s.outcome .reconnect = none)
      (hrun : (system cfg).Run (fun x b => Untroubled (s.writeTx + 1) b ∧ x.outcome b = none) s₁ s₂)
      (hok : Untroubled (s.writeTx + 1) a) (hlast : s₂.step cfg a = some t)
      (hret : s₂.outcome a = some ok) : Returned cfg s ok t

/-- The client is up: its tasks run, and their events reach `next_event`. -/
structure Connected (s : Lifecycle) : Prop where
  alive : s.alive = true
  connection : s.connection.value = .connected
  running : s.AllRunning
  shuttingDown : s.shuttingDown = false
  heard : s.taskEventTx s.writeTx = true

/-- A manual reconnect returns, and always with `Ok` and the client up. -/
def Reopens (cfg : ClientConfig) (s : Lifecycle) : Prop :=
  (∃ ok t, Returned cfg s ok t) ∧ ∀ ok t, Returned cfg s ok t → ok = true ∧ Connected t

/-! ## the dead sender -/

/-- A `disconnect` that has returned has replaced `event_tx`. -/
def Closed (s : Lifecycle) : Prop := ∀ d, s.disconnects d = .returned → s.eventTx = false

theorem Closed.congr (h : Closed s) (hd : s'.disconnects = s.disconnects)
    (htx : s'.eventTx = s.eventTx) : Closed s' := by
  intro d hret
  rw [htx]
  exact h d (hd ▸ hret)

/-- A `disconnect` goes on. -/
theorem Closed.update {d : Nat} {pc : DisconnectPc} (h : Closed s)
    (hd : s'.disconnects = Function.update s.disconnects d pc) (htx : s'.eventTx = s.eventTx)
    (hpc : pc ≠ .returned) : Closed s' := by
  intro x hret
  rw [hd, Function.update_apply] at hret
  split at hret
  next => exact absurd hret hpc
  next =>
    rw [htx]
    exact h x hret

theorem eventTx_returnErr (s : Lifecycle) (caller : Caller) (n : Nat) :
    (s.returnErr cfg caller n).eventTx = s.eventTx := by
  obtain ⟨_, _, _, heq⟩ := @returnErr_eq cfg s caller n
  rw [heq]

theorem Closed.returnErr (h : Closed s) (caller : Caller) (n : Nat) :
    Closed (s.returnErr cfg caller n) :=
  h.congr (disconnects_returnErr s caller n) (eventTx_returnErr s caller n)

theorem Closed.acquire (h : Closed s) (caller : Caller) (n : Nat) :
    Closed (s.acquire cfg caller n) := by
  refine h.congr (disconnects_acquire s caller n) ?_
  unfold Lifecycle.acquire
  split_ifs
  · exact eventTx_returnErr s caller n
  · rfl
  · rfl

theorem Closed.takeNext {who : ShutdownCaller} (h : Closed s) : Closed (s.takeNext who) := by
  intro d hret
  simp only [Lifecycle.takeNext] at hret
  split at hret
  next => contradiction
  next => exact h d hret

theorem Closed.step (h : Closed s) (hs : Step cfg s a s') : Closed s' := by
  cases hs with
  | lockHandles hl hin => exact Closed.takeNext h
  | awaitHandle hl ht => exact h.takeNext
  | reconnect hb hr => exact h.acquire .manual 1
  | attempt ha hr => exact h.acquire .auto _
  | tlsFailed hf hpc => exact h.returnErr _ _
  | connectFailed hw hf hpc => exact h.returnErr _ _
  | transportFailed hw hf hpc => exact h.returnErr _ _
  | tlsConnected hf hpc =>
      unfold Lifecycle.tlsConnected
      split
      · exact h.returnErr _ _
      · exact h.congr rfl rfl
  | disconnect hb hd => exact h.update rfl rfl (by simp)
  | flagDead hd => exact h.update rfl rfl (by simp)
  | publishDisconnected hd => exact h.update rfl rfl (by simp)
  | dropEventTx hd => exact fun _ _ => rfl
  | _ => exact h.congr rfl rfl

theorem closed_of_run {ok : Lifecycle → LifecycleAct → Prop}
    (h : (system cfg).Run ok (start cfg) s) : Closed s :=
  h.invariant (I := Closed) (fun _ hd => absurd hd (by simp [start]))
    fun _ _ _ hc _ hs => hc.step (step_cases hs)

/-! ## a reconnect with the dead sender -/

/-- The reconnect under way has no sender of the channel `next_event` reads, and
neither have the tasks it has spawned. -/
structure Muted (s : Lifecycle) : Prop where
  eventTx : s.eventTx = false
  holder : ∃ f, s.reconnecting = some f ∧ (f.pc = .clear → f.eventTx = false) ∧
    (¬ f.pc.Unarmed → f.pc ≠ .clear → s.taskEventTx s.writeTx = false)

theorem Muted.congr (h : Muted s) (htx : s'.eventTx = s.eventTx)
    (hrec : s'.reconnecting = s.reconnecting) (htask : s'.taskEventTx = s.taskEventTx)
    (hw : s'.writeTx = s.writeTx) : Muted s' := by
  obtain ⟨f, hf, hclear, hspawned⟩ := h.holder
  refine ⟨htx.trans h.eventTx, f, hrec.trans hf, hclear, ?_⟩
  rw [htask, hw]
  exact hspawned

/-- The reconnect goes on, before its spawn or after it. -/
theorem Muted.proceed {f g : Reconnect} (h : Muted s) (hf : s.reconnecting = some f)
    (htx : s'.eventTx = s.eventTx) (hrec : s'.reconnecting = some g) (hclear : g.pc ≠ .clear)
    (hg : g.pc.Unarmed ∨ ¬ f.pc.Unarmed ∧ f.pc ≠ .clear ∧ s'.taskEventTx = s.taskEventTx ∧
      s'.writeTx = s.writeTx) : Muted s' := by
  obtain ⟨f', hf', -, hspawned⟩ := h.holder
  obtain rfl := Option.some.inj (hf.symm.trans hf')
  refine ⟨htx.trans h.eventTx, g, hrec, fun hpc => absurd hpc hclear, fun hunarmed _ => ?_⟩
  obtain ⟨hpc, hnot, htask, hw⟩ := hg.resolve_left hunarmed
  rw [htask, hw]
  exact hspawned hpc hnot

theorem Muted.takeNext {who : ShutdownCaller} (h : Muted s) (hin : s.InShutdown who) :
    Muted (s.takeNext who) := by
  cases who with
  | reconnect =>
      obtain ⟨f, hf, hpc⟩ := inShutdown_reconnect_iff.1 hin
      cases hn : s.handles.next with
      | none =>
          exact h.proceed (g := { f with pc := .connecting }) hf rfl
            (by simp [Lifecycle.takeNext, hn, hf]) (by simp) (.inl trivial)
      | some k =>
          refine h.congr rfl ?_ rfl rfl
          simp [Lifecycle.takeNext, hn]
  | disconnect d =>
      refine h.congr rfl ?_ rfl rfl
      simp [Lifecycle.takeNext]

/-- No second call acquires the lock. -/
theorem Muted.not_free (h : Muted s) : s.reconnecting ≠ none := by
  obtain ⟨f, hf, -⟩ := h.holder
  simp [hf]

theorem Muted.step (h : Muted s) (ht : Tasks s) (hs : Step cfg s a s') (hout : s.outcome a = none) :
    Muted s' := by
  cases hs with
  | lockHandles hl hin =>
      exact Muted.takeNext (h.congr rfl rfl rfl rfl) (inShutdown_cancel hin)
  | awaitHandle hl hstop => exact h.takeNext (ht.inShutdown hl)
  | reconnect hb hr => exact absurd hr h.not_free
  | attempt ha hr => exact absurd hr h.not_free
  | tlsFailed hf hpc => contradiction
  | connectFailed hw hf hpc => contradiction
  | transportFailed hw hf hpc => contradiction
  | publishConnected hf hpc => contradiction
  | @tlsConnected f hf hpc =>
      have hdown : s.shuttingDown = false := by
        simpa [outcome] using hout
      simp only [Lifecycle.tlsConnected, hdown]
      exact h.proceed (g := { f with pc := .swapWriteTx }) hf rfl rfl (by simp) (.inl trivial)
  | @swapWriteTx f hf hpc =>
      exact h.proceed (g := { f with pc := .arm }) hf rfl rfl (by simp) (.inl trivial)
  | @arm f hf hpc =>
      -- the clone is taken of the dead sender
      exact ⟨h.eventTx, _, rfl, fun _ => h.eventTx, fun _ hnot => absurd rfl hnot⟩
  | @clearAndSpawn f hf hpc =>
      obtain ⟨f', hf', hclear, -⟩ := h.holder
      obtain rfl := Option.some.inj (hf.symm.trans hf')
      refine ⟨h.eventTx, _, rfl, fun _ => rfl, fun _ _ => ?_⟩
      exact (if_pos rfl).trans (hclear hpc)
  | @install f hl hf hpc =>
      exact h.proceed (g := { f with pc := .sendConnect }) hf rfl rfl (by simp)
        (.inr (by simp [hpc, ReconnectPc.Unarmed, Lifecycle.install]))
  | @connectSent f hw hf hpc =>
      exact h.proceed (g := { f with pc := .readTransport }) hf rfl rfl (by simp)
        (.inr (by simp [hpc, ReconnectPc.Unarmed, Lifecycle.connectSent]))
  | @readTransport f tid hf hpc =>
      refine h.proceed (g := { f with pc := tid.elim .publish .sendTransport }) hf rfl rfl ?_
        (.inr (by simp [hpc, ReconnectPc.Unarmed, Lifecycle.readTransport]))
      cases tid <;> simp
  | @transportSent f tid hw hf hpc =>
      exact h.proceed (g := { f with pc := .publish }) hf rfl rfl (by simp)
        (.inr (by simp [hpc, ReconnectPc.Unarmed, Lifecycle.transportSent]))
  | dropEventTx hd =>
      obtain ⟨f, hf, hclear, hspawned⟩ := h.holder
      exact ⟨rfl, f, hf, hclear, hspawned⟩
  | _ => exact h.congr rfl rfl rfl rfl

/-- Along a run in which the reconnect does not return. -/
theorem Muted.run {n : Nat} (h : Muted s) (ht : Tasks s)
    (hrun : (system cfg).Run (fun x b => Untroubled n b ∧ x.outcome b = none) s t) :
    Tasks t ∧ Muted t := by
  refine hrun.invariant (I := fun x => Tasks x ∧ Muted x) ⟨ht, h⟩ ?_
  rintro x b y ⟨hx, hm⟩ ⟨-, hnone⟩ hstep
  have hy := step_cases hstep
  exact ⟨hx.step hy, hm.step hx hy hnone⟩

/-! ## after a `disconnect` -/

theorem Connected.not_of_muted (h : Connected t) (htx : t.taskEventTx t.writeTx = false) :
    False := by
  have hheard := h.heard
  rw [htx] at hheard
  contradiction

/-- While `shutting_down` is set a call returns `Err` at once. -/
theorem err_of_shuttingDown (hdown : s.shuttingDown = true) (h : Returned cfg s ok t) :
    ok = false := by
  have herr : s.outcome .reconnect = some false := by
    simp [outcome, acquired, hdown]
  cases h with
  | atOnce hs hout => exact (Option.some.inj (herr.symm.trans hout)).symm
  | later hs hout hrun hok hlast hret =>
      rw [herr] at hout
      contradiction

/-- In a run in which no reconnect stores its flags over those of a `disconnect`,
no reconnect succeeds once a `disconnect` has begun. -/
theorem refused_of_yields (h : (system cfg).Run Yields (start cfg) s) {d : Nat}
    (hd : s.disconnects d ≠ .idle) (hret : Returned cfg s ok t) : ok = false :=
  err_of_shuttingDown ((finality_of_run h).flag d hd) hret

theorem connected_returnOk_iff : Connected (s.returnOk .manual) ↔ Connected s :=
  ⟨fun h => ⟨h.alive, h.connection, h.running, h.shuttingDown, h.heard⟩,
    fun h => ⟨h.alive, h.connection, h.running, h.shuttingDown, h.heard⟩⟩

/-- A client that is alive is left as it is. -/
theorem returned_of_alive (hdown : s.shuttingDown = false) (halive : s.alive = true)
    (h : Returned cfg s ok t) : ok = true ∧ t = s.returnOk .manual := by
  have hacq : s.acquired = .ok := by
    simp [acquired, hdown, halive]
  have hout' : s.outcome .reconnect = some true := by
    simp [outcome, hacq]
  cases h with
  | atOnce hs hout =>
      cases step_cases hs with
      | reconnect hb hr =>
          exact ⟨(Option.some.inj (hout'.symm.trans hout)).symm, acquire_of_ok hacq .manual 1⟩
  | later hs hout hrun hok hlast hret =>
      rw [hout'] at hout
      contradiction

/-- A call that opens a connection after a `disconnect` has returned leaves its
tasks without a sender. -/
theorem muted_of_returned (ht : Tasks s) (htx : s.eventTx = false) (hdown : s.shuttingDown = false)
    (halive : s.alive = false) (h : Returned cfg s true t) : t.taskEventTx t.writeTx = false := by
  have hgo : s.outcome .reconnect = none := by
    simp [outcome, acquired, hdown, halive]
  cases h with
  | atOnce hs hout =>
      rw [hgo] at hout
      contradiction
  | @later s₁ s₂ t a hs hout hrun hok hlast hret =>
      have hmuted : Muted s₁ := by
        cases step_cases hs with
        | reconnect hb hr =>
            simp only [acquire, hdown, halive]
            exact ⟨htx, _, rfl, by simp, fun hnot => absurd trivial hnot⟩
      obtain ⟨ht₂, hm⟩ := hmuted.run (ht.step (step_cases hs)) hrun
      obtain ⟨f, hf, -, hspawned⟩ := hm.holder
      rcases published_of_outcome hret with rfl | rfl
      · cases step_cases hlast with
        | reconnect hb hr => exact absurd hr hm.not_free
      · cases step_cases hlast with
        | publishConnected hf' hpc =>
            obtain rfl := Option.some.inj (hf.symm.trans hf')
            exact hspawned (by simp [hpc, ReconnectPc.Unarmed]) (by simp [hpc])

/-- **Reopening a closed client**: after a returned `disconnect`, with no call in
progress, a manual reconnect brings the client up exactly when it is up already:
when an overlapping reconnect has undone that `disconnect`. -/
theorem reopens_iff (h : (system cfg).Reachable s) {d : Nat} (hd : s.disconnects d = .returned)
    (hq : Quiescent s) : Reopens cfg s ↔ Connected s := by
  have ht : Tasks s := tasks_of_run h
  have htx := closed_of_run h d hd
  constructor
  · rintro ⟨⟨ok, t, hret⟩, hall⟩
    obtain ⟨rfl, hup⟩ := hall ok t hret
    cases hdown : s.shuttingDown with
    | true =>
        have herr := err_of_shuttingDown hdown hret
        contradiction
    | false =>
        cases halive : s.alive with
        | true =>
            obtain ⟨-, rfl⟩ := returned_of_alive hdown halive hret
            exact connected_returnOk_iff.1 hup
        | false =>
            exact (hup.not_of_muted (muted_of_returned ht htx hdown halive hret)).elim
  · intro hup
    have hacq : s.acquired = .ok := by
      simp [acquired, hup.shuttingDown, hup.alive]
    have hs : s.step cfg .reconnect = some (s.returnOk .manual) := by
      rw [step, if_pos ⟨ht.disconnected hd (by simp), hq.reconnecting⟩, acquire_of_ok hacq]
    refine ⟨⟨true, _, .atOnce hs (by simp [outcome, hacq])⟩, fun ok t hret => ?_⟩
    obtain ⟨rfl, rfl⟩ := returned_of_alive hup.shuttingDown hup.alive hret
    exact ⟨rfl, connected_returnOk_iff.2 hup⟩

/-- A reconnect clones `event_tx` and resets the flags after the `Disconnected` of
a `disconnect` and before its drop of the sender. -/
def undoneActs : List LifecycleAct :=
  lostAndConnecting ++ [.tlsConnected, .disconnect 0, .flagDead 0, .lockHandles (.disconnect 0),
    .publishDisconnected 0, .swapWriteTx, .arm, .dropEventTx 0, .clearAndSpawn, .install,
    .connectSent,
    .readTransport none, .publishConnected]

/-- The `disconnect` is undone, and a later reconnect has nothing to do. -/
theorem reopens_undone : ∃ s, (system autoCfg).exec (start autoCfg) undoneActs = some s ∧
    Reopens autoCfg s := by
  have hreach := reachable_of_exec (M := system autoCfg) undoneActs rfl
  refine ⟨_, rfl, (reopens_iff (d := 0) hreach rfl ⟨rfl, fun d => ?_, nofun⟩).2
    ⟨rfl, rfl, fun k => ?_, rfl, rfl⟩⟩
  · cases d with
    | zero => exact .inr rfl
    | succ d => exact .inl rfl
  · cases k <;> rfl

/-- The client is built, then closed. -/
def closedActs : List LifecycleAct :=
  [.builderSent, .builderDone, .disconnect 0, .flagDead 0, .lockHandles (.disconnect 0),
    .noticeCancel 0 .reader, .readerCleared 0, .awaitHandle, .noticeCancel 0 .writer, .awaitHandle,
    .noticeCancel 0 .heartbeat, .awaitHandle, .publishDisconnected 0, .dropEventTx 0]

/-- A client that is connected and then closed cannot be reopened: `reconnect`
returns `Err`. -/
theorem closed_client_refuses : ¬ ∀ (cfg : ClientConfig) (s : Lifecycle) (d : Nat),
    (system cfg).Reachable s → s.disconnects d = .returned → Quiescent s → Reopens cfg s := by
  intro h
  have hreopens := h autoCfg _ 0 (reachable_of_exec closedActs rfl) rfl
    ⟨rfl, fun d => by cases d; exacts [.inr rfl, .inl rfl], nofun⟩
  have hok := (hreopens.2 false _ (.atOnce rfl rfl)).1
  contradiction

end Oxicast.Lifecycle
