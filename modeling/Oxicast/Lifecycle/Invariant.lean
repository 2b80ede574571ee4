import Oxicast.Lifecycle

/-!
# Oxicast.Lifecycle.Invariant

What one step of the client can do, and what holds in every reachable state
whatever the interleaving: every task that is not finished belongs to the
connection `write_tx` feeds, and its handle is recorded, being awaited, or about
to be installed.
-/

namespace Oxicast.Lifecycle

open TransitionSystem

variable {cfg : ClientConfig} {s s' : Lifecycle} {a : LifecycleAct}

/-- What one step can do, with the guard it passes. -/
inductive Step (cfg : ClientConfig) (s : Lifecycle) : LifecycleAct → Lifecycle → Prop
  | builderSent (h : s.builder = .sendConnect) (hw : s.task 0 .writer ≠ .stopped) :
      Step cfg s .builderSent s.builderSent
  | builderFailed (h : s.builder = .sendConnect) (hw : s.task 0 .writer = .stopped) :
      Step cfg s .builderFailed { s with builder := .failed }
  | builderDone (h : s.builder = .publish) : Step cfg s .builderDone (s.builderDone cfg)
  | fail {c : Nat} {k : TaskKind} {reason : Option String} (h : s.task c k = .running) :
      Step cfg s (.fail c k reason) (s.fail c k reason)
  | publishLoss {c : Nat} {k : TaskKind} (h : s.task c k = .failing) :
      Step cfg s (.publishLoss c k) (s.publishLoss c k)
  | readerCleared {c : Nat} (h : s.task c .reader = .clearing) :
      Step cfg s (.readerCleared c) (s.stop c .reader)
  | noticeCancel {c : Nat} {k : TaskKind} (hc : s.cancelled c = true) (h : s.task c k = .running) :
      Step cfg s (.noticeCancel c k) (s.noticeCancel c k)
  | noticeAbort {c : Nat} {k : TaskKind} (ha : s.aborted c k = true)
      (h : s.task c k = .running ∨ s.task c k = .clearing) :
      Step cfg s (.noticeAbort c k) (s.stop c k)
  | heartbeatQuit {c : Nat} (h : s.task c .heartbeat = .running)
      (hw : s.task c .writer = .stopped) :
      Step cfg s (.heartbeatQuit c) (s.stop c .heartbeat)
  | emit {c : Nat} {es : List CastEvent} (h : s.task c .reader = .running) :
      Step cfg s (.emit c es) (s.emit c es)
  | lockHandles {who : ShutdownCaller} (hl : s.handlesLock = none) (h : s.InShutdown who) :
      Step cfg s (.lockHandles who) (s.beginShutdown who)
  | awaitHandle {who : ShutdownCaller} {k : TaskKind} (hl : s.handlesLock = some (who, k))
      (h : s.task s.handles.connection k = .stopped) : Step cfg s .awaitHandle (s.takeNext who)
  | reconnect (hb : s.builder = .done) (h : s.reconnecting = none) :
      Step cfg s .reconnect (s.acquire cfg .manual 1)
  | tlsFailed {f : Reconnect} (h : s.reconnecting = some f) (hpc : f.pc = .connecting) :
      Step cfg s .tlsFailed (s.returnErr cfg f.caller f.attempt)
  | tlsConnected {f : Reconnect} (h : s.reconnecting = some f) (hpc : f.pc = .connecting) :
      Step cfg s .tlsConnected (s.tlsConnected cfg f)
  | swapWriteTx {f : Reconnect} (h : s.reconnecting = some f) (hpc : f.pc = .swapWriteTx) :
      Step cfg s .swapWriteTx (s.swapWriteTx f)
  | arm {f : Reconnect} (h : s.reconnecting = some f) (hpc : f.pc = .arm) :
      Step cfg s .arm (s.arm f)
  | clearAndSpawn {f : Reconnect} (h : s.reconnecting = some f) (hpc : f.pc = .clear) :
      Step cfg s .clearAndSpawn (s.clearAndSpawn f)
  | install {f : Reconnect} (hl : s.handlesLock = none) (h : s.reconnecting = some f)
      (hpc : f.pc = .install) : Step cfg s .install (s.install f)
  | connectSent {f : Reconnect} (hw : s.task s.writeTx .writer ≠ .stopped)
      (h : s.reconnecting = some f) (hpc : f.pc = .sendConnect) :
      Step cfg s .connectSent (s.connectSent f)
  | connectFailed {f : Reconnect} (hw : s.task s.writeTx .writer = .stopped)
      (h : s.reconnecting = some f) (hpc : f.pc = .sendConnect) :
      Step cfg s .connectFailed (s.returnErr cfg f.caller f.attempt)
  | readTransport {f : Reconnect} {tid : Option String} (h : s.reconnecting = some f)
      (hpc : f.pc = .readTransport) : Step cfg s (.readTransport tid) (s.readTransport f tid)
  | transportSent {f : Reconnect} {tid : String} (hw : s.task s.writeTx .writer ≠ .stopped)
      (h : s.reconnecting = some f) (hpc : f.pc = .sendTransport tid) :
      Step cfg s .transportSent (s.transportSent f)
  | transportFailed {f : Reconnect} {tid : String} (hw : s.task s.writeTx .writer = .stopped)
      (h : s.reconnecting = some f) (hpc : f.pc = .sendTransport tid) :
      Step cfg s .transportFailed (s.returnErr cfg f.caller f.attempt)
  | publishConnected {f : Reconnect} (h : s.reconnecting = some f) (hpc : f.pc = .publish) :
      Step cfg s .publishConnected (s.publishConnected f)
  | disconnect {d : Nat} (hb : s.builder = .done) (h : s.disconnects d = .idle) :
      Step cfg s (.disconnect d) (s.beginDisconnect d)
  | flagDead {d : Nat} (h : s.disconnects d = .closing) : Step cfg s (.flagDead d) (s.flagDead d)
  | publishDisconnected {d : Nat} (h : s.disconnects d = .clear) :
      Step cfg s (.publishDisconnected d) (s.publishDisconnected d)
  | dropEventTx {d : Nat} (h : s.disconnects d = .dropEventTx) :
      Step cfg s (.dropEventTx d) (s.dropEventTx d)
  | wake (h : s.auto = .parked) (hc : s.connection.Changed s.autoSeen) : Step cfg s .wake s.wake
  | beginAttempt {n : Nat} (h : s.auto = .backoff n) : Step cfg s .beginAttempt (s.beginAttempt n)
  | attempt {n : Nat} (ha : s.auto = .attempting n) (h : s.reconnecting = none) :
      Step cfg s .attempt (s.acquire cfg .auto n)
  | nextEvent : Step cfg s .nextEvent s.nextEvent

theorem of_atPc {pc : ReconnectPc} {go : Reconnect → Lifecycle} (h : s.atPc pc go = some s') :
    ∃ f, s.reconnecting = some f ∧ f.pc = pc ∧ go f = s' := by
  unfold atPc at h
  split at h
  next f hf =>
    obtain ⟨hpc, rfl⟩ := of_if h
    exact ⟨f, hf, hpc, rfl⟩
  next => contradiction

/-- The step function does what `Step` says. -/
theorem step_cases (h : s.step cfg a = some s') : Step cfg s a s' := by
  cases a with
  | builderSent => obtain ⟨⟨hb, hw⟩, rfl⟩ := of_if h; exact .builderSent hb hw
  | builderFailed => obtain ⟨⟨hb, hw⟩, rfl⟩ := of_if h; exact .builderFailed hb hw
  | builderDone => obtain ⟨hb, rfl⟩ := of_if h; exact .builderDone hb
  | fail c k reason => obtain ⟨ht, rfl⟩ := of_if h; exact .fail ht
  | publishLoss c k => obtain ⟨ht, rfl⟩ := of_if h; exact .publishLoss ht
  | readerCleared c => obtain ⟨ht, rfl⟩ := of_if h; exact .readerCleared ht
  | noticeCancel c k => obtain ⟨⟨hc, ht⟩, rfl⟩ := of_if h; exact .noticeCancel hc ht
  | noticeAbort c k => obtain ⟨⟨ha, ht⟩, rfl⟩ := of_if h; exact .noticeAbort ha ht
  | heartbeatQuit c => obtain ⟨⟨ht, hw⟩, rfl⟩ := of_if h; exact .heartbeatQuit ht hw
  | emit c es => obtain ⟨ht, rfl⟩ := of_if h; exact .emit ht
  | lockHandles who => obtain ⟨⟨hl, hin⟩, rfl⟩ := of_if h; exact .lockHandles hl hin
  | awaitHandle =>
      simp only [step] at h
      split at h
      next who k hl => obtain ⟨ht, rfl⟩ := of_if h; exact .awaitHandle hl ht
      next => contradiction
  | reconnect => obtain ⟨⟨hb, hf⟩, rfl⟩ := of_if h; exact .reconnect hb hf
  | tlsFailed => obtain ⟨f, hf, hpc, rfl⟩ := of_atPc h; exact .tlsFailed hf hpc
  | tlsConnected => obtain ⟨f, hf, hpc, rfl⟩ := of_atPc h; exact .tlsConnected hf hpc
  | swapWriteTx => obtain ⟨f, hf, hpc, rfl⟩ := of_atPc h; exact .swapWriteTx hf hpc
  | arm => obtain ⟨f, hf, hpc, rfl⟩ := of_atPc h; exact .arm hf hpc
  | clearAndSpawn => obtain ⟨f, hf, hpc, rfl⟩ := of_atPc h; exact .clearAndSpawn hf hpc
  | install =>
      simp only [step] at h
      split at h
      next hl => obtain ⟨f, hf, hpc, rfl⟩ := of_atPc h; exact .install hl hf hpc
      next => contradiction
  | connectSent =>
      simp only [step] at h
      split at h
      next hw => obtain ⟨f, hf, hpc, rfl⟩ := of_atPc h; exact .connectSent hw hf hpc
      next => contradiction
  | connectFailed =>
      simp only [step] at h
      split at h
      next hw => obtain ⟨f, hf, hpc, rfl⟩ := of_atPc h; exact .connectFailed hw hf hpc
      next => contradiction
  | readTransport tid => obtain ⟨f, hf, hpc, rfl⟩ := of_atPc h; exact .readTransport hf hpc
  | transportSent =>
      simp only [step] at h
      split at h
      next caller n tid tx hf => obtain ⟨hw, rfl⟩ := of_if h; exact .transportSent hw hf rfl
      next => contradiction
  | transportFailed =>
      simp only [step] at h
      split at h
      next caller n tid tx hf => obtain ⟨hw, rfl⟩ := of_if h; exact .transportFailed hw hf rfl
      next => contradiction
  | publishConnected => obtain ⟨f, hf, hpc, rfl⟩ := of_atPc h; exact .publishConnected hf hpc
  | disconnect d => obtain ⟨⟨hb, hd⟩, rfl⟩ := of_if h; exact .disconnect hb hd
  | flagDead d => obtain ⟨hd, rfl⟩ := of_if h; exact .flagDead hd
  | publishDisconnected d => obtain ⟨hd, rfl⟩ := of_if h; exact .publishDisconnected hd
  | dropEventTx d => obtain ⟨hd, rfl⟩ := of_if h; exact .dropEventTx hd
  | wake => obtain ⟨⟨ha, hc⟩, rfl⟩ := of_if h; exact .wake ha hc
  | beginAttempt =>
      simp only [step] at h
      split at h
      next n hn => cases h; exact .beginAttempt hn
      next => contradiction
  | attempt =>
      simp only [step] at h
      split at h
      next n hn => obtain ⟨hf, rfl⟩ := of_if h; exact .attempt hn hf
      next => contradiction
  | nextEvent => cases h; exact .nextEvent

/-- What `Step` says can be done. -/
theorem Step.enabled (h : Step cfg s a s') : s.step cfg a = some s' := by
  cases h with
  | awaitHandle hl ht => simp [step, hl, ht]
  | @transportSent f tid hw h hpc =>
      obtain ⟨caller, attempt, pc, eventTx⟩ := f
      cases hpc
      simp [step, h, hw]
  | @transportFailed f tid hw h hpc =>
      obtain ⟨caller, attempt, pc, eventTx⟩ := f
      cases hpc
      simp [step, h, hw]
  | _ => simp [step, atPc, *]

/-! ## the tasks -/

attribute [grind =] setTask
attribute [grind] ReconnectPc.Bare ReconnectPc.Unarmed

/-- A task has stored `alive = false` and still has to publish its `Disconnected`. -/
def AnyFailing (task : Nat → TaskKind → TaskState) : Prop := ∃ c k, task c k = .failing

@[grind .] theorem anyFailing_fail (task : Nat → TaskKind → TaskState) (c : Nat) (k : TaskKind) :
    AnyFailing (setTask task c k .failing) := ⟨c, k, by simp [setTask]⟩

/-- A task that neither was nor is failing makes no difference. -/
@[grind ←] theorem AnyFailing.setTask {task : Nat → TaskKind → TaskState} {c : Nat} {k : TaskKind}
    (h : AnyFailing task) (hk : task c k ≠ .failing) (t : TaskState) :
    AnyFailing (setTask task c k t) := by
  obtain ⟨c', k', hf⟩ := h
  refine ⟨c', k', ?_⟩
  rw [Lifecycle.setTask, if_neg, hf]
  rintro ⟨rfl, rfl⟩
  exact hk hf

/-- Who owns the tasks that are not finished, and what they say about `alive`;
before the client is built nobody calls it. -/
structure Tasks (s : Lifecycle) : Prop where
  owned : ∀ c k, s.task c k ≠ .stopped → c = s.writeTx ∧
    (s.reconnecting.map (·.pc) = some .install ∨ s.handles.connection = c ∧
      (s.handles.recorded k = true ∨ s.handlesLock.map (·.2) = some k))
  bare : ∀ f, s.reconnecting = some f → f.pc.Bare → ∀ c k, s.task c k = .stopped
  byReconnect : ∀ k, s.handlesLock = some (.reconnect, k) →
    s.reconnecting.map (·.pc) = some .shutdown
  byDisconnect : ∀ d k, s.handlesLock = some (.disconnect d, k) → s.disconnects d = .shutdown
  failing : ∀ c k, s.task c k = .failing → s.alive = false
  unarmed : ∀ f, s.reconnecting = some f → f.pc.Unarmed → s.alive = false
  building : s.builder ≠ .done →
    s.reconnecting = none ∧ (∀ d, s.disconnects d = .idle) ∧ s.auto = .off ∧ s.writeTx = 0

theorem tasks_start : Tasks (start cfg) := by
  unfold start; constructor <;> grind [TaskHandles.all]

/-- Whoever holds the `task_handles` lock is in its shutdown phase. -/
theorem Tasks.inShutdown {who : ShutdownCaller} {k : TaskKind} (h : Tasks s)
    (hl : s.handlesLock = some (who, k)) : s.InShutdown who := by
  cases who with
  | reconnect => exact h.byReconnect k hl
  | disconnect d => exact h.byDisconnect d k hl

theorem inShutdown_cancel {who : ShutdownCaller} {cancelled : Nat → Bool} (h : s.InShutdown who) :
    { s with cancelled }.InShutdown who := by
  cases who <;> exact h

theorem inShutdown_reconnect_iff :
    s.InShutdown .reconnect ↔ ∃ f, s.reconnecting = some f ∧ f.pc = .shutdown := by
  simp [InShutdown, Option.map_eq_some_iff]

/-- Cancelling a token changes nothing here. -/
theorem Tasks.cancel {cancelled : Nat → Bool} (h : Tasks s) : Tasks { s with cancelled } := by
  obtain ⟨owned, bare, byReconnect, byDisconnect, failing, unarmed, building⟩ := h
  exact ⟨owned, bare, byReconnect, byDisconnect, failing, unarmed, building⟩

/-- `shutdown` takes one more handle, the awaited one being finished. -/
theorem Tasks.takeNext {who : ShutdownCaller} (h : Tasks s) (hin : s.InShutdown who)
    (hl : ∀ k, s.handlesLock.map (·.2) = some k → s.task s.handles.connection k = .stopped) :
    Tasks (s.takeNext who) := by
  obtain ⟨owned, bare, byReconnect, byDisconnect, failing, unarmed, building⟩ := h
  have hnone := s.handles.next_eq_none_iff
  unfold Lifecycle.takeNext
  cases who with
  | reconnect =>
      obtain ⟨f, hf, hpc⟩ := inShutdown_reconnect_iff.1 hin
      cases hn : s.handles.next with
      | none => constructor <;> grind
      | some k => constructor <;> simp only [Option.map_some] <;> grind
  | disconnect d =>
      have hpc : s.disconnects d = .shutdown := hin
      cases hn : s.handles.next with
      | none => constructor <;> grind
      | some k => constructor <;> simp only [Option.map_some] <;> grind

/-- When no handle is left to take and the awaited task is finished, all tasks
are, unless those of a new connection wait for their handles to be installed. -/
theorem Tasks.all_stopped (h : Tasks s) (hn : s.handles.next = none)
    (hl : ∀ k, s.handlesLock.map (·.2) = some k → s.task s.handles.connection k = .stopped)
    (hpc : ∀ f, s.reconnecting = some f → f.pc ≠ .install) (c : Nat) (k : TaskKind) :
    s.task c k = .stopped := by
  by_contra hrun
  have hrec := s.handles.next_eq_none_iff.1 hn k
  obtain ⟨-, hinstall | ⟨rfl, hrec' | hlock⟩⟩ := h.owned c k hrun
  · obtain ⟨f, hf, hpc'⟩ := Option.map_eq_some_iff.1 hinstall
    exact hpc f hf hpc'
  · rw [hrec] at hrec'; contradiction
  · exact hrun (hl k hlock)

/-- With all handles taken, nobody shutting down and no reconnect, no task reports
a loss any more. -/
theorem Tasks.not_anyFailing_of_taken (h : Tasks s) (hn : s.handles.next = none)
    (hl : s.handlesLock = none) (hr : s.reconnecting = none) : ¬ AnyFailing s.task := by
  rintro ⟨c, k, hfail⟩
  rw [h.all_stopped hn (by simp [hl]) (by simp [hr]) c k] at hfail
  contradiction

/-- No task of an old connection is about to report a loss once they are shut down. -/
theorem Tasks.not_anyFailing (h : Tasks s) {f : Reconnect} (hf : s.reconnecting = some f)
    (hpc : f.pc.Bare) : ¬ AnyFailing s.task := by
  rintro ⟨c, k, hfail⟩
  rw [h.bare f hf hpc c k] at hfail
  contradiction

/-- A task ends, or goes on to report a loss. -/
theorem Tasks.endTask {c : Nat} {k : TaskKind} {t : TaskState} {alive : Bool}
    {connection : Watch ConnectionState} {events : Mpsc CastEvent} (h : Tasks s)
    (hrun : s.task c k ≠ .stopped) (halive : alive = false ∨ alive = s.alive ∧ t ≠ .failing) :
    Tasks { s with task := setTask s.task c k t, alive, connection, events } := by
  obtain ⟨owned, bare, byReconnect, byDisconnect, failing, unarmed, building⟩ := h
  refine ⟨?_, ?_, byReconnect, byDisconnect, ?_, ?_, building⟩
  · grind
  · grind
  · grind
  · grind

/-- A call gives up, or returns, from a point where it holds nothing. -/
theorem Tasks.release {auto : AutoPc} {connection : Watch ConnectionState}
    {events : Mpsc CastEvent} (h : Tasks s) (hb : s.builder = .done)
    (hpc : s.reconnecting.map (·.pc) ≠ some .install ∧ s.reconnecting.map (·.pc) ≠ some .shutdown) :
    Tasks { s with reconnecting := none, auto, connection, events } := by
  obtain ⟨owned, bare, byReconnect, byDisconnect, failing, unarmed, building⟩ := h
  refine ⟨?_, nofun, ?_, byDisconnect, failing, nofun, ?_⟩
  · grind
  · grind
  · grind

/-- A call goes on, to a point where the tasks are not shut down. -/
theorem Tasks.proceed {f : Reconnect} {pc : ReconnectPc} (h : Tasks s)
    (hf : s.reconnecting = some f)
    (hfrom : f.pc ≠ .install ∧ f.pc ≠ .shutdown) (hbare : pc.Bare → f.pc.Bare)
    (hunarmed : pc.Unarmed → f.pc.Unarmed) :
    Tasks { s with reconnecting := some { f with pc } } := by
  obtain ⟨owned, bare, byReconnect, byDisconnect, failing, unarmed, building⟩ := h
  refine ⟨?_, ?_, ?_, byDisconnect, failing, ?_, ?_⟩
  · grind
  · grind
  · grind
  · grind
  · grind

/-- A `disconnect` call goes on, from a point where it holds no lock. -/
theorem Tasks.disconnecting {d : Nat} {pc : DisconnectPc} {alive shuttingDown eventTx : Bool}
    {connection : Watch ConnectionState} {events : Mpsc CastEvent} (h : Tasks s)
    (hb : s.builder = .done) (hd : s.disconnects d ≠ .shutdown)
    (halive : alive = false ∨ alive = s.alive) :
    Tasks { s with
      disconnects := Function.update s.disconnects d pc
      alive, shuttingDown, eventTx, connection, events } := by
  obtain ⟨owned, bare, byReconnect, byDisconnect, failing, unarmed, building⟩ := h
  refine ⟨owned, bare, byReconnect, ?_, ?_, ?_, ?_⟩
  · grind
  · grind
  · grind
  · grind

/-- A call that gives up leaves everything but its own state, the supervisor and
the watch as it is. -/
theorem returnErr_eq (s : Lifecycle) (caller : Caller) (n : Nat) :
    ∃ auto connection events, s.returnErr cfg caller n =
      { s with reconnecting := none, auto, connection, events } := by
  cases caller with
  | manual => exact ⟨_, _, _, rfl⟩
  | auto => exact ⟨_, _, _, rfl⟩

theorem reconnecting_returnErr (s : Lifecycle) (caller : Caller) (n : Nat) :
    (s.returnErr cfg caller n).reconnecting = none := by
  obtain ⟨auto, connection, events, heq⟩ := @returnErr_eq cfg s caller n
  rw [heq]

theorem disconnects_returnErr (s : Lifecycle) (caller : Caller) (n : Nat) :
    (s.returnErr cfg caller n).disconnects = s.disconnects := by
  obtain ⟨auto, connection, events, heq⟩ := @returnErr_eq cfg s caller n
  rw [heq]

theorem disconnects_acquire (s : Lifecycle) (caller : Caller) (n : Nat) :
    (s.acquire cfg caller n).disconnects = s.disconnects := by
  unfold Lifecycle.acquire
  split_ifs
  · exact disconnects_returnErr s caller n
  · rfl
  · rfl

/-- Calls do nothing to the tasks before they shut them down. -/
theorem task_returnErr (s : Lifecycle) (caller : Caller) (n : Nat) :
    (s.returnErr cfg caller n).task = s.task ∧
      (s.returnErr cfg caller n).taskEventTx = s.taskEventTx := by
  cases caller <;> exact ⟨rfl, rfl⟩

theorem task_acquire (s : Lifecycle) (caller : Caller) (n : Nat) :
    (s.acquire cfg caller n).task = s.task ∧
    (s.acquire cfg caller n).taskEventTx = s.taskEventTx := by
  unfold Lifecycle.acquire
  split_ifs
  · exact task_returnErr s caller n
  · exact ⟨rfl, rfl⟩
  · exact ⟨rfl, rfl⟩

theorem Tasks.returnErr (h : Tasks s) (hb : s.builder = .done)
    (hpc : s.reconnecting.map (·.pc) ≠ some .install ∧ s.reconnecting.map (·.pc) ≠ some .shutdown)
    (caller : Caller) (n : Nat) : Tasks (s.returnErr cfg caller n) := by
  obtain ⟨_, _, _, heq⟩ := @returnErr_eq cfg s caller n
  rw [heq]
  exact h.release hb hpc

/-- Whoever reconnects or tries to, the client is built. -/
theorem Tasks.built (h : Tasks s) (hx : s.reconnecting ≠ none ∨ s.auto ≠ .off) :
    s.builder = .done := by
  by_contra hb
  obtain ⟨hr, -, ha, -⟩ := h.building hb
  exact hx.elim (· hr) (· ha)

/-- The same of whoever is in `disconnect`. -/
theorem Tasks.disconnected {d : Nat} {pc : DisconnectPc} (h : Tasks s) (hd : s.disconnects d = pc)
    (hpc : pc ≠ .idle) : s.builder = .done := by
  by_contra hb
  exact hpc (hd.symm.trans ((h.building hb).2.1 d))

theorem Tasks.acquire (h : Tasks s) (hb : s.builder = .done) (hr : s.reconnecting = none)
    (caller : Caller) (n : Nat) : Tasks (s.acquire cfg caller n) := by
  have hnone : s.reconnecting.map (·.pc) ≠ some .install ∧
      s.reconnecting.map (·.pc) ≠ some .shutdown := by simp [hr]
  have hh := h
  obtain ⟨owned, bare, byReconnect, byDisconnect, failing, unarmed, building⟩ := h
  unfold Lifecycle.acquire
  split_ifs with hdown hup
  · exact hh.returnErr hb hnone caller n
  · exact hh.release hb hnone
  · refine ⟨?_, ?_, ?_, byDisconnect, failing, ?_, ?_⟩
    · grind
    · grind
    · grind
    · grind
    · grind

theorem Tasks.step (h : Tasks s) (hs : Step cfg s a s') : Tasks s' := by
  have hh := h
  obtain ⟨owned, bare, byReconnect, byDisconnect, failing, unarmed, building⟩ := h
  cases hs with
  | builderSent h hw =>
      exact ⟨owned, bare, byReconnect, byDisconnect, failing, unarmed,
        fun _ => building (by simp [h])⟩
  | builderFailed h hw =>
      exact ⟨owned, bare, byReconnect, byDisconnect, failing, unarmed,
        fun _ => building (by simp [h])⟩
  | builderDone h =>
      exact ⟨owned, bare, byReconnect, byDisconnect, failing, unarmed, fun hne => absurd rfl hne⟩
  | fail h => exact hh.endTask (by simp [h]) (.inl rfl)
  | publishLoss h => exact hh.endTask (by simp [h]) (.inr ⟨rfl, by split <;> simp⟩)
  | readerCleared h => exact hh.endTask (by simp [h]) (.inr ⟨rfl, by simp⟩)
  | noticeCancel hc h => exact hh.endTask (by simp [h]) (.inr ⟨rfl, by split <;> simp⟩)
  | noticeAbort ha h => exact hh.endTask (by grind) (.inr ⟨rfl, by simp⟩)
  | heartbeatQuit h hw => exact hh.endTask (by simp [h]) (.inr ⟨rfl, by simp⟩)
  | emit h => exact ⟨owned, bare, byReconnect, byDisconnect, failing, unarmed, building⟩
  | lockHandles hl hin => exact hh.cancel.takeNext (inShutdown_cancel hin) (by grind)
  | awaitHandle hl ht => exact hh.takeNext (hh.inShutdown hl) (by grind)
  | reconnect hb h => exact hh.acquire hb h .manual 1
  | tlsFailed h hpc => exact hh.returnErr (hh.built (.inl (by simp [h]))) (by simp [h, hpc]) _ _
  | tlsConnected h hpc =>
      unfold Lifecycle.tlsConnected
      split
      · exact hh.returnErr (hh.built (.inl (by simp [h]))) (by simp [h, hpc]) _ _
      · exact hh.proceed h (by simp [hpc]) (by simp [hpc, ReconnectPc.Bare])
          (by simp [hpc, ReconnectPc.Unarmed])
  | swapWriteTx h hpc => unfold Lifecycle.swapWriteTx; constructor <;> grind
  | arm h hpc => unfold Lifecycle.arm; constructor <;> grind
  | clearAndSpawn h hpc => unfold Lifecycle.clearAndSpawn; constructor <;> grind
  | install hl h hpc => unfold Lifecycle.install; constructor <;> grind [TaskHandles.all]
  | connectSent hw h hpc => exact hh.proceed h (by simp [hpc]) nofun nofun
  | connectFailed hw h hpc =>
      exact hh.returnErr (hh.built (.inl (by simp [h]))) (by simp [h, hpc]) _ _
  | @readTransport f tid h hpc => cases tid <;> exact hh.proceed h (by simp [hpc]) nofun nofun
  | transportSent hw h hpc => exact hh.proceed h (by simp [hpc]) nofun nofun
  | transportFailed hw h hpc =>
      exact hh.returnErr (hh.built (.inl (by simp [h]))) (by simp [h, hpc]) _ _
  | publishConnected h hpc => exact hh.release (hh.built (.inl (by simp [h]))) (by simp [h, hpc])
  | disconnect hb h => exact hh.disconnecting hb (by simp [h]) (.inr rfl)
  | flagDead h => exact hh.disconnecting (hh.disconnected h (by simp)) (by simp [h]) (.inl rfl)
  | publishDisconnected h =>
      exact hh.disconnecting (hh.disconnected h (by simp)) (by simp [h]) (.inr rfl)
  | dropEventTx h => exact hh.disconnecting (hh.disconnected h (by simp)) (by simp [h]) (.inr rfl)
  | wake h hc =>
      have hb := hh.built (.inr (by simp [h]))
      exact ⟨owned, bare, byReconnect, byDisconnect, failing, unarmed, fun hne => absurd hb hne⟩
  | beginAttempt h =>
      have hb := hh.built (.inr (by simp [h]))
      exact ⟨owned, bare, byReconnect, byDisconnect, failing, unarmed, fun hne => absurd hb hne⟩
  | attempt ha h => exact hh.acquire (hh.built (.inr (by simp [ha]))) h .auto _
  | nextEvent => exact ⟨owned, bare, byReconnect, byDisconnect, failing, unarmed, building⟩

theorem tasks_of_run {ok : Lifecycle → LifecycleAct → Prop}
    (h : (system cfg).Run ok (start cfg) s) : Tasks s :=
  h.invariant tasks_start fun _ _ _ hi _ hs => hi.step (step_cases hs)

end Oxicast.Lifecycle
