import Oxicast.Lifecycle.Stage
import Oxicast.Lifecycle.Supervisor

/-!
# Oxicast.Lifecycle.Generations

One generation of tasks, and one reconnect for a loss.

`alive`, the watch and the tracker carry no generation tag, so what keeps an old
task away from them is that it has ended: a reconnect spawns its tasks over a
client without any, and every task that is not finished belongs to the current
connection.  Of the calls that wait for the lock the first one reconnects, and
as long as its connection is up the others find `alive` set.
-/

namespace Oxicast.Lifecycle

open TransitionSystem

variable {cfg : ClientConfig} {s s' : Lifecycle} {a : LifecycleAct}

/-- The connection whose task takes the step. -/
def taskOf : LifecycleAct → Option Nat
  | .fail c _ _ | .publishLoss c _ | .readerCleared c | .noticeCancel c _ | .noticeAbort c _
  | .heartbeatQuit c | .emit c _ => some c
  | _ => none

/-- The caller that acquires the lock by the step. -/
def callerOf : LifecycleAct → Option Caller
  | .reconnect => some .manual
  | .attempt => some .auto
  | _ => none

/-- What the checks behind the lock come to. -/
inductive Acquired where
  | err
  | ok
  | reconnecting
  deriving DecidableEq

def acquired (s : Lifecycle) : Acquired :=
  if s.shuttingDown then .err else if s.alive then .ok else .reconnecting

theorem acquire_of_ok (h : s.acquired = .ok) (caller : Caller) (n : Nat) :
    s.acquire cfg caller n = s.returnOk caller := by
  unfold acquired at h
  unfold acquire
  split_ifs at h ⊢
  rfl

/-! ## one generation -/

/-- A step of a task needs a task that is not finished. -/
theorem running_of_taskOf {c : Nat} (hs : Step cfg s a s') (hc : taskOf a = some c) :
    ∃ k, s.task c k ≠ .stopped := by
  cases hs with
  | @fail c k reason h => obtain rfl := Option.some.inj hc; exact ⟨k, by simp [h]⟩
  | @publishLoss c k h => obtain rfl := Option.some.inj hc; exact ⟨k, by simp [h]⟩
  | readerCleared h => obtain rfl := Option.some.inj hc; exact ⟨.reader, by simp [h]⟩
  | @noticeCancel c k hcan h => obtain rfl := Option.some.inj hc; exact ⟨k, by simp [h]⟩
  | @noticeAbort c k ha h =>
      obtain rfl := Option.some.inj hc
      exact ⟨k, by rcases h with h | h <;> simp [h]⟩
  | heartbeatQuit h hw => obtain rfl := Option.some.inj hc; exact ⟨.heartbeat, by simp [h]⟩
  | emit h => obtain rfl := Option.some.inj hc; exact ⟨.reader, by simp [h]⟩
  | _ => contradiction

/-- Only the current connection has tasks that take steps. -/
theorem taskOf_current {c : Nat} (ht : Tasks s) (hs : Step cfg s a s') (hc : taskOf a = some c) :
    c = s.writeTx := by
  obtain ⟨k, hk⟩ := running_of_taskOf hs hc
  exact (ht.owned c k hk).1

/-- The connection numbers only grow along a run. -/
theorem writeTx_mono {ok : Lifecycle → LifecycleAct → Prop} (ht : Tasks s)
    (h : (system cfg).Run ok s s') : Tasks s' ∧ s.writeTx ≤ s'.writeTx := by
  refine h.invariant (I := fun x => Tasks x ∧ s.writeTx ≤ x.writeTx) ⟨ht, Nat.le_refl _⟩ ?_
  rintro x b y ⟨hx, hle⟩ - hstep
  have hy := step_cases hstep
  exact ⟨hx.step hy, Nat.le_trans hle (passage_of_step hx hy).writeTx_le⟩

/-- A reconnect spawns its tasks over a client without any. -/
theorem stopped_of_clearAndSpawn (ht : Tasks s) (hs : Step cfg s .clearAndSpawn s') (c : Nat)
    (k : TaskKind) : s.task c k = .stopped := by
  cases hs with
  | clearAndSpawn h hpc => exact ht.bare _ h (by simp [hpc, ReconnectPc.Bare]) c k

/-! ## one reconnect -/

/-- Every task of the current connection runs. -/
def AllRunning (s : Lifecycle) : Prop := ∀ k, s.task s.writeTx k = .running

/-- Without `disconnect`, a client that is not alive has lost a task or is on its
way to new ones, and spawns them alive. -/
structure Undisturbed (s : Lifecycle) : Prop where
  shuttingDown : s.shuttingDown = false
  idle : ∀ d, s.disconnects d = .idle
  dead : s.alive = false →
    ¬ s.AllRunning ∨ ∃ f, s.reconnecting = some f ∧ f.pc.Unarmed
  spawning : ∀ f, s.reconnecting = some f → f.pc = .clear → s.alive = true

theorem undisturbed_start : Undisturbed (start cfg) :=
  ⟨rfl, fun _ => rfl, nofun, nofun⟩

/-- A task ends, or goes on to report a loss. -/
theorem Undisturbed.endTask {c : Nat} {k : TaskKind} {t : TaskState} {alive : Bool}
    {connection : Watch ConnectionState} {events : Mpsc CastEvent} (h : Undisturbed s)
    (ht : Tasks s)
    (hrun : s.task c k ≠ .stopped) (hend : t ≠ .running) :
    Undisturbed { s with task := setTask s.task c k t, alive, connection, events } := by
  obtain ⟨shuttingDown, idle, dead, spawning⟩ := h
  obtain rfl := (ht.owned c k hrun).1
  refine ⟨shuttingDown, idle, fun _ => .inl fun hall => ?_, fun f hf hpc => ?_⟩
  · have hk : setTask s.task s.writeTx k t s.writeTx k = .running := hall k
    rw [setTask, if_pos ⟨rfl, rfl⟩] at hk
    exact hend hk
  · -- over a client that is about to spawn no task is left to end
    rw [ht.bare f hf (by simp [hpc, ReconnectPc.Bare]) _ k] at hrun
    contradiction

/-- A call that holds nothing gives up or returns. -/
theorem Undisturbed.release {auto : AutoPc} {connection : Watch ConnectionState}
    {events : Mpsc CastEvent} (h : Undisturbed s)
    (hdead : s.alive = false → ¬ s.AllRunning) :
    Undisturbed { s with reconnecting := none, auto, connection, events } :=
  ⟨h.shuttingDown, h.idle, fun halive => .inl (hdead halive), nofun⟩

/-- A call goes on, on the same side of its store of `alive`. -/
theorem Undisturbed.proceed {f g : Reconnect} {handles : TaskHandles} (h : Undisturbed s)
    (hf : s.reconnecting = some f) (hunarmed : f.pc.Unarmed → g.pc.Unarmed)
    (hclear : g.pc ≠ .clear) :
    Undisturbed { s with reconnecting := some g, handles } := by
  obtain ⟨shuttingDown, idle, dead, spawning⟩ := h
  refine ⟨shuttingDown, idle, fun halive => ?_, fun x hx hpc => ?_⟩
  · refine (dead halive).imp_right fun ⟨f', hf', hu⟩ => ⟨g, rfl, ?_⟩
    obtain rfl := Option.some.inj (hf.symm.trans hf')
    exact hunarmed hu
  · obtain rfl := Option.some.inj hx
    exact absurd hpc hclear

theorem Undisturbed.takeNext {who : ShutdownCaller} {cancelled : Nat → Bool} (h : Undisturbed s)
    (hin : s.InShutdown who) : Undisturbed ({ s with cancelled }.takeNext who) := by
  obtain ⟨shuttingDown, idle, dead, spawning⟩ := h
  cases who with
  | disconnect d =>
      have hpc : s.disconnects d = .shutdown := hin
      rw [idle d] at hpc
      contradiction
  | reconnect =>
      obtain ⟨f, hf, hpc⟩ := inShutdown_reconnect_iff.1 hin
      unfold Lifecycle.takeNext
      refine ⟨shuttingDown, ?_, fun _ => .inr ?_, ?_⟩
      · simpa using idle
      · by_cases hn : s.handles.next = none
        · exact ⟨{ f with pc := .connecting }, by simp [hn, hf], trivial⟩
        · exact ⟨f, by simp [hn, hf], by simp [hpc, ReconnectPc.Unarmed]⟩
      · by_cases hn : s.handles.next = none
        · simp [hn, hf]
        · simp [hn, hf, hpc]

theorem Undisturbed.returnErr (h : Undisturbed s) (hdead : s.alive = false → ¬ s.AllRunning)
    (caller : Caller) (n : Nat) : Undisturbed (s.returnErr cfg caller n) := by
  obtain ⟨_, _, _, heq⟩ := @returnErr_eq cfg s caller n
  rw [heq]
  exact h.release hdead

theorem Undisturbed.acquire (h : Undisturbed s) (hr : s.reconnecting = none) (caller : Caller)
    (n : Nat) : Undisturbed (s.acquire cfg caller n) := by
  have hdead (halive : s.alive = false) : ¬ s.AllRunning :=
    (h.dead halive).resolve_right (by simp [hr])
  unfold Lifecycle.acquire
  split_ifs
  · exact h.returnErr hdead caller n
  · exact h.release hdead
  · exact ⟨h.shuttingDown, h.idle, fun _ => .inr ⟨_, rfl, trivial⟩, by rintro _ ⟨⟩ ⟨⟩⟩

theorem Undisturbed.step (h : Undisturbed s) (ht : Tasks s) (hok : NoDisconnect s a)
    (hs : Step cfg s a s') : Undisturbed s' := by
  have hh := h
  obtain ⟨shuttingDown, idle, dead, spawning⟩ := h
  -- what a call can say that is past its store of `alive`
  have hpast {f : Reconnect} (hf : s.reconnecting = some f) (hpc : ¬ f.pc.Unarmed)
      (halive : s.alive = false) : ¬ s.AllRunning := by
    refine (dead halive).resolve_right fun ⟨f', hf', hu⟩ => ?_
    obtain rfl := Option.some.inj (hf.symm.trans hf')
    exact hpc hu
  -- and over a client without tasks
  have hbare {f : Reconnect} (hf : s.reconnecting = some f) (hpc : f.pc.Bare) : ¬ s.AllRunning :=
    fun hall => by simpa [ht.bare f hf hpc] using hall .reader
  cases hs with
  | builderSent h hw => exact ⟨shuttingDown, idle, dead, spawning⟩
  | builderFailed h hw => exact ⟨shuttingDown, idle, dead, spawning⟩
  | builderDone h => exact ⟨shuttingDown, idle, dead, spawning⟩
  | fail h => exact hh.endTask ht (by simp [h]) (by simp)
  | publishLoss h => exact hh.endTask ht (by simp [h]) (by split <;> simp)
  | readerCleared h => exact hh.endTask ht (by simp [h]) (by simp)
  | noticeCancel hc h => exact hh.endTask ht (by simp [h]) (by split <;> simp)
  | noticeAbort ha h =>
      exact hh.endTask ht (by rcases h with h | h <;> simp [h]) (by simp)
  | heartbeatQuit h hw => exact hh.endTask ht (by simp [h]) (by simp)
  | emit h => exact ⟨shuttingDown, idle, dead, spawning⟩
  | lockHandles hl hin => exact hh.takeNext hin
  | awaitHandle hl h => exact hh.takeNext (ht.inShutdown hl)
  | reconnect hb h => exact hh.acquire h .manual 1
  | tlsFailed h hpc => exact hh.returnErr (fun _ => hbare h (by simp [hpc, ReconnectPc.Bare])) _ _
  | tlsConnected h hpc =>
      unfold Lifecycle.tlsConnected
      split
      · exact hh.returnErr (fun _ => hbare h (by simp [hpc, ReconnectPc.Bare])) _ _
      · exact hh.proceed h (fun _ => trivial) (by simp)
  | swapWriteTx h hpc =>
      exact ⟨shuttingDown, idle, fun _ => .inr ⟨_, rfl, trivial⟩, by rintro _ ⟨⟩ ⟨⟩⟩
  | arm h hpc => exact ⟨rfl, idle, nofun, fun _ _ _ => rfl⟩
  | clearAndSpawn h hpc =>
      have hup := spawning _ h hpc
      exact ⟨shuttingDown, idle,
        fun halive => Bool.noConfusion (hup.symm.trans halive), by rintro _ ⟨⟩ ⟨⟩⟩
  | install hl h hpc => exact hh.proceed h (by simp [hpc, ReconnectPc.Unarmed]) (by simp)
  | connectSent hw h hpc => exact hh.proceed h (by simp [hpc, ReconnectPc.Unarmed]) (by simp)
  | connectFailed hw h hpc =>
      exact hh.returnErr (hpast h (by simp [hpc, ReconnectPc.Unarmed])) _ _
  | @readTransport f tid h hpc =>
      exact hh.proceed h (by simp [hpc, ReconnectPc.Unarmed]) (by cases tid <;> simp)
  | transportSent hw h hpc => exact hh.proceed h (by simp [hpc, ReconnectPc.Unarmed]) (by simp)
  | transportFailed hw h hpc =>
      exact hh.returnErr (hpast h (by simp [hpc, ReconnectPc.Unarmed])) _ _
  | publishConnected h hpc => exact hh.release (hpast h (by simp [hpc, ReconnectPc.Unarmed]))
  | @disconnect d hb h => exact absurd rfl (hok d)
  | flagDead h => rw [idle] at h; contradiction
  | publishDisconnected h => rw [idle] at h; contradiction
  | dropEventTx h => rw [idle] at h; contradiction
  | wake h hc => exact ⟨shuttingDown, idle, dead, spawning⟩
  | beginAttempt h => exact ⟨shuttingDown, idle, dead, spawning⟩
  | attempt ha h => exact hh.acquire h .auto _
  | nextEvent => exact ⟨shuttingDown, idle, dead, spawning⟩

theorem undisturbed_of_run (h : (system cfg).Run NoDisconnect (start cfg) s) : Undisturbed s :=
  h.invariant_with (fun _ => tasks_of_run) undisturbed_start
    fun _ _ _ ht hu hok hs => hu.step ht hok (step_cases hs)

/-- Whoever acquires the lock while the connection is up returns `Ok` at once. -/
theorem acquired_of_allRunning (h : (system cfg).Run NoDisconnect (start cfg) s)
    (hr : s.reconnecting = none) (hup : s.AllRunning) : s.acquired = .ok := by
  have hu := undisturbed_of_run h
  have halive : s.alive = true := by
    cases hx : s.alive with
    | true => rfl
    | false => exact absurd hup ((hu.dead hx).resolve_right (by simp [hr]))
  simp [acquired, hu.shuttingDown, halive]

/-! ## one generation, one reconnect -/

/-- **One generation of tasks, one reconnect for a loss**: a reconnect spawns its
tasks when every task has ended; once it has set `alive`, no task of an earlier
connection takes a step; and without `disconnect`, a call that acquires the lock
while the connection is up returns `Ok` and leaves the channels alone. -/
theorem one_generation (h : (system cfg).Reachable s) :
    (∀ s', s.step cfg .clearAndSpawn = some s' → ∀ c k, s.task c k = .stopped) ∧
    (∀ s₁ s₂ s₃ a c, s.step cfg .arm = some s₁ → (system cfg).Run Any s₁ s₂ →
      s₂.step cfg a = some s₃ → taskOf a = some c → s₁.writeTx ≤ c) ∧
    ∀ s' a caller, (system cfg).Run NoDisconnect (start cfg) s → s.AllRunning →
      callerOf a = some caller → s.step cfg a = some s' →
      s.acquired = .ok ∧ s' = s.returnOk caller ∧ s'.writeTx = s.writeTx ∧
        s'.connection = s.connection ∧ s'.events = s.events := by
  have ht := tasks_of_run h
  refine ⟨fun s' hs => stopped_of_clearAndSpawn ht (step_cases hs), ?_, ?_⟩
  · intro s₁ s₂ s₃ a c harm hrun hs hc
    obtain ⟨ht₂, hle⟩ := writeTx_mono (ht.step (step_cases harm)) hrun
    rw [taskOf_current ht₂ (step_cases hs) hc]
    exact hle
  · intro s' a caller hrun hup hcaller hs
    cases step_cases hs with
    | reconnect hb hr =>
        obtain rfl := Option.some.inj hcaller
        have hok := acquired_of_allRunning hrun hr hup
        rw [acquire_of_ok hok]
        exact ⟨hok, rfl, rfl, rfl, rfl⟩
    | attempt ha hr =>
        obtain rfl := Option.some.inj hcaller
        have hok := acquired_of_allRunning hrun hr hup
        rw [acquire_of_ok hok]
        exact ⟨hok, rfl, rfl, rfl, rfl⟩
    | _ => contradiction

/-- A loss and the reconnect after it, with no `disconnect`. -/
def reconnectedActs : List LifecycleAct :=
  lostAndConnecting ++ [.tlsConnected, .swapWriteTx, .arm, .clearAndSpawn, .install, .connectSent,
    .readTransport none, .publishConnected]

/-- The second of two calls that waited for the lock returns `Ok` at once. -/
theorem one_generation_second :
    ∃ s s', (system autoCfg).execIf noDisconnectTest (start autoCfg) reconnectedActs = some s ∧
      s.step autoCfg .reconnect = some s' ∧ s.acquired = .ok ∧ s'.events = s.events := by
  have hrun := run_of_execIf (M := system autoCfg) (s := start autoCfg) (p := noDisconnectTest)
    reconnectedActs (fun _ _ => noDisconnect_of_test) rfl
  refine ⟨_, _, rfl, rfl, ?_⟩
  have hone := (@one_generation autoCfg _ hrun.reachable).2.2 _ .reconnect .manual hrun
    (fun k => by cases k <;> rfl) rfl rfl
  exact ⟨hone.1, hone.2.2.2.2⟩

end Oxicast.Lifecycle
