import Oxicast.Lifecycle.Cancellation
import Oxicast.Liveness

/-!
# Oxicast.Lifecycle.Returns

Nobody waits for ever: under fair scheduling every `disconnect` returns, and every
reconnect gives its lock back if the network lets it (`ReconnectFair`): no timeout ends
a handshake, or the wait for room in a write channel.

The one place where calls wait for each other is `shutdown`, which holds the
`task_handles` lock while it awaits the tasks it has aborted.  An aborted task ends,
so `lockRank` gets smaller until the lock is free, whoever holds it; and a lock that
is free again and again is acquired by everybody who waits for it.
-/

namespace Oxicast.Lifecycle

open TransitionSystem

variable {cfg : ClientConfig} {s t : Lifecycle} {a : LifecycleAct} {b : (system cfg).Behavior}

/-! ## the holder of the lock -/

theorem tokens_of_reachable (h : (system cfg).Reachable s) : Tokens s :=
  h.invariant_with (fun _ hx => tasks_of_run hx) tokens_start
    fun _ _ _ ht hi _ hs => hi.step ht (step_cases hs)

/-- The task that is awaited has been aborted. -/
def Aborting (s : Lifecycle) : Prop :=
  ∀ who k, s.handlesLock = some (who, k) → s.aborted s.handles.connection k = true

/-- What a step does to the lock: nothing; or it is acquired, or goes on to the next
task; or the handles are replaced while it is free. -/
inductive LockStep (s t : Lifecycle) : Prop
  | keep (hl : t.handlesLock = s.handlesLock) (hh : t.handles = s.handles)
      (ha : t.aborted = s.aborted)
  | begin {who : ShutdownCaller} (hl : s.handlesLock = none) (h : s.InShutdown who)
      (ht : t = s.beginShutdown who)
  | next {who : ShutdownCaller} {k : TaskKind} (hl : s.handlesLock = some (who, k))
      (h : s.task s.handles.connection k = .stopped) (ht : t = s.takeNext who)
  | install (hl : s.handlesLock = none) (hl' : t.handlesLock = none)

theorem lock_returnErr (cfg : ClientConfig) (s : Lifecycle) (caller : Caller) (n : Nat) :
    (s.returnErr cfg caller n).handlesLock = s.handlesLock ∧
      (s.returnErr cfg caller n).handles = s.handles ∧
      (s.returnErr cfg caller n).aborted = s.aborted := by
  cases caller <;> exact ⟨rfl, rfl, rfl⟩

theorem lock_acquire (cfg : ClientConfig) (s : Lifecycle) (caller : Caller) (n : Nat) :
    (s.acquire cfg caller n).handlesLock = s.handlesLock ∧
      (s.acquire cfg caller n).handles = s.handles ∧
      (s.acquire cfg caller n).aborted = s.aborted := by
  unfold acquire
  split_ifs
  · exact lock_returnErr cfg s caller n
  · exact ⟨rfl, rfl, rfl⟩
  · exact ⟨rfl, rfl, rfl⟩

theorem lockStep (hs : Step cfg s a t) : LockStep s t := by
  have err (caller : Caller) (n : Nat) : LockStep s (s.returnErr cfg caller n) :=
    have ⟨hl, hh, ha⟩ := lock_returnErr cfg s caller n
    .keep hl hh ha
  have acq (caller : Caller) (n : Nat) : LockStep s (s.acquire cfg caller n) :=
    have ⟨hl, hh, ha⟩ := lock_acquire cfg s caller n
    .keep hl hh ha
  cases hs with
  | lockHandles hl h => exact .begin hl h rfl
  | awaitHandle hl h => exact .next hl h rfl
  | install hl h hpc => exact .install hl hl
  | reconnect hb h => exact acq .manual 1
  | attempt ha h => exact acq .auto _
  | tlsFailed h hpc => exact err _ _
  | connectFailed hw h hpc => exact err _ _
  | transportFailed hw h hpc => exact err _ _
  | tlsConnected h hpc =>
      unfold Lifecycle.tlsConnected
      split
      · exact err _ _
      · exact .keep rfl rfl rfl
  | _ => exact .keep rfl rfl rfl

theorem Aborting.step (h : Aborting s) (hs : Step cfg s a t) : Aborting t := by
  have htake {s : Lifecycle} (who : ShutdownCaller) : Aborting (s.takeNext who) := by
    intro who' k hl
    obtain ⟨k', hnext, heq⟩ := Option.map_eq_some_iff.1 hl
    obtain ⟨-, rfl⟩ := Prod.mk.inj heq
    simp [Lifecycle.takeNext, hnext]
  cases lockStep hs with
  | keep hl hh ha =>
      intro who k hk
      rw [hl] at hk
      rw [ha, hh]
      exact h who k hk
  | begin hl hin ht => exact ht ▸ htake _
  | next hl hk ht => exact ht ▸ htake _
  | install hl hl' =>
      intro who k hk
      rw [hl'] at hk
      cases hk

theorem aborting_of_reachable (h : (system cfg).Reachable s) : Aborting s :=
  h.invariant (fun _ _ hl => by cases hl) fun _ _ _ hi _ hs => hi.step (step_cases hs)

/-! ## how long the lock is held -/

/-- How far a task is from its end. -/
def TaskState.phase : TaskState → Nat
  | .running => 3
  | .failing => 2
  | .clearing => 1
  | .stopped => 0

theorem phase_le (t : TaskState) : TaskState.phase t ≤ 3 := by
  cases t <;> decide

/-- How many handles are still to be taken. -/
def TaskHandles.remaining (h : TaskHandles) : Nat :=
  (h.recorded .reader).toNat + (h.recorded .writer).toNat + (h.recorded .heartbeat).toNat

theorem recorded_of_next {h : TaskHandles} {k : TaskKind} (hn : h.next = some k) :
    h.recorded k = true := by
  unfold TaskHandles.next at hn
  split_ifs at hn with hr hw hb
  all_goals
    obtain rfl := Option.some.inj hn
    assumption

theorem remaining_rest {h : TaskHandles} {k : TaskKind} (hn : h.next = some k) :
    TaskHandles.remaining h.rest < TaskHandles.remaining h := by
  have hle (k' : TaskKind) : (h.rest.recorded k').toNat ≤ (h.recorded k').toNat := by
    rw [TaskHandles.recorded_rest]
    cases h.recorded k' <;> cases h.next != some k' <;> decide
  have hlt : (h.rest.recorded k).toNat < (h.recorded k).toNat := by
    simp [hn, recorded_of_next hn]
  have hreader := hle .reader
  have hwriter := hle .writer
  have hheartbeat := hle .heartbeat
  unfold TaskHandles.remaining
  cases k <;> omega

/-- How much is left to do for the holder of the lock. -/
def lockRank (s : Lifecycle) : Nat :=
  4 * TaskHandles.remaining s.handles +
    s.handlesLock.elim 0 fun x => TaskState.phase (s.task s.handles.connection x.2)

/-- A task that goes on is closer to its end. -/
theorem phase_setTask {task : Nat → TaskKind → TaskState} {c : Nat} {k : TaskKind} {x : TaskState}
    (hx : TaskState.phase x ≤ TaskState.phase (task c k)) (c' : Nat) (k' : TaskKind) :
    TaskState.phase (setTask task c k x c' k') ≤ TaskState.phase (task c' k') := by
  rw [setTask]
  split
  next h =>
    obtain ⟨rfl, rfl⟩ := h
    exact hx
  next => exact Nat.le_refl _

theorem task_tlsConnected (s : Lifecycle) (f : Reconnect) :
    (s.tlsConnected cfg f).task = s.task := by
  unfold Lifecycle.tlsConnected
  split
  · exact (task_returnErr s _ _).1
  · rfl

/-- Tasks only go on towards their end, and new ones belong to a new connection. -/
theorem phase_step (hk : Tokens s) (hs : Step cfg s a t) (k : TaskKind) :
    TaskState.phase (t.task s.handles.connection k) ≤ TaskState.phase
      (s.task s.handles.connection k) := by
  have same (h : t.task = s.task) : TaskState.phase (t.task s.handles.connection k) ≤
      TaskState.phase (s.task s.handles.connection k) := Nat.le_of_eq (by rw [h])
  cases hs with
  | fail h => exact phase_setTask (by rw [h]; decide) _ _
  | @publishLoss c k' h => exact phase_setTask (by rw [h]; split <;> decide) _ _
  | readerCleared h => exact phase_setTask (by rw [h]; decide) _ _
  | noticeCancel hc h => exact phase_setTask (by rw [h]; split <;> decide) _ _
  | noticeAbort ha h => exact phase_setTask (Nat.zero_le _) _ _
  | heartbeatQuit h hw => exact phase_setTask (Nat.zero_le _) _ _
  | clearAndSpawn h hpc =>
      have hold := (hk.swapped _ h (.inr (.inl hpc))).1
      refine Nat.le_of_eq (congrArg TaskState.phase ?_)
      exact if_neg (Nat.ne_of_lt hold)
  | reconnect hb h => exact same (task_acquire s _ _).1
  | attempt ha h => exact same (task_acquire s _ _).1
  | tlsFailed h hpc => exact same (task_returnErr s _ _).1
  | connectFailed hw h hpc => exact same (task_returnErr s _ _).1
  | transportFailed hw h hpc => exact same (task_returnErr s _ _).1
  | tlsConnected h hpc => exact same (task_tlsConnected s _)
  | _ => exact same rfl

/-- The call holds the lock. -/
def HoldsLock (who : ShutdownCaller) (s : Lifecycle) : Prop := ∃ k, s.handlesLock = some (who, k)

/-- The call has given the lock back and goes on. -/
def Released (who : ShutdownCaller) (s : Lifecycle) : Prop :=
  s.handlesLock = none ∧ match who with
    | .reconnect => s.reconnecting.map (·.pc) = some .connecting
    | .disconnect d => s.disconnects d = .clear

/-- Without a handle that is left, `shutdown` is over. -/
theorem released_takeNext {who : ShutdownCaller} (hin : s.InShutdown who)
    (hn : s.handles.next = none) :
    Released who (s.takeNext who) := by
  refine ⟨by simp [Lifecycle.takeNext, hn], ?_⟩
  cases who with
  | reconnect =>
      obtain ⟨f, hf, -⟩ := inShutdown_reconnect_iff.1 hin
      simp [Lifecycle.takeNext, hn, hf]
  | disconnect d => simp [Lifecycle.takeNext, hn]

/-- With one, it is awaited next. -/
theorem holdsLock_takeNext (who : ShutdownCaller) {k : TaskKind} (hn : s.handles.next = some k) :
    HoldsLock who (s.takeNext who) ∧
      (s.takeNext who).lockRank < 4 * TaskHandles.remaining s.handles := by
  refine ⟨⟨k, by simp [Lifecycle.takeNext, hn]⟩, ?_⟩
  have hless := remaining_rest hn
  have hphase := phase_le (s.task s.handles.connection k)
  have hrank : (s.takeNext who).lockRank =
      4 * TaskHandles.remaining s.handles.rest + TaskState.phase
        (s.task s.handles.connection k) := by
    simp [lockRank, Lifecycle.takeNext, hn]
  omega

/-! ## fairness -/

/-- Aborted tasks end, losses are published, and whoever awaits a task that has
ended goes on. -/
structure TasksFair (b : (system cfg).Behavior) : Prop where
  abort (c : Nat) (k : TaskKind) : b.WeaklyFair (· = .noticeAbort c k)
  loss (c : Nat) (k : TaskKind) : b.WeaklyFair (· = .publishLoss c k)
  await : b.WeaklyFair (· = .awaitHandle)

/-- What brings the holder of the lock on, by the state of the awaited task. -/
def Helps (c : Nat) (k : TaskKind) : TaskState → LifecycleAct → Prop
  | .running, a | .clearing, a => a = .noticeAbort c k
  | .failing, a => a = .publishLoss c k
  | .stopped, a => a = .awaitHandle

theorem TasksFair.helps (h : TasksFair b) (c : Nat) (k : TaskKind) (x : TaskState) :
    b.WeaklyFair (Helps c k x) := by
  cases x with
  | running => exact h.abort c k
  | clearing => exact h.abort c k
  | failing => exact h.loss c k
  | stopped => exact h.await

/-- A call awaits a task in a certain state. -/
structure Awaits (who : ShutdownCaller) (k : TaskKind) (h : TaskHandles) (x : TaskState)
    (s : Lifecycle) : Prop where
  lock : s.handlesLock = some (who, k)
  handles : s.handles = h
  task : s.task h.connection k = x

variable {who : ShutdownCaller} {k : TaskKind} {h : TaskHandles} {x : TaskState}

theorem Awaits.rank (hw : Awaits who k h x s) :
    s.lockRank = 4 * TaskHandles.remaining h + TaskState.phase x := by
  obtain ⟨hl, rfl, rfl⟩ := hw
  simp [lockRank, hl]

/-- The awaited task goes on, or the call does. -/
theorem Awaits.step (hw : Awaits who k h x s) (hr : (system cfg).Reachable s)
    (hs : Step cfg s a t) :
    Awaits who k h x t ∨ Released who t ∨ HoldsLock who t ∧ t.lockRank < s.lockRank := by
  have hphase := phase_step (tokens_of_reachable hr) hs k
  have hrank := hw.rank
  obtain ⟨hl, rfl, rfl⟩ := hw
  cases lockStep hs with
  | keep hl' hh ha =>
      have hl'' : t.handlesLock = some (who, k) := hl'.trans hl
      by_cases hx : t.task s.handles.connection k = s.task s.handles.connection k
      · exact .inl ⟨hl'', hh, hx⟩
      · refine .inr (.inr ⟨⟨k, hl''⟩, ?_⟩)
        have hne : TaskState.phase (t.task s.handles.connection k) ≠
            TaskState.phase (s.task s.handles.connection k) := by
          revert hx
          cases t.task s.handles.connection k <;> cases s.task s.handles.connection k <;>
            simp [TaskState.phase]
        rw [hrank, (Awaits.mk hl'' hh rfl).rank]
        omega
  | begin hl' => rw [hl] at hl'; cases hl'
  | install hl' => rw [hl] at hl'; cases hl'
  | @next who' k' hl' hstop ht =>
      obtain ⟨rfl, rfl⟩ := Prod.mk.inj (Option.some.inj (hl.symm.trans hl'))
      subst ht
      right
      cases hn : s.handles.next with
      | none => exact .inl (released_takeNext ((tasks_of_run hr).inShutdown hl) hn)
      | some k'' =>
          obtain ⟨hholds, hless⟩ := holdsLock_takeNext who hn
          exact .inr ⟨hholds, by omega⟩

theorem enabled_of_step {A : LifecycleAct → Prop} (hA : A a) (hs : Step cfg s a t) :
    (system cfg).Enabled A s := ⟨a, t, hA, hs.enabled⟩

theorem Awaits.enabled (hw : Awaits who k h x s) (hr : (system cfg).Reachable s) :
    (system cfg).Enabled (Helps h.connection k x) s := by
  obtain ⟨hl, rfl, rfl⟩ := hw
  have habort := aborting_of_reachable hr who k hl
  cases hx : s.task s.handles.connection k with
  | running => exact enabled_of_step rfl (.noticeAbort habort (.inl hx))
  | clearing => exact enabled_of_step rfl (.noticeAbort habort (.inr hx))
  | failing => exact enabled_of_step rfl (.publishLoss hx)
  | stopped => exact enabled_of_step rfl (.awaitHandle hl hx)

/-- What helps brings the call on. -/
theorem Awaits.helped (hw : Awaits who k h x s) (hr : (system cfg).Reachable s)
    (ha : Helps h.connection k x a) (hs : Step cfg s a t) :
    Released who t ∨ HoldsLock who t ∧ t.lockRank < s.lockRank := by
  refine (hw.step hr hs).resolve_left fun hstay => ?_
  obtain ⟨hl, rfl, rfl⟩ := hw
  have htask := hstay.task
  cases hx : s.task s.handles.connection k with
  | running =>
      rw [hx] at ha htask
      subst ha
      cases hs with
      | noticeAbort _ _ => simp [Lifecycle.stop, setTask] at htask
  | clearing =>
      rw [hx] at ha htask
      subst ha
      cases hs with
      | noticeAbort _ _ => simp [Lifecycle.stop, setTask] at htask
  | failing =>
      rw [hx] at ha htask
      subst ha
      cases hs with
      | publishLoss _ =>
          simp only [Lifecycle.publishLoss, setTask, and_self, if_true] at htask
          split at htask <;> cases htask
  | stopped =>
      rw [hx] at ha
      subst ha
      cases hs with
      | @awaitHandle who' k' hl' _ =>
          -- the handle that is awaited has been taken off the record
          have htaken := (tokens_of_reachable hr).taken who k hl
          have hnext := hstay.handles
          have hlock := hstay.lock
          obtain ⟨k'', hn, heq⟩ := Option.map_eq_some_iff.1 hlock
          obtain ⟨-, rfl⟩ := Prod.mk.inj heq
          rw [recorded_of_next hn] at htaken
          cases htaken

/-- **The lock is given back**, whoever holds it. -/
theorem lock_released (hfair : TasksFair b) (who : ShutdownCaller) :
    b.LeadsTo (HoldsLock who) (Released who) := by
  refine Behavior.leadsTo_of_rank lockRank fun v n hn => ?_
  obtain ⟨⟨k, hl⟩, hv⟩ := hn
  refine Behavior.leadsTo_of_weaklyFair (hfair.helps (b.state n).handles.connection k
      ((b.state n).task (b.state n).handles.connection k))
    (P := Awaits who k (b.state n).handles ((b.state n).task (b.state n).handles.connection k))
    (Q := fun s => Released who s ∨ HoldsLock who s ∧ s.lockRank < v)
    (fun s a t hr hw hs => ?_) (fun s hr hw => hw.enabled hr) (fun s a t hr hw ha hs => ?_) n
      ⟨hl, rfl, rfl⟩
  · have hless := hw.step hr (step_cases hs)
    rw [hw.rank, ← (Awaits.mk hl rfl rfl).rank, hv] at hless
    exact hless
  · have hless := hw.helped hr ha (step_cases hs)
    rw [hw.rank, ← (Awaits.mk hl rfl rfl).rank, hv] at hless
    exact hless

/-- Again and again the lock is free. -/
theorem lock_free (hfair : TasksFair b) :
    b.LeadsTo (fun _ => True) fun s => s.handlesLock = none := by
  intro n _
  cases hl : (b.state n).handlesLock with
  | none => exact ⟨n, Nat.le_refl n, hl⟩
  | some x =>
      obtain ⟨m, hm, hfree, -⟩ := lock_released hfair x.1 n ⟨x.2, hl⟩
      exact ⟨m, hm, hfree⟩

/-- A behaviour that ends without anybody in a shutdown and without a handle to take
is fair to the tasks: they have all ended. -/
theorem tasksFair_ofSchedule {as : List LifecycleAct}
    {h : (system cfg).exec (system cfg).init as = some s}
    (hn : s.handles.next = none) (hl : s.handlesLock = none) (hr : s.reconnecting = none) :
    TasksFair (.ofSchedule as h) := by
  have hstopped := (tasks_of_run (reachable_of_exec as h)).all_stopped hn (by simp [hl])
    (by simp [hr])
  refine ⟨fun c k => ?_, fun c k => ?_, ?_⟩
  all_goals
    refine (Behavior.stronglyFair_ofSchedule ?_).weaklyFair
    rintro ⟨a, t, rfl, hs⟩
  · have hstep : Step cfg s (.noticeAbort c k) t := step_cases hs
    cases hstep with
    | noticeAbort _ hrun => rw [hstopped] at hrun; simp at hrun
  · have hstep : Step cfg s (.publishLoss c k) t := step_cases hs
    cases hstep with
    | publishLoss hfail => rw [hstopped] at hfail; cases hfail
  · have hstep : Step cfg s .awaitHandle t := step_cases hs
    cases hstep with
    | awaitHandle hheld _ => rw [hl] at hheld; cases hheld

/-! ## `disconnect` -/

/-- Where a `disconnect` call goes on. -/
def DisconnectPc.after : DisconnectPc → DisconnectPc
  | .idle => .closing
  | .closing => .shutdown
  | .shutdown => .clear
  | .clear => .dropEventTx
  | .dropEventTx | .returned => .returned

theorem disconnects_takeNext (hin : s.InShutdown who) (d : Nat) :
    (s.takeNext who).disconnects d = s.disconnects d ∨
      (s.takeNext who).disconnects d = DisconnectPc.after (s.disconnects d) := by
  simp only [Lifecycle.takeNext]
  split
  next h =>
    obtain ⟨-, rfl⟩ := h
    have hpc : s.disconnects d = .shutdown := hin
    exact .inr (by rw [hpc]; rfl)
  next => exact .inl rfl

/-- A call stays where it is, or takes its next step. -/
theorem disconnects_step (ht : Tasks s) (hs : Step cfg s a t) (d : Nat) :
    t.disconnects d = s.disconnects d ∨ t.disconnects d = DisconnectPc.after (s.disconnects d) := by
  have hupdate {d' : Nat} {pc : DisconnectPc} (hpc : pc = DisconnectPc.after (s.disconnects d')) :
      Function.update s.disconnects d' pc d = s.disconnects d ∨
        Function.update s.disconnects d' pc d = DisconnectPc.after (s.disconnects d) := by
    rw [Function.update_apply]
    split
    next h => exact .inr (by rw [hpc, h])
    next => exact .inl rfl
  cases hs with
  | disconnect hb h => exact hupdate (by rw [h]; rfl)
  | flagDead h => exact hupdate (by rw [h]; rfl)
  | publishDisconnected h => exact hupdate (by rw [h]; rfl)
  | dropEventTx h => exact hupdate (by rw [h]; rfl)
  | lockHandles hl hin => exact disconnects_takeNext (inShutdown_cancel hin) d
  | awaitHandle hl h => exact disconnects_takeNext (ht.inShutdown hl) d
  | reconnect hb h => exact .inl (by rw [disconnects_acquire])
  | attempt ha h => exact .inl (by rw [disconnects_acquire])
  | tlsFailed h hpc => exact .inl (by rw [disconnects_returnErr])
  | connectFailed hw h hpc => exact .inl (by rw [disconnects_returnErr])
  | transportFailed hw h hpc => exact .inl (by rw [disconnects_returnErr])
  | tlsConnected h hpc =>
      left
      unfold Lifecycle.tlsConnected
      split
      · rw [disconnects_returnErr]
      · rfl
  | _ => exact .inl rfl

/-- A `disconnect` call and the tasks it awaits are scheduled fairly, the lock of
the handles included. -/
structure DisconnectFair (b : (system cfg).Behavior) (d : Nat) : Prop where
  tasks : TasksFair b
  flag : b.WeaklyFair (· = .flagDead d)
  lock : b.StronglyFair (· = .lockHandles (.disconnect d))
  publish : b.WeaklyFair (· = .publishDisconnected d)
  drop : b.WeaklyFair (· = .dropEventTx d)

/-- A call that can always take its next step does. -/
theorem leaves {d : Nat} (pc : DisconnectPc) (hfair : b.WeaklyFair (· = a))
    (hnext : ∀ s, s.disconnects d = pc → ∃ t, Step cfg s a t ∧
      t.disconnects d = DisconnectPc.after pc) :
    b.LeadsTo (fun s => s.disconnects d = pc) fun s => s.disconnects d = DisconnectPc.after pc := by
  refine Behavior.leadsTo_of_weaklyFair hfair (fun s x t hr hpc hs => ?_) (fun s hr hpc => ?_)
    (fun s x t hr hpc hx hs => ?_)
  · have hstep := disconnects_step (tasks_of_run hr) (step_cases hs) d
    rw [hpc] at hstep
    exact hstep
  · obtain ⟨t, ht, -⟩ := hnext s hpc
    exact enabled_of_step rfl ht
  · obtain ⟨t', ht', hafter⟩ := hnext s hpc
    subst hx
    obtain rfl : t' = t := Option.some.inj (ht'.enabled.symm.trans hs)
    exact hafter

/-- The shutdown of a call comes to its end. -/
theorem leaves_shutdown {d : Nat} (hfair : DisconnectFair b d) :
    b.LeadsTo (fun s => s.disconnects d = .shutdown) fun s => s.disconnects d = .clear := by
  have hheld : b.LeadsTo (HoldsLock (.disconnect d)) fun s => s.disconnects d = .clear :=
    (lock_released hfair.tasks (.disconnect d)).trans (Behavior.leadsTo_of_imp fun s _ h => h.2)
  have hkeep (s : Lifecycle) (x : LifecycleAct) (t : Lifecycle) (hr : (system cfg).Reachable s)
      (hpc : s.disconnects d = .shutdown) (hs : (system cfg).step s x = some t) :
      t.disconnects d = .shutdown ∨ (t.disconnects d = .clear ∨ HoldsLock (.disconnect d) t) := by
    have hstep := disconnects_step (tasks_of_run hr) (step_cases hs) d
    rw [hpc] at hstep
    exact hstep.imp_right .inl
  refine Behavior.LeadsTo.or_else (Behavior.leadsTo_of_stronglyFair hfair.lock hkeep ?_ ?_) hheld
  · have hfree : b.LeadsTo (fun s => s.disconnects d = .shutdown) fun s => s.handlesLock = none :=
      fun n _ => lock_free hfair.tasks n trivial
    refine (hfree.keeping hkeep).trans (Behavior.leadsTo_of_imp fun s _ h => ?_)
    rcases h with hQ | ⟨hpc, hl⟩
    · exact .inr hQ
    · exact .inl (enabled_of_step rfl (.lockHandles hl hpc))
  · intro s x t hr hpc hx hs
    subst hx
    have hstep : Step cfg s (.lockHandles (.disconnect d)) t := step_cases hs
    cases hstep with
    | lockHandles hl hin =>
        cases hn : s.handles.next with
        | none => exact .inl (released_takeNext (inShutdown_cancel hin) hn).2
        | some k => exact .inr ⟨k, by simp [Lifecycle.beginShutdown, Lifecycle.takeNext, hn]⟩

/-- **`disconnect` returns**: under fair scheduling every call that has begun returns,
whatever the other calls and the tasks do. -/
theorem disconnect_returns {d : Nat} (hfair : DisconnectFair b d) :
    b.LeadsTo (fun s => s.disconnects d ≠ .idle) fun s => s.disconnects d = .returned := by
  have hdrop := leaves .dropEventTx hfair.drop fun s h =>
    ⟨_, .dropEventTx h, Function.update_self ..⟩
  have hpublish := (leaves .clear hfair.publish fun s h =>
    ⟨_, .publishDisconnected h, Function.update_self ..⟩).trans hdrop
  have hshutdown := (leaves_shutdown hfair).trans hpublish
  have hflag := (leaves .closing hfair.flag fun s h =>
    ⟨_, .flagDead h, Function.update_self ..⟩).trans hshutdown
  intro n hn
  cases hpc : (b.state n).disconnects d with
  | idle => exact absurd hpc hn
  | closing => exact hflag n hpc
  | shutdown => exact hshutdown n hpc
  | clear => exact hpublish n hpc
  | dropEventTx => exact hdrop n hpc
  | returned => exact ⟨n, Nat.le_refl n, hpc⟩

/-- A lost client whose `disconnect` falls into the handshake of a reconnect. -/
def shutDownActs : List LifecycleAct := lostAndConnecting ++ disconnectActs ++ [.tlsConnected]

theorem disconnect_returns_during_handshake :
    ∃ s, ∃ h : (system autoCfg).exec (system autoCfg).init shutDownActs = some s,
      (Behavior.ofSchedule shutDownActs h).LeadsTo (fun s => s.disconnects 0 ≠ .idle)
        fun s => s.disconnects 0 = .returned := by
  refine ⟨_, rfl, disconnect_returns ⟨tasksFair_ofSchedule rfl rfl rfl, ?_, ?_, ?_, ?_⟩⟩
  · refine (Behavior.stronglyFair_ofSchedule ?_).weaklyFair
    rintro ⟨a, t, rfl, hs⟩
    cases hs
  · refine Behavior.stronglyFair_ofSchedule ?_
    rintro ⟨a, t, rfl, hs⟩
    cases hs
  · refine (Behavior.stronglyFair_ofSchedule ?_).weaklyFair
    rintro ⟨a, t, rfl, hs⟩
    cases hs
  · refine (Behavior.stronglyFair_ofSchedule ?_).weaklyFair
    rintro ⟨a, t, rfl, hs⟩
    cases hs

/-! ## `reconnect_with_attempt` -/

/-- How many points of a call are still to come. -/
def ReconnectPc.left : ReconnectPc → Nat
  | .shutdown => 10
  | .connecting => 9
  | .swapWriteTx => 8
  | .arm => 7
  | .clear => 6
  | .install => 5
  | .sendConnect => 4
  | .readTransport => 3
  | .sendTransport _ => 2
  | .publish => 1

/-- The same of the holder of `reconnect_lock`. -/
def left (s : Lifecycle) : Nat := s.reconnecting.elim 0 fun f => ReconnectPc.left f.pc

theorem left_of_some {f : Reconnect} (h : s.reconnecting = some f) :
    s.left = ReconnectPc.left f.pc := by
  rw [left, h]
  rfl

theorem left_pos (pc : ReconnectPc) : 0 < ReconnectPc.left pc := by
  cases pc <;> exact Nat.succ_pos _

/-- The steps that bring a call on which waits for no lock. -/
def Own : ReconnectPc → LifecycleAct → Prop
  | .shutdown, _ | .install, _ => False
  | .connecting, a => a = .tlsConnected ∨ a = .tlsFailed
  | .swapWriteTx, a => a = .swapWriteTx
  | .arm, a => a = .arm
  | .clear, a => a = .clearAndSpawn
  | .sendConnect, a => a = .connectSent ∨ a = .connectFailed
  | .readTransport, a => ∃ tid, a = .readTransport tid
  | .sendTransport _, a => a = .transportSent ∨ a = .transportFailed
  | .publish, a => a = .publishConnected

/-- Where a reconnect waits for the network. -/
def ReconnectPc.Outside : ReconnectPc → Prop
  | .connecting | .sendConnect | .sendTransport _ => True
  | _ => False

variable {f : Reconnect}

theorem left_returnErr (caller : Caller) (n : Nat) : (s.returnErr cfg caller n).left = 0 := by
  rw [left, reconnecting_returnErr]
  rfl

theorem left_tlsConnected (f : Reconnect) : (s.tlsConnected cfg f).left ≤ 8 := by
  unfold Lifecycle.tlsConnected
  split
  · rw [left_returnErr]
    exact Nat.zero_le _
  · exact Nat.le_refl _

theorem reconnecting_takeNext (hin : s.InShutdown who) (h : s.reconnecting = some f) :
    (s.takeNext who).reconnecting = some f ∨ (s.takeNext who).left < s.left := by
  simp only [left, Lifecycle.takeNext, h]
  split
  next hnext =>
    obtain ⟨-, rfl⟩ := hnext
    obtain ⟨g, hg, hpc⟩ := inShutdown_reconnect_iff.1 hin
    obtain rfl := Option.some.inj (h.symm.trans hg)
    right
    simp only [Option.map_some, Option.elim_some, hpc]
    decide
  next => exact .inl rfl

/-- The steps of the call itself, but for those of its shutdown. -/
def Moves : LifecycleAct → Prop
  | .tlsFailed | .tlsConnected | .swapWriteTx | .arm | .clearAndSpawn | .install | .connectSent
  | .connectFailed | .readTransport _ | .transportSent | .transportFailed | .publishConnected =>
      True
  | _ => False

theorem Own.moves {pc : ReconnectPc} (h : Own pc a) : Moves a := by
  cases pc with
  | shutdown => exact h.elim
  | install => exact h.elim
  | connecting => rcases h with rfl | rfl <;> trivial
  | swapWriteTx => subst h; trivial
  | arm => subst h; trivial
  | clear => subst h; trivial
  | sendConnect => rcases h with rfl | rfl <;> trivial
  | readTransport => obtain ⟨tid, rfl⟩ := h; trivial
  | sendTransport tid => rcases h with rfl | rfl <;> trivial
  | publish => subst h; trivial

/-- A call stays where it is, or goes on, as it does by its own steps. -/
theorem reconnecting_step (ht : Tasks s) (hs : Step cfg s a t) (h : s.reconnecting = some f) :
    t.reconnecting = some f ∧ ¬ Moves a ∨ t.left < s.left := by
  have hpos : 0 < s.left := left_of_some h ▸ left_pos f.pc
  have err (caller : Caller) (n : Nat) : (s.returnErr cfg caller n).left < s.left := by
    rw [left_returnErr]
    exact hpos
  have own {g : Reconnect} {pc : ReconnectPc} (hg : s.reconnecting = some g) (hpc : g.pc = pc) :
      s.left = ReconnectPc.left pc := by rw [left_of_some hg, hpc]
  cases hs with
  | lockHandles hl hin =>
      exact (reconnecting_takeNext (inShutdown_cancel hin) h).imp_left fun h => ⟨h, id⟩
  | awaitHandle hl hk =>
      exact (reconnecting_takeNext (ht.inShutdown hl) h).imp_left fun h => ⟨h, id⟩
  | reconnect hb hn => rw [h] at hn; cases hn
  | attempt ha hn => rw [h] at hn; cases hn
  | tlsFailed hg hpc => exact .inr (err _ _)
  | tlsConnected hg hpc =>
      refine .inr (Nat.lt_of_le_of_lt (left_tlsConnected _) ?_)
      rw [own hg hpc]
      decide
  | swapWriteTx hg hpc => right; rw [own hg hpc]; exact Nat.lt_succ_self _
  | arm hg hpc => right; rw [own hg hpc]; exact Nat.lt_succ_self _
  | clearAndSpawn hg hpc => right; rw [own hg hpc]; exact Nat.lt_succ_self _
  | install hl hg hpc => right; rw [own hg hpc]; exact Nat.lt_succ_self _
  | connectSent hw hg hpc => right; rw [own hg hpc]; exact Nat.lt_succ_self _
  | connectFailed hw hg hpc => exact .inr (err _ _)
  | @readTransport g tid hg hpc =>
      right
      rw [own hg hpc]
      cases tid with
      | none => exact (by decide : 1 < 3)
      | some tid => exact (by decide : 2 < 3)
  | transportSent hw hg hpc => right; rw [own hg hpc]; exact Nat.lt_succ_self _
  | transportFailed hw hg hpc => exact .inr (err _ _)
  | publishConnected hg hpc => exact .inr hpos
  | _ => exact .inl ⟨h, id⟩

/-- A call that waits for no lock can take a step of its own. -/
theorem enabled_own (h : s.reconnecting = some f) (hpc : f.pc ≠ .shutdown)
    (hpc' : f.pc ≠ .install) :
    (system cfg).Enabled (Own f.pc) s := by
  obtain ⟨caller, attempt, pc, eventTx⟩ := f
  cases pc with
  | shutdown => exact absurd rfl hpc
  | install => exact absurd rfl hpc'
  | connecting => exact enabled_of_step (.inr rfl) (.tlsFailed h rfl)
  | swapWriteTx => exact enabled_of_step rfl (.swapWriteTx h rfl)
  | arm => exact enabled_of_step rfl (.arm h rfl)
  | clear => exact enabled_of_step rfl (.clearAndSpawn h rfl)
  | sendConnect =>
      by_cases hw : s.task s.writeTx .writer = .stopped
      · exact enabled_of_step (.inr rfl) (.connectFailed hw h rfl)
      · exact enabled_of_step (.inl rfl) (.connectSent hw h rfl)
  | readTransport => exact enabled_of_step ⟨none, rfl⟩ (.readTransport h rfl)
  | sendTransport tid =>
      by_cases hw : s.task s.writeTx .writer = .stopped
      · exact enabled_of_step (.inr rfl) (.transportFailed hw h rfl)
      · exact enabled_of_step (.inl rfl) (.transportSent hw h rfl)
  | publish => exact enabled_of_step rfl (.publishConnected h rfl)

/-- A reconnect and the tasks it awaits are scheduled fairly, the lock of the handles
included; and the network lets it go on: every handshake comes to an end, and the channel
of the new writer gets room for each CONNECT, or closes. -/
structure ReconnectFair (b : (system cfg).Behavior) : Prop where
  tasks : TasksFair b
  lock : b.StronglyFair (· = .lockHandles .reconnect)
  install : b.StronglyFair (· = .install)
  scheduled (pc : ReconnectPc) (h : ¬ ReconnectPc.Outside pc) : b.WeaklyFair (Own pc)
  handshake : b.WeaklyFair (Own .connecting)
  connectRoom : b.WeaklyFair (Own .sendConnect)
  transportRoom (tid : String) : b.WeaklyFair (Own (.sendTransport tid))

/-- Whatever it waits for, a reconnect goes on. -/
theorem ReconnectFair.own (h : ReconnectFair b) (pc : ReconnectPc) : b.WeaklyFair (Own pc) := by
  cases pc with
  | connecting => exact h.handshake
  | sendConnect => exact h.connectRoom
  | sendTransport tid => exact h.transportRoom tid
  | _ => exact h.scheduled _ id

/-- The call is still at this point. -/
theorem keeps_or_goes (hr : (system cfg).Reachable s) (h : s.reconnecting = some f)
    (hs : (system cfg).step s a = some t) :
    t.reconnecting = some f ∨ t.left < ReconnectPc.left f.pc := by
  rw [← left_of_some h]
  exact (reconnecting_step (tasks_of_run hr) (step_cases hs) h).imp_left And.left

theorem left_of_released (h : Released .reconnect s) : s.left = 9 := by
  obtain ⟨g, hg, hconnecting⟩ := Option.map_eq_some_iff.1 h.2
  rw [left_of_some hg, hconnecting]
  rfl

/-- The shutdown of a reconnect comes to its end. -/
theorem reconnect_leaves_shutdown (hfair : ReconnectFair b) (hpc : f.pc = .shutdown) :
    b.LeadsTo (fun s => s.reconnecting = some f) fun s => s.left < ReconnectPc.left f.pc := by
  have hheld : b.LeadsTo (HoldsLock .reconnect) fun s => s.left < ReconnectPc.left f.pc := by
    refine (lock_released hfair.tasks .reconnect).trans (Behavior.leadsTo_of_imp fun s _ h => ?_)
    rw [left_of_released h, hpc]
    decide
  have hkeep (s : Lifecycle) (x : LifecycleAct) (t : Lifecycle) (hr : (system cfg).Reachable s)
      (h : s.reconnecting = some f) (hs : (system cfg).step s x = some t) :
      t.reconnecting = some f ∨ (t.left < ReconnectPc.left f.pc ∨ HoldsLock .reconnect t) :=
    (keeps_or_goes hr h hs).imp_right .inl
  have hfree : b.LeadsTo (fun s => s.reconnecting = some f) fun s => s.handlesLock = none :=
    fun n _ => lock_free hfair.tasks n trivial
  refine Behavior.LeadsTo.or_else (Behavior.leadsTo_of_stronglyFair hfair.lock hkeep ?_ ?_) hheld
  · refine (hfree.keeping hkeep).trans (Behavior.leadsTo_of_imp fun s _ h => ?_)
    rcases h with hQ | ⟨hf, hl⟩
    · exact .inr hQ
    · exact .inl (enabled_of_step rfl (.lockHandles hl (inShutdown_reconnect_iff.2 ⟨f, hf, hpc⟩)))
  · intro s x t hr hf hx hs
    subst hx
    have hstep : Step cfg s (.lockHandles .reconnect) t := step_cases hs
    cases hstep with
    | lockHandles hl hin =>
        cases hn : s.handles.next with
        | none =>
            left
            rw [hpc]
            refine Nat.lt_of_le_of_lt (Nat.le_of_eq (left_of_released ?_)) (by decide)
            exact released_takeNext (inShutdown_cancel hin) hn
        | some k => exact .inr ⟨k, by simp [Lifecycle.beginShutdown, Lifecycle.takeNext, hn]⟩

/-- The handles are installed when the lock is free. -/
theorem reconnect_leaves_install (hfair : ReconnectFair b) (hpc : f.pc = .install) :
    b.LeadsTo (fun s => s.reconnecting = some f) fun s => s.left < ReconnectPc.left f.pc := by
  have hfree : b.LeadsTo (fun s => s.reconnecting = some f) fun s => s.handlesLock = none :=
    fun n _ => lock_free hfair.tasks n trivial
  have hkeep (s : Lifecycle) (x : LifecycleAct) (t : Lifecycle) (hr : (system cfg).Reachable s)
      (h : s.reconnecting = some f) (hs : (system cfg).step s x = some t) := keeps_or_goes hr h hs
  refine Behavior.leadsTo_of_stronglyFair hfair.install hkeep ?_ ?_
  · refine (hfree.keeping hkeep).trans (Behavior.leadsTo_of_imp fun s _ h => ?_)
    rcases h with hQ | ⟨hf, hl⟩
    · exact .inr hQ
    · exact .inl (enabled_of_step rfl (.install hl hf hpc))
  · intro s x t hr hf hx hs
    subst hx
    have hstep : Step cfg s .install t := step_cases hs
    rw [← left_of_some hf]
    exact (reconnecting_step (tasks_of_run hr) hstep hf).resolve_left fun hstay => hstay.2 trivial

/-- Whoever reconnects goes on. -/
theorem reconnect_goes_on (hfair : ReconnectFair b) (f : Reconnect) :
    b.LeadsTo (fun s => s.reconnecting = some f) fun s => s.left < ReconnectPc.left f.pc := by
  by_cases hshutdown : f.pc = .shutdown
  · exact reconnect_leaves_shutdown hfair hshutdown
  by_cases hinstall : f.pc = .install
  · exact reconnect_leaves_install hfair hinstall
  refine Behavior.leadsTo_of_weaklyFair (hfair.own f.pc)
    (fun s a t hr h hs => keeps_or_goes hr h hs)
    (fun s _ h => enabled_own h hshutdown hinstall) fun s a t hr h ha hs => ?_
  rw [← left_of_some h]
  exact (reconnecting_step (tasks_of_run hr) (step_cases hs) h).resolve_left fun hstay =>
    hstay.2 ha.moves

/-- The reconnect lock is free again and again. -/
theorem reconnect_lock_free (hfair : ReconnectFair b) :
    b.LeadsTo (fun _ => True) fun s => s.reconnecting = none := by
  have hheld : b.LeadsTo (fun s => s.reconnecting ≠ none) fun s => s.reconnecting = none := by
    refine Behavior.leadsTo_of_rank left fun v n hn => ?_
    obtain ⟨f, hf⟩ := Option.ne_none_iff_exists'.1 hn.1
    obtain ⟨m, hm, hless⟩ := reconnect_goes_on hfair f n hf
    rw [← left_of_some hf, hn.2] at hless
    cases hr : (b.state m).reconnecting with
    | none => exact ⟨m, hm, .inl hr⟩
    | some g => exact ⟨m, hm, .inr ⟨by rw [hr]; exact Option.some_ne_none g, hless⟩⟩
  intro n _
  by_cases hfree : (b.state n).reconnecting = none
  · exact ⟨n, Nat.le_refl n, hfree⟩
  · exact hheld n hfree

/-- **Every reconnect ends**: under fair scheduling, and when every handshake comes to an
end and the write channel gets room for each CONNECT, the call that has the reconnect lock
gives it back, whatever the other calls and the tasks do. -/
theorem reconnect_ends (hfair : ReconnectFair b) :
    b.LeadsTo (fun s => s.reconnecting ≠ none) fun s => s.reconnecting = none :=
  fun n _ => reconnect_lock_free hfair n trivial

/-- A behaviour that ends without a reconnect, and as above, is fair to reconnects. -/
theorem reconnectFair_ofSchedule {as : List LifecycleAct}
    {h : (system cfg).exec (system cfg).init as = some s}
    (hn : s.handles.next = none) (hl : s.handlesLock = none) (hr : s.reconnecting = none) :
    ReconnectFair (.ofSchedule as h) := by
  have hidle (x : LifecycleAct) (t : Lifecycle) (hx : Moves x) : ¬ Step cfg s x t := by
    intro hs
    cases hs <;> simp_all [Moves]
  have hown (pc : ReconnectPc) : (Behavior.ofSchedule as h).WeaklyFair (Own pc) := by
    refine (Behavior.stronglyFair_ofSchedule ?_).weaklyFair
    rintro ⟨x, t, hown, hs⟩
    exact hidle x t hown.moves (step_cases hs)
  refine ⟨tasksFair_ofSchedule hn hl hr, ?_, ?_, fun pc _ => hown pc, hown _, hown _,
    fun tid => hown _⟩
  · refine Behavior.stronglyFair_ofSchedule ?_
    rintro ⟨x, t, rfl, hs⟩
    have hstep : Step cfg s (.lockHandles .reconnect) t := step_cases hs
    cases hstep with
    | lockHandles _ hin =>
        obtain ⟨f, hf, -⟩ := inShutdown_reconnect_iff.1 hin
        rw [hr] at hf
        cases hf
  · refine Behavior.stronglyFair_ofSchedule ?_
    rintro ⟨x, t, rfl, hs⟩
    exact hidle .install t trivial (step_cases hs)

theorem reconnect_ends_in_vain :
    ∃ s, ∃ h : (system autoCfg).exec (system autoCfg).init shutDownActs = some s,
      (Behavior.ofSchedule shutDownActs h).LeadsTo (fun s => s.reconnecting ≠ none)
        fun s => s.reconnecting = none :=
  ⟨_, rfl, reconnect_ends (reconnectFair_ofSchedule rfl rfl rfl)⟩

end Oxicast.Lifecycle
