import Oxicast.Lifecycle.Disconnect
import Oxicast.Lifecycle.Generations

/-!
# Oxicast.Lifecycle.Cancellation

A manual `reconnect` whose future is dropped.

`reconnect_with_attempt` changes the client step by step and is suspended in
between: a future that is dropped there releases its guards and the join handles
it holds, and a dropped handle detaches its task.  What is left behind is fine
up to the store of `alive`, where the client has no tasks and is not alive, and
again once the new handles are installed; in between it is not, and neither is it
when somebody waits for a task whose handle is taken already.

A future that still waits for `reconnect_lock` has done nothing.
-/

namespace Oxicast

/-- The call can be suspended here.  The publication at its end runs through. -/
def ReconnectPc.Awaits : ReconnectPc → Bool
  | .publish => false
  | _ => true

inductive CancelAct where
  | life (a : LifecycleAct)
  | dropReconnect

namespace Lifecycle

/-- The future of a `reconnect` is dropped, with its guards and the handles of the
task it awaits or of the tasks it has spawned. -/
def dropReconnect (s : Lifecycle) : Lifecycle :=
  { s with
    reconnecting := none
    handlesLock := if s.handlesLock.map (·.1) = some .reconnect then none else s.handlesLock }

/-- One step of a client whose manual reconnects may be dropped. -/
def cancelStep (cfg : ClientConfig) (s : Lifecycle) : CancelAct → Option Lifecycle
  | .life a => s.step cfg a
  | .dropReconnect =>
      match s.reconnecting with
      | some f => if f.caller = .manual ∧ f.pc.Awaits then some s.dropReconnect else none
      | none => none

/-- All interleavings of the calls and tasks of one client, with dropped reconnects. -/
def cancellable (cfg : ClientConfig) : TransitionSystem Lifecycle CancelAct :=
  ⟨.start cfg, cancelStep cfg⟩

end Lifecycle

namespace Lifecycle

open TransitionSystem

variable {cfg : ClientConfig} {s s' : Lifecycle} {a : CancelAct}

/-! ## what is left behind -/

/-- `alive` stands for a complete generation of tasks, and the handle of every task
that is not finished is recorded. -/
structure Intact (s : Lifecycle) : Prop where
  complete : s.alive = true → s.AllRunning
  recorded : ∀ c k, s.task c k ≠ .stopped → s.handles.connection = c ∧ s.handles.recorded k = true

/-- No `shutdown` waits for a task that is not finished. -/
def NoneAwaited (s : Lifecycle) : Prop :=
  ∀ who k, s.handlesLock = some (who, k) → s.task s.handles.connection k = .stopped

/-- The call may be dropped here: in its shutdown when the task it awaits has
ended; between the store of `alive` and the spawn when `alive` is reset already;
before the install when the new tasks have ended; after it unless the new tasks
are shut down behind its back. -/
def HarmlessAt (s : Lifecycle) : ReconnectPc → Prop
  | .shutdown => s.NoneAwaited
  | .connecting | .swapWriteTx | .arm => True
  | .clear => s.alive = false
  | .install => ∀ k, s.task s.writeTx k = .stopped
  | .sendConnect | .readTransport | .sendTransport _ =>
      s.NoneAwaited ∧ (s.alive = false ∨ s.cancelled s.writeTx = false)
  | .publish => False

/-- A reconnect is dropped at a harmless point only. -/
def DropsHarmless (s : Lifecycle) : CancelAct → Prop
  | .dropReconnect => ∃ f, s.reconnecting = some f ∧ s.HarmlessAt f.pc
  | .life _ => True

/-! ## what a step can do -/

inductive CancelStep (cfg : ClientConfig) (s : Lifecycle) : CancelAct → Lifecycle → Prop
  | life {a : LifecycleAct} {t : Lifecycle} (h : Step cfg s a t) : CancelStep cfg s (.life a) t
  | dropReconnect {f : Reconnect} (h : s.reconnecting = some f) (hm : f.caller = .manual)
      (hpc : f.pc.Awaits = true) : CancelStep cfg s .dropReconnect s.dropReconnect

theorem cancelStep_cases (h : s.cancelStep cfg a = some s') : CancelStep cfg s a s' := by
  cases a with
  | life a => exact .life (step_cases h)
  | dropReconnect =>
      simp only [cancelStep] at h
      split at h
      next f hf =>
        obtain ⟨⟨hm, hpc⟩, rfl⟩ := of_if h
        exact .dropReconnect hf hm hpc
      next => contradiction

/-- What `dropReconnect` does to the lock, which a reconnect holds in its shutdown only. -/
theorem handlesLock_dropReconnect (ht : Tasks s) {f : Reconnect} (hf : s.reconnecting = some f)
    (hpc : f.pc ≠ .shutdown) : s.dropReconnect.handlesLock = s.handlesLock := by
  refine if_neg fun hheld => hpc ?_
  obtain ⟨⟨who, k⟩, hl, rfl⟩ := Option.map_eq_some_iff.1 hheld
  have hin := ht.byReconnect k hl
  rw [hf] at hin
  exact Option.some.inj hin

theorem handlesLock_of_drop {who : ShutdownCaller} {k : TaskKind}
    (h : s.dropReconnect.handlesLock = some (who, k)) : s.handlesLock = some (who, k) := by
  simp only [dropReconnect] at h
  split at h
  · contradiction
  · exact h

theorem not_byReconnect_of_drop (s : Lifecycle) (k : TaskKind) :
    s.dropReconnect.handlesLock ≠ some (.reconnect, k) := by
  intro h
  have hl := handlesLock_of_drop h
  simp [dropReconnect, hl] at h

/-! ## the tasks -/

/-- A harmless drop leaves no task without an owner. -/
theorem Tasks.dropReconnect (h : Tasks s) {f : Reconnect} (hf : s.reconnecting = some f)
    (hok : s.HarmlessAt f.pc) : Tasks s.dropReconnect := by
  have hb := h.built (.inl (by simp [hf]))
  refine ⟨fun c k hrun => ?_, nofun, fun k hl => ?_, fun d k hl => ?_, h.failing, nofun, ?_⟩
  · obtain ⟨hc, hown⟩ := h.owned c k hrun
    refine ⟨hc, .inr ?_⟩
    cases hpc : f.pc with
    | shutdown =>
        rw [hpc] at hok
        obtain ⟨hconn, hrec | hlock⟩ := hown.resolve_left (by simp [hf, hpc])
        · exact ⟨hconn, .inl hrec⟩
        · obtain ⟨⟨who, k'⟩, hl, rfl⟩ := Option.map_eq_some_iff.1 hlock
          rw [← hconn] at hrun
          exact absurd (hok who k' hl) hrun
    | install =>
        rw [hpc] at hok
        rw [hc] at hrun
        exact absurd (hok k) hrun
    | _ =>
        rw [handlesLock_dropReconnect h hf (by simp [hpc])]
        exact hown.resolve_left (by simp [hf, hpc])
  · exact absurd hl (not_byReconnect_of_drop s k)
  · exact h.byDisconnect d k (handlesLock_of_drop hl)
  · exact fun hne => absurd hb hne

theorem Tasks.cancelStep (h : Tasks s) (hok : DropsHarmless s a) (hs : CancelStep cfg s a s') :
    Tasks s' := by
  cases hs with
  | life hl => exact h.step hl
  | dropReconnect hf hm hpc =>
      obtain ⟨g, hg, hharmless⟩ := hok
      exact h.dropReconnect hg hharmless

theorem tasks_of_cancelRun (h : (cancellable cfg).Run DropsHarmless (start cfg) s) : Tasks s :=
  h.invariant tasks_start fun _ _ _ hi hok hs => hi.cancelStep hok (cancelStep_cases hs)

/-! ## the tokens -/

/-- What the tokens and the recorded handles say about the tasks of the current
connection.  While `alive` is set and its token is not cancelled they all run; when
it is, a shutdown is under way or one of them has ended. -/
structure Tokens (s : Lifecycle) : Prop where
  aborted : ∀ c k, s.aborted c k = true → s.cancelled c = true
  fresh : ∀ c, s.writeTx < c → s.cancelled c = false
  behind : s.handles.connection ≤ s.writeTx
  swapped : ∀ f, s.reconnecting = some f → f.pc = .arm ∨ f.pc = .clear ∨ f.pc = .install →
    s.handles.connection < s.writeTx ∧ s.cancelled s.writeTx = false
  taken : ∀ who k, s.handlesLock = some (who, k) → s.handles.recorded k = false
  cancelling : s.handlesLock ≠ none → s.cancelled s.handles.connection = true
  up : s.alive = true → s.reconnecting.map (·.pc) ≠ some .clear →
    s.cancelled s.writeTx = false → s.AllRunning
  down : s.alive = true → s.cancelled s.writeTx = true →
    s.handlesLock ≠ none ∨ ∃ k, s.task s.writeTx k = .stopped

theorem tokens_start : Tokens (start cfg) := by
  unfold start
  constructor <;> simp [TaskHandles.all, AllRunning]

/-- A task of the current connection ends, or goes on to report a loss. -/
theorem Tokens.endTask {c : Nat} {k : TaskKind} {t : TaskState} {alive : Bool}
    {connection : Watch ConnectionState} {events : Mpsc CastEvent} (h : Tokens s)
    (hend : alive = false ∨ alive = s.alive ∧ (s.cancelled s.writeTx = true ∨ ¬ s.AllRunning))
    (hstop : s.task c k ≠ .stopped) :
    Tokens { s with task := setTask s.task c k t, alive, connection, events } := by
  obtain ⟨aborted, fresh, behind, swapped, taken, cancelling, up, down⟩ := h
  refine ⟨aborted, fresh, behind, swapped, taken, cancelling, fun halive hpc hcan => ?_,
    fun halive hcan => ?_⟩
  · obtain hdead | ⟨heq, hcan' | hnot⟩ := hend
    · rw [hdead] at halive; contradiction
    · exact absurd (hcan'.symm.trans hcan) (by simp)
    · exact absurd (up (heq.symm.trans halive) hpc hcan) hnot
  · obtain hdead | ⟨heq, -⟩ := hend
    · rw [hdead] at halive; contradiction
    · refine (down (heq.symm.trans halive) hcan).imp_right fun ⟨k', hk'⟩ => ⟨k', ?_⟩
      show setTask s.task c k t s.writeTx k' = .stopped
      rw [setTask, if_neg, hk']
      rintro ⟨rfl, rfl⟩
      exact hstop hk'

/-- Nothing that matters here has changed. -/
theorem Tokens.keep (h : Tokens s) (hw : s'.writeTx = s.writeTx) (ht : s'.task = s.task)
    (hc : s'.cancelled = s.cancelled) (hab : s'.aborted = s.aborted) (hh : s'.handles = s.handles)
    (hl : s'.handlesLock = s.handlesLock) (halive : s'.alive = false ∨ s'.alive = s.alive)
    (hr : ∀ g, s'.reconnecting = some g → g.pc = .arm ∨ g.pc = .clear ∨ g.pc = .install →
      s'.reconnecting = s.reconnecting)
    (hclear : s.reconnecting.map (·.pc) = some .clear → s'.reconnecting = s.reconnecting) :
    Tokens s' := by
  obtain ⟨aborted, fresh, behind, swapped, taken, cancelling, up, down⟩ := h
  have hup (hs : s'.alive = true) : s.alive = true := by
    rcases halive with hdead | heq
    · rw [hdead] at hs; contradiction
    · exact heq.symm.trans hs
  have hall : s.AllRunning → s'.AllRunning := by
    intro hrun k
    rw [hw, ht]
    exact hrun k
  refine ⟨?_, ?_, ?_, ?_, ?_, ?_, fun hs hpc hcan => hall (up (hup hs) ?_ ?_), fun hs hcan => ?_⟩
  · rw [hab, hc]; exact aborted
  · rw [hw, hc]; exact fresh
  · rw [hw, hh]; exact behind
  · intro g hg hpc
    rw [hh, hw, hc]
    exact swapped g ((hr g hg hpc).symm.trans hg) hpc
  · rw [hl, hh]; exact taken
  · rw [hl, hc, hh]; exact cancelling
  · intro hpc'
    rw [hclear hpc'] at hpc
    exact hpc hpc'
  · rw [hc, hw] at hcan; exact hcan
  · rw [hl, ht, hw]
    rw [hc, hw] at hcan
    exact down (hup hs) hcan

/-- `shutdown` takes one more handle of the connection whose token is cancelled. -/
theorem Tokens.takeNext {who : ShutdownCaller} {cancelled : Nat → Bool} (h : Tokens s)
    (ht : Tasks s)
    (hcan : ∀ c, cancelled c = (s.cancelled c || decide (c = s.handles.connection)))
    (hin : s.InShutdown who)
    (hl : ∀ k, s.handlesLock.map (·.2) = some k → s.task s.handles.connection k = .stopped) :
    Tokens ({ s with cancelled }.takeNext who) := by
  obtain ⟨aborted, fresh, behind, swapped, taken, cancelling, up, down⟩ := h
  have hdead (hwho : who = .reconnect) : s.alive = false := by
    rw [hwho, inShutdown_reconnect_iff] at hin
    obtain ⟨f, hf, hpc⟩ := hin
    exact ht.unarmed f hf (by simp [hpc, ReconnectPc.Unarmed])
  refine ⟨fun c k hab => ?_, fun c hc => ?_, behind, fun f hf hpc => ?_, fun w k hlock => ?_,
    fun _ => ?_, fun halive hpc hlive => ?_, fun halive hlive => ?_⟩
  · simp only [Lifecycle.takeNext, Bool.or_eq_true, decide_eq_true_eq] at hab ⊢
    rw [hcan]
    rcases hab with hab | ⟨rfl, -⟩
    · simp [aborted c k hab]
    · simp
  · have hne : c ≠ s.handles.connection := Nat.ne_of_gt (Nat.lt_of_le_of_lt behind hc)
    show cancelled c = false
    rw [hcan, fresh c hc]
    simp [hne]
  · have hf' : s.reconnecting = some f := by
      simp only [Lifecycle.takeNext] at hf
      split at hf
      · obtain ⟨g, -, rfl⟩ := Option.map_eq_some_iff.1 hf
        simp at hpc
      · exact hf
    obtain ⟨hlt, hlive⟩ := swapped f hf' hpc
    refine ⟨hlt, ?_⟩
    show cancelled s.writeTx = false
    rw [hcan, hlive]
    simp [Nat.ne_of_gt hlt]
  · obtain ⟨k', hnext, heq⟩ := Option.map_eq_some_iff.1 hlock
    obtain ⟨-, rfl⟩ := Prod.mk.inj heq
    have hnext' : s.handles.next = some k' := hnext
    simp [Lifecycle.takeNext, hnext']
  · show cancelled s.handles.connection = true
    simp [hcan]
  · have hwho : who ≠ .reconnect := fun hwho => by
      rw [show s.alive = true from halive] at hdead
      exact absurd (hdead hwho) (by simp)
    have hlive' : s.cancelled s.writeTx = false := by
      have hc : cancelled s.writeTx = false := hlive
      rw [hcan, Bool.or_eq_false_iff] at hc
      exact hc.1
    refine up halive ?_ hlive'
    simpa [Lifecycle.takeNext, hwho] using hpc
  · cases hnext : s.handles.next with
    | some k => left; simp [Lifecycle.takeNext, hnext]
    | none =>
        right
        refine ⟨.reader, ht.all_stopped hnext hl (fun f hf hpc => ?_) _ _⟩
        obtain ⟨hlt, hfalse⟩ := swapped f hf (.inr (.inr hpc))
        have htrue : cancelled s.writeTx = true := hlive
        rw [hcan, hfalse] at htrue
        have heq : s.writeTx = s.handles.connection := by simpa using htrue
        omega

theorem Tokens.returnErr (h : Tokens s) (hpc : s.reconnecting.map (·.pc) ≠ some .clear)
    (caller : Caller) (n : Nat) : Tokens (s.returnErr cfg caller n) := by
  obtain ⟨auto, connection, events, heq⟩ := @returnErr_eq cfg s caller n
  rw [heq]
  exact h.keep rfl rfl rfl rfl rfl rfl (.inr rfl) nofun fun hc => absurd hc hpc

theorem Tokens.acquire (h : Tokens s) (hr : s.reconnecting = none) (caller : Caller) (n : Nat) :
    Tokens (s.acquire cfg caller n) := by
  have hpc : s.reconnecting.map (·.pc) ≠ some .clear := by simp [hr]
  unfold Lifecycle.acquire
  split_ifs
  · exact h.returnErr hpc caller n
  · exact h.keep rfl rfl rfl rfl rfl rfl (.inr rfl) nofun fun hc => absurd hc hpc
  · exact h.keep rfl rfl rfl rfl rfl rfl (.inr rfl) (by rintro _ ⟨⟩ hg; simp at hg)
      fun hc => absurd hc hpc

/-- A call goes on, to a point that is neither before nor in its spawns. -/
theorem Tokens.proceed {f g : Reconnect} (h : Tokens s) (hf : s.reconnecting = some f)
    (hpc : f.pc ≠ .clear) (hg : g.pc ≠ .arm ∧ g.pc ≠ .clear ∧ g.pc ≠ .install) :
    Tokens { s with reconnecting := some g } := by
  refine h.keep rfl rfl rfl rfl rfl rfl (.inr rfl) (fun x hx hxpc => ?_) fun hc => ?_
  · obtain rfl := Option.some.inj hx
    exact absurd hxpc (by simp [hg])
  · simp [hf, hpc] at hc

theorem Tokens.step {a : LifecycleAct} (h : Tokens s) (ht : Tasks s) (hs : Step cfg s a s') :
    Tokens s' := by
  have hh := h
  obtain ⟨aborted, fresh, behind, swapped, taken, cancelling, up, down⟩ := h
  -- a task that is not running disturbs the generation
  have hidle {c : Nat} {k : TaskKind} {t : TaskState} (hk : s.task c k = t) (hstop : t ≠ .stopped)
      (hrun : t ≠ .running) : ¬ s.AllRunning := fun hall => by
    obtain rfl := (ht.owned c k (hk.trans_ne hstop)).1
    exact hrun (hk.symm.trans (hall k))
  cases hs with
  | fail hk => exact hh.endTask (.inl rfl) (by simp [hk])
  | publishLoss hk =>
      exact hh.endTask (.inr ⟨rfl, .inr (hidle hk (by simp) (by simp))⟩) (by simp [hk])
  | readerCleared hk =>
      exact hh.endTask (.inr ⟨rfl, .inr (hidle hk (by simp) (by simp))⟩) (by simp [hk])
  | @noticeCancel c k hc hk =>
      obtain rfl := (ht.owned c k (by simp [hk])).1
      exact hh.endTask (.inr ⟨rfl, .inl hc⟩) (by simp [hk])
  | @noticeAbort c k hab hk =>
      have hne : s.task c k ≠ .stopped := by rcases hk with hk | hk <;> simp [hk]
      obtain rfl := (ht.owned c k hne).1
      exact hh.endTask (.inr ⟨rfl, .inl (aborted _ k hab)⟩) hne
  | heartbeatQuit hk hw =>
      obtain rfl := (ht.owned _ .heartbeat (hk.trans_ne (by simp))).1
      refine hh.endTask (.inr ⟨rfl, .inr fun hall => ?_⟩) (by simp [hk])
      have hwriter := hall .writer
      rw [hw] at hwriter
      contradiction
  | lockHandles hl hin =>
      exact hh.takeNext ht (fun _ => rfl) hin (by simp [hl])
  | @awaitHandle who k hl hstop =>
      have hcan := cancelling (by simp [hl])
      refine hh.takeNext ht (fun c => ?_) (ht.inShutdown hl) (by simpa [hl] using hstop)
      by_cases hc : c = s.handles.connection
      · simp [hc, hcan]
      · simp [hc]
  | reconnect hb hr => exact hh.acquire hr .manual 1
  | attempt ha hr => exact hh.acquire hr .auto _
  | tlsFailed hf hpc => exact hh.returnErr (by simp [hf, hpc]) _ _
  | connectFailed hw hf hpc => exact hh.returnErr (by simp [hf, hpc]) _ _
  | transportFailed hw hf hpc => exact hh.returnErr (by simp [hf, hpc]) _ _
  | tlsConnected hf hpc =>
      unfold Lifecycle.tlsConnected
      split
      · exact hh.returnErr (by simp [hf, hpc]) _ _
      · exact hh.proceed hf (by simp [hpc]) (by simp)
  | swapWriteTx hf hpc =>
      have hdead := ht.unarmed _ hf (by simp [hpc, ReconnectPc.Unarmed])
      have hnew : s.cancelled (s.writeTx + 1) = false := fresh _ (Nat.lt_succ_self _)
      refine ⟨aborted, fun c hc => fresh c (Nat.lt_of_succ_lt hc), Nat.le_succ_of_le behind,
        fun _ _ _ => ⟨Nat.lt_succ_of_le behind, hnew⟩, taken, cancelling, fun halive =>
          ?_, fun halive => ?_⟩
      · rw [show s.alive = true from halive] at hdead; contradiction
      · rw [show s.alive = true from halive] at hdead; contradiction
  | @arm f hf hpc =>
      have hpend := swapped f hf (.inl hpc)
      refine ⟨aborted, fresh, behind, fun _ _ _ => hpend, taken, cancelling, fun _ hclear => ?_,
        fun _ hcan => ?_⟩
      · exact absurd rfl hclear
      · exact absurd (hcan.symm.trans hpend.2) (by simp)
  | @clearAndSpawn f hf hpc =>
      have hpend := swapped f hf (.inr (.inl hpc))
      refine ⟨aborted, fresh, behind, fun _ _ _ => hpend, taken, cancelling,
        fun _ _ _ k => if_pos rfl,
        fun _ hcan => ?_⟩
      exact absurd (hcan.symm.trans hpend.2) (by simp)
  | @install f hl hf hpc =>
      have hpend := swapped f hf (.inr (.inr hpc))
      refine ⟨aborted, fresh, Nat.le_refl _, fun g hg hpc' => ?_, fun who k hlock => ?_,
        fun hlock => ?_,
        fun halive _ hcan => up halive (by simp [hf, hpc]) hcan, fun _ hcan => ?_⟩
      · obtain rfl := Option.some.inj hg
        simp at hpc'
      · exact absurd (hl.symm.trans hlock) (by simp)
      · exact absurd hl hlock
      · exact absurd (hcan.symm.trans hpend.2) (by simp)
  | connectSent hw hf hpc => exact hh.proceed hf (by simp [hpc]) (by simp)
  | @readTransport f tid hf hpc => exact hh.proceed hf (by simp [hpc]) (by cases tid <;> simp)
  | transportSent hw hf hpc => exact hh.proceed hf (by simp [hpc]) (by simp)
  | publishConnected hf hpc =>
      exact hh.keep rfl rfl rfl rfl rfl rfl (.inr rfl) nofun (by simp [hf, hpc])
  | flagDead hd => exact hh.keep rfl rfl rfl rfl rfl rfl (.inl rfl) (fun _ _ _ => rfl) fun _ => rfl
  | _ => exact hh.keep rfl rfl rfl rfl rfl rfl (.inr rfl) (fun _ _ _ => rfl) fun _ => rfl

theorem Tokens.dropReconnect (h : Tokens s) (ht : Tasks s) {f : Reconnect}
    (hf : s.reconnecting = some f) (hok : s.HarmlessAt f.pc) : Tokens s.dropReconnect := by
  obtain ⟨aborted, fresh, behind, swapped, taken, cancelling, up, down⟩ := h
  have hdead (hpc : f.pc.Unarmed ∨ f.pc = .clear) : s.alive = false := by
    rcases hpc with hpc | hpc
    · exact ht.unarmed f hf hpc
    · rw [hpc] at hok
      exact hok
  refine ⟨aborted, fresh, behind, nofun, fun who k hl => taken who k (handlesLock_of_drop hl),
    fun hl => cancelling fun hnone => hl ?_, fun halive _ hcan => up halive (fun hpc => ?_) hcan,
    fun halive hcan => ?_⟩
  · simp [Lifecycle.dropReconnect, hnone]
  · exact absurd (halive.symm.trans (hdead (.inr (by simpa [hf] using hpc)))) (by simp)
  · have hpc : f.pc ≠ .shutdown := fun hpc =>
      absurd (halive.symm.trans (hdead (.inl (by simp [hpc, ReconnectPc.Unarmed])))) (by simp)
    rw [handlesLock_dropReconnect ht hf hpc]
    exact down halive hcan

theorem Tokens.cancelStep (h : Tokens s) (ht : Tasks s) (hok : DropsHarmless s a)
    (hs : CancelStep cfg s a s') : Tokens s' := by
  cases hs with
  | life hl => exact h.step ht hl
  | dropReconnect hf hm hpc =>
      obtain ⟨g, hg, hharmless⟩ := hok
      exact h.dropReconnect ht hg hharmless

theorem tokens_of_cancelRun (h : (cancellable cfg).Run DropsHarmless (start cfg) s) : Tokens s :=
  h.invariant_with (fun _ => tasks_of_cancelRun) tokens_start
    fun _ _ _ ht hi hok hs => hi.cancelStep ht hok (cancelStep_cases hs)

/-! ## cancel safety -/

/-- Every task has its handle recorded when no shutdown has just taken it. -/
theorem recorded_iff_noneAwaited (ht : Tasks s) (hk : Tokens s)
    (hpc : s.reconnecting.map (·.pc) ≠ some .install) :
    (∀ c k, s.task c k ≠ .stopped → s.handles.connection = c ∧ s.handles.recorded k = true) ↔
      s.NoneAwaited := by
  constructor
  · intro hrec who k hl
    by_contra hrun
    have htaken := hk.taken who k hl
    rw [(hrec _ k hrun).2] at htaken
    contradiction
  · intro hnone c k hrun
    obtain ⟨hconn, hrec | hlock⟩ := (ht.owned c k hrun).2.resolve_left hpc
    · exact ⟨hconn, hrec⟩
    · obtain ⟨⟨who, k'⟩, hl, rfl⟩ := Option.map_eq_some_iff.1 hlock
      rw [← hconn] at hrun
      exact absurd (hnone who k' hl) hrun

/-- After the install `alive` stands for the new tasks unless they are shut down. -/
theorem complete_iff_of_installed (hk : Tokens s) (hpc : s.reconnecting.map (·.pc) ≠ some .clear)
    (hrec : ∀ c k, s.task c k ≠ .stopped → s.handles.connection = c ∧ s.handles.recorded k = true)
    (hnone : s.NoneAwaited) :
    (s.alive = true → s.AllRunning) ↔ s.alive = false ∨ s.cancelled s.writeTx = false := by
  constructor
  · intro hcomplete
    by_contra hnot
    obtain ⟨halive, hcan⟩ := not_or.1 hnot
    simp only [Bool.not_eq_false] at halive hcan
    have hall := hcomplete halive
    rcases hk.down halive hcan with hlock | ⟨k, hstop⟩
    · obtain ⟨⟨who, k⟩, hl⟩ := Option.ne_none_iff_exists'.1 hlock
      have hconn := (hrec _ .reader ((hall .reader).trans_ne (by simp))).1
      have hstop := hnone who k hl
      rw [hconn, hall k] at hstop
      contradiction
    · rw [hall k] at hstop
      contradiction
  · intro hor halive
    exact hk.up halive hpc (hor.resolve_left (by simp [halive]))

/-- A client that is not alive has nothing to complete. -/
theorem complete_of_dead (h : s.alive = false) : s.alive = true → s.AllRunning := by
  intro halive
  rw [h] at halive
  contradiction

/-- What a dropped reconnect leaves behind is intact exactly when it was dropped at
a harmless point. -/
theorem intact_dropReconnect_iff (ht : Tasks s) (hk : Tokens s) {f : Reconnect}
    (hf : s.reconnecting = some f) (haw : f.pc.Awaits = true) :
    Intact s.dropReconnect ↔ s.HarmlessAt f.pc := by
  have hparts : Intact s.dropReconnect ↔ (s.alive = true → s.AllRunning) ∧
      ∀ c k, s.task c k ≠ .stopped → s.handles.connection = c ∧ s.handles.recorded k = true :=
    ⟨fun h => ⟨h.complete, h.recorded⟩, fun h => ⟨h.1, h.2⟩⟩
  have hdead (hpc : f.pc.Unarmed) := complete_of_dead (ht.unarmed f hf hpc)
  have hbare (hpc : f.pc.Bare) (c : Nat) (k : TaskKind) (hrun : s.task c k ≠ .stopped) :
      s.handles.connection = c ∧ s.handles.recorded k = true := absurd (ht.bare f hf hpc c k) hrun
  have hempty {P : Prop} (hpc : f.pc.Bare) (hpc' : f.pc.Unarmed) (hP : P) :
      Intact s.dropReconnect ↔ P :=
    iff_of_true (hparts.2 ⟨hdead hpc', hbare hpc⟩) hP
  have hinstalled {pc : ReconnectPc} (hpc : f.pc = pc) (hclear : pc ≠ .clear)
      (hinst : pc ≠ .install) :
      Intact s.dropReconnect ↔
        s.NoneAwaited ∧ (s.alive = false ∨ s.cancelled s.writeTx = false) := by
    have hrec := recorded_iff_noneAwaited ht hk (by simp [hf, hpc, hinst])
    have hup (hnone : s.NoneAwaited) :=
      complete_iff_of_installed hk (by simp [hf, hpc, hclear]) (hrec.2 hnone) hnone
    rw [hparts, hrec, and_comm]
    exact and_congr_right hup
  cases hpc : f.pc with
  | shutdown =>
      have hrec := recorded_iff_noneAwaited ht hk (by simp [hf, hpc])
      have hcomplete := hdead (by simp [hpc, ReconnectPc.Unarmed])
      rw [hparts, hrec]
      exact and_iff_right hcomplete
  | connecting =>
      exact hempty (by simp [hpc, ReconnectPc.Bare]) (by simp [hpc, ReconnectPc.Unarmed]) trivial
  | swapWriteTx =>
      exact hempty (by simp [hpc, ReconnectPc.Bare]) (by simp [hpc, ReconnectPc.Unarmed]) trivial
  | arm =>
      exact hempty (by simp [hpc, ReconnectPc.Bare]) (by simp [hpc, ReconnectPc.Unarmed]) trivial
  | clear =>
      have hbare' : f.pc.Bare := by simp [hpc, ReconnectPc.Bare]
      rw [hparts]
      constructor
      · intro h
        show s.alive = false
        by_contra halive
        have hrun := h.1 (by simpa using halive) .reader
        rw [ht.bare f hf hbare'] at hrun
        contradiction
      · exact fun halive => ⟨complete_of_dead halive, hbare hbare'⟩
  | install =>
      obtain ⟨hlt, hcan⟩ := hk.swapped f hf (.inr (.inr hpc))
      rw [hparts]
      constructor
      · intro h k
        by_contra hrun
        have hconn := (h.2 _ k hrun).1
        omega
      · intro hstop
        refine ⟨fun halive => hk.up halive (by simp [hf, hpc]) hcan, fun c k hrun => ?_⟩
        rw [(ht.owned c k hrun).1] at hrun
        exact absurd (hstop k) hrun
  | sendConnect => exact hinstalled hpc (by simp) (by simp)
  | readTransport => exact hinstalled hpc (by simp) (by simp)
  | sendTransport tid => exact hinstalled hpc (by simp) (by simp)
  | publish => simp [hpc, ReconnectPc.Awaits] at haw

/-- When the shutdown of a `disconnect` is over, every task has ended. -/
theorem stopped_of_shutdown {a : LifecycleAct} {d : Nat} (ht : Tasks s) (hs : Step cfg s a s')
    (hd : s.disconnects d = .shutdown) (hd' : s'.disconnects d = .clear)
    (hpc : s.reconnecting.map (·.pc) ≠ some .install) (c : Nat) (k : TaskKind) :
    s'.task c k = .stopped := by
  have hinst (f : Reconnect) (hf : s.reconnecting = some f) : f.pc ≠ .install := fun hf' =>
    hpc (by simp [hf, hf'])
  -- the shutdown is over when no handle is left to take
  have hnext {cancelled : Nat → Bool} {who : ShutdownCaller}
      (h : ({ s with cancelled }.takeNext who).disconnects d = .clear) : s.handles.next = none := by
    by_contra hne
    simp [Lifecycle.takeNext, hne, hd] at h
  have hsame {t : Lifecycle} (heq : t.disconnects = s.disconnects) : t.disconnects d ≠ .clear := by
    simp [heq, hd]
  have hother {d' : Nat} {pc : DisconnectPc} (hne : pc ≠ .clear) :
      Function.update s.disconnects d' pc d ≠ .clear := by
    by_cases hd'' : d = d'
    · simp [hd'', hne]
    · simp [hd'', hd]
  cases hs with
  | lockHandles hl hin => exact ht.all_stopped (hnext hd') (by simp [hl]) hinst c k
  | @awaitHandle who k' hl hstop =>
      exact ht.all_stopped (hnext hd') (by simpa [hl] using hstop) hinst c k
  | disconnect hb hi => exact absurd hd' (hother (by simp))
  | flagDead hi => exact absurd hd' (hother (by simp))
  | publishDisconnected hi => exact absurd hd' (hother (by simp))
  | dropEventTx hi => exact absurd hd' (hother (by simp))
  | reconnect hb hr => exact absurd hd' (hsame (disconnects_acquire s .manual 1))
  | attempt ha hr => exact absurd hd' (hsame (disconnects_acquire s .auto _))
  | tlsFailed hf hpc => exact absurd hd' (hsame (disconnects_returnErr s _ _))
  | connectFailed hw hf hpc => exact absurd hd' (hsame (disconnects_returnErr s _ _))
  | transportFailed hw hf hpc => exact absurd hd' (hsame (disconnects_returnErr s _ _))
  | tlsConnected hf hpc =>
      unfold Lifecycle.tlsConnected at hd'
      split at hd'
      · exact absurd hd' (hsame (disconnects_returnErr s _ _))
      · exact absurd hd' (hsame rfl)
  | _ => exact absurd hd' (hsame rfl)

/-- **Cancel safety of reconnect**: in every run in which reconnects are dropped at
harmless points, a drop leaves the client intact exactly when it is harmless too; a
call that then returns `Ok` because the client is alive has a complete generation,
unless a `disconnect` has cancelled it; and a `disconnect` stops every task, unless a
reconnect has spawned its tasks and not installed their handles yet. -/
theorem cancel_safe_iff (h : (cancellable cfg).Run DropsHarmless (start cfg) s) :
    (∀ s', s.cancelStep cfg .dropReconnect = some s' →
      (Intact s' ↔ DropsHarmless s .dropReconnect)) ∧
    (s.reconnecting = none → s.acquired = .ok → s.cancelled s.writeTx = false → s.AllRunning) ∧
    ∀ a s' d, s.step cfg a = some s' → s.disconnects d = .shutdown → s'.disconnects d = .clear →
      s.reconnecting.map (·.pc) ≠ some .install → ∀ c k, s'.task c k = .stopped := by
  have ht := tasks_of_cancelRun h
  have hk := tokens_of_cancelRun h
  refine ⟨fun s' hs => ?_, fun hr hok hcan => ?_, fun a s' d hs hd hd' hpc => ?_⟩
  · cases cancelStep_cases hs with
    | @dropReconnect f hf hm hpc =>
        rw [intact_dropReconnect_iff ht hk hf hpc]
        refine ⟨fun hharmless => ⟨f, hf, hharmless⟩, fun ⟨g, hg, hharmless⟩ => ?_⟩
        obtain rfl := Option.some.inj (hf.symm.trans hg)
        exact hharmless
  · have halive : s.alive = true := by
      unfold acquired at hok
      split_ifs at hok with hdown hup
      exact hup
    exact hk.up halive (by simp [hr]) hcan
  · exact stopped_of_shutdown ht (step_cases hs) hd hd' hpc

/-- Of the drops only one in the TLS handshake passes. -/
def handshakeTest (s : Lifecycle) : CancelAct → Bool
  | .dropReconnect => s.reconnecting.map (·.pc) = some .connecting
  | .life _ => true

theorem dropsHarmless_of_test (h : handshakeTest s a = true) : DropsHarmless s a := by
  cases a with
  | life a => trivial
  | dropReconnect =>
      obtain ⟨f, hf, hpc⟩ := Option.map_eq_some_iff.1 (of_decide_eq_true h)
      exact ⟨f, hf, hpc ▸ trivial⟩

/-- A reconnect over a client without tasks, up to the install of its handles. -/
def installActs : List LifecycleAct :=
  [.reconnect, .lockHandles .reconnect, .tlsConnected, .swapWriteTx, .arm, .clearAndSpawn, .install]

/-- A first reconnect is dropped in the TLS handshake, a second one when its handles
are installed: the tasks of the second run and are recorded. -/
theorem cancel_safe_installed :
    ∃ s s', (cancellable autoCfg).execIf handshakeTest (start autoCfg)
      (lostAndConnecting.map .life ++ [.dropReconnect] ++ installActs.map .life) = some s ∧
      s.cancelStep autoCfg .dropReconnect = some s' ∧ Intact s' := by
  have hrun : (cancellable autoCfg).Run DropsHarmless (start autoCfg) _ :=
    run_of_execIf (p := handshakeTest)
      (lostAndConnecting.map .life ++ [.dropReconnect] ++ installActs.map .life)
      (fun _ _ => dropsHarmless_of_test) rfl
  refine ⟨_, _, rfl, rfl, ((cancel_safe_iff hrun).1 _ rfl).2 ⟨_, rfl, ?_, .inr rfl⟩⟩
  intro who k hl
  contradiction

/-- A reconnect is dropped while it clears the tracker: the client is alive without
any task. -/
theorem alive_without_tasks : ¬ ∀ (cfg : ClientConfig) (s s' : Lifecycle),
    (cancellable cfg).Reachable s → s.cancelStep cfg .dropReconnect = some s' → Intact s' := by
  intro h
  have hrun := reachable_of_exec (M := cancellable autoCfg)
    (lostAndConnecting.map .life ++ ([LifecycleAct.tlsConnected, .swapWriteTx, .arm]).map .life) rfl
  have hintact := h autoCfg _ _ hrun rfl
  have hreader := hintact.complete rfl .reader
  contradiction

end Lifecycle

end Oxicast
