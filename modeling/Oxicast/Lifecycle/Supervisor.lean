import Oxicast.Lifecycle.Disconnect

/-!
# Oxicast.Lifecycle.Supervisor

Whether the auto-reconnect task notices every loss.

The watch it waits on is a single cell.  A loss is missed when its
`Disconnected` is overwritten before the task looks and nothing is left that
would publish another one: by a `Connected` that is published after the new
connection has died, or by the `Reconnecting` of a manual reconnect that then
fails.  In every run without these steps no loss is missed.
-/

namespace Oxicast.Lifecycle

open TransitionSystem

variable {cfg : ClientConfig} {s s' : Lifecycle} {a : LifecycleAct}

/-- The auto-reconnect task has yet to see a latest value `Disconnected`. -/
def LossUnseen (s : Lifecycle) : Prop :=
  s.connection.version ≠ s.autoSeen ∧ s.connection.value = .disconnected

/-- The connection is lost, nobody is working on it or about to report it, and
the auto-reconnect task sleeps. -/
structure Missed (s : Lifecycle) : Prop where
  alive : s.alive = false
  shuttingDown : s.shuttingDown = false
  built : s.builder = .done
  idle : s.reconnecting = none
  reported : ¬ AnyFailing s.task
  parked : s.auto = .parked
  seen : ¬ s.LossUnseen

/-- `Connected` is published only over a connection that is up or whose loss is
still to be published, or by a manual reconnect while the auto-reconnect task
is awake; a manual reconnect fails in its handshake only while that task is
awake or has the loss still to see.  There is no `disconnect`. -/
def Noticed (s : Lifecycle) : LifecycleAct → Prop
  | .builderDone => s.alive = true ∨ AnyFailing s.task
  | .publishConnected => s.alive = true ∨ AnyFailing s.task ∨
      ∀ f, s.reconnecting = some f → f.caller = .manual ∧ s.auto ≠ .parked
  | .tlsFailed => ∀ f, s.reconnecting = some f → f.caller = .manual →
      s.auto ≠ .parked ∨ s.LossUnseen
  | .disconnect _ => False
  | _ => True

/-- While no reconnect is on its way to a new connection, a loss is seen or
will be. -/
structure Watched (s : Lifecycle) : Prop where
  seen : s.autoSeen ≤ s.connection.version
  running : s.shuttingDown = false
  undisturbed : ∀ d, s.disconnects d = .idle
  watched : s.builder = .done → (∀ f, s.reconnecting = some f → ¬ f.pc.Unarmed) →
    s.alive = true ∨ AnyFailing s.task ∨ s.auto ≠ .parked ∨ s.LossUnseen

theorem watched_start : Watched (start cfg) :=
  ⟨Nat.le_refl _, rfl, fun _ => rfl, nofun⟩

/-- A task that has no loss to report ends. -/
theorem Watched.endTask {c : Nat} {k : TaskKind} {t : TaskState} (h : Watched s)
    (hrun : s.task c k ≠ .failing) : Watched { s with task := setTask s.task c k t } := by
  refine ⟨h.seen, h.running, h.undisturbed, fun hb hr => ?_⟩
  exact (h.watched hb hr).imp_right (.imp_left fun hfail => hfail.setTask hrun t)

/-- A call goes on; past its store of `alive` it was already. -/
theorem Watched.proceed {f g : Reconnect} (h : Watched s) (hf : s.reconnecting = some f)
    (hg : f.pc.Unarmed → g.pc.Unarmed) : Watched { s with reconnecting := some g } := by
  refine ⟨h.seen, h.running, h.undisturbed, fun hb hr => h.watched hb fun x hx hu => ?_⟩
  obtain rfl := Option.some.inj (hf.symm.trans hx)
  exact hr g rfl (hg hu)

/-- A call returns `Err`; the auto-reconnect task is awake then. -/
theorem Watched.returnErr {caller : Caller} {n : Nat} (h : Watched s)
    (hmanual : caller = .manual → s.builder = .done →
      s.alive = true ∨ AnyFailing s.task ∨ s.auto ≠ .parked ∨ s.LossUnseen) :
    Watched (s.returnErr cfg caller n) := by
  cases caller with
  | manual => exact ⟨h.seen, h.running, h.undisturbed, fun hb _ => hmanual rfl hb⟩
  | auto =>
      refine ⟨?_, h.running, h.undisturbed, fun _ _ => .inr (.inr (.inl ?_))⟩
      · have hseen := h.seen
        simp only [Lifecycle.returnErr, attemptFailed]
        split
        · rw [Watch.version_send]; omega
        · exact hseen
      · simp only [Lifecycle.returnErr, attemptFailed]
        split <;> simp

theorem Watched.acquire {caller : Caller} {n : Nat} (h : Watched s) :
    Watched (s.acquire cfg caller n) := by
  unfold Lifecycle.acquire
  rw [if_neg (by simp [h.running])]
  split_ifs with hup
  · exact ⟨h.seen, h.running, h.undisturbed, fun _ _ => .inl hup⟩
  · refine ⟨Nat.le_succ_of_le h.seen, h.running, h.undisturbed, fun _ hr => ?_⟩
    exact absurd trivial (hr _ rfl)

theorem Watched.takeNext {who : ShutdownCaller} (h : Watched s) (hin : s.InShutdown who) :
    Watched (s.takeNext who) := by
  cases who with
  | reconnect =>
      obtain ⟨f, hf, hpc⟩ := inShutdown_reconnect_iff.1 hin
      have hunarmed : ∃ g, (s.takeNext .reconnect).reconnecting = some g ∧ g.pc.Unarmed := by
        cases hn : s.handles.next <;>
          simp [Lifecycle.takeNext, hn, hf, hpc, ReconnectPc.Unarmed]
      obtain ⟨g, hg, hu⟩ := hunarmed
      refine ⟨h.seen, h.running, fun d => ?_, fun _ hr => absurd hu (hr g hg)⟩
      simpa [Lifecycle.takeNext] using h.undisturbed d
  | disconnect d =>
      have hpc : s.disconnects d = .shutdown := hin
      rw [h.undisturbed d] at hpc
      contradiction

theorem Watched.step (h : Watched s) (ht : Tasks s) (hok : Noticed s a) (hs : Step cfg s a s') :
    Watched s' := by
  have hh := h
  obtain ⟨seen, running, undisturbed, watched⟩ := h
  have hidle {d : Nat} {pc : DisconnectPc} (hd : s.disconnects d = pc) (hpc : pc ≠ .idle) : False :=
    hpc (hd.symm.trans (undisturbed d))
  cases hs with
  | builderSent h hw => exact ⟨seen, running, undisturbed, fun hb => by cases hb⟩
  | builderFailed h hw => exact ⟨seen, running, undisturbed, fun hb => by cases hb⟩
  | builderDone h =>
      refine ⟨Nat.le_succ_of_le seen, running, undisturbed, fun _ _ => ?_⟩
      exact hok.imp_right .inl
  | fail h => exact ⟨seen, running, undisturbed, fun _ _ => .inr (.inl (anyFailing_fail ..))⟩
  | publishLoss h =>
      refine ⟨Nat.le_succ_of_le seen, running, undisturbed, fun _ _ => .inr (.inr (.inr ⟨?_, rfl⟩))⟩
      simp only [Lifecycle.publishLoss, Watch.version_send]
      omega
  | readerCleared h => exact hh.endTask (by simp [h])
  | noticeCancel hc h => exact hh.endTask (by simp [h])
  | noticeAbort ha h => exact hh.endTask (by rcases h with h | h <;> simp [h])
  | heartbeatQuit h hw => exact hh.endTask (by simp [h])
  | emit h => exact ⟨seen, running, undisturbed, watched⟩
  | lockHandles hl hin =>
      exact Watched.takeNext ⟨seen, running, undisturbed, watched⟩ (inShutdown_cancel hin)
  | awaitHandle hl ht' => exact hh.takeNext (ht.inShutdown hl)
  | reconnect hb h => exact hh.acquire
  | tlsFailed h hpc =>
      exact hh.returnErr fun hmanual _ => .inr (.inr (hok _ h hmanual))
  | tlsConnected h hpc =>
      unfold Lifecycle.tlsConnected
      rw [if_neg (by simp [running])]
      exact hh.proceed h fun _ => trivial
  | @swapWriteTx f h hpc =>
      have hgo := @Watched.proceed s f { f with pc := .arm } hh h fun _ => trivial
      exact ⟨hgo.seen, hgo.running, hgo.undisturbed, hgo.watched⟩
  | arm h hpc => exact ⟨seen, rfl, undisturbed, fun _ _ => .inl rfl⟩
  | @clearAndSpawn f h hpc =>
      have hnone := ht.not_anyFailing h (by simp [hpc, ReconnectPc.Bare])
      have hgo := @Watched.proceed s f { f with pc := .install, eventTx := false } hh h
        (by simp [hpc, ReconnectPc.Unarmed])
      refine ⟨hgo.seen, hgo.running, hgo.undisturbed, fun hb hr => ?_⟩
      exact (hgo.watched hb hr).imp_right fun hx => .inr (hx.resolve_left hnone)
  | @install f hl h hpc =>
      have hgo := @Watched.proceed s f { f with pc := .sendConnect } hh h
        (by simp [hpc, ReconnectPc.Unarmed])
      exact ⟨hgo.seen, hgo.running, hgo.undisturbed, hgo.watched⟩
  | connectSent hw h hpc => exact hh.proceed h (by simp [hpc, ReconnectPc.Unarmed])
  | connectFailed hw h hpc =>
      refine hh.returnErr fun _ hb => watched hb fun x hx => ?_
      obtain rfl := Option.some.inj (h.symm.trans hx)
      simp [hpc, ReconnectPc.Unarmed]
  | @readTransport f tid h hpc => exact hh.proceed h (by simp [hpc, ReconnectPc.Unarmed])
  | transportSent hw h hpc => exact hh.proceed h (by simp [hpc, ReconnectPc.Unarmed])
  | transportFailed hw h hpc =>
      refine hh.returnErr fun _ hb => watched hb fun x hx => ?_
      obtain rfl := Option.some.inj (h.symm.trans hx)
      simp [hpc, ReconnectPc.Unarmed]
  | publishConnected h hpc =>
      refine ⟨Nat.le_succ_of_le seen, running, undisturbed, fun _ _ => ?_⟩
      refine hok.imp_right (.imp_right fun hmanual => .inl ?_)
      obtain ⟨hcaller, hawake⟩ := hmanual _ h
      simpa [Lifecycle.publishConnected, returnOk, hcaller] using hawake
  | disconnect hb h => exact absurd hok id
  | flagDead h => exact (hidle h (by simp)).elim
  | publishDisconnected h => exact (hidle h (by simp)).elim
  | dropEventTx h => exact (hidle h (by simp)).elim
  | wake h hc =>
      refine ⟨Nat.le_refl _, running, undisturbed, fun hb hr => ?_⟩
      rcases watched hb hr with hup | hfail | hawake | ⟨-, hlost⟩
      · exact .inl hup
      · exact .inr (.inl hfail)
      · exact absurd h hawake
      · right; right; left
        simp [Lifecycle.wake, running, hlost]
  | beginAttempt h =>
      refine ⟨seen, running, undisturbed, fun _ _ => .inr (.inr (.inl ?_))⟩
      simp [Lifecycle.beginAttempt]
  | attempt ha h => exact hh.acquire
  | nextEvent => exact ⟨seen, running, undisturbed, watched⟩

theorem watched_of_run (h : (system cfg).Run Noticed (start cfg) s) : Watched s :=
  h.invariant_with (fun _ => tasks_of_run) watched_start
    fun _ _ _ ht hw hok hs => hw.step ht hok (step_cases hs)

/-! ## no loss is missed -/

/-- **The supervisor notices every loss**: in every run without `disconnect` in
which `Connected` is published only over a connection that is up or about to be
reported, or by a manual reconnect while the auto-reconnect task is awake, and
a manual reconnect fails only while that task is awake or has the loss still to
see, no loss is missed. -/
theorem no_loss_missed (h : (system cfg).Run Noticed (start cfg) s) : ¬ Missed s := by
  rintro ⟨hdead, -, hbuilt, hidle, hreported, hparked, hseen⟩
  rcases (watched_of_run h).watched hbuilt (by simp [hidle]) with hup | hloss | hawake | hunseen
  · rw [hdead] at hup; contradiction
  · exact hreported hloss
  · exact hawake hparked
  · exact hseen hunseen

def noticedTest (s : Lifecycle) : LifecycleAct → Bool
  | .builderDone | .publishConnected => s.alive
  | .tlsFailed => s.auto ≠ .parked
  | .disconnect _ => false
  | _ => true

theorem noticed_of_test (h : noticedTest s a = true) : Noticed s a := by
  cases a with
  | builderDone => exact .inl h
  | publishConnected => exact .inl h
  | tlsFailed => exact fun _ _ _ => .inl (of_decide_eq_true h)
  | disconnect d => simp [noticedTest] at h
  | _ => trivial

/-- The auto-reconnect task wakes up to the loss before a manual reconnect
overwrites it, and makes its own attempt after the manual one has failed. -/
theorem no_loss_missed_awake :
    ∃ s, (system autoCfg).execIf noticedTest (start autoCfg)
      ([.builderSent, .builderDone, .fail 0 .writer none, .publishLoss 0 .writer, .wake] ++
        lostAndConnecting.drop 4 ++ [.tlsFailed, .beginAttempt, .attempt]) = some s ∧
      ¬ Missed s := by
  refine ⟨_, rfl, ?_⟩
  exact @no_loss_missed autoCfg _ (run_of_execIf
    ([.builderSent, .builderDone, .fail 0 .writer none, .publishLoss 0 .writer, .wake] ++
      lostAndConnecting.drop 4 ++ [.tlsFailed, .beginAttempt, .attempt])
    (fun _ _ => noticed_of_test) rfl)

/-- A run without `disconnect`. -/
def NoDisconnect (_ : Lifecycle) (a : LifecycleAct) : Prop := ∀ d, a ≠ .disconnect d

def noDisconnectTest (_ : Lifecycle) : LifecycleAct → Bool
  | .disconnect _ => false
  | _ => true

theorem noDisconnect_of_test (h : noDisconnectTest s a = true) : NoDisconnect s a := by
  rintro d rfl
  simp [noDisconnectTest] at h

/-- A manual reconnect overwrites the `Disconnected` before the auto-reconnect
task looks, and fails after the task has gone back to sleep. -/
theorem loss_missed : ¬ ∀ (cfg : ClientConfig) (s : Lifecycle), cfg.autoReconnect = true →
    1 ≤ cfg.maxReconnectAttempts → (system cfg).Run NoDisconnect (start cfg) s → ¬ Missed s := by
  intro h
  have hrun := run_of_execIf (M := system autoCfg) (s := start autoCfg) (p := noDisconnectTest)
    (lostAndConnecting ++ [.wake, .tlsFailed]) (fun _ _ => noDisconnect_of_test) rfl
  refine h autoCfg _ rfl (by decide) hrun ⟨rfl, rfl, rfl, rfl, ?_, rfl, ?_⟩
  · exact (tasks_of_run hrun).not_anyFailing_of_taken rfl rfl rfl
  · exact fun hunseen => absurd hunseen.2 (by decide)

end Oxicast.Lifecycle
