import Oxicast.Lifecycle.Supervisor

/-!
# Oxicast.Lifecycle.Agreement

`is_connected()` against `connection_state()` at rest.

The flag and the watch are written by separate statements, so they agree only
as long as whoever leaves the watch behind the flag is followed by a publisher
that catches up.  `Caught` lists the steps after which nobody does; in every
run without them the two agree whenever the client is at rest.
-/

namespace Oxicast.Lifecycle

open TransitionSystem

variable {cfg : ClientConfig} {s s' : Lifecycle} {a : LifecycleAct} {between : Bool}

/-! ## publishers still to come -/

/-- Some `disconnect` has got to a point that `P` holds of. -/
def AnyCall (P : DisconnectPc → Prop) (disconnects : Nat → DisconnectPc) : Prop :=
  ∃ d, P (disconnects d)

theorem anyCall_update {P : DisconnectPc → Prop} {disconnects : Nat → DisconnectPc}
    {pc : DisconnectPc} (h : P pc) (d : Nat) : AnyCall P (Function.update disconnects d pc) :=
  ⟨d, by simpa using h⟩

/-- A call that was not among them makes no difference. -/
theorem AnyCall.update {P : DisconnectPc → Prop} {disconnects : Nat → DisconnectPc}
    {d : Nat} (h : AnyCall P disconnects) (hd : ¬ P (disconnects d)) (pc : DisconnectPc) :
    AnyCall P (Function.update disconnects d pc) := by
  obtain ⟨x, hx⟩ := h
  refine ⟨x, ?_⟩
  rw [Function.update_of_ne (by rintro rfl; exact hd hx)]
  exact hx

theorem AnyCall.mono {P Q : DisconnectPc → Prop} {disconnects : Nat → DisconnectPc}
    (h : AnyCall P disconnects) (hPQ : ∀ pc, P pc → Q pc) : AnyCall Q disconnects :=
  h.imp fun _ => hPQ _

/-- A `disconnect` still has to publish its `Disconnected`. -/
abbrev AnyPending : (Nat → DisconnectPc) → Prop := AnyCall DisconnectPc.Pending

/-- `shutdown` moves its caller from one pending point to another. -/
theorem AnyPending.takeNext {who : ShutdownCaller} (h : AnyPending s.disconnects) :
    AnyPending (s.takeNext who).disconnects := by
  obtain ⟨d, hd⟩ := h
  refine ⟨d, ?_⟩
  simp only [Lifecycle.takeNext]
  split
  · trivial
  · exact hd

theorem AnyClosing.takeNext {who : ShutdownCaller} (hin : s.InShutdown who)
    (h : AnyCall (· = .closing) s.disconnects) :
    AnyCall (· = .closing) (s.takeNext who).disconnects := by
  obtain ⟨d, hd⟩ := h
  refine ⟨d, ?_⟩
  simp only [Lifecycle.takeNext]
  split
  next hwho =>
    obtain ⟨-, rfl⟩ := hwho
    have hpc : s.disconnects d = .shutdown := hin
    rw [hd] at hpc
    contradiction
  · exact hd

/-- Somebody still has to publish a `Disconnected`. -/
def Reporting (s : Lifecycle) : Prop := AnyFailing s.task ∨ AnyPending s.disconnects

/-! ## rest -/

/-- No attempt of the auto-reconnect task is in progress.  With `between` set the
pause between two attempts counts as rest, too. -/
def Resting (between : Bool) : AutoPc → Prop
  | .attempting _ => False
  | .backoff _ => between = true
  | _ => True

/-- Nothing is in progress. -/
structure AtRest (between : Bool) (s : Lifecycle) : Prop where
  built : s.builder = .done
  reconnecting : s.reconnecting = none
  disconnects : ∀ d, s.disconnects d = .idle ∨ s.disconnects d = .returned
  auto : Resting between s.auto
  tasks : ¬ AnyFailing s.task

/-- The watch says what the flag says. -/
def Agree (s : Lifecycle) : Prop :=
  s.connection.value = if s.alive then .connected else .disconnected

/-- A publisher follows, or the watch is right already. -/
def Caught (cfg : ClientConfig) (between : Bool) (s : Lifecycle) : LifecycleAct → Prop
  | .builderDone => s.alive = true ∨ s.Reporting
  | .publishConnected => s.alive = true ∨ s.Reporting
  | .publishDisconnected _ => s.alive = true → ∃ f, s.reconnecting = some f ∧ ¬ f.pc.Unarmed
  | .connectFailed | .transportFailed => s.alive = false
  | .tlsFailed => s.connection.value = .disconnected ∨ s.Reporting ∨
      (between = false ∧ s.auto.Retrying) ∨
      ∀ f, s.reconnecting = some f → f.caller = .auto ∧ f.attempt = cfg.maxReconnectAttempts
  | _ => True

/-- Where the watch may lag behind the flag. -/
structure Agreement (between : Bool) (s : Lifecycle) : Prop where
  up : s.alive = true → s.connection.value = .connected ∨ AnyPending s.disconnects ∨
    s.reconnecting.isSome = true
  down : s.alive = false → s.builder = .done → s.connection.value = .disconnected ∨
    s.Reporting ∨ s.reconnecting.isSome = true ∨ (between = false ∧ s.auto.Retrying)
  unarmed : ∀ f, s.reconnecting = some f → f.pc.Unarmed → s.shuttingDown = true →
    s.connection.value = .disconnected ∨ AnyPending s.disconnects
  armed : ∀ f, s.reconnecting = some f → ¬ f.pc.Unarmed → s.alive = false →
    s.connection.value = .disconnected ∨ s.Reporting
  closing : s.shuttingDown = true → s.alive = true → AnyCall (· = .closing) s.disconnects

theorem agreement_start : Agreement between (start cfg) := by
  exact ⟨fun _ => .inl rfl, nofun, nofun, nofun, nofun⟩

/-- A task that has no loss to report ends. -/
theorem Agreement.endTask {c : Nat} {k : TaskKind} {t : TaskState} (h : Agreement between s)
    (hrun : s.task c k ≠ .failing) : Agreement between { s with task := setTask s.task c k t } := by
  have hset (hfail : AnyFailing s.task) := hfail.setTask hrun t
  obtain ⟨up, down, unarmed, armed, closing⟩ := h
  refine ⟨up, fun hdead hb => ?_, unarmed, fun f hf hpc hdead => ?_, closing⟩
  · exact (down hdead hb).imp_right (.imp_left (.imp_left hset))
  · exact (armed f hf hpc hdead).imp_right (.imp_left hset)

/-- A call goes on, on the same side of its store of `alive`. -/
theorem Agreement.proceed {f g : Reconnect} (h : Agreement between s)
    (hf : s.reconnecting = some f) (hpc : g.pc.Unarmed ↔ f.pc.Unarmed) :
    Agreement between { s with reconnecting := some g } := by
  obtain ⟨up, down, unarmed, armed, closing⟩ := h
  refine ⟨fun _ => .inr (.inr rfl), fun _ _ => .inr (.inr (.inl rfl)), ?_, ?_, closing⟩
  · intro x hx hu
    obtain rfl := Option.some.inj hx
    exact unarmed f hf (hpc.1 hu)
  · intro x hx hu
    obtain rfl := Option.some.inj hx
    exact armed f hf fun hy => hu (hpc.2 hy)

theorem Agreement.takeNext {who : ShutdownCaller} (h : Agreement between s)
    (hin : s.InShutdown who) :
    Agreement between (s.takeNext who) := by
  have hpend := @AnyPending.takeNext s who
  have hclosing := AnyClosing.takeNext hin
  cases who with
  | reconnect =>
      obtain ⟨f, hf, hpc⟩ := inShutdown_reconnect_iff.1 hin
      have hdisconnects : (s.takeNext .reconnect).disconnects = s.disconnects := by
        simp [Lifecycle.takeNext]
      have hreport : (s.takeNext .reconnect).Reporting = s.Reporting := by
        rw [Reporting, Reporting, hdisconnects]; rfl
      have hgo : ∃ g, (s.takeNext .reconnect).reconnecting = some g ∧
          (g.pc.Unarmed ↔ f.pc.Unarmed) := by
        cases hn : s.handles.next <;> simp [Lifecycle.takeNext, hn, hf, hpc, ReconnectPc.Unarmed]
      obtain ⟨g, hg, hu⟩ := hgo
      obtain ⟨up, down, unarmed, armed, closing⟩ := h.proceed hf hu
      constructor
      · rw [hg, hdisconnects]; exact up
      · rw [hg, hreport]; exact down
      · rw [hg, hdisconnects]; exact unarmed
      · rw [hg, hreport]; exact armed
      · rw [hdisconnects]; exact closing
  | disconnect d =>
      obtain ⟨up, down, unarmed, armed, closing⟩ := h
      have hrec : (s.takeNext (.disconnect d)).reconnecting = s.reconnecting := by
        simp [Lifecycle.takeNext]
      constructor
      · rw [hrec]; exact fun hup => (up hup).imp_right (.imp_left hpend)
      · rw [hrec]; exact fun hdown hb => (down hdown hb).imp_right (.imp_left (.imp_right hpend))
      · rw [hrec]; exact fun f hf hu hd => (unarmed f hf hu hd).imp_right hpend
      · rw [hrec]; exact fun f hf hu hd => (armed f hf hu hd).imp_right (.imp_right hpend)
      · exact fun hd hup => hclosing (closing hd hup)

/-- A `disconnect` that still has to publish excuses every lag. -/
theorem agreement_disconnecting {d : Nat} {pc : DisconnectPc} {alive shuttingDown : Bool}
    (hpc : pc.Pending)
    (hclosing : shuttingDown = true → alive = true →
      AnyCall (· = .closing) (Function.update s.disconnects d pc)) :
    Agreement between
      { s with alive, shuttingDown, disconnects := Function.update s.disconnects d pc } := by
  have hpend : AnyPending (Function.update s.disconnects d pc) := anyCall_update hpc d
  exact ⟨fun _ => .inr (.inl hpend), fun _ _ => .inr (.inl (.inr hpend)),
    fun _ _ _ _ => .inr hpend, fun _ _ _ _ => .inr (.inr hpend), hclosing⟩

/-- A call returns `Err` while no open connection is to be reported. -/
theorem Agreement.returnErr {caller : Caller} {n : Nat} (h : Agreement between s)
    (hup : s.alive = true → AnyPending s.disconnects)
    (hdown : s.alive = false → s.builder = .done → s.connection.value = .disconnected ∨
      s.Reporting ∨ (between = false ∧ s.auto.Retrying) ∨
      (caller = .auto ∧ n = cfg.maxReconnectAttempts)) :
    Agreement between (s.returnErr cfg caller n) := by
  cases caller with
  | manual =>
      refine ⟨fun halive => .inr (.inl (hup halive)),
        fun hdead hb => ?_, by rintro _ ⟨⟩, by rintro _ ⟨⟩,
        h.closing⟩
      rcases hdown hdead hb with hv | hr | hretry | ⟨hc, -⟩
      · exact .inl hv
      · exact .inr (.inl hr)
      · exact .inr (.inr (.inr hretry))
      · contradiction
  | auto =>
      simp only [Lifecycle.returnErr, attemptFailed]
      refine ⟨fun halive => .inr (.inl (hup halive)),
        fun hdead hb => ?_, by rintro _ ⟨⟩, by rintro _ ⟨⟩,
        h.closing⟩
      by_cases hn : n = cfg.maxReconnectAttempts
      · left
        simp [hn]
      · simp only [if_neg hn]
        rcases hdown hdead hb with hv | hr | ⟨hb, -⟩ | ⟨-, hx⟩
        · exact .inl hv
        · exact .inr (.inl hr)
        · exact .inr (.inr (.inr ⟨hb, trivial⟩))
        · exact absurd hx hn

/-- The lock is acquired. -/
theorem Agreement.acquire {caller : Caller} {n : Nat} (h : Agreement between s)
    (hr : s.reconnecting = none) : Agreement between (s.acquire cfg caller n) := by
  unfold Lifecycle.acquire
  split_ifs with hd hup
  · refine h.returnErr (fun halive => ?_) fun hdead hb => ?_
    · exact (h.closing hd halive).mono (by rintro _ rfl; trivial)
    · rcases h.down hdead hb with hv | hrep | hsome | hretry
      · exact .inl hv
      · exact .inr (.inl hrep)
      · simp [hr] at hsome
      · exact .inr (.inr (.inl hretry))
  · have hkeep := h.up hup
    simp only [hr, Option.isSome_none, Bool.false_eq_true, or_false] at hkeep
    refine ⟨fun _ => hkeep.imp_right .inl, fun hdead => ?_, nofun, nofun, h.closing⟩
    exact absurd hup (by simpa [returnOk] using hdead)
  · refine ⟨fun halive => absurd halive hup, fun _ _ => .inr (.inr (.inl rfl)),
      fun f _ _ hdown => absurd hdown hd, fun f hf hpc => ?_, fun hdown _ => absurd hdown hd⟩
    obtain rfl := Option.some.inj hf
    exact absurd trivial hpc

theorem Agreement.step (h : Agreement between s) (ht : Tasks s) (hok : Caught cfg between s a)
    (hs : Step cfg s a s') : Agreement between s' := by
  have hh := h
  obtain ⟨up, down, unarmed, armed, closing⟩ := h
  cases hs with
  | builderSent h hw => exact ⟨up, nofun, unarmed, armed, closing⟩
  | builderFailed h hw => exact ⟨up, nofun, unarmed, armed, closing⟩
  | builderDone h =>
      have hnobody := (ht.building (by simp [h])).1
      refine ⟨fun _ => .inl rfl, fun hdead _ => ?_, fun f hf => ?_, fun f hf => ?_, closing⟩
      · rcases hok with hup | hr
        · exact absurd (hup.symm.trans hdead) nofun
        · exact .inr (.inl hr)
      · exact absurd (hnobody.symm.trans hf) nofun
      · exact absurd (hnobody.symm.trans hf) nofun
  | @fail c k reason h =>
      have hfail : AnyFailing (s.fail c k reason).task := anyFailing_fail s.task c k
      exact ⟨nofun, fun _ _ => .inr (.inl (.inl hfail)), unarmed, fun _ _ _ _ => .inr (.inl hfail),
        fun _ hup => absurd hup nofun⟩
  | publishLoss h =>
      have hdead := ht.failing _ _ h
      exact ⟨fun hup => absurd (hdead.symm.trans hup) nofun, fun _ _ => .inl rfl,
        fun _ _ _ _ => .inl rfl, fun _ _ _ _ => .inl rfl, closing⟩
  | readerCleared h => exact hh.endTask (by simp [h])
  | noticeCancel hc h => exact hh.endTask (by simp [h])
  | noticeAbort ha h => exact hh.endTask (by rcases h with h | h <;> simp [h])
  | heartbeatQuit h hw => exact hh.endTask (by simp [h])
  | emit h => exact ⟨up, down, unarmed, armed, closing⟩
  | lockHandles hl hin =>
      exact Agreement.takeNext ⟨up, down, unarmed, armed, closing⟩ (inShutdown_cancel hin)
  | awaitHandle hl ht' => exact hh.takeNext (ht.inShutdown hl)
  | reconnect hb h => exact hh.acquire h
  | tlsFailed h hpc =>
      have hdead := ht.unarmed _ h (by simp [hpc, ReconnectPc.Unarmed])
      refine hh.returnErr (fun halive => by simp [hdead] at halive) fun _ _ => ?_
      exact hok.imp_right (.imp_right (.imp_right fun hlast => hlast _ h))
  | @tlsConnected f h hpc =>
      have hunarmed : f.pc.Unarmed := by simp [hpc, ReconnectPc.Unarmed]
      have hdead := ht.unarmed _ h hunarmed
      unfold Lifecycle.tlsConnected
      split
      next hd =>
        refine hh.returnErr (fun halive => by simp [hdead] at halive) fun _ _ => ?_
        exact (unarmed f h hunarmed hd).imp_right fun hp => .inl (.inr hp)
      next => exact hh.proceed h (by simp [hpc, ReconnectPc.Unarmed])
  | @swapWriteTx f h hpc =>
      have hgo := @proceed s between f { f with pc := .arm } hh h
        (by simp [hpc, ReconnectPc.Unarmed])
      exact ⟨hgo.up, hgo.down, hgo.unarmed, hgo.armed, hgo.closing⟩
  | arm h hpc =>
      exact ⟨fun _ => .inr (.inr rfl), nofun, fun _ _ _ hd => absurd hd nofun,
        fun _ _ _ hdead => absurd hdead nofun, nofun⟩
  | @clearAndSpawn f h hpc =>
      have hnone := ht.not_anyFailing h (by simp [hpc, ReconnectPc.Bare])
      have hreport (hr : s.Reporting) : (s.clearAndSpawn f).Reporting :=
        .inr (hr.resolve_left hnone)
      have hgo := @proceed s between f { f with pc := .install, eventTx := false } hh h
        (by simp [hpc, ReconnectPc.Unarmed])
      exact ⟨hgo.up, fun hdead hb => (hgo.down hdead hb).imp_right (.imp_left hreport), hgo.unarmed,
        fun g hg hu hdead => (hgo.armed g hg hu hdead).imp_right hreport, hgo.closing⟩
  | @install f hl h hpc =>
      have hgo := @proceed s between f { f with pc := .sendConnect } hh h
        (by simp [hpc, ReconnectPc.Unarmed])
      exact ⟨hgo.up, hgo.down, hgo.unarmed, hgo.armed, hgo.closing⟩
  | connectSent hw h hpc => exact hh.proceed h (by simp [hpc, ReconnectPc.Unarmed])
  | @connectFailed f hw h hpc =>
      refine hh.returnErr (fun halive => by simp [show s.alive = false from hok] at halive)
        fun hdead _ => ?_
      exact (armed f h (by simp [hpc, ReconnectPc.Unarmed]) hdead).imp_right .inl
  | @readTransport f tid h hpc =>
      exact hh.proceed h (by cases tid <;> simp [hpc, ReconnectPc.Unarmed])
  | transportSent hw h hpc => exact hh.proceed h (by simp [hpc, ReconnectPc.Unarmed])
  | @transportFailed f tid hw h hpc =>
      refine hh.returnErr (fun halive => by simp [show s.alive = false from hok] at halive)
        fun hdead _ => ?_
      exact (armed f h (by simp [hpc, ReconnectPc.Unarmed]) hdead).imp_right .inl
  | publishConnected h hpc =>
      refine ⟨fun _ => .inl rfl, fun hdead _ => ?_, nofun, nofun, closing⟩
      rcases hok with hup | hr
      · exact absurd (hup.symm.trans hdead) nofun
      · exact .inr (.inl hr)
  | @disconnect d hb h => exact agreement_disconnecting trivial fun _ _ => ⟨d, by simp⟩
  | flagDead h => exact agreement_disconnecting trivial fun _ hup => absurd hup nofun
  | @publishDisconnected d h =>
      refine ⟨fun hup => ?_, fun _ _ => .inl rfl, fun _ _ _ _ => .inl rfl, fun _ _ _ _ => .inl rfl,
        fun hd hup => (closing hd hup).update (by simp [h]) _⟩
      obtain ⟨f, hf, -⟩ := hok hup
      exact .inr (.inr (by simp [Lifecycle.publishDisconnected, hf]))
  | @dropEventTx d h =>
      have hpend (hp : AnyPending s.disconnects) : AnyPending (s.dropEventTx d).disconnects :=
        hp.update (by simp [h, DisconnectPc.Pending]) _
      exact ⟨fun hup => (up hup).imp_right (.imp_left hpend),
        fun hdead hb => (down hdead hb).imp_right (.imp_left (.imp_right hpend)),
        fun f hf hu hd => (unarmed f hf hu hd).imp_right hpend,
        fun f hf hu hd => (armed f hf hu hd).imp_right (.imp_right hpend),
        fun hd hup => (closing hd hup).update (by simp [h]) _⟩
  | wake h hc =>
      refine ⟨up, fun hdead hb => ?_, unarmed, armed, closing⟩
      have hidle : ¬ s.auto.Retrying := by simp [h, AutoPc.Retrying]
      rcases down hdead hb with hv | hr | hsome | ⟨-, hretry⟩
      · exact .inl hv
      · exact .inr (.inl hr)
      · exact .inr (.inr (.inl hsome))
      · exact absurd hretry hidle
  | @beginAttempt n h =>
      refine ⟨up, fun hdead hb => ?_, unarmed, armed, closing⟩
      exact (down hdead hb).imp_right (.imp_right (.imp_right fun hx => ⟨hx.1, trivial⟩))
  | attempt ha h => exact hh.acquire h
  | nextEvent => exact ⟨up, down, unarmed, armed, closing⟩

theorem agreement_of_run (h : (system cfg).Run (Caught cfg between) (start cfg) s) :
    Agreement between s :=
  h.invariant_with (fun _ => tasks_of_run) agreement_start
    fun _ _ _ ht ha hok hs => ha.step ht hok (step_cases hs)

/-! ## agreement -/

/-- **Flag and watch agree at rest**, in every run whose steps are all caught. -/
theorem agree_at_rest (h : (system cfg).Run (Caught cfg between) (start cfg) s)
    (hrest : AtRest between s) : Agree s := by
  have ha := agreement_of_run h
  have hpend : ¬ AnyPending s.disconnects := by
    rintro ⟨d, hd⟩
    rcases hrest.disconnects d with hd' | hd' <;> simp [hd', DisconnectPc.Pending] at hd
  have hnobody : s.reconnecting.isSome = false := by simp [hrest.reconnecting]
  unfold Agree
  cases hup : s.alive with
  | true =>
      rcases ha.up hup with hv | hp | hr
      · exact hv
      · exact absurd hp hpend
      · rw [hnobody] at hr; contradiction
  | false =>
      rcases ha.down hup hrest.built with hv | (hf | hp) | hr | ⟨hb, hretry⟩
      · exact hv
      · exact absurd hf hrest.tasks
      · exact absurd hp hpend
      · rw [hnobody] at hr; contradiction
      · have hauto := hrest.auto
        revert hretry
        cases hx : s.auto with
        | attempting n => rw [hx] at hauto; exact hauto.elim
        | backoff n =>
            rw [hx, Resting, hb] at hauto
            contradiction
        | _ => exact False.elim

def caughtTest (s : Lifecycle) : LifecycleAct → Bool
  | .builderDone | .publishConnected => s.alive
  | .publishDisconnected _ | .connectFailed | .transportFailed => false
  | .tlsFailed => s.auto = .attempting 1
  | _ => true

theorem caught_of_test (h : caughtTest s a = true) : Caught cfg false s a := by
  cases a with
  | builderDone => exact .inl h
  | publishConnected => exact .inl h
  | publishDisconnected d => simp [caughtTest] at h
  | connectFailed => simp [caughtTest] at h
  | transportFailed => simp [caughtTest] at h
  | tlsFailed =>
      have hx : s.auto = .attempting 1 := of_decide_eq_true h
      exact .inr (.inr (.inl ⟨rfl, by simp [hx, AutoPc.Retrying]⟩))
  | _ => trivial

/-- A loss, a failed and a successful attempt of the auto-reconnect task. -/
def autoReconnectActs : List LifecycleAct :=
  [.builderSent, .builderDone, .fail 0 .writer none, .publishLoss 0 .writer, .wake, .beginAttempt,
    .attempt] ++ lostAndConnecting.drop 5 ++
  [.tlsFailed, .beginAttempt, .attempt, .lockHandles .reconnect, .tlsConnected, .swapWriteTx, .arm,
    .clearAndSpawn, .install, .connectSent, .readTransport none, .publishConnected]

/-- After the second attempt the client is connected and says so. -/
theorem agree_at_rest_reconnected :
    ∃ s, (system autoCfg).execIf caughtTest (start autoCfg) autoReconnectActs = some s ∧
      s.alive = true ∧ Agree s := by
  have hrun := run_of_execIf (M := system autoCfg) (s := start autoCfg) (p := caughtTest)
    autoReconnectActs (fun s a => @caught_of_test autoCfg s a) rfl
  refine ⟨_, rfl, rfl,
    @agree_at_rest autoCfg _ false hrun ⟨rfl, rfl, fun _ => .inl rfl, trivial, ?_⟩⟩
  rintro ⟨c, k, hfail⟩
  exact absurd ((tasks_of_run hrun).failing c k hfail) (by decide)

/-- A reconnect that fails in its handshake leaves `Reconnecting` behind. -/
theorem watch_left_behind : ¬ ∀ (cfg : ClientConfig) (between : Bool) (s : Lifecycle),
    (system cfg).Reachable s → AtRest between s → Agree s := by
  intro h
  have hrun := reachable_of_exec (M := system ⟨false, 0, 256⟩)
    (lostAndConnecting ++ [.tlsFailed]) rfl
  have hagree := h ⟨false, 0, 256⟩ false _ hrun ⟨rfl, rfl, fun _ => .inl rfl, trivial,
    (tasks_of_run hrun).not_anyFailing_of_taken rfl rfl rfl⟩
  exact absurd (show ConnectionState.reconnecting 1 = .disconnected from hagree) (by decide)

end Oxicast.Lifecycle
