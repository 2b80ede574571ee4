import Oxicast.Lifecycle.Stage
import Oxicast.Lifecycle.Disconnect

/-!
# Oxicast.Lifecycle.Losses

Which losses of the connection are announced on the event stream.

The three tasks report a loss each in its own words: the reader hands its event
to the channel before it tells the watch, the heartbeat after that, and the
writer tells the watch alone.  `Losses` records which tasks have brought `alive`
down and which have handed in an event.
-/

namespace Oxicast.Lifecycle

open TransitionSystem

variable {cfg : ClientConfig} {s s' : Lifecycle} {a : LifecycleAct} {c : Nat} {k : TaskKind}

/-! ## the history of losses -/

/-- The events a task that reports a loss hands to the channel `next_event` reads. -/
def handedIn (s : Lifecycle) : LifecycleAct → List CastEvent
  | .fail c .reader reason => if s.taskEventTx c then [.disconnected reason] else []
  | .publishLoss c .heartbeat => if s.taskEventTx c then [.heartbeatTimeout] else []
  | _ => []

/-- The task that is reporting a loss. -/
def reporterOf : LifecycleAct → Option (Nat × TaskKind)
  | .fail c k _ | .publishLoss c k => some (c, k)
  | _ => none

/-- The report of a loss goes to the channel as it is. -/
theorem events_of_handedIn (hs : Step cfg s a s') (ha : (reporterOf a).isSome = true) :
    s'.events = (handedIn s a).foldl Mpsc.trySend s.events := by
  cases hs with
  | @fail c k reason h =>
      cases k with
      | reader => simp only [Lifecycle.fail, taskSendEvents, handedIn, if_true]; split <;> rfl
      | writer => rfl
      | heartbeat => rfl
  | @publishLoss c k h =>
      cases k with
      | heartbeat =>
          simp only [Lifecycle.publishLoss, taskSendEvents, handedIn, if_true]
          split <;> rfl
      | writer => rfl
      | reader => rfl
  | _ => contradiction

/-- The tasks that have set `alive` from `true` to `false`, and those that have
handed in an event about a loss. -/
structure Losses where
  lost : List (Nat × TaskKind)
  announced : List (Nat × TaskKind)

def Losses.record (h : Losses) (s : Lifecycle) (a : LifecycleAct) (s' : Lifecycle) : Losses :=
  match reporterOf a with
  | some task =>
      { lost := if s.alive && !s'.alive then task :: h.lost else h.lost
        announced := if handedIn s a = [] then h.announced else task :: h.announced }
  | none => h

/-- The client and its losses. -/
def lossSystem (cfg : ClientConfig) : TransitionSystem (Lifecycle × Losses) LifecycleAct :=
  (system cfg).observe ⟨[], []⟩ Losses.record

/-! ## what is announced -/

/-- How far the report of every loss has got: the event of a heartbeat is still to
come while it is failing, the reader's is handed in at once. -/
structure Recorded (s : Lifecycle) (h : Losses) : Prop where
  past : ∀ c k, (c, k) ∈ h.lost ∨ (c, k) ∈ h.announced →
    s.task c k ≠ .running ∧ c ≤ s.writeTx ∧ (c = s.writeTx → s.stage ≠ .fresh)
  reported : ∀ c k, (c, k) ∈ h.lost → ((c, k) ∈ h.announced ↔
    k ≠ .writer ∧ s.taskEventTx c = true ∧ (k = .heartbeat → s.task c k ≠ .failing))

theorem recorded_start : Recorded (start cfg) ⟨[], []⟩ := ⟨by simp, by simp⟩

variable {h : Losses} {x : Lifecycle × Losses}

/-- What a past report knows of the connection numbers stays true. -/
theorem past_of_passage (hp : Passage s s' a) (hc : c ≤ s.writeTx)
    (hf : c = s.writeTx → s.stage ≠ .fresh) :
    c ≤ s'.writeTx ∧ (c = s'.writeTx → s'.stage ≠ .fresh) := by
  refine ⟨Nat.le_trans hc hp.writeTx_le, fun hx => ?_⟩
  cases hp with
  | keep ha hs hw => rw [hs]; exact hf (hx.trans hw.writeTx)
  | swapWriteTx hs hs' hw ht hd => omega
  | clearAndSpawn hs hs' hw ht hd => simp [hs']
  | builderSent hs hs' hw h0 => simp [hs']
  | connectSent hs hs' hw => simp [hs']
  | @readTransport tid hs hs' hw => rw [hs']; cases tid <;> simp
  | transportSent hs hs' hw hlive => simp [hs']
  | giveUp ha hs hw hgone => simp [hs]

/-- A step that is nothing to the tasks. -/
theorem Recorded.keep (hr : Recorded s h) (hp : Passage s s' a) (ht : s'.task = s.task)
    (htx : s'.taskEventTx = s.taskEventTx) : Recorded s' h := by
  obtain ⟨past, reported⟩ := hr
  refine ⟨fun c k hmem => ?_, fun c k hmem => ?_⟩
  · obtain ⟨hrun, hc, hf⟩ := past c k hmem
    rw [ht]
    exact ⟨hrun, past_of_passage hp hc hf⟩
  · rw [ht, htx]
    exact reported c k hmem

/-- A task that has no loss to report ends. -/
theorem Recorded.ends {t : TaskState} (hr : Recorded s h) (hp : Passage s s' a)
    (ht : s'.task = setTask s.task c k t) (htx : s'.taskEventTx = s.taskEventTx)
    (hk : s.task c k ≠ .failing) (hend : t = .clearing ∨ t = .stopped) : Recorded s' h := by
  obtain ⟨past, reported⟩ := hr
  refine ⟨fun c' k' hmem => ?_, fun c' k' hmem => ?_⟩
  · obtain ⟨hrun, hc, hf⟩ := past c' k' hmem
    refine ⟨?_, past_of_passage hp hc hf⟩
    rw [ht, setTask]
    split
    · rcases hend with rfl | rfl <;> simp
    · exact hrun
  · have hiff := reported c' k' hmem
    rw [ht, htx, setTask]
    split
    next heq =>
      obtain ⟨rfl, rfl⟩ := heq
      rw [hiff]
      rcases hend with rfl | rfl <;> simp [hk]
    next => exact hiff

/-- The reporting task is one of the current connection, which is past its spawn. -/
theorem current_of_running (ht : Tasks s) (hk : s.task c k ≠ .stopped) :
    c ≤ s.writeTx ∧ (c = s.writeTx → s.stage ≠ .fresh) :=
  ⟨Nat.le_of_eq (ht.owned c k hk).1, fun _ hf => hk (ht.stopped_of_fresh hf c k)⟩

theorem Recorded.fail {reason : Option String} (hr : Recorded s h) (ht : Tasks s)
    (hrun : s.task c k = .running) :
    Recorded (s.fail c k reason) (h.record s (.fail c k reason) (s.fail c k reason)) := by
  obtain ⟨past, reported⟩ := hr
  have hnew : (c, k) ∉ h.lost ∧ (c, k) ∉ h.announced :=
    ⟨fun hmem => (past c k (.inl hmem)).1 hrun, fun hmem => (past c k (.inr hmem)).1 hrun⟩
  have hcur := current_of_running ht (by simp [hrun] : s.task c k ≠ .stopped)
  have hstage : (s.fail c k reason).stage = s.stage := stage_eq rfl rfl
  refine ⟨fun c' k' hmem => ?_, fun c' k' hmem => ?_⟩
  · by_cases heq : c' = c ∧ k' = k
    · obtain ⟨rfl, rfl⟩ := heq
      exact ⟨by simp [Lifecycle.fail, setTask], by rw [hstage]; exact hcur⟩
    · have hold : (c', k') ∈ h.lost ∨ (c', k') ∈ h.announced := by
        simp only [Losses.record, reporterOf] at hmem
        grind
      obtain ⟨hold, hrest⟩ := past c' k' hold
      exact ⟨by simpa [Lifecycle.fail, setTask, heq] using hold, by rw [hstage]; exact hrest⟩
  · by_cases heq : c' = c ∧ k' = k
    · obtain ⟨rfl, rfl⟩ := heq
      cases k' with
      | reader =>
          cases htx : s.taskEventTx c' <;> simp [Losses.record, reporterOf, handedIn, htx, hnew.2,
            Lifecycle.fail]
      | writer => simp [Losses.record, reporterOf, handedIn, hnew.2]
      | heartbeat => simp [Losses.record, reporterOf, handedIn, hnew.2, Lifecycle.fail, setTask]
    · have hold : (c', k') ∈ h.lost := by
        simp only [Losses.record, reporterOf] at hmem
        grind
      have hiff := reported c' k' hold
      have hann : (c', k') ∈ (h.record s (.fail c k reason) (s.fail c k reason)).announced ↔
          (c', k') ∈ h.announced := by
        simp only [Losses.record, reporterOf]
        grind
      rw [hann, hiff]
      simp [Lifecycle.fail, setTask, heq]

theorem Recorded.publishLoss (hr : Recorded s h) (ht : Tasks s) (hk : s.task c k = .failing) :
    Recorded (s.publishLoss c k) (h.record s (.publishLoss c k) (s.publishLoss c k)) := by
  obtain ⟨past, reported⟩ := hr
  have hcur := current_of_running ht (by simp [hk] : s.task c k ≠ .stopped)
  have hstage : (s.publishLoss c k).stage = s.stage := stage_eq rfl rfl
  have hlost : (h.record s (.publishLoss c k) (s.publishLoss c k)).lost = h.lost := by
    simp [Losses.record, reporterOf, Lifecycle.publishLoss]
  refine ⟨fun c' k' hmem => ?_, fun c' k' hmem => ?_⟩
  · by_cases heq : c' = c ∧ k' = k
    · obtain ⟨rfl, rfl⟩ := heq
      refine ⟨?_, by rw [hstage]; exact hcur⟩
      simp only [Lifecycle.publishLoss, setTask, and_self, if_true]
      split <;> simp
    · have hold : (c', k') ∈ h.lost ∨ (c', k') ∈ h.announced := by
        simp only [Losses.record, reporterOf] at hmem
        grind
      obtain ⟨hold, hrest⟩ := past c' k' hold
      exact ⟨by simpa [Lifecycle.publishLoss, setTask, heq] using hold, by rw [hstage]; exact hrest⟩
  · rw [hlost] at hmem
    have hiff := reported c' k' hmem
    by_cases heq : c' = c ∧ k' = k
    · obtain ⟨rfl, rfl⟩ := heq
      cases k' with
      | reader =>
          simpa [Losses.record, reporterOf, handedIn, Lifecycle.publishLoss] using hiff
      | writer => simpa [Losses.record, reporterOf, handedIn] using hiff
      | heartbeat =>
          -- the event comes with this very step
          have hnone : (c', TaskKind.heartbeat) ∉ h.announced := by simp [hiff, hk]
          cases htx : s.taskEventTx c' <;>
            simp [Losses.record, reporterOf, handedIn, htx, hnone, Lifecycle.publishLoss, setTask]
    · have hann : (c', k') ∈ (h.record s (.publishLoss c k) (s.publishLoss c k)).announced ↔
          (c', k') ∈ h.announced := by
        simp only [Losses.record, reporterOf]
        grind
      rw [hann, hiff]
      simp [Lifecycle.publishLoss, setTask, heq]

/-- The tasks of a new connection have nothing to their name. -/
theorem Recorded.clearAndSpawn {f : Reconnect} (hr : Recorded s h) (hs : s.stage = .fresh)
    (hp : Passage s (s.clearAndSpawn f) a) : Recorded (s.clearAndSpawn f) h := by
  obtain ⟨past, reported⟩ := hr
  have hold {c : Nat} {k : TaskKind} (hmem : (c, k) ∈ h.lost ∨ (c, k) ∈ h.announced) :
      c ≠ s.writeTx := fun hc => (past c k hmem).2.2 hc hs
  refine ⟨fun c k hmem => ?_, fun c k hmem => ?_⟩
  · obtain ⟨hrun, hc, hf⟩ := past c k hmem
    exact ⟨by simpa [Lifecycle.clearAndSpawn, hold hmem] using hrun, past_of_passage hp hc hf⟩
  · simpa [Lifecycle.clearAndSpawn, hold (.inl hmem)] using reported c k hmem

theorem Recorded.step (hr : Recorded s h) (ht : Tasks s) (hs : Step cfg s a s') :
    Recorded s' (h.record s a s') := by
  have hp := passage_of_step ht hs
  cases hs with
  | fail h => exact hr.fail ht h
  | publishLoss h => exact hr.publishLoss ht h
  | readerCleared h => exact hr.ends hp rfl rfl (by simp [h]) (.inr rfl)
  | @noticeCancel c k hc h =>
      exact hr.ends hp rfl rfl (by simp [h]) (by cases k <;> simp)
  | noticeAbort ha h =>
      exact hr.ends hp rfl rfl (by rcases h with h | h <;> simp [h]) (.inr rfl)
  | heartbeatQuit h hw => exact hr.ends hp rfl rfl (by simp [h]) (.inr rfl)
  | clearAndSpawn h hpc => exact hr.clearAndSpawn (by rw [stage_of_some h, hpc]; rfl) hp
  | reconnect hb h =>
      obtain ⟨htask, htx⟩ := @task_acquire cfg s .manual 1
      exact hr.keep hp htask htx
  | @attempt n ha h =>
      obtain ⟨htask, htx⟩ := @task_acquire cfg s .auto n
      exact hr.keep hp htask htx
  | @tlsFailed f h hpc =>
      obtain ⟨htask, htx⟩ := @task_returnErr cfg s f.caller f.attempt
      exact hr.keep hp htask htx
  | @connectFailed f hw h hpc =>
      obtain ⟨htask, htx⟩ := @task_returnErr cfg s f.caller f.attempt
      exact hr.keep hp htask htx
  | @transportFailed f tid hw h hpc =>
      obtain ⟨htask, htx⟩ := @task_returnErr cfg s f.caller f.attempt
      exact hr.keep hp htask htx
  | @tlsConnected f h hpc =>
      obtain ⟨htask, htx⟩ := @task_returnErr cfg s f.caller f.attempt
      unfold Lifecycle.tlsConnected at hp ⊢
      split at hp
      next hdown => rw [if_pos hdown]; exact hr.keep hp htask htx
      next hup => rw [if_neg hup]; exact hr.keep hp rfl rfl
  | _ => exact hr.keep hp rfl rfl

theorem recorded_of_reachable (h : (lossSystem cfg).Reachable x) : Recorded x.1 x.2 := by
  refine h.invariant_observed (fun _ => tasks_of_run) recorded_start ?_
  intro t hist a t' ht hr _ hs
  exact hr.step ht (step_cases hs)

/-- With a free slot the event a task hands in is one the client will see. -/
theorem mem_events_of_handedIn (hs : Step cfg s a s') {e : CastEvent} (he : handedIn s a = [e])
    (hfree : s.events.buffer.length < s.events.capacity) : e ∈ s'.events.buffer := by
  have hrep : (reporterOf a).isSome = true := by
    cases a <;> first | rfl | simp [handedIn] at he
  rw [events_of_handedIn hs hrep, he]
  simp [Mpsc.trySend, hfree]

/-! ## the two tasks that announce a loss -/

/-- **A loss is announced on the event stream exactly when** the task that set
`alive` to `false` is not the writer, and was spawned with a sender the event
stream still listens to. -/
theorem loss_announced_iff {hist : Losses}
    (h : (lossSystem cfg).Reachable (s, hist))
    (hlost : (c, k) ∈ hist.lost) (hend : s.task c k = .stopped) :
    (c, k) ∈ hist.announced ↔ k ≠ .writer ∧ s.taskEventTx c = true := by
  rw [(recorded_of_reachable h).reported c k hlost, hend]
  simp

/-- The device falls silent, and no reconnect is configured. -/
def silenceActs : List LifecycleAct :=
  [.builderSent, .builderDone, .fail 0 .heartbeat none, .publishLoss 0 .heartbeat]

/-- The heartbeat announces what it noticed. -/
theorem loss_announced_iff_heartbeat : ∃ s hist,
    (lossSystem ⟨false, 0, 256⟩).exec (lossSystem ⟨false, 0, 256⟩).init silenceActs =
      some (s, hist) ∧
      s.task 0 .heartbeat = .stopped ∧ (0, .heartbeat) ∈ hist.announced := by
  have hrun := reachable_of_exec (M := lossSystem ⟨false, 0, 256⟩) silenceActs rfl
  exact ⟨_, _, rfl, rfl, (loss_announced_iff hrun (.head _) rfl).2 ⟨by decide, rfl⟩⟩

/-- A write error is the end of the connection, and no event says so. -/
theorem writer_loss_silent : ¬ ∀ (cfg : ClientConfig) (s : Lifecycle) (hist : Losses) (c : Nat)
    (k : TaskKind), (lossSystem cfg).Reachable (s, hist) → (c, k) ∈ hist.lost →
      s.task c k = .stopped → s.events.buffer.length < s.events.capacity →
      (c, k) ∈ hist.announced := by
  intro hall
  have hrun := reachable_of_exec (M := lossSystem autoCfg)
    [.builderSent, .builderDone, .fail 0 .writer none, .publishLoss 0 .writer] rfl
  have hann := hall _ _ _ 0 .writer hrun (.head _) rfl (by decide)
  exact absurd hann (by decide)

end Oxicast.Lifecycle
