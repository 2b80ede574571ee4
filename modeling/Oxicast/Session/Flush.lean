import Oxicast.Framing.Codec
import Oxicast.Session.ConnectFirst

/-!
# Oxicast.Session.Flush

What of the accepted messages is on the socket when `disconnect` returns.

`send` puts a message into the channel and no more; the writer takes one message
after another and writes it.  Its `select!` may as well see the cancelled token,
an abort may hit it at any point, and with it goes the receiving end of the
channel and all that is in it.  The socket accepts every write here, so that
`write_message` fails on a message that is too large only.
-/

namespace Oxicast

/-- A client and its writers: of the messages accepted on connection `c`, `queue c`
is in the channel, `writing c` is being written and `written c` is on the socket. -/
structure Flushing where
  session : Session
  queue : Nat → List CastMessage
  writing : Nat → Option CastMessage
  written : Nat → List CastMessage

inductive FlushAct where
  | session (a : SessionAct)
  | take (c : Nat)
  | wrote (c : Nat)

namespace Flushing

variable (prost : Prost CastMessage) (serde : SerdeJson)

def start (cfg : ClientConfig) : Flushing where
  session := .start cfg
  queue _ := []
  writing _ := none
  written _ := []

/-- `write_message` succeeds, on a socket that accepts every write. -/
def writes (msg : CastMessage) : Bool := (prost.writeMessage .accepting msg).1.isOk

/-- The writer sees its cancelled token in its `select!` only, and fails on a
message it cannot write only. -/
def writerReady (x : Flushing) : SessionAct → Bool
  | .life (.noticeCancel c .writer) => (x.writing c).isNone
  | .life (.fail c .writer _) => (x.writing c).any fun msg => !writes prost msg
  | _ => true

/-- A step of the session: what it has sent is in the channels, and a writer that is
gone has dropped its own. -/
def afterSession (x : Flushing) (session : Session) : Flushing where
  session
  queue c :=
    if Session.Open session.life c then
      x.queue c ++ (session.sent c).drop (x.session.sent c).length
    else []
  writing c := if session.life.task c .writer = .stopped then none else x.writing c
  written := x.written

/-- One step.  A writer takes a message with nothing else at hand, and its write may
end when the task is aborted already. -/
def step (cfg : ClientConfig) (x : Flushing) : FlushAct → Option Flushing
  | .session a =>
      if x.writerReady prost a then (x.session.step serde cfg a).map x.afterSession else none
  | .take c =>
      match x.queue c, x.writing c with
      | msg :: rest, none =>
          if x.session.life.task c .writer = .running then
            some { x with
              queue := Function.update x.queue c rest
              writing := Function.update x.writing c (some msg) }
          else none
      | _, _ => none
  | .wrote c =>
      match x.writing c with
      | some msg =>
          if x.session.life.task c .writer = .running ∧ writes prost msg then
            some { x with
              writing := Function.update x.writing c none
              written := Function.update x.written c (x.written c ++ [msg]) }
          else none
      | none => none

/-- All interleavings of a client, its users and its writers. -/
def system (cfg : ClientConfig) : TransitionSystem Flushing FlushAct :=
  ⟨start cfg, step prost serde cfg⟩

end Flushing

namespace Flushing

open TransitionSystem Session
open Lifecycle (autoCfg)

variable {prost : Prost CastMessage} {serde : SerdeJson} {cfg : ClientConfig} {x x' : Flushing}
  {a : FlushAct} {c d : Nat}

/-- The writer of a connection has nothing left to write. -/
def Drained (x : Flushing) (c : Nat) : Prop := x.queue c = [] ∧ x.writing c = none

/-- A writer ends only when it has nothing left to write, and when a `disconnect`
returns, the same holds of a writer that a reconnect has put up behind its back. -/
def Flushes (x : Flushing) : FlushAct → Prop
  | .session (.life (.noticeCancel c .writer)) | .session (.life (.noticeAbort c .writer))
  | .session (.life (.fail c .writer _)) => x.Drained c
  | .session (.life (.dropEventTx _)) =>
      Open x.session.life x.session.life.writeTx → x.Drained x.session.life.writeTx
  | _ => True

/-! ## what a step can do -/

inductive Step (prost : Prost CastMessage) (serde : SerdeJson) (cfg : ClientConfig) (x : Flushing) :
    FlushAct → Flushing → Prop
  | session {a : SessionAct} {s : Session} (hready : x.writerReady prost a = true)
      (h : Session.Step serde cfg x.session a s) :
      Step prost serde cfg x (.session a) (x.afterSession s)
  | take {c : Nat} {msg : CastMessage} {rest : List CastMessage} (hq : x.queue c = msg :: rest)
      (hw : x.writing c = none) (hrun : x.session.life.task c .writer = .running) :
      Step prost serde cfg x (.take c)
        { x with
          queue := Function.update x.queue c rest
          writing := Function.update x.writing c (some msg) }
  | wrote {c : Nat} {msg : CastMessage} (hw : x.writing c = some msg)
      (hrun : x.session.life.task c .writer = .running) :
      Step prost serde cfg x (.wrote c)
        { x with
          writing := Function.update x.writing c none
          written := Function.update x.written c (x.written c ++ [msg]) }

theorem step_cases (h : x.step prost serde cfg a = some x') : Step prost serde cfg x a x' := by
  cases a with
  | session a =>
      simp only [step] at h
      split at h
      next hready =>
        obtain ⟨s, hs, rfl⟩ := Option.map_eq_some_iff.1 h
        exact .session hready (Session.step_cases hs)
      next => contradiction
  | take c =>
      simp only [step] at h
      split at h
      next msg rest hq hw =>
        split at h
        next hrun => cases h; exact .take hq hw hrun
        next => contradiction
      next => contradiction
  | wrote c =>
      simp only [step] at h
      split at h
      next msg hw =>
        split at h
        next hrun => cases h; exact .wrote hw hrun.1
        next => contradiction
      next => contradiction

/-! ## the channels -/

/-- The step by which the writer of connection `c` ends. -/
def EndsWriter (c : Nat) : LifecycleAct → Prop
  | .noticeCancel c' .writer | .noticeAbort c' .writer | .publishLoss c' .writer => c' = c
  | _ => False

section Lifecycle

variable {l l' : Lifecycle} {b : LifecycleAct}

/-- A task ends, or goes on to report a loss. -/
theorem writer_setTask {c' : Nat} {k : TaskKind} {t : TaskState}
    (hrun : l.task c .writer ≠ .stopped)
    (hkeep : c' = c → k = .writer → t ≠ .stopped) :
    Lifecycle.setTask l.task c' k t c .writer ≠ .stopped := by
  unfold Lifecycle.setTask
  split
  next heq => exact hkeep heq.1.symm heq.2.symm
  next => exact hrun

theorem writer_of_step (hs : Lifecycle.Step cfg l b l') (hrun : l.task c .writer ≠ .stopped) :
    l'.task c .writer ≠ .stopped ∨ EndsWriter c b := by
  by_cases hend : EndsWriter c b
  · exact .inr hend
  left
  cases hs with
  | fail hk => exact writer_setTask hrun fun _ _ => by simp
  | @publishLoss c' k hk =>
      exact writer_setTask hrun fun hc hk' => absurd hc (by subst hk'; exact hend)
  | readerCleared hk => exact writer_setTask hrun fun _ hk' => by contradiction
  | @noticeCancel c' k hcan hk =>
      exact writer_setTask hrun fun hc hk' => absurd hc (by subst hk'; exact hend)
  | @noticeAbort c' k hab hk =>
      exact writer_setTask hrun fun hc hk' => absurd hc (by subst hk'; exact hend)
  | heartbeatQuit hk hw => exact writer_setTask hrun fun _ hk' => by contradiction
  | reconnect hb hr => rw [(Lifecycle.task_acquire l .manual 1).1]; exact hrun
  | attempt ha hr => rw [(Lifecycle.task_acquire l .auto _).1]; exact hrun
  | tlsFailed hf hpc => rw [(Lifecycle.task_returnErr l _ _).1]; exact hrun
  | connectFailed hw hf hpc => rw [(Lifecycle.task_returnErr l _ _).1]; exact hrun
  | transportFailed hw hf hpc => rw [(Lifecycle.task_returnErr l _ _).1]; exact hrun
  | tlsConnected hf hpc =>
      unfold Lifecycle.tlsConnected
      split
      · rw [(Lifecycle.task_returnErr l _ _).1]; exact hrun
      · exact hrun
  | clearAndSpawn hf hpc =>
      simp only [Lifecycle.clearAndSpawn]
      split
      · simp
      · exact hrun
  | _ => exact hrun

/-- The receiving end of a channel is dropped by the end of its writer only: a
reconnect hands it on to the writer it spawns. -/
theorem open_of_step (ht : l.Tasks) (hs : Lifecycle.Step cfg l b l') (ho : Open l c) :
    Open l' c ∨ EndsWriter c b := by
  have hmove (hrun : l.task c .writer ≠ .stopped) :=
    (writer_of_step hs hrun).imp_left (.inl : _ → Open l' c)
  -- whoever holds the receiving end keeps it in a step that is not the reconnect's own
  have hkeep (hw : l'.writeTx = l.writeTx) (hr : l'.reconnecting = l.reconnecting) :
      Open l' c ∨ EndsWriter c b := by
    rcases ho with hrun | ⟨hc, hpc⟩
    · exact hmove hrun
    · exact .inl (.inr ⟨hc.trans hw.symm, by rw [hr]; exact hpc⟩)
  -- and a reconnect has none but between the publication of the channel and the spawn
  have hwriter (hpc : l.reconnecting.map (·.pc) ≠ some .arm ∧
      l.reconnecting.map (·.pc) ≠ some .clear) :
      Open l' c ∨ EndsWriter c b :=
    hmove (ho.resolve_right fun h => h.2.elim hpc.1 hpc.2)
  have hshutdown {who : ShutdownCaller} (hin : l.InShutdown who) (hw : l'.writeTx = l.writeTx)
      (hr : who ≠ .reconnect → l'.reconnecting = l.reconnecting) : Open l' c ∨ EndsWriter c b := by
    cases who with
    | disconnect d => exact hkeep hw (hr (by simp))
    | reconnect =>
        obtain ⟨f, hf, hpc⟩ := Lifecycle.inShutdown_reconnect_iff.1 hin
        exact hwriter (by simp [hf, hpc])
  cases hs with
  | lockHandles hl hin =>
      exact hshutdown hin rfl fun hne => by simp [Lifecycle.beginShutdown, Lifecycle.takeNext, hne]
  | awaitHandle hl hstop =>
      exact hshutdown (ht.inShutdown hl) rfl fun hne => by simp [Lifecycle.takeNext, hne]
  | reconnect hb hr => exact hwriter (by simp [hr])
  | attempt ha hr => exact hwriter (by simp [hr])
  | tlsFailed hf hpc => exact hwriter (by simp [hf, hpc])
  | tlsConnected hf hpc => exact hwriter (by simp [hf, hpc])
  | swapWriteTx hf hpc => exact hwriter (by simp [hf, hpc])
  | arm hf hpc =>
      rcases ho with hrun | ⟨hc, -⟩
      · exact .inl (.inl hrun)
      · exact .inl (.inr ⟨hc, .inr rfl⟩)
  | clearAndSpawn hf hpc =>
      rcases ho with hrun | ⟨hc, -⟩
      · exact hmove hrun
      · exact .inl (.inl (by simp [Lifecycle.clearAndSpawn, hc]))
  | install hl hf hpc => exact hwriter (by simp [hf, hpc])
  | connectSent hw hf hpc => exact hwriter (by simp [hf, hpc])
  | connectFailed hw hf hpc => exact hwriter (by simp [hf, hpc])
  | readTransport hf hpc => exact hwriter (by simp [hf, hpc])
  | transportSent hw hf hpc => exact hwriter (by simp [hf, hpc])
  | transportFailed hw hf hpc => exact hwriter (by simp [hf, hpc])
  | publishConnected hf hpc => exact hwriter (by simp [hf, hpc])
  | _ => exact hkeep rfl rfl

end Lifecycle

/-- The messages a step of the session has put into the channel of connection `c`. -/
theorem sent_of_step {s s' : Session} {a : SessionAct} (hs : Session.Step serde cfg s a s')
    (c : Nat) :
    ∃ new, s'.sent c = s.sent c ++ new ∧ (new = [] ∨ Open s'.life c) := by
  have hpush {s' : Session} {msg : CastMessage} {c' : Nat} (heq : s'.sent = s.push c' msg)
      (ho : Open s'.life c') :
      ∃ new, s'.sent c = s.sent c ++ new ∧ (new = [] ∨ Open s'.life c) := by
    rw [heq, push_apply]
    split
    next hc => subst hc; exact ⟨[msg], rfl, .inr ho⟩
    next => exact ⟨[], by simp, .inl rfl⟩
  have hsame {s' : Session} (heq : s'.sent = s.sent) :
      ∃ new, s'.sent c = s.sent c ++ new ∧ (new = [] ∨ Open s'.life c) :=
    ⟨[], by rw [heq, List.append_nil], .inl rfl⟩
  cases hs with
  | life hb hl =>
      cases hl with
      | builderSent hpc hw => exact hpush rfl (.inl hw)
      | connectSent hw hf hpc => exact hpush rfl (.inl hw)
      | @transportSent f tid hw hf hpc =>
          refine @hpush _ (connectMsg serde tid) _ ?_ (.inl hw)
          simp [afterLife, sentAfter, resending, hf, hpc]
      | _ => exact hsame rfl
  | @accept r c' what hpc ho =>
      obtain ⟨msg, f, heq, -⟩ := accept_eq serde s r c' what
      rw [heq]
      exact hpush rfl ho
  | @receive r n json q hpc hrx hq =>
      obtain ⟨m, pc, heq, -⟩ := answer_eq { s with requests := q } r json
      rw [heq]
      exact hsame rfl
  | readTransport hpc hfree => exact hsame (by simp only [Session.readTransport]; split <;> rfl)
  | readSession hpc => exact hsame (by simp only [Session.readSession]; split <;> rfl)
  | readMediaSession hpc => exact hsame (by simp only [Session.readMediaSession]; split <;> rfl)
  | _ => exact hsame rfl

/-- A step of the session is one of the lifecycle, or leaves the channels alone. -/
theorem life_or_same {s s' : Session} {a : SessionAct} (hs : Session.Step serde cfg s a s') :
    (∃ b, a = .life b ∧ Lifecycle.Step cfg s.life b s'.life) ∨
      s'.life.task = s.life.task ∧ s'.life.writeTx = s.life.writeTx ∧
        s'.life.reconnecting = s.life.reconnecting := by
  cases hs with
  | life hb hl => exact .inl ⟨_, rfl, hl⟩
  | lifeReadTransport hl => exact .inl ⟨_, rfl, hl⟩
  | _ => right; simp [Session.begin, Session.route, Lifecycle.emit, Lifecycle.nextEvent]

/-! ## the balance -/

/-- What holds in every run whose writers end with nothing left: of every channel the
accepted messages are written, being written or in it, in this order. -/
structure Balanced (x : Flushing) : Prop where
  tasks : x.session.life.Tasks
  balance : ∀ c, x.session.sent c = x.written c ++ (x.writing c).toList ++ x.queue c
  closed : ∀ c, ¬ Open x.session.life c → x.Drained c
  idle : ∀ c, x.session.life.task c .writer = .stopped → x.writing c = none
  up : ∀ c, x.session.life.task c .writer ≠ .failing

theorem balanced_start : Balanced (start cfg) :=
  ⟨Lifecycle.tasks_start, fun _ => rfl, fun _ _ => ⟨rfl, rfl⟩, fun _ _ => rfl, fun c => by
    simp only [start, Session.start, Lifecycle.start]
    split <;> simp⟩

/-- The writer that ends has nothing left. -/
theorem Balanced.drained_of_ends {b : LifecycleAct} {l : Lifecycle} (h : Balanced x)
    (hok : Flushes x (.session (.life b))) (hl : Lifecycle.Step cfg x.session.life b l)
    (hend : EndsWriter c b) : x.Drained c := by
  cases hl with
  | @noticeCancel c' k hcan hk =>
      cases k with
      | writer => obtain rfl : c' = c := hend; exact hok
      | _ => exact hend.elim
  | @noticeAbort c' k hab hk =>
      cases k with
      | writer => obtain rfl : c' = c := hend; exact hok
      | _ => exact hend.elim
  | @publishLoss c' k hk =>
      cases k with
      | writer => exact absurd hk (h.up c')
      | _ => exact hend.elim
  | _ => exact hend.elim

/-- A writer that fails has a message it cannot write, and so something left. -/
theorem Balanced.not_failing {b : LifecycleAct} {l : Lifecycle} (h : Balanced x)
    (hready : x.writerReady prost (.life b) = true) (hok : Flushes x (.session (.life b)))
    (hl : Lifecycle.Step cfg x.session.life b l) (c : Nat) : l.task c .writer ≠ .failing := by
  have hset {c' : Nat} {k : TaskKind} {t : TaskState} (ht : c = c' → k = .writer → t ≠ .failing) :
      Lifecycle.setTask x.session.life.task c' k t c .writer ≠ .failing := by
    unfold Lifecycle.setTask
    split
    next heq => exact ht heq.1 heq.2.symm
    next => exact h.up c
  cases hl with
  | @fail c' k reason hk =>
      refine hset fun hc hk' => ?_
      subst hk'
      have hnone : x.writing c' = none := hok.2
      simp [writerReady, hnone] at hready
  | publishLoss hk => exact hset fun _ _ => by split <;> simp
  | readerCleared hk => exact hset fun _ _ => by simp
  | noticeCancel hcan hk => exact hset fun _ _ => by split <;> simp
  | noticeAbort hab hk => exact hset fun _ _ => by simp
  | heartbeatQuit hk hw => exact hset fun _ _ => by simp
  | reconnect hb hr => rw [(Lifecycle.task_acquire x.session.life .manual 1).1]; exact h.up c
  | attempt ha hr => rw [(Lifecycle.task_acquire x.session.life .auto _).1]; exact h.up c
  | tlsFailed hf hpc => rw [(Lifecycle.task_returnErr x.session.life _ _).1]; exact h.up c
  | connectFailed hw hf hpc => rw [(Lifecycle.task_returnErr x.session.life _ _).1]; exact h.up c
  | transportFailed hw hf hpc => rw [(Lifecycle.task_returnErr x.session.life _ _).1]; exact h.up c
  | tlsConnected hf hpc =>
      unfold Lifecycle.tlsConnected
      split
      · rw [(Lifecycle.task_returnErr x.session.life _ _).1]; exact h.up c
      · exact h.up c
  | clearAndSpawn hf hpc =>
      simp only [Lifecycle.clearAndSpawn]
      split
      · simp
      · exact h.up c
  | _ => exact h.up c

/-- The session takes a step in which no writer with something left ends. -/
theorem Balanced.session {s : Session} {a : SessionAct} (h : Balanced x)
    (hready : x.writerReady prost a = true) (hok : Flushes x (.session a))
    (hs : Session.Step serde cfg x.session a s) : Balanced (x.afterSession s) := by
  -- of a channel whose receiving end is gone, or whose writer is, nothing is left
  have hdrained (c : Nat) (hgone : ¬ Open s.life c) : x.Drained c := by
    by_cases ho : Open x.session.life c
    · rcases life_or_same hs with ⟨b, rfl, hl⟩ | ⟨ht, hw, hr⟩
      · exact h.drained_of_ends hok hl ((open_of_step h.tasks hl ho).resolve_left hgone)
      · exact absurd (by simpa [Open, ht, hw, hr] using ho) hgone
    · exact h.closed c ho
  have hidle (c : Nat) (hstop : s.life.task c .writer = .stopped) : x.writing c = none := by
    by_cases hrun : x.session.life.task c .writer = .stopped
    · exact h.idle c hrun
    · rcases life_or_same hs with ⟨b, rfl, hl⟩ | ⟨ht, -, -⟩
      · have hend := (writer_of_step hl hrun).resolve_left (not_not_intro hstop)
        exact (h.drained_of_ends hok hl hend).2
      · exact absurd (ht ▸ hstop) hrun
  have hwriting (c : Nat) : (x.afterSession s).writing c = x.writing c := by
    simp only [afterSession]
    split
    next hstop => exact (hidle c hstop).symm
    next => rfl
  refine ⟨?_, fun c => ?_, fun c hgone => ?_, fun c hstop => ?_, fun c => ?_⟩
  · rcases hs.life_step with heq | ⟨b, hl⟩
    · rw [afterSession, heq]; exact h.tasks
    · exact h.tasks.step hl
  · obtain ⟨new, hnew, hopen⟩ := sent_of_step hs c
    rw [hwriting]
    simp only [afterSession, hnew, h.balance c]
    split
    next => simp
    next hgone =>
      obtain rfl := hopen.resolve_right hgone
      simp [(hdrained c hgone).1]
  · exact ⟨if_neg hgone, (hwriting c).trans (hdrained c hgone).2⟩
  · exact if_pos hstop
  · rcases life_or_same hs with ⟨b, rfl, hl⟩ | ⟨ht, -, -⟩
    · exact h.not_failing hready hok hl c
    · rw [afterSession, ht]; exact h.up c

theorem Balanced.step (h : Balanced x) (hok : Flushes x a) (hs : Step prost serde cfg x a x') :
    Balanced x' := by
  cases hs with
  | session hready hs => exact h.session hready hok hs
  | @take c msg rest hq hw hrun =>
      obtain ⟨tasks, balance, closed, idle, up⟩ := h
      refine ⟨tasks, fun c' => ?_, fun c' ho => ?_, fun c' hstop => ?_, up⟩
      · have hc := balance c'
        by_cases heq : c' = c
        · subst heq
          simpa [hq, hw] using hc
        · simpa [heq] using hc
      · have hne : c' ≠ c := fun heq => by
          subst heq
          exact ho (.inl (hrun.trans_ne (by simp)))
        simpa [Drained, hne] using closed c' ho
      · have hne : c' ≠ c := fun heq => by
          subst heq
          rw [hrun] at hstop
          contradiction
        simpa [hne] using idle c' hstop
  | @wrote c msg hw hrun =>
      obtain ⟨tasks, balance, closed, idle, up⟩ := h
      refine ⟨tasks, fun c' => ?_, fun c' ho => ?_, fun c' hstop => ?_, up⟩
      · have hc := balance c'
        by_cases heq : c' = c
        · subst heq
          simpa [hw] using hc
        · simpa [heq] using hc
      · have hne : c' ≠ c := fun heq => by
          subst heq
          exact ho (.inl (hrun.trans_ne (by simp)))
        simpa [Drained, hne] using closed c' ho
      · have hne : c' ≠ c := fun heq => by
          subst heq
          rw [hrun] at hstop
          contradiction
        simpa [hne] using idle c' hstop

theorem balanced_of_run (h : (system prost serde cfg).Run Flushes (start cfg) x) : Balanced x :=
  h.invariant balanced_start fun _ _ _ hi hok hs => hi.step hok (step_cases hs)

/-! ## what `disconnect` has flushed -/

/-- Everything accepted is written exactly when nothing is left. -/
theorem Balanced.written_iff (h : Balanced x) (c : Nat) :
    x.written c = x.session.sent c ↔ x.Drained c := by
  rw [h.balance c, List.append_assoc, List.self_eq_append_right, List.append_eq_nil_iff]
  simp only [Drained, Option.toList_eq_nil_iff, and_comm]

/-- **Disconnect flushes**: in every run whose writers end with nothing left, all
that was accepted on the current connection is written when a `disconnect` returns,
unless a reconnect has put up a writer behind its back that still has something left;
and then it is not. -/
theorem disconnect_flushes_iff (h : (system prost serde cfg).Run Flushes (start cfg) x)
    (hs : x.step prost serde cfg (.session (.life (.dropEventTx d))) = some x') :
    x'.written x'.session.life.writeTx = x'.session.sent x'.session.life.writeTx ↔
      Flushes x (.session (.life (.dropEventTx d))) := by
  have hb := balanced_of_run h
  cases step_cases hs with
  | session hready hl =>
      cases hl with
      | life hplain hlife =>
          cases hlife with
          | dropEventTx hd =>
              refine (hb.written_iff x.session.life.writeTx).trans ⟨fun hdr _ => hdr, fun hok => ?_⟩
              by_cases ho : Open x.session.life x.session.life.writeTx
              · exact hok ho
              · exact hb.closed _ ho

/-- Only the end of a writer by its token is tested, and the return is left out: the
schedule has no other restricted step. -/
def flushesTest (x : Flushing) : FlushAct → Bool
  | .session (.life (.noticeCancel c .writer)) => x.queue c = [] ∧ x.writing c = none
  | .session (.life (.noticeAbort _ k)) => k ≠ .writer
  | .session (.life (.fail _ _ _)) | .session (.life (.dropEventTx _)) => false
  | _ => true

theorem flushes_of_test (h : flushesTest x a = true) : Flushes x a := by
  unfold Flushes
  split
  next => simpa [flushesTest, Drained] using h
  next => simp [flushesTest] at h
  next => contradiction
  next => contradiction
  next => trivial

/-- A client with a new connection is asked to disconnect and sends its CLOSE. -/
def closeActs : List FlushAct :=
  [.session (.life .builderSent), .take 0, .wrote 0, .session (.life .builderDone),
    .session (.life (.disconnect 0))] ++
    [SessionAct.begin 0 (.close launchSerde), .cloneWriteTx 0, .accept 0].map .session

/-- The rest of the `disconnect`, up to its return. -/
def shutdownActs : List FlushAct :=
  [LifecycleAct.flagDead 0, .lockHandles (.disconnect 0), .noticeAbort 0 .reader, .awaitHandle,
    .noticeCancel 0 .writer, .awaitHandle, .noticeAbort 0 .heartbeat, .awaitHandle,
    .publishDisconnected 0].map fun b => .session (.life b)

/-- The encoder of a client that sends what `build_message` builds. -/
def wireProst : Prost CastMessage := .ofMessages []

set_option maxRecDepth 8000 in
/-- The writer takes the CLOSE before it sees its token. -/
theorem disconnect_flushes_close :
    ∃ x x', (system wireProst launchSerde autoCfg).execIf flushesTest (start autoCfg)
        (closeActs ++ [.take 0, .wrote 0] ++ shutdownActs) = some x ∧
      x.step wireProst launchSerde autoCfg (.session (.life (.dropEventTx 0))) = some x' ∧
      x'.written 0 = x'.session.sent 0 := by
  have hrun : (system wireProst launchSerde autoCfg).Run Flushes (start autoCfg) _ :=
    run_of_execIf (p := flushesTest) (closeActs ++ [.take 0, .wrote 0] ++ shutdownActs)
      (fun _ _ => flushes_of_test) rfl
  exact ⟨_, _, rfl, rfl, (disconnect_flushes_iff (d := 0) hrun rfl).2 fun _ => ⟨rfl, rfl⟩⟩

set_option maxRecDepth 8000 in
/-- The writer sees its token first: the CLOSE is never written. -/
theorem close_lost : ¬ ∀ (prost : Prost CastMessage) (serde : SerdeJson) (cfg : ClientConfig)
    (x x' : Flushing) (d : Nat), (system prost serde cfg).Reachable x →
      x.step prost serde cfg (.session (.life (.dropEventTx d))) = some x' →
      x'.written x'.session.life.writeTx = x'.session.sent x'.session.life.writeTx := by
  intro h
  have hrun := reachable_of_exec (M := system wireProst launchSerde autoCfg)
    (closeActs ++ shutdownActs) rfl
  have hwritten := h wireProst launchSerde autoCfg _ _ 0 hrun rfl
  have hlength := congrArg List.length hwritten
  contradiction

end Flushing

end Oxicast
