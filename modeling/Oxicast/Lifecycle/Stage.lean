import Oxicast.Lifecycle.Invariant

/-!
# Oxicast.Lifecycle.Stage

The lifecycle as the write channel sees it.

For what is sent on a connection only little of a reconnect matters: which
channel `write_tx` feeds, and how far the current one has been opened.
`Passage` says what each step does to that, once, for the results about
messages and requests.
-/

namespace Oxicast.Lifecycle

open TransitionSystem

variable {cfg : ClientConfig} {s s' : Lifecycle} {a : LifecycleAct}

/-- How far the current connection is opened. -/
inductive Stage where
  /-- nothing is outstanding -/
  | settled
  /-- the write channel is published, its writer not yet spawned -/
  | fresh
  /-- CONNECT to receiver-0 is outstanding -/
  | unopened
  /-- `transport_id` is to be read -/
  | unread
  /-- CONNECT to the transport is outstanding -/
  | resending (tid : String)
  deriving DecidableEq

def ReconnectPc.stage : ReconnectPc → Stage
  | .arm | .clear => .fresh
  | .install | .sendConnect => .unopened
  | .readTransport => .unread
  | .sendTransport tid => .resending tid
  | _ => .settled

def stage (s : Lifecycle) : Stage :=
  match s.reconnecting with
  | some f => ReconnectPc.stage f.pc
  | none => if s.builder = .sendConnect then .unopened else .settled

theorem stage_of_some {f : Reconnect} (h : s.reconnecting = some f) :
    s.stage = ReconnectPc.stage f.pc := by
  simp [stage, h]

/-- Tasks only end, and `disconnect` calls only begin. -/
structure Winds (s s' : Lifecycle) : Prop where
  writeTx : s'.writeTx = s.writeTx
  stopped : ∀ c k, s.task c k = .stopped → s'.task c k = .stopped
  running : ∀ c k, s'.task c k = .running → s.task c k = .running
  undisturbed : (∀ d, s'.disconnects d = .idle) → ∀ d, s.disconnects d = .idle

/-- The step sends no CONNECT, clears nothing on behalf of a new connection and
reads no cell of the session. -/
def Quiet : LifecycleAct → Prop
  | .builderSent | .clearAndSpawn | .connectSent | .readTransport _ | .transportSent => False
  | _ => True

/-- What a step does to the current connection. -/
inductive Passage (s s' : Lifecycle) : LifecycleAct → Prop
  | keep {a : LifecycleAct} (ha : Quiet a) (h : s'.stage = s.stage) (hw : Winds s s') :
      Passage s s' a
  | swapWriteTx (h : s.stage = .settled) (h' : s'.stage = .fresh) (hw : s'.writeTx = s.writeTx + 1)
      (ht : s'.task = s.task) (hd : s'.disconnects = s.disconnects) : Passage s s' .swapWriteTx
  | clearAndSpawn (h : s.stage = .fresh) (h' : s'.stage = .unopened) (hw : s'.writeTx = s.writeTx)
      (ht : ∀ c k, s'.task c k = if c = s.writeTx then .running else s.task c k)
      (hd : s'.disconnects = s.disconnects) : Passage s s' .clearAndSpawn
  | builderSent (h : s.stage = .unopened) (h' : s'.stage = .settled) (hw : Winds s s')
      (h0 : s.writeTx = 0) : Passage s s' .builderSent
  | connectSent (h : s.stage = .unopened) (h' : s'.stage = .unread) (hw : Winds s s') :
      Passage s s' .connectSent
  | readTransport {tid : Option String} (h : s.stage = .unread)
      (h' : s'.stage = tid.elim .settled .resending) (hw : Winds s s') :
      Passage s s' (.readTransport tid)
  | transportSent {tid : String} (h : s.stage = .resending tid) (h' : s'.stage = .settled)
      (hw : Winds s s') (hlive : s.task s.writeTx .writer ≠ .stopped) : Passage s s' .transportSent
  | giveUp {a : LifecycleAct} (ha : Quiet a) (h' : s'.stage = .settled) (hw : Winds s s')
      (hgone : s.task s.writeTx .writer = .stopped) : Passage s s' a

/-- The connection numbers only grow. -/
theorem Passage.writeTx_le (h : Passage s s' a) : s.writeTx ≤ s'.writeTx := by
  cases h with
  | keep ha hs hw => exact Nat.le_of_eq hw.writeTx.symm
  | swapWriteTx hs hs' hw ht hd => omega
  | clearAndSpawn hs hs' hw ht hd => exact Nat.le_of_eq hw.symm
  | builderSent hs hs' hw h0 => exact Nat.le_of_eq hw.writeTx.symm
  | connectSent hs hs' hw => exact Nat.le_of_eq hw.writeTx.symm
  | readTransport hs hs' hw => exact Nat.le_of_eq hw.writeTx.symm
  | transportSent hs hs' hw hlive => exact Nat.le_of_eq hw.writeTx.symm
  | giveUp ha hs hw hgone => exact Nat.le_of_eq hw.writeTx.symm

/-- A step that touches nothing but what the stage does not depend on. -/
theorem Winds.of_eq (hw : s'.writeTx = s.writeTx) (ht : s'.task = s.task)
    (hd : s'.disconnects = s.disconnects) : Winds s s' :=
  ⟨hw, by simp [ht], by simp [ht], by simp [hd]⟩

/-- A task that does not start to run. -/
theorem Winds.of_setTask {c : Nat} {k : TaskKind} {t : TaskState} (hw : s'.writeTx = s.writeTx)
    (ht : s'.task = setTask s.task c k t) (hd : s'.disconnects = s.disconnects)
    (hrun : s.task c k ≠ .stopped) (hend : t ≠ .running) : Winds s s' := by
  refine ⟨hw, ?_, ?_, by simp [hd]⟩
  · rw [ht]; intro c' k'; simp only [setTask]; split <;> grind
  · rw [ht]; intro c' k'; simp only [setTask]; split <;> grind

/-- A `disconnect` call that goes on from `pc`. -/
theorem Winds.of_update {d : Nat} {pc : DisconnectPc} (hw : s'.writeTx = s.writeTx)
    (ht : s'.task = s.task) (hd : s'.disconnects = Function.update s.disconnects d pc)
    (hpc : pc ≠ .idle) : Winds s s' := by
  refine ⟨hw, by simp [ht], by simp [ht], fun hidle => ?_⟩
  have hx := hidle d
  rw [hd, Function.update_self] at hx
  exact absurd hx hpc

theorem stage_eq (hr : s'.reconnecting = s.reconnecting) (hb : s'.builder = s.builder) :
    s'.stage = s.stage := by
  simp [stage, hr, hb]

theorem stage_of_done (hr : s.reconnecting = none) (hb : s.builder = .done) :
    s.stage = .settled := by
  simp [stage, hr, hb]

/-- As long as a new connection has no tasks, nothing runs at all. -/
theorem Tasks.stopped_of_fresh (h : Tasks s) (hs : s.stage = .fresh) (c : Nat) (k : TaskKind) :
    s.task c k = .stopped := by
  cases hr : s.reconnecting with
  | none => simp only [stage, hr] at hs; split at hs <;> contradiction
  | some f =>
      refine h.bare f hr ?_ c k
      rw [stage_of_some hr] at hs
      revert hs
      cases f.pc <;> simp [ReconnectPc.stage, ReconnectPc.Bare]

/-! ## calls that return at once -/

theorem winds_returnErr (s : Lifecycle) (caller : Caller) (n : Nat) :
    Winds s (s.returnErr cfg caller n) := by
  obtain ⟨_, _, _, heq⟩ := @returnErr_eq cfg s caller n
  rw [heq]
  exact .of_eq rfl rfl rfl

theorem stage_returnErr (hb : s.builder = .done) (caller : Caller) (n : Nat) :
    (s.returnErr cfg caller n).stage = .settled := by
  obtain ⟨_, _, _, heq⟩ := @returnErr_eq cfg s caller n
  rw [heq]
  exact stage_of_done rfl hb

/-- The start of a call is nothing to the current connection, whatever comes of it. -/
theorem passage_acquire (ha : Quiet a) (hr : s.reconnecting = none) (hb : s.builder = .done)
    (caller : Caller) (n : Nat) : Passage s (s.acquire cfg caller n) a := by
  have hset := stage_of_done hr hb
  unfold acquire
  split_ifs
  · exact .keep ha ((stage_returnErr hb caller n).trans hset.symm) (winds_returnErr s caller n)
  · have hret : (s.returnOk caller).stage = .settled := stage_of_done rfl hb
    exact .keep ha (hret.trans hset.symm) (.of_eq rfl rfl rfl)
  · exact .keep ha (by rw [hset]; rfl) (.of_eq rfl rfl rfl)

/-- One more handle taken, and perhaps the end of the shutdown. -/
theorem passage_takeNext {who : ShutdownCaller} {cancelled : Nat → Bool} (ha : Quiet a)
    (hin : s.InShutdown who) : Passage s ({ s with cancelled }.takeNext who) a := by
  have hstage : ({ s with cancelled }.takeNext who).stage = s.stage := by
    cases who with
    | reconnect =>
        obtain ⟨f, hf, hpc⟩ := inShutdown_reconnect_iff.1 hin
        have hset : s.stage = .settled := by rw [stage_of_some hf, hpc]; rfl
        rw [hset]
        by_cases hn : s.handles.next = none
        · exact stage_of_some (f := { f with pc := .connecting })
            (by simp [Lifecycle.takeNext, hn, hf])
        · rw [stage_of_some (f := f) (by simp [Lifecycle.takeNext, hn, hf]), hpc]; rfl
    | disconnect d => exact stage_eq (by simp [Lifecycle.takeNext]) rfl
  refine .keep ha hstage ⟨rfl, fun _ _ => id, fun _ _ => id, fun hidle d => ?_⟩
  have hd := hidle d
  simp only [Lifecycle.takeNext] at hd
  split at hd
  · contradiction
  · exact hd

/-! ## every step -/

theorem passage_of_step (ht : Tasks s) (hs : Step cfg s a s') : Passage s s' a := by
  cases hs with
  | builderSent h hw =>
      obtain ⟨hr, -, -, h0⟩ := ht.building (by simp [h])
      exact .builderSent (by simp [stage, hr, h]) (by simp [stage, Lifecycle.builderSent, hr])
        (.of_eq rfl rfl rfl) h0
  | builderFailed h hw =>
      obtain ⟨hr, -, -, h0⟩ := ht.building (by simp [h])
      exact .giveUp trivial (by simp [stage, hr]) (.of_eq rfl rfl rfl) (by rw [h0]; exact hw)
  | builderDone h =>
      obtain ⟨hr, -, -, -⟩ := ht.building (by simp [h])
      exact .keep trivial (by simp [stage, Lifecycle.builderDone, hr, h]) (.of_eq rfl rfl rfl)
  | fail h =>
      exact .keep trivial (stage_eq rfl rfl) (.of_setTask rfl rfl rfl (by simp [h]) (by simp))
  | publishLoss h =>
      exact .keep trivial (stage_eq rfl rfl)
        (.of_setTask rfl rfl rfl (by simp [h]) (by split <;> simp))
  | readerCleared h =>
      exact .keep trivial (stage_eq rfl rfl) (.of_setTask rfl rfl rfl (by simp [h]) (by simp))
  | noticeCancel hc h =>
      exact .keep trivial (stage_eq rfl rfl)
        (.of_setTask rfl rfl rfl (by simp [h]) (by split <;> simp))
  | noticeAbort ha h =>
      exact .keep trivial (stage_eq rfl rfl) (.of_setTask rfl rfl rfl (by grind) (by simp))
  | heartbeatQuit h hw =>
      exact .keep trivial (stage_eq rfl rfl) (.of_setTask rfl rfl rfl (by simp [h]) (by simp))
  | emit h => exact .keep trivial (stage_eq rfl rfl) (.of_eq rfl rfl rfl)
  | lockHandles hl hin => exact passage_takeNext trivial hin
  | awaitHandle hl h => exact passage_takeNext trivial (ht.inShutdown hl)
  | reconnect hb h => exact passage_acquire (a := .reconnect) trivial h hb .manual 1
  | tlsFailed h hpc =>
      have hb := ht.built (.inl (by simp [h]))
      exact .keep trivial ((stage_returnErr hb _ _).trans
        (by simp [stage_of_some h, hpc, ReconnectPc.stage]))
        (winds_returnErr s _ _)
  | tlsConnected h hpc =>
      have hb := ht.built (.inl (by simp [h]))
      have hset : s.stage = .settled := by simp [stage_of_some h, hpc, ReconnectPc.stage]
      unfold Lifecycle.tlsConnected
      split
      · exact .keep trivial ((stage_returnErr hb _ _).trans hset.symm) (winds_returnErr s _ _)
      · exact .keep trivial (by rw [hset]; rfl) (.of_eq rfl rfl rfl)
  | swapWriteTx h hpc => exact .swapWriteTx (by rw [stage_of_some h, hpc]; rfl) rfl rfl rfl rfl
  | arm h hpc =>
      exact .keep trivial (by rw [stage_of_some h, hpc]; rfl) (.of_eq rfl rfl rfl)
  | clearAndSpawn h hpc =>
      exact .clearAndSpawn (by rw [stage_of_some h, hpc]; rfl) rfl rfl (fun _ _ => rfl) rfl
  | install hl h hpc =>
      exact .keep trivial (by rw [stage_of_some h, hpc]; rfl) (.of_eq rfl rfl rfl)
  | connectSent hw h hpc =>
      exact .connectSent (by rw [stage_of_some h, hpc]; rfl) rfl (.of_eq rfl rfl rfl)
  | connectFailed hw h hpc =>
      exact .giveUp trivial (stage_returnErr (ht.built (.inl (by simp [h]))) _ _)
        (winds_returnErr s _ _) hw
  | @readTransport f tid h hpc =>
      exact .readTransport (by rw [stage_of_some h, hpc]; rfl) (by cases tid <;> rfl)
        (.of_eq rfl rfl rfl)
  | transportSent hw h hpc =>
      exact .transportSent (by rw [stage_of_some h, hpc]; rfl) rfl (.of_eq rfl rfl rfl) hw
  | transportFailed hw h hpc =>
      exact .giveUp trivial (stage_returnErr (ht.built (.inl (by simp [h]))) _ _)
        (winds_returnErr s _ _) hw
  | @publishConnected f h hpc =>
      have hb := ht.built (.inl (by simp [h]))
      have hret : (s.publishConnected f).stage = .settled := stage_of_done rfl hb
      exact .keep trivial (hret.trans (by simp [stage_of_some h, hpc, ReconnectPc.stage]))
        (.of_eq rfl rfl rfl)
  | disconnect hb h => exact .keep trivial (stage_eq rfl rfl) (.of_update rfl rfl rfl (by simp))
  | flagDead h => exact .keep trivial (stage_eq rfl rfl) (.of_update rfl rfl rfl (by simp))
  | publishDisconnected h =>
      exact .keep trivial (stage_eq rfl rfl) (.of_update rfl rfl rfl (by simp))
  | dropEventTx h => exact .keep trivial (stage_eq rfl rfl) (.of_update rfl rfl rfl (by simp))
  | wake h hc => exact .keep trivial (stage_eq rfl rfl) (.of_eq rfl rfl rfl)
  | beginAttempt h => exact .keep trivial (stage_eq rfl rfl) (.of_eq rfl rfl rfl)
  | attempt ha h =>
      exact passage_acquire (a := .attempt) trivial h (ht.built (.inr (by simp [ha]))) .auto _
  | nextEvent => exact .keep trivial (stage_eq rfl rfl) (.of_eq rfl rfl rfl)

end Oxicast.Lifecycle
