import Oxicast.Lifecycle.Disconnect

/-!
# Oxicast.Lifecycle.Ownership

Who keeps a client alive.

The user's handles are strong references to `ClientInner`, the auto-reconnect
task has a weak one.  It upgrades that one when the connection watch changes and
then holds a strong reference through its whole retry loop, sleeps included.
`Owned` is the lifecycle with the number of handles; the last strong reference
that goes cancels the tokens of all tasks (`ClientInner::drop`).
-/

namespace Oxicast

/-! ## handles -/

/-- A client and its owners.  `disconnecting` counts the `disconnect` calls in
progress, each of which borrows a handle, as a manual reconnect does. -/
structure Owned where
  life : Lifecycle
  handles : Nat
  disconnecting : Nat

inductive OwnedAct where
  | life (a : LifecycleAct)
  /-- the weak reference of the auto-reconnect task cannot be upgraded any more, or
  its watch is closed -/
  | giveUp
  | clone
  | drop

instance : DecidablePred AutoPc.Retrying
  | .off | .parked | .exited => inferInstanceAs (Decidable False)
  | .backoff _ | .attempting _ => inferInstanceAs (Decidable True)

/-- A step that needs a handle: the calls of the user, and the upgrade. -/
def LifecycleAct.needsHandle : LifecycleAct → Bool
  | .reconnect | .disconnect _ | .nextEvent | .wake => true
  | _ => false

namespace Owned

/-- `from_builder` is about to return the first handle. -/
def start (cfg : ClientConfig) : Owned := ⟨.start cfg, 1, 0⟩

/-- `ClientInner::drop`, when no strong reference is left. -/
def settle (x : Owned) : Owned :=
  if x.handles = 0 ∧ ¬ x.life.auto.Retrying then
    { x with life := { x.life with cancelled := fun _ => true } }
  else x

/-- The calls of `disconnect` in progress after a step of the lifecycle. -/
def disconnectingAfter (x : Owned) : LifecycleAct → Nat
  | .disconnect _ => x.disconnecting + 1
  | .dropEventTx _ => x.disconnecting - 1
  | _ => x.disconnecting

/-- No call of the user borrows a handle. -/
def Unborrowed (x : Owned) : Prop :=
  x.disconnecting = 0 ∧ x.life.reconnecting.map (·.caller) ≠ some .manual

instance (x : Owned) : Decidable x.Unborrowed := inferInstanceAs (Decidable (_ ∧ _))

/-- One step.  A handle that is borrowed is not dropped. -/
def step (cfg : ClientConfig) (x : Owned) : OwnedAct → Option Owned
  | .life a =>
      if a.needsHandle ∧ x.handles = 0 then none
      else (x.life.step cfg a).map fun life =>
        settle { x with life, disconnecting := x.disconnectingAfter a }
  | .giveUp =>
      if x.handles = 0 ∧ x.life.auto = .parked then
        some { x with life := { x.life with auto := .exited } }
      else none
  | .clone =>
      if 0 < x.handles ∧ x.life.builder = .done then some { x with handles := x.handles + 1 }
      else none
  | .drop =>
      if 0 < x.handles ∧ x.life.builder = .done ∧ (x.handles = 1 → x.Unborrowed) then
        some (settle { x with handles := x.handles - 1 })
      else none

/-- All interleavings of a client and its owners. -/
def system (cfg : ClientConfig) : TransitionSystem Owned OwnedAct := ⟨start cfg, step cfg⟩

end Owned

namespace Owned

open TransitionSystem Lifecycle

variable {cfg : ClientConfig} {x x' : Owned} {a : OwnedAct}

/-! ## what a step can do -/

inductive Step (cfg : ClientConfig) (x : Owned) : OwnedAct → Owned → Prop
  | life {a : LifecycleAct} {life : Lifecycle} (hown : a.needsHandle = true → 0 < x.handles)
      (h : Lifecycle.Step cfg x.life a life) :
      Step cfg x (.life a) (settle { x with life, disconnecting := x.disconnectingAfter a })
  | giveUp (h0 : x.handles = 0) (h : x.life.auto = .parked) :
      Step cfg x .giveUp { x with life := { x.life with auto := .exited } }
  | clone (h : 0 < x.handles) (hb : x.life.builder = .done) :
      Step cfg x .clone { x with handles := x.handles + 1 }
  | drop (h : 0 < x.handles) (hb : x.life.builder = .done) (hlast : x.handles = 1 → x.Unborrowed) :
      Step cfg x .drop (settle { x with handles := x.handles - 1 })

theorem step_cases (h : x.step cfg a = some x') : Step cfg x a x' := by
  cases a with
  | life a =>
      simp only [step] at h
      split at h
      next => contradiction
      next hown =>
        obtain ⟨life, hlife, rfl⟩ := Option.map_eq_some_iff.1 h
        exact .life (fun hneeds => by grind) (Lifecycle.step_cases hlife)
  | giveUp => obtain ⟨⟨h0, hauto⟩, rfl⟩ := of_if h; exact .giveUp h0 hauto
  | clone => obtain ⟨⟨hpos, hb⟩, rfl⟩ := of_if h; exact .clone hpos hb
  | drop => obtain ⟨⟨hpos, hb, hlast⟩, rfl⟩ := of_if h; exact .drop hpos hb hlast

/-- The end of the last reference cancels tokens and does nothing else. -/
theorem settle_eq (x : Owned) :
    ∃ cancelled, x.settle = { x with life := { x.life with cancelled } } := by
  unfold settle
  split
  · exact ⟨_, rfl⟩
  · exact ⟨x.life.cancelled, rfl⟩

/-! ## the retry loop -/

/-- Nothing will open a connection: the auto-reconnect task is not in its retry
loop, or every attempt will find `shutting_down` set, or its attempt has nothing
left to do but to publish `Connected`. -/
def AtRest (s : Lifecycle) : Prop :=
  ¬ s.auto.Retrying ∨ s.shuttingDown = true ∧ s.reconnecting = none ∨
    s.reconnecting.map (·.pc) = some .publish

/-- The last handle is dropped only at rest. -/
def DroppedAtRest (x : Owned) : OwnedAct → Prop
  | .drop => x.handles = 1 → AtRest x.life
  | _ => True

/-- What a client without handles can still do. -/
structure Unowned (s : Lifecycle) : Prop where
  built : s.builder = .done
  resting : s.reconnecting = none ∧ ¬ s.auto.Retrying ∨ s.reconnecting = none ∧
  s.shuttingDown = true ∨
    ∃ f, s.reconnecting = some f ∧ f.pc = .publish ∧ f.caller = .auto

/-- The auto-reconnect task is in its attempt when its attempt is in progress. -/
def Attempting (s : Lifecycle) : Prop :=
  ∀ f, s.reconnecting = some f → f.caller = .auto → ∃ n, s.auto = .attempting n

section Lifecycle

variable {s s' : Lifecycle} {a : LifecycleAct}

theorem attempting_of_none (hr : s.reconnecting = none) : Attempting s := by
  intro f hf
  rw [hr] at hf
  contradiction

/-- The attempt in progress goes on. -/
theorem Attempting.keep (h : Attempting s) (hauto : s'.auto = s.auto)
    (hr : ∀ f', s'.reconnecting = some f' → ∃ f, s.reconnecting = some f ∧ f.caller = f'.caller) :
    Attempting s' := by
  intro f' hf' hcaller
  obtain ⟨f, hf, heq⟩ := hr f' hf'
  rw [hauto]
  exact h f hf (heq.trans hcaller)

theorem Attempting.proceed {f g : Reconnect} (h : Attempting s) (hauto : s'.auto = s.auto)
    (hf : s.reconnecting = some f) (hg : s'.reconnecting = some g) (heq : f.caller = g.caller) :
    Attempting s' := by
  refine h.keep hauto fun f' hf' => ?_
  obtain rfl : g = f' := Option.some.inj (hg.symm.trans hf')
  exact ⟨f, hf, heq⟩

theorem attempting_acquire (caller : Caller) (n : Nat)
    (hauto : caller = .auto → s.auto = .attempting n) : Attempting (s.acquire cfg caller n) := by
  unfold acquire
  split_ifs
  · exact attempting_of_none (reconnecting_returnErr s caller n)
  · exact attempting_of_none rfl
  · intro f hf hcaller
    obtain rfl := Option.some.inj hf
    exact ⟨n, hauto hcaller⟩

theorem Attempting.takeNext (h : Attempting s) (who : ShutdownCaller) :
    Attempting (s.takeNext who) := by
  refine h.keep rfl fun f' hf' => ?_
  simp only [Lifecycle.takeNext] at hf'
  split at hf'
  · obtain ⟨f, hf, rfl⟩ := Option.map_eq_some_iff.1 hf'
    exact ⟨f, hf, rfl⟩
  · exact ⟨f', hf', rfl⟩

theorem Attempting.step (h : Attempting s) (ht : Tasks s) (hs : Lifecycle.Step cfg s a s') :
    Attempting s' := by
  cases hs with
  | builderDone hb => exact attempting_of_none (ht.building (by simp [hb])).1
  | lockHandles hl hin => exact Attempting.takeNext (s := { s with cancelled := _ }) h _
  | awaitHandle hl hstop => exact h.takeNext _
  | reconnect hb hr => exact attempting_acquire .manual 1 (by simp)
  | attempt ha hr => exact attempting_acquire .auto _ fun _ => ha
  | tlsFailed hf hpc => exact attempting_of_none (reconnecting_returnErr s _ _)
  | connectFailed hw hf hpc => exact attempting_of_none (reconnecting_returnErr s _ _)
  | transportFailed hw hf hpc => exact attempting_of_none (reconnecting_returnErr s _ _)
  | publishConnected hf hpc => exact attempting_of_none rfl
  | tlsConnected hf hpc =>
      unfold Lifecycle.tlsConnected
      split
      · exact attempting_of_none (reconnecting_returnErr s _ _)
      · exact h.proceed rfl hf rfl rfl
  | swapWriteTx hf hpc => exact h.proceed rfl hf rfl rfl
  | arm hf hpc => exact h.proceed rfl hf rfl rfl
  | clearAndSpawn hf hpc => exact h.proceed rfl hf rfl rfl
  | install hl hf hpc => exact h.proceed rfl hf rfl rfl
  | connectSent hw hf hpc => exact h.proceed rfl hf rfl rfl
  | readTransport hf hpc => exact h.proceed rfl hf rfl rfl
  | transportSent hw hf hpc => exact h.proceed rfl hf rfl rfl
  | wake ha hc =>
      intro f hf hcaller
      obtain ⟨n, hn⟩ := h f hf hcaller
      rw [ha] at hn
      contradiction
  | beginAttempt ha =>
      intro f hf hcaller
      obtain ⟨n, hn⟩ := h f hf hcaller
      rw [ha] at hn
      contradiction
  | _ => exact h

/-! ## without handles -/

/-- Nothing that matters to a client without handles has changed. -/
theorem Unowned.keep (h : Unowned s) (hb : s'.builder = s.builder)
    (hr : s'.reconnecting = s.reconnecting) (hauto : s'.auto = s.auto)
    (hdown : s.shuttingDown = true → s'.shuttingDown = true) : Unowned s' := by
  obtain ⟨built, resting⟩ := h
  refine ⟨hb.trans built, ?_⟩
  rw [hr, hauto]
  exact resting.imp_right (.imp_left (And.imp_right hdown))

/-- An attempt that finds `shutting_down` set returns `Err`. -/
theorem Unowned.attempt {n : Nat} (h : Unowned s) (hdown : s.shuttingDown = true) :
    Unowned (s.acquire cfg .auto n) := by
  unfold acquire
  rw [if_pos hdown]
  exact ⟨h.built, .inr (.inl ⟨rfl, hdown⟩)⟩

/-- An attempt still in progress is about to return `Ok`. -/
theorem Unowned.only_publishes {f : Reconnect} {pc : ReconnectPc} (h : Unowned s)
    (hf : s.reconnecting = some f) (hpc : f.pc = pc) (hne : pc ≠ .publish) : False := by
  rcases h.resting with ⟨hnone, -⟩ | ⟨hnone, -⟩ | ⟨g, hg, hpc', -⟩
  · rw [hf] at hnone; contradiction
  · rw [hf] at hnone; contradiction
  · obtain rfl := Option.some.inj (hf.symm.trans hg)
    exact hne (hpc.symm.trans hpc')

theorem Unowned.step (h : Unowned s) (ht : Tasks s) (ha : a.needsHandle = false)
    (hs : Lifecycle.Step cfg s a s') : Unowned s' := by
  have htake {who : ShutdownCaller} (hin : s.InShutdown who) :
      (s.takeNext who).reconnecting = s.reconnecting := by
    cases who with
    | disconnect d => simp [Lifecycle.takeNext]
    | reconnect =>
        obtain ⟨f, hf, hpc⟩ := inShutdown_reconnect_iff.1 hin
        exact (h.only_publishes hf hpc (by simp)).elim
  cases hs with
  | builderSent hb hw => simp [h.built] at hb
  | builderFailed hb hw => simp [h.built] at hb
  | builderDone hb => simp [h.built] at hb
  | lockHandles hl hin => exact h.keep rfl (htake hin) rfl id
  | awaitHandle hl hstop => exact h.keep rfl (htake (ht.inShutdown hl)) rfl id
  | reconnect hb hr => contradiction
  | disconnect hb hd => contradiction
  | nextEvent => contradiction
  | wake hauto hc => contradiction
  | tlsFailed hf hpc => exact (h.only_publishes hf hpc (by simp)).elim
  | tlsConnected hf hpc => exact (h.only_publishes hf hpc (by simp)).elim
  | swapWriteTx hf hpc => exact (h.only_publishes hf hpc (by simp)).elim
  | arm hf hpc => exact (h.only_publishes hf hpc (by simp)).elim
  | clearAndSpawn hf hpc => exact (h.only_publishes hf hpc (by simp)).elim
  | install hl hf hpc => exact (h.only_publishes hf hpc (by simp)).elim
  | connectSent hw hf hpc => exact (h.only_publishes hf hpc (by simp)).elim
  | connectFailed hw hf hpc => exact (h.only_publishes hf hpc (by simp)).elim
  | readTransport hf hpc => exact (h.only_publishes hf hpc (by simp)).elim
  | transportSent hw hf hpc => exact (h.only_publishes hf hpc (by simp)).elim
  | transportFailed hw hf hpc => exact (h.only_publishes hf hpc (by simp)).elim
  | @publishConnected f hf hpc =>
      refine ⟨h.built, .inl ⟨rfl, ?_⟩⟩
      rcases h.resting with ⟨hnone, -⟩ | ⟨hnone, -⟩ | ⟨g, hg, -, hcaller⟩
      · rw [hf] at hnone; contradiction
      · rw [hf] at hnone; contradiction
      · obtain rfl := Option.some.inj (hf.symm.trans hg)
        simp [Lifecycle.publishConnected, returnOk, hcaller, AutoPc.Retrying]
  | @beginAttempt n hauto =>
      refine ⟨h.built, ?_⟩
      rcases h.resting with ⟨-, hnot⟩ | hdown | hpub
      · rw [hauto] at hnot
        exact absurd trivial hnot
      · exact .inr (.inl hdown)
      · exact .inr (.inr hpub)
  | @attempt n hauto hr =>
      rcases h.resting with ⟨-, hnot⟩ | ⟨-, hdown⟩ | ⟨f, hf, -⟩
      · rw [hauto] at hnot
        exact absurd trivial hnot
      · exact h.attempt hdown
      · rw [hr] at hf; contradiction
  | _ => exact h.keep rfl rfl rfl id

end Lifecycle

/-! ## runs -/

/-- What holds in every run whose last handle is dropped at rest. -/
structure Kept (x : Owned) : Prop where
  tasks : Tasks x.life
  attempting : Attempting x.life
  unowned : x.handles = 0 → Unowned x.life

theorem Unowned.cancel {s : Lifecycle} {cancelled : Nat → Bool} (h : Unowned s) :
    Unowned { s with cancelled } := ⟨h.built, h.resting⟩

theorem Kept.settle (h : Kept x) : Kept x.settle := by
  obtain ⟨cancelled, heq⟩ := x.settle_eq
  rw [heq]
  exact ⟨h.tasks.cancel, h.attempting, fun h0 => (h.unowned h0).cancel⟩

theorem kept_start : Kept (start cfg) :=
  ⟨tasks_start, attempting_of_none rfl, fun h0 => absurd h0 Nat.one_ne_zero⟩

/-- The last handle goes, at rest. -/
theorem unowned_of_atRest (h : Attempting x.life) (hb : x.life.builder = .done)
    (hrest : AtRest x.life)
    (hfree : x.Unborrowed) : Unowned x.life := by
  have hcaller (f : Reconnect) (hf : x.life.reconnecting = some f) : f.caller = .auto := by
    have hmanual := hfree.2
    rw [hf] at hmanual
    cases hc : f.caller with
    | manual => simp [hc] at hmanual
    | auto => rfl
  refine ⟨hb, ?_⟩
  rcases hrest with hnot | ⟨hdown, hnone⟩ | hpub
  · left
    refine ⟨?_, hnot⟩
    cases hr : x.life.reconnecting with
    | none => rfl
    | some f =>
        obtain ⟨n, hn⟩ := h f hr (hcaller f hr)
        rw [hn] at hnot
        exact absurd trivial hnot
  · exact .inr (.inl ⟨hnone, hdown⟩)
  · obtain ⟨f, hf, hpc⟩ := Option.map_eq_some_iff.1 hpub
    exact .inr (.inr ⟨f, hf, hpc, hcaller f hf⟩)

theorem Kept.step (h : Kept x) (hok : DroppedAtRest x a) (hs : Step cfg x a x') : Kept x' := by
  obtain ⟨tasks, attempting, unowned⟩ := h
  cases hs with
  | @life a life hown hl =>
      refine Kept.settle ⟨tasks.step hl, attempting.step tasks hl, fun h0 => ?_⟩
      have hneeds : a.needsHandle = false := by
        cases ha : a.needsHandle with
        | false => rfl
        | true =>
            have hpos := hown ha
            have hzero : x.handles = 0 := h0
            omega
      exact (unowned h0).step tasks hneeds hl
  | giveUp h0 hauto =>
      refine ⟨?_, ?_, fun _ => ⟨(unowned h0).built, ?_⟩⟩
      · have hb := tasks.built (.inr (by simp [hauto]))
        obtain ⟨owned, bare, byReconnect, byDisconnect, failing, unarmed, building⟩ := tasks
        exact ⟨owned, bare, byReconnect, byDisconnect, failing, unarmed, fun hne => absurd hb hne⟩
      · intro f hf hcaller
        obtain ⟨n, hn⟩ := attempting f hf hcaller
        rw [hauto] at hn
        contradiction
      · rcases (unowned h0).resting with ⟨hnone, -⟩ | hdown | hpub
        · exact .inl ⟨hnone, id⟩
        · exact .inr (.inl hdown)
        · exact .inr (.inr hpub)
  | clone hpos hb => exact ⟨tasks, attempting, fun h0 => absurd h0 (Nat.succ_ne_zero _)⟩
  | drop hpos hb hlast =>
      refine Kept.settle ⟨tasks, attempting, fun h0 => ?_⟩
      have hone : x.handles = 1 := by
        have hzero : x.handles - 1 = 0 := h0
        omega
      exact unowned_of_atRest attempting hb (hok hone) (hlast hone)

theorem kept_of_run (h : (system cfg).Run DroppedAtRest (start cfg) x) : Kept x :=
  h.invariant kept_start fun _ _ _ hk hok hs => hk.step hok (step_cases hs)

/-! ## no reconnection without an owner -/

/-- The steps that open a connection, or try to, or spawn tasks. -/
def Opens : OwnedAct → Prop
  | .life .tlsConnected | .life .tlsFailed | .life .clearAndSpawn => True
  | _ => False

/-- **No reconnection without an owner**: in every run in which the last handle is
dropped at rest, no connection is opened and no task is spawned once it is gone. -/
theorem no_reconnect_without_owner (h : (system cfg).Run DroppedAtRest (start cfg) x)
    (h0 : x.handles = 0) (ha : Opens a) : (system cfg).step x a = none := by
  by_contra hne
  obtain ⟨x', hs⟩ := Option.ne_none_iff_exists'.1 hne
  have hun := (kept_of_run h).unowned h0
  cases step_cases hs with
  | life hown hl =>
      cases hl with
      | tlsConnected hf hpc => exact hun.only_publishes hf hpc (by simp)
      | tlsFailed hf hpc => exact hun.only_publishes hf hpc (by simp)
      | clearAndSpawn hf hpc => exact hun.only_publishes hf hpc (by simp)
      | _ => exact ha
  | _ => exact ha

/-- The first connection is lost by a write error. -/
def lostActs : List OwnedAct :=
  [LifecycleAct.builderSent, .builderDone, .fail 0 .writer none, .publishLoss 0 .writer].map .life

/-- Of these, only a drop is restricted. -/
def keepsHandles (_ : Owned) : OwnedAct → Bool
  | .drop => false
  | _ => true

theorem droppedAtRest_of_test (h : keepsHandles x a = true) : DroppedAtRest x a := by
  cases a with
  | drop => contradiction
  | _ => trivial

theorem droppedAtRest_of_parked (h : x.life.auto = .parked) : DroppedAtRest x .drop := by
  intro _
  left
  rw [h]
  exact id

/-- The last handle goes while the auto-reconnect task has not seen the loss yet. -/
theorem no_reconnect_while_parked : ∃ x,
    (system autoCfg).exec (start autoCfg) (lostActs ++ [.drop]) = some x ∧ x.handles = 0 ∧
      (system autoCfg).step x (.life .tlsConnected) = none := by
  have hlost : (system autoCfg).Run DroppedAtRest (start autoCfg) _ :=
    run_of_execIf (p := keepsHandles) lostActs (fun _ _ => droppedAtRest_of_test) rfl
  have hrun := hlost.tail (droppedAtRest_of_parked rfl) rfl
  exact ⟨_, rfl, rfl, no_reconnect_without_owner hrun rfl trivial⟩

/-- The last handle goes during the backoff: the task makes its attempt all the same. -/
theorem reconnect_without_owner : ¬ ∀ (cfg : ClientConfig) (x : Owned) (a : OwnedAct),
    (system cfg).Reachable x → x.handles = 0 → Opens a → (system cfg).step x a = none := by
  intro h
  have hrun := reachable_of_exec (M := system autoCfg)
    (lostActs ++ [.life .wake, .drop] ++
      ([LifecycleAct.beginAttempt, .attempt] ++ lostAndConnecting.drop 5).map .life) rfl
  have hnone := h autoCfg _ (.life .tlsConnected) hrun rfl trivial
  contradiction

end Owned

end Oxicast
