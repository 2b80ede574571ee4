import Oxicast.Lifecycle.Backoff
import Oxicast.Lifecycle.Ownership
import Oxicast.Lifecycle.Returns

/-!
# Oxicast.Lifecycle.Retries

The retry loop of the auto-reconnect task.

`Retry` is what a step can do to that task and to the attempt it has in progress.
Between two waits for a change the attempts are 1, 2, 3, … without a gap, and the task
gives up behind the last one only (`attempts_in_order`).  Under fair scheduling, and if
the network lets each attempt end, the loop comes to its end (`retries_end`).
-/

namespace Oxicast.Lifecycle

open TransitionSystem

variable {cfg : ClientConfig} {s t : Lifecycle} {a : LifecycleAct} {b : (system cfg).Behavior}

/-- The attempt of the auto-reconnect task that holds the reconnect lock. -/
def holder (s : Lifecycle) : Option Nat :=
  s.reconnecting.bind fun f => if f.caller = .auto then some f.attempt else none

/-- Where the task is after attempt `n` has failed. -/
def failedAt (max n : Nat) : AutoPc := if n = max then .exited else .backoff (n + 1)

/-- The attempts the task has made since its last wait for a change. -/
def recordAttempt (made : List Nat) (s : Lifecycle) : LifecycleAct → Lifecycle → List Nat
  | .wake, _ => []
  | .attempt, _ =>
      match s.auto with
      | .attempting n => made ++ [n]
      | _ => made
  | _, _ => made

/-- What a step does to the task, its attempt in progress and the attempts made. -/
inductive Retry (max : Nat) : AutoPc → Option Nat → List Nat → AutoPc → Option Nat → List Nat → Prop
  | stay {pc : AutoPc} {h : Option Nat} {made : List Nat} : Retry max pc h made pc h made
  | built {pc : AutoPc} {made : List Nat} (hpc : pc = .parked ∨ pc = .off) :
      Retry max .off none made pc none made
  | wake {pc : AutoPc} {h : Option Nat} {made : List Nat}
      (hpc : pc = .exited ∨ pc = .backoff 1 ∨ pc = .parked) : Retry max .parked h made pc h []
  | begin {n : Nat} {h : Option Nat} {made : List Nat} :
      Retry max (.backoff n) h made (.attempting n) h made
  | acquired {n : Nat} {made : List Nat} :
      Retry max (.attempting n) none made (.attempting n) (some n) (made ++ [n])
  | connected {n : Nat} {made : List Nat} :
      Retry max (.attempting n) none made .parked none (made ++ [n])
  | refused {n : Nat} {made : List Nat} :
      Retry max (.attempting n) none made (failedAt max n) none (made ++ [n])
  | failed {n : Nat} {pc : AutoPc} {made : List Nat} :
      Retry max pc (some n) made (failedAt max n) none made
  | succeeded {n : Nat} {pc : AutoPc} {made : List Nat} :
      Retry max pc (some n) made .parked none made

section Steps

variable {made : List Nat} {f g : Reconnect}

theorem holder_of_some (h : s.reconnecting = some f) :
    s.holder = if f.caller = .auto then some f.attempt else none := by
  rw [holder, h, Option.bind_some]

theorem holder_of_none (h : s.reconnecting = none) : s.holder = none := by
  rw [holder, h]
  rfl

/-- The call goes on with the same attempt. -/
theorem retry_keep (hf : s.reconnecting = some f) (hg : t.reconnecting = some g)
    (hcaller : g.caller = f.caller) (hattempt : g.attempt = f.attempt) (hauto : t.auto = s.auto) :
    Retry cfg.maxReconnectAttempts s.auto s.holder made t.auto t.holder made := by
  rw [holder_of_some hg, holder_of_some hf, hcaller, hattempt, hauto]
  exact .stay

theorem retry_returnErr (hf : s.reconnecting = some f) :
    Retry cfg.maxReconnectAttempts s.auto s.holder made (s.returnErr cfg f.caller f.attempt).auto
      (s.returnErr cfg f.caller f.attempt).holder made := by
  rw [holder_of_none (reconnecting_returnErr s f.caller f.attempt), holder_of_some hf]
  cases f.caller with
  | manual => exact .stay
  | auto => exact .failed

theorem retry_returnOk (hf : s.reconnecting = some f) :
    Retry cfg.maxReconnectAttempts s.auto s.holder made (s.publishConnected f).auto
      (s.publishConnected f).holder made := by
  rw [@holder_of_none (s.publishConnected f) rfl, holder_of_some hf]
  simp only [Lifecycle.publishConnected, Lifecycle.returnOk]
  cases f.caller with
  | manual => exact .stay
  | auto => exact .succeeded

theorem holder_takeNext (s : Lifecycle) (who : ShutdownCaller) :
    (s.takeNext who).holder = s.holder := by
  simp only [holder, Lifecycle.takeNext]
  split
  · cases s.reconnecting <;> rfl
  · rfl

/-- The lock is acquired by a reconnect of the user. -/
theorem retry_manual (h : s.reconnecting = none) :
    Retry cfg.maxReconnectAttempts s.auto s.holder made (s.acquire cfg .manual 1).auto
      (s.acquire cfg .manual 1).holder made := by
  rw [holder_of_none h]
  unfold Lifecycle.acquire
  split_ifs
  · exact .stay
  · exact .stay
  · exact .stay

theorem retry_attempt {n : Nat} (ha : s.auto = .attempting n) (h : s.reconnecting = none) :
    Retry cfg.maxReconnectAttempts s.auto s.holder made (s.acquire cfg .auto n).auto
      (s.acquire cfg .auto n).holder (made ++ [n]) := by
  rw [holder_of_none h]
  unfold Lifecycle.acquire
  split_ifs
  · rw [ha]
    exact .refused
  · rw [ha]
    exact .connected
  · simp only [ha]
    exact .acquired

theorem retry_of_step (ht : Tasks s) (hs : Step cfg s a t) (made : List Nat) :
    Retry cfg.maxReconnectAttempts s.auto s.holder made t.auto t.holder
      (recordAttempt made s a t) := by
  cases hs with
  | builderDone h =>
      obtain ⟨hr, -, hauto, -⟩ := ht.building (by simp [h])
      rw [holder_of_none hr, @holder_of_none (s.builderDone cfg) hr, hauto]
      refine .built ?_
      simp only [Lifecycle.builderDone]
      split
      · exact .inl rfl
      · exact .inr rfl
  | lockHandles hl h =>
      simp only [Lifecycle.beginShutdown, holder_takeNext]
      exact .stay
  | awaitHandle hl h =>
      rw [holder_takeNext]
      exact .stay
  | reconnect hb h => exact retry_manual h
  | attempt ha h =>
      simp only [recordAttempt, ha]
      rw [← ha]
      exact retry_attempt ha h
  | tlsFailed h hpc => exact retry_returnErr h
  | connectFailed hw h hpc => exact retry_returnErr h
  | transportFailed hw h hpc => exact retry_returnErr h
  | publishConnected h hpc => exact retry_returnOk h
  | tlsConnected h hpc =>
      unfold Lifecycle.tlsConnected
      split
      · exact retry_returnErr h
      · exact retry_keep h rfl rfl rfl rfl
  | swapWriteTx h hpc => exact retry_keep h rfl rfl rfl rfl
  | arm h hpc => exact retry_keep h rfl rfl rfl rfl
  | clearAndSpawn h hpc => exact retry_keep h rfl rfl rfl rfl
  | install hl h hpc => exact retry_keep h rfl rfl rfl rfl
  | connectSent hw h hpc => exact retry_keep h rfl rfl rfl rfl
  | readTransport h hpc => exact retry_keep h rfl rfl rfl rfl
  | transportSent hw h hpc => exact retry_keep h rfl rfl rfl rfl
  | wake h hc =>
      rw [h]
      refine .wake ?_
      simp only [Lifecycle.wake]
      split
      · exact .inl rfl
      · split
        · exact .inr (.inl rfl)
        · exact .inr (.inr rfl)
  | beginAttempt h =>
      rw [h]
      exact .begin
  | _ => exact .stay

end Steps

/-! ## the attempt in progress -/

/-- An attempt in progress is the one the task is at. -/
def Holding (s : Lifecycle) : Prop := ∀ n, s.holder = some n → s.auto = .attempting n

theorem Retry.holding {max : Nat} {pc pc' : AutoPc} {h h' : Option Nat} {made made' : List Nat}
    (hr : Retry max pc h made pc' h' made') (hold : ∀ n, h = some n → pc = .attempting n) (n : Nat)
    (hn : h' = some n) : pc' = .attempting n := by
  cases hr with
  | stay => exact hold n hn
  | built hpc => cases hn
  | wake hpc => cases hold n hn
  | begin => cases hold n hn
  | acquired => rw [Option.some.inj hn]
  | connected => cases hn
  | refused => cases hn
  | failed => cases hn
  | succeeded => cases hn

theorem holding_of_run (h : (system cfg).Reachable s) : Holding s :=
  h.invariant_with (fun _ hx => tasks_of_run hx) (fun _ hn => nomatch hn)
    fun _ _ _ ht hi _ hs => (retry_of_step ht (step_cases hs) []).holding hi

theorem numbered_of_run (h : (system cfg).Reachable s) : Numbered cfg s :=
  h.invariant (I := Numbered cfg)
    ⟨by simp [system, start], by simp [system, start], by simp [system, start]⟩
    fun _ _ _ hi _ hs => hi.step (step_cases hs)

/-! ## the loop ends -/

/-- How much of the loop is still ahead at most. -/
def AutoPc.left (max : Nat) : AutoPc → Nat
  | .backoff n => 2 * (max - n) + 2
  | .attempting n => 2 * (max - n) + 1
  | _ => 0

/-- The task is out of the loop, or has less of it ahead. -/
def Shorter (max v : Nat) (pc : AutoPc) : Prop :=
  (pc = .parked ∨ pc = .exited) ∨ pc.Retrying ∧ AutoPc.left max pc < v

theorem shorter_failedAt {max n : Nat} (hn : n ≤ max) :
    Shorter max (AutoPc.left max (.attempting n)) (failedAt max n) := by
  unfold failedAt
  split
  · exact .inl (.inr rfl)
  · refine .inr ⟨trivial, ?_⟩
    simp only [AutoPc.left]
    omega

/-- A task in its backoff stays there or starts the attempt. -/
theorem backoff_step (hr : (system cfg).Reachable s) (hs : Step cfg s a t) {n : Nat}
    (h : s.auto = .backoff n) : t.auto = .backoff n ∨ t.auto = .attempting n := by
  have hretry := retry_of_step (tasks_of_run hr) hs []
  have hold := holding_of_run hr
  unfold Holding at hold
  rw [h] at hretry hold
  generalize s.holder = x at hretry hold
  generalize t.auto = pc at hretry ⊢
  generalize t.holder = y at hretry
  generalize recordAttempt [] s a t = made at hretry
  cases hretry with
  | stay => exact .inl rfl
  | begin => exact .inr rfl
  | failed => cases hold _ rfl
  | succeeded => cases hold _ rfl

/-- A task that waits for the lock with its attempt goes on waiting, gets it, or is
done with the attempt; one that has it keeps it, or is done. -/
theorem attempting_step (hr : (system cfg).Reachable s) (hs : Step cfg s a t) {n : Nat}
    (h : s.auto = .attempting n) :
    t.auto = .attempting n ∧ (t.holder = s.holder ∨ s.holder = none ∧ t.holder = some n) ∨
      Shorter cfg.maxReconnectAttempts (AutoPc.left cfg.maxReconnectAttempts s.auto) t.auto := by
  have hretry := retry_of_step (tasks_of_run hr) hs []
  have hold := holding_of_run hr
  have hn := ((numbered_of_run hr).counted n (.inr h)).2
  unfold Holding at hold
  rw [h] at hretry hold ⊢
  generalize s.holder = x at hretry hold ⊢
  generalize t.auto = pc at hretry ⊢
  generalize t.holder = y at hretry ⊢
  generalize recordAttempt [] s a t = made at hretry
  cases hretry with
  | stay => exact .inl ⟨rfl, .inl rfl⟩
  | acquired => exact .inl ⟨rfl, .inr ⟨rfl, rfl⟩⟩
  | connected => exact .inr (.inl (.inl rfl))
  | refused => exact .inr (shorter_failedAt hn)
  | @failed m pc =>
      obtain rfl := AutoPc.attempting.inj (hold m rfl)
      exact .inr (shorter_failedAt hn)
  | succeeded => exact .inr (.inl (.inl rfl))

/-- The reconnects end, by their handshakes and the room for their CONNECTs as well, and
the task is scheduled fairly: its timer goes off, and it is not passed over for ever at
the lock. -/
structure RetryFair (b : (system cfg).Behavior) : Prop where
  reconnect : ReconnectFair b
  backoff : b.WeaklyFair (· = .beginAttempt)
  attempt : b.StronglyFair (· = .attempt)

theorem backoff_goes_on (hfair : RetryFair b) (n : Nat) :
    b.LeadsTo (fun s => s.auto = .backoff n) fun s => s.auto = .attempting n := by
  refine Behavior.leadsTo_of_weaklyFair hfair.backoff (fun s a t hr h hs => ?_) (fun s _ h => ?_)
    fun s a t hr h ha hs => ?_
  · exact backoff_step hr (step_cases hs) h
  · exact enabled_of_step rfl (.beginAttempt h)
  · subst ha
    have hstep : Step cfg s .beginAttempt t := step_cases hs
    cases hstep with
    | beginAttempt h' =>
        obtain rfl := AutoPc.backoff.inj (h.symm.trans h')
        rfl

/-- An attempt gets the lock, and gives it back. -/
theorem attempt_ends (hfair : RetryFair b) (n : Nat) :
    b.LeadsTo (fun s => s.auto = .attempting n) fun s => Shorter cfg.maxReconnectAttempts
      (AutoPc.left cfg.maxReconnectAttempts (.attempting n)) s.auto := by
  have hfree (P : Lifecycle → Prop) : b.LeadsTo P fun s => s.reconnecting = none :=
    fun m _ => reconnect_lock_free hfair.reconnect m trivial
  have hheld : b.LeadsTo (fun s => s.auto = .attempting n ∧ s.holder = some n) fun s =>
      Shorter cfg.maxReconnectAttempts
        (AutoPc.left cfg.maxReconnectAttempts (.attempting n)) s.auto := by
    have hkeep (s : Lifecycle) (a : LifecycleAct) (t : Lifecycle) (hr : (system cfg).Reachable s)
        (h : s.auto = .attempting n ∧ s.holder = some n) (hs : (system cfg).step s a = some t) :
        (t.auto = .attempting n ∧ t.holder = some n) ∨ Shorter cfg.maxReconnectAttempts
          (AutoPc.left cfg.maxReconnectAttempts (.attempting n)) t.auto := by
      have hstep := attempting_step hr (step_cases hs) h.1
      rw [h.1, h.2] at hstep
      exact hstep.imp_left fun ⟨hauto, hsame⟩ =>
        ⟨hauto, hsame.resolve_right fun hnone => Option.some_ne_none n hnone.1⟩
    refine ((hfree _).keeping hkeep).trans (Behavior.leadsTo_of_imp fun s _ h => ?_)
    rcases h with hgoal | ⟨⟨-, hholder⟩, hnone⟩
    · exact hgoal
    · rw [holder, hnone] at hholder
      cases hholder
  refine Behavior.LeadsTo.or_else
    (R := fun s => s.auto = .attempting n ∧ s.holder = some n) ?_ hheld
  have hkeep (s : Lifecycle) (a : LifecycleAct) (t : Lifecycle) (hr : (system cfg).Reachable s)
      (h : s.auto = .attempting n) (hs : (system cfg).step s a = some t) :
      t.auto = .attempting n ∨ (Shorter cfg.maxReconnectAttempts
        (AutoPc.left cfg.maxReconnectAttempts (.attempting n)) t.auto ∨
          t.auto = .attempting n ∧ t.holder = some n) := by
    have hstep := attempting_step hr (step_cases hs) h
    rw [h] at hstep
    exact hstep.imp And.left .inl
  refine Behavior.leadsTo_of_stronglyFair hfair.attempt hkeep ?_ fun s a t hr h ha hs => ?_
  · refine ((hfree _).keeping hkeep).trans (Behavior.leadsTo_of_imp fun s _ h => ?_)
    rcases h with hgoal | ⟨hauto, hnone⟩
    · exact .inr hgoal
    · exact .inl (enabled_of_step rfl (.attempt hauto hnone))
  · subst ha
    have hstep : Step cfg s .attempt t := step_cases hs
    cases hstep with
    | attempt h' hnone =>
        obtain rfl := AutoPc.attempting.inj (h.symm.trans h')
        have hn := ((numbered_of_run hr).counted _ (.inr h)).2
        unfold Lifecycle.acquire
        split_ifs
        · exact .inl (shorter_failedAt hn)
        · exact .inl (.inl (.inl rfl))
        · exact .inr ⟨h, rfl⟩

/-- **The retries end**: under fair scheduling, and when every handshake comes to an end and
the write channel gets room for each CONNECT, the auto-reconnect task leaves its retry
loop; it is back at its wait for a change, or has given up. -/
theorem retries_end (hfair : RetryFair b) :
    b.LeadsTo (fun s => s.auto.Retrying) fun s => s.auto = .parked ∨ s.auto = .exited := by
  refine Behavior.leadsTo_of_rank
    (fun s => AutoPc.left cfg.maxReconnectAttempts s.auto) fun v n hn => ?_
  obtain ⟨hretrying, hv⟩ := hn
  cases hauto : (b.state n).auto with
  | off => rw [hauto] at hretrying; exact hretrying.elim
  | parked => rw [hauto] at hretrying; exact hretrying.elim
  | exited => rw [hauto] at hretrying; exact hretrying.elim
  | backoff k =>
      obtain ⟨m, hm, hattempt⟩ := backoff_goes_on hfair k n hauto
      refine ⟨m, hm, .inr ⟨by rw [hattempt]; trivial, ?_⟩⟩
      rw [← hv, hauto, hattempt]
      simp only [AutoPc.left]
      omega
  | attempting k =>
      obtain ⟨m, hm, hshorter⟩ := attempt_ends hfair k n hauto
      rw [← hauto, hv] at hshorter
      exact ⟨m, hm, hshorter⟩

/-- The connection is lost, and all three attempts fail in their handshakes. -/
def givingUpActs : List LifecycleAct :=
  [.builderSent, .builderDone, .fail 0 .writer none, .publishLoss 0 .writer, .wake, .beginAttempt,
    .attempt] ++ lostAndConnecting.drop 5 ++
  [.tlsFailed, .beginAttempt, .attempt, .lockHandles .reconnect, .tlsFailed, .beginAttempt,
    .attempt,
    .lockHandles .reconnect, .tlsFailed]

theorem retries_end_in_vain :
    ∃ s, ∃ h : (system autoCfg).exec (system autoCfg).init givingUpActs = some s,
      (Behavior.ofSchedule givingUpActs h).LeadsTo (fun s => s.auto.Retrying)
        fun s => s.auto = .parked ∨ s.auto = .exited := by
  refine ⟨_, rfl, retries_end ⟨reconnectFair_ofSchedule rfl rfl rfl, ?_, ?_⟩⟩
  · refine (Behavior.stronglyFair_ofSchedule ?_).weaklyFair
    rintro ⟨a, t, rfl, hs⟩
    cases hs
  · refine Behavior.stronglyFair_ofSchedule ?_
    rintro ⟨a, t, rfl, hs⟩
    cases hs

/-! ## the attempts in order -/

/-- The client and the attempts its task has made. -/
def retrySystem (cfg : ClientConfig) : TransitionSystem (Lifecycle × List Nat) LifecycleAct :=
  (system cfg).observe [] recordAttempt

/-- The attempts made, by where the task is. -/
def CountedBy (max : Nat) : AutoPc → Option Nat → Nat → Prop
  | .backoff n, _, k => k + 1 = n
  | .attempting n, none, k => k + 1 = n
  | .attempting n, some _, k => k = n
  | .exited, _, k => k = 0 ∨ k = max
  | _, _, _ => True

/-- The attempts made are 1, 2, 3, … -/
structure Counted (max : Nat) (pc : AutoPc) (h : Option Nat) (made : List Nat) : Prop where
  ordered : made = List.range' 1 made.length
  bounded : made.length ≤ max
  counted : CountedBy max pc h made.length

theorem countedBy_failedAt {max n : Nat} (h : Option Nat) : CountedBy max (failedAt max n) h n := by
  unfold failedAt
  split
  next hmax => exact .inr hmax
  next => rfl

theorem ordered_concat {made : List Nat} (h : made = List.range' 1 made.length) :
    made ++ [made.length + 1] = List.range' 1 (made ++ [made.length + 1]).length := by
  rw [List.length_append, List.length_singleton, List.range'_1_concat, ← h, Nat.add_comm 1]

theorem Retry.counted {max : Nat} {pc pc' : AutoPc} {h h' : Option Nat} {made made' : List Nat}
    (hr : Retry max pc h made pc' h' made') (hold : ∀ n, h = some n → pc = .attempting n)
    (hmax : ∀ n, pc = .attempting n → n ≤ max) (hc : Counted max pc h made) :
    Counted max pc' h' made' := by
  obtain ⟨ordered, bounded, counted⟩ := hc
  cases hr with
  | stay => exact ⟨ordered, bounded, counted⟩
  | built hpc =>
      obtain rfl | rfl := hpc
      · exact ⟨ordered, bounded, trivial⟩
      · exact ⟨ordered, bounded, trivial⟩
  | wake hpc =>
      refine ⟨rfl, Nat.zero_le _, ?_⟩
      obtain rfl | rfl | rfl := hpc
      · exact .inl rfl
      · rfl
      · trivial
  | begin =>
      cases h with
      | none => exact ⟨ordered, bounded, counted⟩
      | some n => cases hold n rfl
  | @acquired n made =>
      obtain rfl : made.length + 1 = n := counted
      refine ⟨ordered_concat ordered, ?_, ?_⟩
      · rw [List.length_append]
        exact hmax _ rfl
      · rw [List.length_append]
        rfl
  | @connected n made =>
      obtain rfl : made.length + 1 = n := counted
      refine ⟨ordered_concat ordered, ?_, trivial⟩
      rw [List.length_append]
      exact hmax _ rfl
  | @refused n made =>
      obtain rfl : made.length + 1 = n := counted
      refine ⟨ordered_concat ordered, ?_, ?_⟩
      · rw [List.length_append]
        exact hmax _ rfl
      · rw [List.length_append]
        exact countedBy_failedAt none
  | @failed n pc made =>
      obtain rfl := hold n rfl
      obtain rfl : made.length = n := counted
      exact ⟨ordered, bounded, countedBy_failedAt none⟩
  | succeeded => exact ⟨ordered, bounded, trivial⟩

theorem counted_start (max : Nat) : Counted max .off none [] := ⟨rfl, Nat.zero_le max, trivial⟩

variable {made : List Nat}

theorem counted_of_run (h : (retrySystem cfg).Reachable (s, made)) :
    Counted cfg.maxReconnectAttempts s.auto s.holder made := by
  refine h.invariant_observed (J := fun s => (system cfg).Reachable s)
    (I := fun s made => Counted cfg.maxReconnectAttempts s.auto s.holder made) (fun _ hx => hx)
    (counted_start _) fun s made a t hr hi _ hs => ?_
  exact (retry_of_step (tasks_of_run hr) (step_cases hs) made).counted (holding_of_run hr)
    (fun n hn => ((numbered_of_run hr).counted n (.inr hn)).2) hi

/-- **The attempts in order**: since its last wait for a change the auto-reconnect task has
made the attempts 1, 2, 3, …, none twice and none left out; it waits for the next one, or
makes the last of them; and it ends without an attempt, or behind the last one. -/
theorem attempts_in_order (h : (retrySystem cfg).Reachable (s, made)) :
    made = List.range' 1 made.length ∧ made.length ≤ cfg.maxReconnectAttempts ∧
      (∀ n, s.auto = .backoff n → n = made.length + 1) ∧
      (∀ n, s.auto = .attempting n → n = made.length + 1 ∨
        n = made.length ∧ ∃ f, s.reconnecting = some f ∧ f.caller = .auto ∧ f.attempt = n) ∧
      (s.auto = .exited → made = [] ∨ made.length = cfg.maxReconnectAttempts) := by
  obtain ⟨ordered, bounded, counted⟩ := counted_of_run h
  refine ⟨ordered, bounded, fun n hn => ?_, fun n hn => ?_, fun hexit => ?_⟩
  · rw [hn] at counted
    exact counted.symm
  · rw [hn] at counted
    cases hh : s.holder with
    | none =>
        rw [hh] at counted
        exact .inl counted.symm
    | some m =>
        rw [hh] at counted
        obtain ⟨f, hf, hattempt⟩ := Option.bind_eq_some_iff.1 hh
        have hreach : (system cfg).Reachable s := h.unobserved fun _ _ _ => trivial
        obtain ⟨hauto, hm⟩ := Option.ite_none_right_eq_some.1 hattempt
        obtain rfl := AutoPc.attempting.inj (hn.symm.trans (holding_of_run hreach m hh))
        exact .inr ⟨counted.symm, f, hf, hauto, Option.some.inj hm⟩
  · rw [hexit] at counted
    exact counted.imp_left List.eq_nil_of_length_eq_zero

theorem attempts_in_order_in_vain :
    ∃ s, (retrySystem autoCfg).exec (retrySystem autoCfg).init givingUpActs = some (s, [1, 2, 3]) ∧
      s.auto = .exited ∧ [1, 2, 3] = List.range' 1 3 ∧ ([1, 2, 3] = [] ∨ [1, 2, 3].length = 3) := by
  have hrun := reachable_of_exec (M := retrySystem autoCfg) givingUpActs rfl
  have h := @attempts_in_order autoCfg _ _ hrun
  exact ⟨_, rfl, rfl, h.1, h.2.2.2.2 rfl⟩

end Oxicast.Lifecycle
