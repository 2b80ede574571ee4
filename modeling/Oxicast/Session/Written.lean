import Oxicast.Lifecycle.Returns
import Oxicast.Session.Stream

/-!
# Oxicast.Session.Written

Accepted messages do not stay in a channel for ever.

A channel that is open has a writer, or a reconnect that is about to spawn it.  Under
fair scheduling the writer takes and writes what is ahead of a message, and then the
message itself, or it ends and the channel is closed with it (`accepted_written`).
-/

namespace Oxicast.Lifecycle

open TransitionSystem Session

variable {cfg : ClientConfig} {s t : Lifecycle} {a : LifecycleAct} {c : Nat}

/-- Only the reader clears the tracker at its end. -/
def ReaderClears (s : Lifecycle) : Prop := ∀ c k, k ≠ .reader → s.task c k ≠ .clearing

theorem ReaderClears.step (h : ReaderClears s) (hs : Step cfg s a t) : ReaderClears t := by
  have hset {x : Nat} {k' : TaskKind} {state : TaskState}
      (hstate : k' ≠ .reader → state ≠ .clearing)
      (c : Nat) (k : TaskKind) (hk : k ≠ .reader) : setTask s.task x k' state c k ≠ .clearing := by
    rw [setTask]
    split
    next heq =>
      obtain ⟨-, rfl⟩ := heq
      exact hstate hk
    next => exact h c k hk
  have hkeep (heq : t.task = s.task) : ReaderClears t := fun c k hk => heq ▸ h c k hk
  cases hs with
  | fail hk => exact hset fun _ => by simp
  | @publishLoss x k' hk => exact hset fun hne => by simp [hne]
  | readerCleared hk => exact hset fun _ => by simp
  | @noticeCancel x k' hc hk => exact hset fun hne => by simp [hne]
  | noticeAbort hab hk => exact hset fun _ => by simp
  | heartbeatQuit hk hw => exact hset fun _ => by simp
  | reconnect hb hr => exact hkeep (task_acquire s .manual 1).1
  | attempt ha hr => exact hkeep (task_acquire s .auto _).1
  | tlsFailed hf hpc => exact hkeep (task_returnErr s _ _).1
  | tlsConnected hf hpc => exact hkeep (task_tlsConnected s _)
  | clearAndSpawn hf hpc =>
      intro c k hk
      simp only [Lifecycle.clearAndSpawn]
      split
      · simp
      · exact h c k hk
  | connectFailed hw hf hpc => exact hkeep (task_returnErr s _ _).1
  | transportFailed hw hf hpc => exact hkeep (task_returnErr s _ _).1
  | _ => exact hkeep rfl

theorem readerClears_of_run (h : (system cfg).Reachable s) : ReaderClears s :=
  h.invariant (fun c k _ => by simp only [system, start]; split <;> simp)
    fun _ _ _ hi _ hs => hi.step (step_cases hs)

/-- A writer that runs on has been running. -/
theorem writer_step (ht : Tasks s) (hs : Step cfg s a t) (hrun : s.task c .writer ≠ .stopped)
    (ho : Open t c) : t.task c .writer ≠ .stopped ∧
      (t.task c .writer = .running → s.task c .writer = .running) := by
  have hfresh : s.stage ≠ .fresh := fun h => hrun (ht.stopped_of_fresh h c .writer)
  have hcur := (ht.owned c .writer hrun).1
  rw [open_iff_stage] at ho
  cases passage_of_step ht hs with
  | keep hq hst hw =>
      rw [hst] at ho
      exact ⟨ho.resolve_right fun h => hfresh h.2, hw.running c .writer⟩
  | swapWriteTx hst hst' hw htask hd => rw [htask]; exact ⟨hrun, id⟩
  | clearAndSpawn hst hst' hw htask hd => exact absurd hst hfresh
  | builderSent hst hst' hw h0 =>
      rw [hst'] at ho
      exact ⟨ho.resolve_right fun h => (by simp at h), hw.running c .writer⟩
  | connectSent hst hst' hw =>
      rw [hst'] at ho
      exact ⟨ho.resolve_right fun h => (by simp at h), hw.running c .writer⟩
  | @readTransport tid hst hst' hw =>
      rw [hst'] at ho
      exact ⟨ho.resolve_right fun h => (by cases tid <;> simp at h), hw.running c .writer⟩
  | transportSent hst hst' hw hlive =>
      rw [hst'] at ho
      exact ⟨ho.resolve_right fun h => (by simp at h), hw.running c .writer⟩
  | giveUp hq hst' hw hgone => exact absurd (hcur ▸ hgone) hrun

/-- A writer on its way to its end, and a reconnect on its way to the spawn of one. -/
def BringsWriter (c : Nat) (a : LifecycleAct) : Prop :=
  a = .publishLoss c .writer ∨ (∃ reason, a = .fail c .writer reason) ∨ a = .arm ∨
  a = .clearAndSpawn

theorem BringsWriter.of_step (h : BringsWriter c a) (hs : Step cfg s a t) :
    s.task c .writer = .failing ∧ t.task c .writer = .stopped ∨
      s.task c .writer = .running ∧ t.task c .writer = .failing ∨ s.stage = .fresh ∧ Moves a := by
  rcases h with rfl | ⟨reason, rfl⟩ | rfl | rfl
  · cases hs with
    | publishLoss hk => exact .inl ⟨hk, by simp [Lifecycle.publishLoss, setTask]⟩
  · cases hs with
    | fail hk => exact .inr (.inl ⟨hk, by simp [Lifecycle.fail, setTask]⟩)
  · cases hs with
    | arm hf hpc => exact .inr (.inr ⟨by rw [stage_of_some hf, hpc]; rfl, trivial⟩)
  · cases hs with
    | clearAndSpawn hf hpc => exact .inr (.inr ⟨by rw [stage_of_some hf, hpc]; rfl, trivial⟩)

end Oxicast.Lifecycle

namespace Oxicast.Flushing

open TransitionSystem Session

variable {prost : Prost CastMessage} {serde : SerdeJson} {cfg : ClientConfig} {x x' : Flushing}
  {s : Session} {a : FlushAct} {c k : Nat} {msg : CastMessage}

/-- The writer of connection `c` goes on or ends; or the reconnect that has its channel
goes on to spawn it. -/
def Brings (c : Nat) : FlushAct → Prop
  | .take d | .wrote d => d = c
  | .session (.life b) => Lifecycle.BringsWriter c b
  | _ => False

/-- The `k`-th message of connection `c` is accepted, but not written. -/
structure Unwritten (c k : Nat) (msg : CastMessage) (x : Flushing) : Prop where
  accepted : (x.session.sent c)[k]? = some msg
  behind : (x.written c).length ≤ k
  live : Open x.session.life c

/-- It is written, or the channel is closed. -/
def Settled (c k : Nat) (msg : CastMessage) (x : Flushing) : Prop :=
  (x.written c)[k]? = some msg ∨ ¬ Open x.session.life c

theorem settled_or_unwritten (h : Streaming prost x) (hacc : (x.session.sent c)[k]? = some msg) :
    Settled c k msg x ∨ Unwritten c k msg x := by
  by_cases hlive : Open x.session.life c
  · rcases Nat.lt_or_ge k (x.written c).length with hk | hk
    · have hfront := h.front c
      rw [List.append_assoc] at hfront
      obtain ⟨rest, hrest⟩ := (List.prefix_append _ _).trans hfront
      rw [← hrest, List.getElem?_append_left hk] at hacc
      exact .inl (.inl hacc)
    · exact .inr ⟨hacc, hk, hlive⟩
  · exact .inl (.inr hlive)

/-- What is accepted stays so, at its place. -/
theorem accepted_of_step (hs : Step prost serde cfg x a x')
    (hacc : (x.session.sent c)[k]? = some msg) :
    (x'.session.sent c)[k]? = some msg := by
  cases hs with
  | session hready hs =>
      obtain ⟨new, hnew, -⟩ := sent_of_step hs c
      have hlt := (List.getElem?_eq_some_iff.1 hacc).1
      simp only [afterSession, hnew]
      rw [List.getElem?_append_left hlt, hacc]
  | take hq hw hrun => exact hacc
  | wrote hw hrun => exact hacc

/-! ## how far the writer is -/

/-- Messages still to be taken and written. -/
def todo (c k : Nat) (x : Flushing) : Nat :=
  2 * (k + 1 - (x.written c).length) + (x.writing c).elim 1 fun _ => 0

/-- The same, with the steps before the writer is spawned and after it has failed. -/
def remaining (c k : Nat) (x : Flushing) : Nat :=
  match x.session.life.task c .writer with
  | .stopped => todo c k x + 2 + x.session.life.left
  | .running => todo c k x + 2
  | _ => 1

theorem todo_afterSession (h : Streaming prost x) (hstop : s.life.task c .writer = .stopped →
      x.session.life.task c .writer = .stopped) : todo c k (x.afterSession s) = todo c k x := by
  simp only [todo, afterSession]
  split
  next hs => rw [h.idle c (hstop hs)]
  next => rfl

theorem remaining_take (m : CastMessage) (rest : List CastMessage) (hw : x.writing c = none)
    (hrun : x.session.life.task c .writer = .running) :
    remaining c k { x with
      queue := Function.update x.queue c rest
      writing := Function.update x.writing c (some m) } < remaining c k x := by
  simp [remaining, todo, hrun, hw]

theorem remaining_wrote (hu : Unwritten c k msg x) {m : CastMessage} (hw : x.writing c = some m)
    (hrun : x.session.life.task c .writer = .running) :
    remaining c k { x with
      writing := Function.update x.writing c none
      written := Function.update x.written c (x.written c ++ [m]) } < remaining c k x := by
  have hk := hu.behind
  simp [remaining, todo, hrun, hw]
  omega

theorem remaining_stopped (h : x.session.life.task c .writer = .stopped) :
    remaining c k x = todo c k x + 2 + x.session.life.left := by
  simp only [remaining, h]

theorem remaining_running (h : x.session.life.task c .writer = .running) :
    remaining c k x = todo c k x + 2 := by
  simp only [remaining, h]

theorem remaining_ended (hs : x.session.life.task c .writer ≠ .stopped)
    (hr : x.session.life.task c .writer ≠ .running) : remaining c k x = 1 := by
  unfold remaining
  split
  next h => exact absurd h hs
  next h => exact absurd h hr
  next => rfl

theorem remaining_le (h : x.session.life.task c .writer ≠ .stopped) :
    remaining c k x ≤ todo c k x + 2 := by
  by_cases hr : x.session.life.task c .writer = .running
  · exact Nat.le_of_eq (remaining_running hr)
  · rw [remaining_ended h hr]
    omega

theorem life_of_step {s s' : Session} {b : LifecycleAct}
    (hs : Session.Step serde cfg s (.life b) s') :
    Lifecycle.Step cfg s.life b s'.life := by
  cases hs with
  | life hb hl => exact hl
  | lifeReadTransport hl => exact hl

/-- A reconnect that has the channel is closer to the spawn, or where it was. -/
theorem remaining_spawning (h : Streaming prost x) {b : SessionAct}
    (hs : Session.Step serde cfg x.session b s)
    (hstop : x.session.life.task c .writer = .stopped) (ho : Open x.session.life c) :
    remaining c k (x.afterSession s) ≤ remaining c k x ∧
      (Brings c (.session b) → remaining c k (x.afterSession s) < remaining c k x) := by
  obtain ⟨hc, hpc⟩ := ho.resolve_left (not_not_intro hstop)
  have hsome : ∃ f, x.session.life.reconnecting = some f := by
    cases hf : x.session.life.reconnecting with
    | none => rw [hf] at hpc; rcases hpc with hpc | hpc <;> cases hpc
    | some f => exact ⟨f, rfl⟩
  obtain ⟨f, hf⟩ := hsome
  have hpos : 0 < x.session.life.left := Lifecycle.left_of_some hf ▸ Lifecycle.left_pos f.pc
  have htodo : todo c k (x.afterSession s) = todo c k x := todo_afterSession h fun _ => hstop
  have hleft : s.life.left = x.session.life.left ∧ ¬ Brings c (.session b) ∨
      s.life.left < x.session.life.left := by
    have hsame (h : s.life.reconnecting = x.session.life.reconnecting) :
        s.life.left = x.session.life.left := by
      rw [Lifecycle.left, Lifecycle.left, h]
    cases b with
    | life b =>
        have hl := life_of_step hs
        refine (Lifecycle.reconnecting_step h.tasks hl hf).imp_left fun hstay => ?_
        obtain ⟨heq, hmoves⟩ := hstay
        refine ⟨hsame (heq.trans hf.symm), fun hbrings => ?_⟩
        obtain ⟨hfail, -⟩ | ⟨hrun, -⟩ | ⟨-, hmove⟩ := Lifecycle.BringsWriter.of_step hbrings hl
        · rw [hstop] at hfail
          cases hfail
        · rw [hstop] at hrun
          cases hrun
        · exact hmoves hmove
    | _ =>
        obtain ⟨b, hb, -⟩ | ⟨-, -, heq⟩ := life_or_same hs
        · cases hb
        · exact .inl ⟨hsame heq, id⟩
  rw [remaining_stopped hstop]
  by_cases hstop' : s.life.task c .writer = .stopped
  · rw [remaining_stopped (x := x.afterSession s) hstop', htodo]
    change _ + s.life.left ≤ _ ∧ (_ → _ + s.life.left < _)
    rcases hleft with ⟨heq, hnot⟩ | hlt
    · exact ⟨by omega, fun hb => absurd hb hnot⟩
    · exact ⟨by omega, fun _ => by omega⟩
  · have hle := remaining_le (x := x.afterSession s) (k := k) hstop'
    rw [htodo] at hle
    exact ⟨by omega, fun _ => by omega⟩

/-- A writer that has been spawned runs on, or fails. -/
theorem remaining_spawned (h : Streaming prost x) {b : SessionAct}
    (hs : Session.Step serde cfg x.session b s)
    (hrun : x.session.life.task c .writer ≠ .stopped) (ho : Open s.life c) :
    remaining c k (x.afterSession s) ≤ remaining c k x ∧
      (Brings c (.session b) → remaining c k (x.afterSession s) < remaining c k x) := by
  have hfresh : x.session.life.stage ≠ .fresh :=
    fun h' => hrun (h.tasks.stopped_of_fresh h' c .writer)
  have hkeep : s.life.task c .writer ≠ .stopped ∧
      (s.life.task c .writer = .running → x.session.life.task c .writer = .running) := by
    rcases life_or_same hs with ⟨b, rfl, hl⟩ | ⟨htask, -, -⟩
    · exact Lifecycle.writer_step h.tasks hl hrun ho
    · rw [htask]
      exact ⟨hrun, id⟩
  obtain ⟨hrun', hback⟩ := hkeep
  have htodo : todo c k (x.afterSession s) = todo c k x :=
    todo_afterSession h fun hstop => absurd hstop hrun'
  have hown (hbrings : Brings c (.session b)) :
      x.session.life.task c .writer = .running ∧ s.life.task c .writer = .failing := by
    cases b with
    | life b =>
        obtain ⟨-, hstop⟩ | hfail | ⟨hst, -⟩ :=
          Lifecycle.BringsWriter.of_step hbrings (life_of_step hs)
        · exact absurd hstop hrun'
        · exact hfail
        · exact absurd hst hfresh
    | _ => exact hbrings.elim
  by_cases hgo : s.life.task c .writer = .running
  · rw [remaining_running (x := x.afterSession s) hgo, remaining_running (hback hgo), htodo]
    refine ⟨Nat.le_refl _, fun hbrings => ?_⟩
    rw [(hown hbrings).2] at hgo
    cases hgo
  · rw [remaining_ended (x := x.afterSession s) hrun' hgo]
    by_cases hwas : x.session.life.task c .writer = .running
    · rw [remaining_running hwas]
      exact ⟨by omega, fun _ => by omega⟩
    · rw [remaining_ended hrun hwas]
      exact ⟨Nat.le_refl _, fun hbrings => absurd (hown hbrings).1 hwas⟩

/-- No step takes the writer away from a message, and its own steps bring it on. -/
theorem remaining_step (h : Streaming prost x) (hu : Unwritten c k msg x)
    (hu' : Unwritten c k msg x')
    (hs : Step prost serde cfg x a x') :
    remaining c k x' ≤ remaining c k x ∧ (Brings c a → remaining c k x' < remaining c k x) := by
  cases hs with
  | session hready hs =>
      by_cases hstop : x.session.life.task c .writer = .stopped
      · exact remaining_spawning h hs hstop hu.live
      · exact remaining_spawned h hs hstop hu'.live
  | @take d m rest hq hw hrun =>
      by_cases hd : d = c
      · subst hd
        have hlt := remaining_take (k := k) m rest hw hrun
        exact ⟨Nat.le_of_lt hlt, fun _ => hlt⟩
      · have hne : c ≠ d := fun heq => hd heq.symm
        refine ⟨Nat.le_of_eq ?_, fun hbrings => absurd hbrings hd⟩
        simp [remaining, todo, hne]
  | @wrote d m hw hrun =>
      by_cases hd : d = c
      · subst hd
        have hlt := remaining_wrote hu hw hrun
        exact ⟨Nat.le_of_lt hlt, fun _ => hlt⟩
      · have hne : c ≠ d := fun heq => hd heq.symm
        refine ⟨Nat.le_of_eq ?_, fun hbrings => absurd hbrings hd⟩
        simp [remaining, todo, hne]

/-! ## what is enabled -/

theorem session_enabled {b : LifecycleAct} {l : Lifecycle} (hbrings : Lifecycle.BringsWriter c b)
    (hready : x.writerReady prost (.life b) = true) (hs : Lifecycle.Step cfg x.session.life b l) :
    (system prost serde cfg).Enabled (Brings c) x := by
  have hmap : x.session.step serde cfg (.life b) = some (x.session.afterLife serde b l) := by
    rcases hbrings with rfl | ⟨reason, rfl⟩ | rfl | rfl
    all_goals exact Option.map_eq_some_iff.2 ⟨l, hs.enabled, rfl⟩
  refine ⟨.session (.life b), x.afterSession (x.session.afterLife serde b l), hbrings, ?_⟩
  change (if x.writerReady prost (.life b) then
      (x.session.step serde cfg (.life b)).map x.afterSession
    else none) = _
  rw [if_pos hready, hmap]
  rfl

/-- Whatever an unwritten message waits for can go on. -/
theorem brings_enabled (h : Streaming prost x) (hclears : x.session.life.ReaderClears)
    (hu : Unwritten c k msg x) : (system prost serde cfg).Enabled (Brings c) x := by
  cases htask : x.session.life.task c .writer with
  | stopped =>
      obtain ⟨-, hpc⟩ := hu.live.resolve_left (not_not_intro htask)
      cases hf : x.session.life.reconnecting with
      | none => rw [hf] at hpc; rcases hpc with hpc | hpc <;> cases hpc
      | some f =>
          rw [hf] at hpc
          rcases hpc with hpc | hpc
          · exact session_enabled (.inr (.inr (.inl rfl))) rfl (.arm hf (Option.some.inj hpc))
          · exact session_enabled
              (.inr (.inr (.inr rfl))) rfl (.clearAndSpawn hf (Option.some.inj hpc))
  | failing => exact session_enabled (.inl rfl) rfl (.publishLoss htask)
  | clearing => exact absurd htask (hclears c .writer (by simp))
  | running =>
      cases hw : x.writing c with
      | none =>
          -- the message is in the channel
          have hwhole := h.whole c hu.live
          rw [hw, Option.toList_none, List.append_nil] at hwhole
          cases hq : x.queue c with
          | nil =>
              rw [hq, List.append_nil] at hwhole
              have hlt := (List.getElem?_eq_some_iff.1 hu.accepted).1
              have hbehind := hu.behind
              rw [hwhole] at hlt
              omega
          | cons m rest =>
              have htake : (x.step prost serde cfg (.take c)).isSome := by
                simp [step, hq, hw, htask]
              obtain ⟨x', hx'⟩ := Option.isSome_iff_exists.1 htake
              exact ⟨.take c, x', rfl, hx'⟩
      | some m =>
          by_cases hm : writes prost m = true
          · have hwrote : (x.step prost serde cfg (.wrote c)).isSome := by
              simp [step, hw, htask, hm]
            obtain ⟨x', hx'⟩ := Option.isSome_iff_exists.1 hwrote
            exact ⟨.wrote c, x', rfl, hx'⟩
          · refine session_enabled (.inr (.inl ⟨none, rfl⟩)) ?_ (.fail htask)
            simp [writerReady, hw, hm]

/-! ## accepted messages are written -/

theorem life_of_reachable (h : (system prost serde cfg).Reachable x) :
    (Lifecycle.system cfg).Reachable x.session.life := by
  have hsession : (Session.system serde cfg).Reachable x.session := by
    refine h.simulate (N := Session.system serde cfg) Flushing.session Any fun y a z _ hs => ?_
    have hs : y.step prost serde cfg a = some z := hs
    cases a with
    | session b =>
        simp only [step] at hs
        split at hs
        next hready =>
          obtain ⟨s, hsession, rfl⟩ := Option.map_eq_some_iff.1 hs
          exact .tail .refl trivial hsession
        next => cases hs
    | take d =>
        cases step_cases hs with
        | take hq hw hrun => exact .refl
    | wrote d =>
        cases step_cases hs with
        | wrote hw hrun => exact .refl
  exact life_run hsession

/-- **Accepted messages are written**: under fair scheduling every message a channel has
accepted is written, at its place, or the channel is closed. -/
theorem accepted_written {b : (system prost serde cfg).Behavior} (hfair : b.WeaklyFair (Brings c)) :
    b.LeadsTo (fun x => (x.session.sent c)[k]? = some msg)
      fun x => (x.written c)[k]? = some msg ∨ ¬ Open x.session.life c := by
  have hunwritten : b.LeadsTo (Unwritten c k msg) (Settled c k msg) := by
    refine Behavior.leadsTo_of_falling (remaining c k) hfair ?_ ?_ ?_
    · intro x a x' hr hu hs
      have hstream := (streaming_of_run hr).step hs
      rcases settled_or_unwritten hstream
        (accepted_of_step (step_cases hs) hu.accepted) with hset | hu'
      · exact .inl hset
      · exact .inr ⟨hu', (remaining_step (streaming_of_run hr) hu hu' (step_cases hs)).1⟩
    · intro x hr hu
      exact brings_enabled (streaming_of_run hr)
        (Lifecycle.readerClears_of_run (life_of_reachable hr)) hu
    · intro x a x' hr hu ha hs hu'
      exact (remaining_step (streaming_of_run hr) hu hu' (step_cases hs)).2 ha
  intro n hacc
  rcases settled_or_unwritten (streaming_of_run (b.reachable n)) hacc with hset | hu
  · exact ⟨n, Nat.le_refl n, hset⟩
  · exact hunwritten n hu

set_option maxRecDepth 16000 in
/-- The CLOSE of a client that is asked to disconnect, whose writer has written it. -/
theorem accepted_written_close :
    ∃ x, ∃ h : (system wireProst launchSerde Lifecycle.autoCfg).exec (start Lifecycle.autoCfg)
        (closeActs ++ [.take 0, .wrote 0]) = some x, ∃ msg, (x.session.sent 0)[1]? = some msg ∧
      (Behavior.ofSchedule (closeActs ++ [.take 0, .wrote 0]) h).LeadsTo
        (fun x => (x.session.sent 0)[1]? = some msg)
        fun x => (x.written 0)[1]? = some msg ∨ ¬ Open x.session.life 0 := by
  refine ⟨_, rfl, _, rfl, accepted_written (Behavior.stronglyFair_ofSchedule ?_).weaklyFair⟩
  rintro ⟨a, t, ha, hs⟩
  cases a with
  | session b =>
      cases b with
      | life b => rcases ha with rfl | ⟨reason, rfl⟩ | rfl | rfl <;> cases hs
      | _ => exact ha
  | take d => obtain rfl := ha; cases hs
  | wrote d => obtain rfl := ha; cases hs

end Oxicast.Flushing
