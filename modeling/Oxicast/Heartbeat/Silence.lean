import Oxicast.Heartbeat.Replies

/-!
# Oxicast.Heartbeat.Silence

A peer that has fallen silent is noticed.

The heartbeat ticks, its PING may wait for room behind the messages of others, and only
then it looks at the clock.  As long as the writes finish the PING gets its place, so a
timeout that has been exceeded is reported, unless something is heard after all
(`silence_noticed`).
-/

namespace Oxicast.Link

open TransitionSystem

variable {serde : SerdeJson} {cfg : HeartbeatConfig} {s s' : Link} {a : LinkAct}

/-- The heartbeat makes its next step. -/
def Beats (a : LinkAct) : Prop := a = .tick ∨ a = .check

/-- The loss is flagged, or something has been heard, or the connection is torn down. -/
def Noticed (cfg : HeartbeatConfig) (s : Link) : Prop :=
  s.alive = false ∨ ¬ s.TimedOut cfg ∨ s.cancelled = true

/-- The peer has timed out, and nobody has noticed. -/
structure Unnoticed (cfg : HeartbeatConfig) (s : Link) : Prop where
  live : s.alive = true
  late : s.TimedOut cfg
  calm : s.cancelled = false

theorem noticed_or (cfg : HeartbeatConfig) (s : Link) : s.Noticed cfg ∨ s.Unnoticed cfg := by
  by_cases hlate : s.TimedOut cfg
  · cases halive : s.alive with
    | false => exact .inl (.inl halive)
    | true =>
        cases hc : s.cancelled with
        | true => exact .inl (.inr (.inr hc))
        | false => exact .inr ⟨halive, hlate, hc⟩
  · exact .inl (.inr (.inl hlate))

theorem Unnoticed.not_noticed (h : Unnoticed cfg s) : ¬ Noticed cfg s := by
  rintro (halive | hlate | hc)
  · rw [h.live] at halive
    cases halive
  · exact hlate h.late
  · rw [h.calm] at hc
    cases hc

/-! ## who has stopped -/

/-- A writer or a heartbeat that has stopped has flagged the loss, or was stopped. -/
def Accounted (s : Link) : Prop :=
  s.Closed ∨ s.heartbeat = .stopped → s.alive = false ∨ s.cancelled = true

theorem Accounted.keep (h : Accounted s) (hw : s'.Closed → s.Closed)
    (hh : s'.heartbeat = .stopped → s.heartbeat = .stopped ∨ s.Closed)
    (ha : s.alive = false → s'.alive = false)
    (hc : s.cancelled = true → s'.cancelled = true) : Accounted s' := by
  intro hgone
  have hgone' : s.Closed ∨ s.heartbeat = .stopped :=
    hgone.elim (fun hclosed => .inl (hw hclosed)) fun hstopped => (hh hstopped).symm
  exact (h hgone').imp ha hc

theorem Accounted.step (h : Accounted s) (hs : Step serde cfg s a s') : Accounted s' := by
  cases hs with
  | @inbound msg hr =>
      obtain ⟨router, queue, reader, heq, -⟩ := inbound_eq serde s msg
      rw [heq]
      exact h.keep id .inl id id
  | readFailed hr => exact fun _ => .inl rfl
  | tick hh =>
      unfold Link.tick check
      split_ifs with hclosed hroom hlate
      · exact h.keep id (fun _ => .inr hclosed) id id
      · exact fun _ => .inl rfl
      · exact h.keep id (by simp) id id
      · exact h.keep id (by simp) id id
  | check hh =>
      unfold Link.check
      split
      · exact fun _ => .inl rfl
      · exact h.keep id (by simp) id id
  | @take msg resumed queue hw hq =>
      obtain ⟨reader, heq⟩ := resume_eq { s with queue, writer := .writing msg } resumed
      rw [heq]
      refine h.keep (by simp [Closed]) ?_ id id
      change
        (if resumed = some .heartbeat then HeartbeatPc.checking else s.heartbeat) = .stopped → _
      split
      · simp
      · exact .inl
  | wrote hw => exact h.keep (by simp [Closed]) .inl id id
  | writeFailed hw => exact fun _ => .inl rfl
  | flagDead => exact fun _ => .inl rfl
  | cancel => exact fun _ => .inr rfl
  | stopReader hc => exact fun _ => .inr hc
  | stopWriter hc => exact fun _ => .inr hc
  | stopHeartbeat hc => exact fun _ => .inr hc
  | _ => exact h.keep id .inl id id

theorem accounted_of_reachable (h : (system serde cfg).Reachable s) : Accounted s :=
  h.invariant (I := Accounted) (by rintro (hclosed | hstopped) <;> contradiction)
    fun _ _ _ hi _ hs => hi.step (step_cases hs)

theorem queued_of_reachable (h : (system serde cfg).Reachable s) : Queued s :=
  h.invariant (I := Queued) (by intro hping; contradiction) fun _ _ _ hi _ hs =>
    hi.step (step_cases hs)

/-! ## the PING gets its place -/

/-- Messages to be written and taken until the PING that waits has its place. -/
def before (s : Link) : Nat :=
  2 * s.queue.waiting.findIdxNth (·.1 = .heartbeat) 0 + s.writer.message.elim 0 fun _ => 1

theorem before_send {who : Sender} {msg : CastMessage}
    (hwait : ∃ m, (Sender.heartbeat, m) ∈ s.queue.waiting)
    (hq : s'.queue = s.queue.send who msg) (hw : s'.writer = s.writer) : before s' = before s := by
  obtain ⟨m, hm⟩ := hwait
  have hfull : ¬ s.queue.Room := fun hroom => List.ne_nil_of_mem hm hroom.nobody_waits
  have hcount : 0 < s.queue.waiting.countP (·.1 = .heartbeat) :=
    List.countP_pos_iff.2 ⟨_, hm, by simp⟩
  rw [before, before, hq, hw, Backlog.waiting_send_of_full hfull, findIdxNth_append hcount]

theorem before_forget {who : Sender} (hne : who ≠ .heartbeat) (hq : s'.queue = s.queue.forget who)
    (hw : s'.writer = s.writer) : before s' ≤ before s := by
  have hle : (s.queue.waiting.filter (·.1 ≠ who)).findIdxNth (·.1 = .heartbeat) 0 ≤
      s.queue.waiting.findIdxNth (·.1 = .heartbeat) 0 := by
    refine findIdxNth_filter_le (l := []) fun x hx => ?_
    have heq : x.1 = .heartbeat := by simpa using hx
    rw [heq, decide_eq_true_eq]
    exact hne.symm
  have hwaiting : s'.queue.waiting = s.queue.waiting.filter (·.1 ≠ who) := by rw [hq]; rfl
  rw [before, before, hwaiting, hw]
  omega

theorem before_take {msg : CastMessage} {resumed : Option Sender}
    {queue : Backlog 64 CastMessage Sender}
    (hwait : ∃ m, (Sender.heartbeat, m) ∈ s.queue.waiting) (hrecv : s.writer = .receiving)
    (hr : s.queue.recv = some (msg, resumed, queue)) (hnot : resumed ≠ some .heartbeat)
    (hq : s'.queue = queue) (hw : s'.writer = .writing msg) : before s' < before s := by
  obtain ⟨m, hm⟩ := hwait
  obtain ⟨-, -, -, hwaiting⟩ := Backlog.recv_eq hr
  have hresumed := Backlog.resumed_eq hr
  cases hline : s.queue.waiting with
  | nil => rw [hline] at hm; cases hm
  | cons x rest =>
      rw [hline] at hwaiting hresumed
      have hx : decide (x.1 = .heartbeat) = false := by
        rw [decide_eq_false_iff_not]
        intro heq
        exact hnot (by rw [hresumed, List.head?_cons, Option.map_some, heq])
      have hplace : (x :: rest).findIdxNth (·.1 = .heartbeat) 0 = rest.findIdxNth
          (·.1 = .heartbeat) 0 + 1 :=
        List.findIdxNth_cons_of_neg hx
      rw [before, before, hq, hw, hwaiting, hrecv, hline, hplace]
      simp only [WriterPc.message, List.tail_cons, Option.elim_none, Option.elim_some]
      omega

/-! ## one step -/

/-- What a step does to a heartbeat that has not noticed. -/
inductive Beat (s : Link) (a : LinkAct) (s' : Link) : Prop
  | same (h : s'.heartbeat = s.heartbeat) (hnot : ¬ Beats a)
      (hq : s.heartbeat = .pinging → before s' ≤ before s ∧ (Writes a → before s' < before s))
  | ping (h : s.heartbeat = .ticking) (h' : s'.heartbeat = .pinging)
  | placed (hnot : ¬ Beats a) (h' : s'.heartbeat = .checking)

/-- While nobody has noticed, the writer and the heartbeat are there. -/
theorem Unnoticed.running (h : Unnoticed cfg s) (hacc : Accounted s) :
    ¬ s.Closed ∧ s.heartbeat ≠ .stopped := by
  have hnot (hgone : s.Closed ∨ s.heartbeat = .stopped) : False :=
    h.not_noticed ((hacc hgone).imp_right .inr)
  exact ⟨fun hclosed => hnot (.inl hclosed), fun hstopped => hnot (.inr hstopped)⟩

theorem Unnoticed.step (h : Unnoticed cfg s) (hacc : Accounted s) (hq : Queued s)
    (hs : Step serde cfg s a s') : Noticed cfg s' ∨ Beat s a s' := by
  have hsame (hh : s'.heartbeat = s.heartbeat) (hnot : ¬ Beats a) (hwrites : ¬ Writes a)
      (hle : s.heartbeat = .pinging → before s' ≤ before s) : Noticed cfg s' ∨ Beat s a s' :=
    .inr (.same hh hnot fun hping => ⟨hle hping, fun hw => absurd hw hwrites⟩)
  have hfall (hh : s'.heartbeat = s.heartbeat) (hnot : ¬ Beats a)
      (hlt : s.heartbeat = .pinging → before s' < before s) : Noticed cfg s' ∨ Beat s a s' :=
    .inr (.same hh hnot fun hping => ⟨Nat.le_of_lt (hlt hping), fun _ => hlt hping⟩)
  cases hs with
  | @inbound msg hr =>
      obtain ⟨router, queue, reader, heq, -⟩ := inbound_eq serde s msg
      refine .inl (.inr (.inl fun hlate => ?_))
      rw [heq] at hlate
      change cfg.timeout < s.now - s.now at hlate
      omega
  | readFailed hr => exact .inl (.inl rfl)
  | tick hh =>
      unfold Link.tick
      split_ifs with hclosed hroom
      · exact absurd hclosed (h.running hacc).1
      · refine .inl (.inl ?_)
        rw [check, if_pos]
        exact h.late
      · exact .inr (.ping hh rfl)
  | check hh =>
      refine .inl (.inl ?_)
      rw [check, if_pos h.late]
  | @take msg resumed queue hw hr =>
      obtain ⟨reader, heq⟩ := resume_eq { s with queue, writer := .writing msg } resumed
      rw [heq] at hfall ⊢
      by_cases hresumed : resumed = some .heartbeat
      · exact .inr (.placed (by simp [Beats]) (if_pos hresumed))
      · exact hfall (if_neg hresumed) (by simp [Beats]) fun hping =>
          before_take (hq hping).2 hw hr hresumed rfl rfl
  | wrote hw =>
      refine hfall rfl (by simp [Beats]) fun _ => ?_
      rw [before, before, hw]
      exact Nat.lt_succ_self _
  | writeFailed hw => exact .inl (.inl rfl)
  | flagDead => exact .inl (.inl rfl)
  | cancel => exact .inl (.inr (.inr rfl))
  | stopReader hc => exact .inl (.inr (.inr hc))
  | stopWriter hc => exact .inl (.inr (.inr hc))
  | stopHeartbeat hc => exact .inl (.inr (.inr hc))
  | send ho =>
      exact hsame rfl (by simp [Beats]) (by simp [Writes]) fun hping =>
        Nat.le_of_eq (before_send (hq hping).2 rfl rfl)
  | giveUp =>
      exact hsame rfl (by simp [Beats]) (by simp [Writes]) fun _ => before_forget (by simp) rfl rfl
  | _ => exact hsame rfl (by simp [Beats]) (by simp [Writes]) fun _ => Nat.le_refl _

theorem Unnoticed.step_of_reachable (h : Unnoticed cfg s) (hr : (system serde cfg).Reachable s)
    (hs : s.step serde cfg a = some s') : Noticed cfg s' ∨ Beat s a s' :=
  h.step (accounted_of_reachable hr) (queued_of_reachable hr) (step_cases hs)

/-! ## the round of the heartbeat -/

/-- The heartbeat of a peer that has fallen silent stands at `pc`. -/
def Stands (cfg : HeartbeatConfig) (pc : HeartbeatPc) (s : Link) : Prop :=
  s.Unnoticed cfg ∧ s.heartbeat = pc

theorem noticed_or_stands {pc : HeartbeatPc} (h : s.heartbeat = pc) :
    Noticed cfg s ∨ Stands cfg pc s :=
  (noticed_or cfg s).imp_right fun hu => ⟨hu, h⟩

variable {b : (system serde cfg).Behavior}

theorem checking_notices (hfair : b.WeaklyFair Beats) :
    b.LeadsTo (Stands cfg .checking) (Noticed cfg) := by
  refine Behavior.leadsTo_of_weaklyFair hfair ?_ ?_ ?_
  · rintro s a t hr ⟨hu, hpc⟩ hs
    rcases hu.step_of_reachable hr hs with hnoticed | ⟨hh, -, -⟩ | ⟨hh, -⟩ | ⟨-, hh⟩
    · exact .inr hnoticed
    · exact (noticed_or_stands (hh.trans hpc)).symm
    · rw [hpc] at hh
      cases hh
    · exact (noticed_or_stands hh).symm
  · rintro s hr ⟨hu, hpc⟩
    exact ⟨.check, s.check cfg, .inr rfl, if_pos hpc⟩
  · rintro s a t hr ⟨hu, hpc⟩ ha hs
    rcases hu.step_of_reachable hr hs with hnoticed | ⟨-, hnot, -⟩ | ⟨hh, -⟩ | ⟨hnot, -⟩
    · exact hnoticed
    · exact absurd ha hnot
    · rw [hpc] at hh
      cases hh
    · exact absurd ha hnot

/-- A PING that waits waits behind a full queue, which the writer empties. -/
theorem writes_enabled_of_pinging (hr : (system serde cfg).Reachable s)
    (hpc : s.heartbeat = .pinging) :
    (system serde cfg).Enabled Writes s := by
  obtain ⟨hopen, hfull⟩ := full_of_pinging hr hpc
  cases hw : s.writer with
  | stopped => exact absurd hw hopen
  | writing msg =>
      exact ⟨.wrote, { s with writer := .receiving }, .inr rfl, by simp [system, Link.step, hw]⟩
  | receiving =>
      cases hq : s.queue.recv with
      | none =>
          rw [Backlog.buffer_of_recv_none hq] at hfull
          cases hfull
      | some x =>
          have htake : (s.step serde cfg .take).isSome := by simp [Link.step, hw, hq]
          obtain ⟨s', hs'⟩ := Option.isSome_iff_exists.1 htake
          exact ⟨.take, s', .inl rfl, hs'⟩

theorem pinging_placed (hfair : b.WeaklyFair Writes) :
    b.LeadsTo (Stands cfg .pinging) fun s => Noticed cfg s ∨ Stands cfg .checking s := by
  refine Behavior.leadsTo_of_falling before hfair ?_ ?_ ?_
  · rintro s a t hr ⟨hu, hpc⟩ hs
    rcases hu.step_of_reachable hr hs with hnoticed | ⟨hh, -, hq⟩ | ⟨hh, -⟩ | ⟨-, hh⟩
    · exact .inl (.inl hnoticed)
    · have hor : Noticed cfg t ∨ Stands cfg .pinging t := noticed_or_stands (hh.trans hpc)
      exact hor.imp .inl fun hstands => ⟨hstands, (hq hpc).1⟩
    · rw [hpc] at hh
      cases hh
    · exact .inl (noticed_or_stands hh)
  · exact fun s hr hstands => writes_enabled_of_pinging hr hstands.2
  · rintro s a t hr ⟨hu, hpc⟩ ha hs ⟨hu', hpc'⟩
    rcases hu.step_of_reachable hr hs with hnoticed | ⟨-, -, hq⟩ | ⟨hh, -⟩ | ⟨-, hh⟩
    · exact absurd hnoticed hu'.not_noticed
    · exact (hq hpc).2 ha
    · rw [hpc] at hh
      cases hh
    · rw [hpc'] at hh
      cases hh

theorem ticking_goes_on (hfair : b.WeaklyFair Beats) :
    b.LeadsTo (Stands cfg .ticking) fun s =>
      (Noticed cfg s ∨ Stands cfg .checking s) ∨ Stands cfg .pinging s := by
  refine Behavior.leadsTo_of_weaklyFair hfair ?_ ?_ ?_
  · rintro s a t hr ⟨hu, hpc⟩ hs
    rcases hu.step_of_reachable hr hs with hnoticed | ⟨hh, -, -⟩ | ⟨-, hh⟩ | ⟨-, hh⟩
    · exact .inr (.inl (.inl hnoticed))
    · exact (noticed_or_stands (hh.trans hpc)).symm.imp_right fun hnoticed => .inl (.inl hnoticed)
    · exact .inr ((noticed_or_stands hh).imp_left .inl)
    · exact .inr (.inl (noticed_or_stands hh))
  · rintro s hr ⟨hu, hpc⟩
    exact ⟨.tick, s.tick serde cfg, .inl rfl, if_pos hpc⟩
  · rintro s a t hr ⟨hu, hpc⟩ ha hs
    rcases hu.step_of_reachable hr hs with hnoticed | ⟨-, hnot, -⟩ | ⟨-, hh⟩ | ⟨hnot, -⟩
    · exact .inl (.inl hnoticed)
    · exact absurd ha hnot
    · exact (noticed_or_stands hh).imp_left .inl
    · exact absurd ha hnot

/-- **Silence is noticed**: when the writer and the heartbeat are scheduled fairly, a
timeout that is exceeded is flagged, or something is heard, or the connection is torn
down. -/
theorem silence_noticed (hwrites : b.WeaklyFair Writes) (hbeats : b.WeaklyFair Beats) :
    b.LeadsTo (TimedOut cfg) fun s => s.alive = false ∨ ¬ s.TimedOut cfg ∨ s.cancelled = true := by
  have hchecking := checking_notices hbeats
  have hpinging := (pinging_placed hwrites).or_else hchecking
  have hticking := ((ticking_goes_on hbeats).or_else (pinging_placed hwrites)).or_else hchecking
  intro n hlate
  rcases noticed_or cfg (b.state n) with hnoticed | hu
  · exact ⟨n, Nat.le_refl n, hnoticed⟩
  · cases hpc : (b.state n).heartbeat with
    | ticking => exact hticking n ⟨hu, hpc⟩
    | pinging => exact hpinging n ⟨hu, hpc⟩
    | checking => exact hchecking n ⟨hu, hpc⟩
    | stopped => exact absurd hpc (hu.running (accounted_of_reachable (b.reachable n))).2

/-- The peer says nothing for 20 seconds; the next tick sends a PING and reports it. -/
def silentActs : List LinkAct := [.elapse 20000, .tick, .take, .wrote]

set_option maxRecDepth 8000 in
theorem silence_noticed_tick :
    ∃ s, ∃ h : (system (.ofTexts []) heartbeatCfg).exec (start heartbeatCfg) silentActs = some s,
      s.alive = false ∧ (Behavior.ofSchedule silentActs h).LeadsTo (TimedOut heartbeatCfg) fun s =>
        s.alive = false ∨ ¬ s.TimedOut heartbeatCfg ∨ s.cancelled = true := by
  refine ⟨_, rfl, rfl, silence_noticed (Behavior.stronglyFair_ofSchedule ?_).weaklyFair
    (Behavior.stronglyFair_ofSchedule ?_).weaklyFair⟩
  · rintro ⟨a, y, ha, hs⟩
    obtain rfl | rfl := ha
    · cases hs
    · cases hs
  · rintro ⟨a, y, ha, hs⟩
    obtain rfl | rfl := ha
    · cases hs
    · cases hs

end Oxicast.Link
