import Oxicast.Heartbeat

/-!
# Oxicast.Heartbeat.Detection

When a dead peer is detected.

A heartbeat that waits for room in the outbound queue waits behind 64 messages
(`full_of_pinging`), for as long as the writer is in its write.  A peer that goes
dead meanwhile is not noticed, so detection is a matter of time: a tick that finds
the timeout exceeded must find room, and a PING that waits must get its place
before the timeout is over.
-/

namespace Oxicast.Link

open TransitionSystem

variable {serde : SerdeJson} {cfg : HeartbeatConfig} {s s' : Link} {a : LinkAct}

/-! ## what a step can do -/

inductive Step (serde : SerdeJson) (cfg : HeartbeatConfig) (s : Link) : LinkAct → Link → Prop
  | elapse {d : Nat} : Step serde cfg s (.elapse d) { s with now := s.now + d }
  | inbound {msg : CastMessage} (h : s.reader = .reading) :
      Step serde cfg s (.inbound msg) (s.inbound serde msg)
  | readFailed {reason : Option String} (h : s.reader = .reading) :
      Step serde cfg s (.readFailed reason) (s.readFailed reason)
  | tick (h : s.heartbeat = .ticking) : Step serde cfg s .tick (s.tick serde cfg)
  | check (h : s.heartbeat = .checking) : Step serde cfg s .check (s.check cfg)
  | take {msg : CastMessage} {resumed : Option Sender} {queue : Backlog 64 CastMessage Sender}
      (h : s.writer = .receiving) (hq : s.queue.recv = some (msg, resumed, queue)) :
      Step serde cfg s .take ({ s with queue, writer := .writing msg }.resume resumed)
  | wrote {msg : CastMessage} (h : s.writer = .writing msg) :
      Step serde cfg s .wrote { s with writer := .receiving }
  | writeFailed {msg : CastMessage} (h : s.writer = .writing msg) :
      Step serde cfg s .writeFailed s.writeFailed
  | send {n : Nat} {msg : CastMessage} (h : ¬ s.Closed) :
      Step serde cfg s (.send n msg) { s with queue := s.queue.send (.user n) msg }
  | giveUp {n : Nat} : Step serde cfg s (.giveUp n) { s with queue := s.queue.forget (.user n) }
  | calls {router : Router} :
      Step serde cfg s (.calls router) { s with router := { router with outbound := [] } }
  | flagDead : Step serde cfg s .flagDead { s with alive := false }
  | cancel : Step serde cfg s .cancel { s with cancelled := true }
  | stopReader (h : s.cancelled = true) :
      Step serde cfg s .stopReader { s with reader := .stopped, queue := s.queue.forget .reader }
  | stopWriter (h : s.cancelled = true) : Step serde cfg s .stopWriter s.hangUp
  | stopHeartbeat (h : s.cancelled = true) :
      Step serde cfg s .stopHeartbeat
        { s with heartbeat := .stopped, queue := s.queue.forget .heartbeat }

theorem step_cases (h : s.step serde cfg a = some s') : Step serde cfg s a s' := by
  cases a with
  | elapse d => cases h; exact .elapse
  | inbound msg => obtain ⟨hr, rfl⟩ := of_if h; exact .inbound hr
  | readFailed reason => obtain ⟨hr, rfl⟩ := of_if h; exact .readFailed hr
  | tick => obtain ⟨hh, rfl⟩ := of_if h; exact .tick hh
  | check => obtain ⟨hh, rfl⟩ := of_if h; exact .check hh
  | take =>
      simp only [step] at h
      split at h
      next msg resumed queue hw hq => cases h; exact .take hw hq
      next => contradiction
  | wrote =>
      simp only [step] at h
      split at h
      next msg hw => cases h; exact .wrote hw
      next => contradiction
  | writeFailed =>
      simp only [step] at h
      split at h
      next msg hw => cases h; exact .writeFailed hw
      next => contradiction
  | send n msg =>
      simp only [step] at h
      split at h
      next => contradiction
      next hopen => cases h; exact .send hopen
  | giveUp n => cases h; exact .giveUp
  | calls router => cases h; exact .calls
  | flagDead => cases h; exact .flagDead
  | cancel => cases h; exact .cancel
  | stopReader => obtain ⟨hc, rfl⟩ := of_if h; exact .stopReader hc
  | stopWriter => obtain ⟨hc, rfl⟩ := of_if h; exact .stopWriter hc
  | stopHeartbeat => obtain ⟨hc, rfl⟩ := of_if h; exact .stopHeartbeat hc

/-- A message that is routed wakes nobody and stops nobody but the reader. -/
theorem inbound_eq (serde : SerdeJson) (s : Link) (msg : CastMessage) :
    ∃ router queue reader, s.inbound serde msg =
        { s with lastActivity := s.now, router, queue, reader } ∧
      ∀ x, x ∈ s.queue.waiting → x ∈ queue.waiting := by
  unfold inbound
  dsimp only
  split
  next => exact ⟨_, _, _, rfl, fun x hx => hx⟩
  next reply rest hreply =>
    split
    next => exact ⟨_, _, _, rfl, fun x hx => hx⟩
    next => exact ⟨_, _, _, rfl, fun x hx => Backlog.mem_waiting_send hx .reader reply⟩

theorem resume_eq (s : Link) (resumed : Option Sender) :
    ∃ reader, s.resume resumed =
      { s with
        reader
        heartbeat := if resumed = some .heartbeat then .checking else s.heartbeat } := by
  match resumed with
  | some .reader => exact ⟨.reading, rfl⟩
  | some .heartbeat => exact ⟨s.reader, rfl⟩
  | some (.user n) => exact ⟨s.reader, rfl⟩
  | none => exact ⟨s.reader, rfl⟩

/-! ## a heartbeat that waits -/

/-- A heartbeat that waits has its PING among those that wait, in a channel that is
not closed. -/
def Queued (s : Link) : Prop :=
  s.heartbeat = .pinging → ¬ s.Closed ∧ ∃ msg, (Sender.heartbeat, msg) ∈ s.queue.waiting

/-- Those who wait are the same ones, and the writer is still there. -/
theorem Queued.keep (h : Queued s) (hh : s'.heartbeat = .pinging → s.heartbeat = .pinging)
    (hw : s'.writer = s.writer)
    (hq : ∀ msg, (Sender.heartbeat, msg) ∈ s.queue.waiting →
      (Sender.heartbeat, msg) ∈ s'.queue.waiting) :
    Queued s' := by
  intro hping
  obtain ⟨hopen, msg, hmsg⟩ := h (hh hping)
  have hopen' : ¬ s'.Closed := by rw [Closed, hw]; exact hopen
  exact ⟨hopen', msg, hq msg hmsg⟩

theorem heartbeat_check (cfg : HeartbeatConfig) (s : Link) :
    (s.check cfg).heartbeat ≠ .pinging := by
  unfold check
  split <;> simp

theorem heartbeat_hangUp (s : Link) : s.hangUp.heartbeat ≠ .pinging := by
  simp only [hangUp]
  split
  · simp
  next hne => exact hne

theorem Queued.step (h : Queued s) (hs : Step serde cfg s a s') : Queued s' := by
  cases hs with
  | @inbound msg hr =>
      obtain ⟨router, queue, reader, heq, hmem⟩ := inbound_eq serde s msg
      rw [heq]
      exact h.keep id rfl fun m hm => hmem _ hm
  | tick hh =>
      unfold Link.tick
      split_ifs with hclosed hroom
      · intro hping; contradiction
      · intro hping; exact absurd hping (heartbeat_check cfg _)
      · intro _
        refine ⟨hclosed, ping serde, ?_⟩
        show (Sender.heartbeat, ping serde) ∈ (s.queue.send .heartbeat (ping serde)).waiting
        rw [Backlog.waiting_send_of_full hroom]
        exact List.mem_append_right _ List.mem_cons_self
  | check hh => exact fun hping => absurd hping (heartbeat_check cfg s)
  | @take msg resumed queue hw hq =>
      obtain ⟨reader, heq⟩ := resume_eq { s with queue, writer := .writing msg } resumed
      rw [heq]
      intro hping
      by_cases hresumed : resumed = some .heartbeat
      · simp [hresumed] at hping
      · obtain ⟨-, m, hm⟩ := h (by simpa [hresumed] using hping)
        exact ⟨by simp [Closed], m, (Backlog.mem_waiting_recv hq hm).resolve_left hresumed⟩
  | wrote hw =>
      intro hping
      obtain ⟨-, m, hm⟩ := h hping
      exact ⟨by simp [Closed], m, hm⟩
  | writeFailed hw => exact fun hping => absurd hping (heartbeat_hangUp _)
  | stopWriter hc => exact fun hping => absurd hping (heartbeat_hangUp s)
  | send hopen => exact h.keep id rfl fun m hm => Backlog.mem_waiting_send hm _ _
  | giveUp => exact h.keep id rfl fun m hm => Backlog.mem_waiting_forget hm (by simp)
  | stopReader hc => exact h.keep id rfl fun m hm => Backlog.mem_waiting_forget hm (by simp)
  | stopHeartbeat hc => exact fun hping => by contradiction
  | _ => exact h.keep id rfl fun m hm => hm

/-- **Where a heartbeat waits**: behind 64 messages in a channel that is open. -/
theorem full_of_pinging (h : (system serde cfg).Reachable s) (hping : s.heartbeat = .pinging) :
    ¬ s.Closed ∧ s.queue.buffer.length = 64 := by
  have hqueued : Queued s := h.invariant (I := Queued) (by intro hping; contradiction)
    fun _ _ _ hi _ hs => hi.step (step_cases hs)
  obtain ⟨hopen, msg, hmsg⟩ := hqueued hping
  exact ⟨hopen, s.queue.full (List.ne_nil_of_mem hmsg)⟩

/-! ## detection -/

/-- A heartbeat of a live connection waits although the peer has timed out. -/
def Wedged (cfg : HeartbeatConfig) (s : Link) : Prop :=
  s.heartbeat = .pinging ∧ s.alive = true ∧ s.TimedOut cfg

/-- The step from `s` to `s'` reports the timeout. -/
structure Reports (s s' : Link) : Prop where
  alive : s'.alive = false
  published : s'.connection = s.connection.send .disconnected
  offered : s'.router.events = s.router.events.trySend .heartbeatTimeout

/-- What is asked of a step to `s'`: no heartbeat is left waiting on a peer that has
timed out, and one that looks at the clock reports the timeout. -/
def Detects (cfg : HeartbeatConfig) (s : Link) (a : LinkAct) (s' : Link) : Prop :=
  ¬ s'.Wedged cfg ∧ (a = .tick ∨ a = .check → s.TimedOut cfg → Reports s s')

/-- A tick that finds the timeout exceeded finds room in an open channel, and the
timeout does not run out while a PING waits for its place. -/
def Timely (cfg : HeartbeatConfig) (s : Link) : LinkAct → Prop
  | .tick => s.TimedOut cfg → ¬ s.Closed ∧ s.queue.Room
  | .elapse d =>
      s.heartbeat = .pinging → s.alive = true → s.now + d - s.lastActivity ≤ cfg.timeout
  | _ => True

theorem reports_check (h : s.TimedOut cfg) : Reports s (s.check cfg) := by
  unfold check
  rw [if_pos h]
  exact ⟨rfl, rfl, rfl⟩

/-- A step that publishes nothing reports nothing. -/
theorem not_reports (h : s'.connection = s.connection) : ¬ Reports s s' := by
  intro hr
  have hversion := congrArg Watch.version (h.symm.trans hr.published)
  rw [Watch.version_send] at hversion
  omega

/-- A tick detects exactly when it is timely. -/
theorem detects_tick_iff :
    Detects cfg s .tick (s.tick serde cfg) ↔ Timely cfg s .tick := by
  by_cases htime : s.TimedOut cfg
  · constructor
    · rintro ⟨-, hreports⟩ -
      by_contra hroom
      refine not_reports ?_ (hreports (.inl rfl) htime)
      unfold Link.tick
      split_ifs with hclosed hfree
      · rfl
      · exact absurd ⟨hclosed, hfree⟩ hroom
      · rfl
    · intro htimely
      obtain ⟨hopen, hroom⟩ := htimely htime
      have hcheck : s.tick serde cfg =
          Link.check cfg { s with queue := s.queue.send .heartbeat (ping serde) } := by
        rw [Link.tick, if_neg hopen, if_pos hroom]
      rw [hcheck]
      refine ⟨fun hw => heartbeat_check cfg _ hw.1, fun _ _ => ?_⟩
      obtain ⟨halive, hpublished, hoffered⟩ :=
        reports_check (s := { s with queue := s.queue.send .heartbeat (ping serde) }) htime
      exact ⟨halive, hpublished, hoffered⟩
  · refine iff_of_true ⟨?_, fun _ ht => absurd ht htime⟩ fun ht => absurd ht htime
    rintro ⟨-, -, ht⟩
    refine htime ?_
    unfold Link.tick check at ht
    split_ifs at ht
    all_goals exact ht

/-- Every step detects exactly when it is timely. -/
theorem detects_iff (h : ¬ s.Wedged cfg) (hs : Step serde cfg s a s') :
    Detects cfg s a s' ↔ Timely cfg s a := by
  -- a step of anybody but the heartbeat and the clock
  have hkeep {t : Link} (hne : a ≠ .tick ∧ a ≠ .check) (htimely : Timely cfg s a)
      (hh : t.heartbeat = .pinging → s.heartbeat = .pinging) (ha : t.alive = true → s.alive = true)
      (hclock : t.now - t.lastActivity ≤ s.now - s.lastActivity) :
      Detects cfg s a t ↔ Timely cfg s a := by
    refine iff_of_true ⟨?_, fun hlooks => (hlooks.elim hne.1 hne.2).elim⟩ htimely
    rintro ⟨hping, halive, htime⟩
    exact h ⟨hh hping, ha halive, Nat.lt_of_lt_of_le htime hclock⟩
  cases hs with
  | tick hh => exact detects_tick_iff
  | check hh =>
      exact iff_of_true ⟨fun hw => heartbeat_check cfg s hw.1, fun _ ht => reports_check ht⟩ trivial
  | @elapse d =>
      constructor
      · rintro ⟨hnot, -⟩ hping halive
        exact Nat.le_of_not_lt fun htime => hnot ⟨hping, halive, htime⟩
      · intro htimely
        refine ⟨?_, fun hlooks => by simp at hlooks⟩
        rintro ⟨hping, halive, htime⟩
        exact absurd htime (Nat.not_lt_of_le (htimely hping halive))
  | @inbound msg hr =>
      obtain ⟨router, queue, reader, heq, -⟩ := inbound_eq serde s msg
      rw [heq]
      exact hkeep (by simp) trivial id id (by simp)
  | readFailed hr => exact hkeep (by simp) trivial id (by simp [readFailed]) (Nat.le_refl _)
  | @take msg resumed queue hw hq =>
      obtain ⟨reader, heq⟩ := resume_eq { s with queue, writer := .writing msg } resumed
      rw [heq]
      refine hkeep (by simp) trivial (fun hping => ?_) id (Nat.le_refl _)
      simp only at hping
      split at hping
      · contradiction
      · exact hping
  | writeFailed hw =>
      exact hkeep (by simp) trivial (fun hping => absurd hping (heartbeat_hangUp _))
        (by simp [writeFailed, hangUp]) (Nat.le_refl _)
  | stopWriter hc =>
      exact hkeep (by simp) trivial (fun hping => absurd hping (heartbeat_hangUp s)) id
        (Nat.le_refl _)
  | flagDead => exact hkeep (by simp) trivial id (by simp) (Nat.le_refl _)
  | stopHeartbeat hc => exact hkeep (by simp) trivial (by simp) id (Nat.le_refl _)
  | _ => exact hkeep (by simp) trivial id id (Nat.le_refl _)

/-- **Dead-peer detection**: in every run whose steps are timely, no heartbeat of a
live connection waits for room on a peer that has timed out, and a next step detects,
a tick that finds the timeout exceeded by its report, exactly when it is timely too. -/
theorem dead_peer_detected_iff (h : (system serde cfg).Run (Timely cfg) (start cfg) s) :
    ¬ s.Wedged cfg ∧
      ∀ a s', s.step serde cfg a = some s' → (Detects cfg s a s' ↔ Timely cfg s a) := by
  have hcalm : ¬ s.Wedged cfg := by
    refine h.invariant (I := fun x => ¬ x.Wedged cfg) ?_ fun x a y hx hok hs => ?_
    · rintro ⟨hping, -⟩
      contradiction
    · exact ((detects_iff hx (step_cases hs)).2 hok).1
  exact ⟨hcalm, fun a s' hs => detects_iff hcalm (step_cases hs)⟩

/-- A timeout of 15 seconds, in milliseconds. -/
def heartbeatCfg : HeartbeatConfig := ⟨15000, 256⟩

theorem timely_of_elapse {d : Nat} (h : s.heartbeat ≠ .pinging) : Timely cfg s (.elapse d) :=
  fun hping => absurd hping h

/-- The peer says nothing for 20 seconds, and the next tick reports it. -/
theorem dead_peer_detected_silent : ∃ s s',
    (system (.ofTexts []) heartbeatCfg).exec (start heartbeatCfg) [.elapse 20000] = some s ∧
      s.step (.ofTexts []) heartbeatCfg .tick = some s' ∧ s'.alive = false ∧
      s'.connection.value = .disconnected := by
  have hrun : (system (.ofTexts []) heartbeatCfg).Run (Timely heartbeatCfg) (start heartbeatCfg)
      { start heartbeatCfg with now := 0 + 20000 } :=
    .tail .refl (timely_of_elapse (by simp [start])) rfl
  have hroom : Timely heartbeatCfg { start heartbeatCfg with now := 0 + 20000 } .tick :=
    fun _ => ⟨by simp [Closed, start], by decide⟩
  have hdetects := ((dead_peer_detected_iff hrun).2 .tick _ rfl).2 hroom
  have hreports := hdetects.2 (.inl rfl) (by decide)
  exact ⟨_, _, rfl, rfl, hreports.alive, congrArg Watch.value hreports.published⟩

set_option maxRecDepth 8000 in
/-- The writer stays in its write with 64 messages behind it, the next PING waits, and
the peer times out unnoticed. -/
theorem peer_lost_unnoticed : ¬ ∀ (serde : SerdeJson) (cfg : HeartbeatConfig) (s : Link),
    (system serde cfg).Reachable s → ¬ s.Wedged cfg := by
  intro h
  have hrun := reachable_of_exec (M := system (.ofTexts []) heartbeatCfg)
    ([.send 0 (ping (.ofTexts [])), .take] ++ List.replicate 64 (.send 0 (ping (.ofTexts []))) ++
      [.tick, .elapse 20000]) rfl
  exact h (.ofTexts []) heartbeatCfg _ hrun ⟨rfl, rfl, by decide⟩

end Oxicast.Link
