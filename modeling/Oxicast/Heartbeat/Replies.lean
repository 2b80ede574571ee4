import Oxicast.Heartbeat.Detection
import Oxicast.Liveness
import Oxicast.Router.Effects

/-!
# Oxicast.Heartbeat.Replies

What passes through the outbound queue, and that every PING gets its PONG.

The reader, the heartbeat and the users send into one queue.  What is written, what is
on its way and what waits for room is together what has been sent, in the order in
which it was sent; only a sender that gives up while it waits leaves a gap
(`outbound_in_order`).  The share of the reader is one PONG for each PING it has read,
and a writer that goes on writes them all (`pongs_written`).
-/

namespace Oxicast

variable {serde : SerdeJson} {cfg : HeartbeatConfig}

/-- What the writer has in hand. -/
def WriterPc.message : WriterPc → Option CastMessage
  | .writing msg => some msg
  | _ => none

/-- The history of an outbound queue: every message with its sender. -/
structure Traffic where
  /-- how many PINGs have been read -/
  pings : Nat
  /-- all that has been sent, in this order -/
  sent : List (Sender × CastMessage)
  /-- what the writer has in hand, and the queue behind it -/
  pending : List (Sender × CastMessage)
  written : List (Sender × CastMessage)
  /-- who has given up a send -/
  quitters : List Sender

namespace Traffic

def none : Traffic := ⟨0, [], [], [], []⟩

/-- A message is sent on a channel; it gets its place if there is room. -/
def post (t : Traffic) (s : Link) (who : Sender) (msg : CastMessage) : Traffic :=
  { t with
    sent := t.sent ++ [(who, msg)]
    pending := if s.queue.Room then t.pending ++ [(who, msg)] else t.pending }

def quit (t : Traffic) (who : Sender) : Traffic := { t with quitters := who :: t.quitters }

/-- What a step adds. -/
def record (serde : SerdeJson) (t : Traffic) (s : Link) : LinkAct → Link → Traffic
  | .inbound msg, _ =>
      let t := if isPing msg then { t with pings := t.pings + 1 } else t
      match (s.router.route serde msg).outbound with
      | [] => t
      | reply :: _ => t.post s .reader reply
  | .tick, _ => t.post s .heartbeat (ping serde)
  | .send n msg, _ => t.post s (.user n) msg
  | .giveUp n, _ => t.quit (.user n)
  | .stopReader, _ => t.quit .reader
  | .stopHeartbeat, _ => t.quit .heartbeat
  | .take, _ => { t with pending := t.pending ++ s.queue.waiting.head?.toList }
  | .wrote, _ =>
      match s.writer, t.pending with
      | .writing msg, x :: rest => { t with pending := rest, written := t.written ++ [(x.1, msg)] }
      | _, _ => t
  | _, _ => t

end Traffic

namespace Link

open TransitionSystem

variable {s s' : Link} {t : Traffic} {a : LinkAct} {who : Sender} {msg : CastMessage} {n : Nat}

/-- A connection with the history of its outbound queue. -/
def trafficSystem (serde : SerdeJson) (cfg : HeartbeatConfig) :
    TransitionSystem (Link × Traffic) LinkAct :=
  (system serde cfg).observe .none (Traffic.record serde)

/-- What is written, on its way and waiting. -/
def line (s : Link) (t : Traffic) : List (Sender × CastMessage) :=
  t.written ++ t.pending ++ s.queue.waiting

/-- The line of an open channel is what has been sent. -/
structure Lined (serde : SerdeJson) (s : Link) (t : Traffic) : Prop where
  idle : s.router.outbound = []
  pending : t.pending.map (·.2) = s.writer.message.toList ++ s.queue.buffer
  order : (s.line t).Sublist t.sent
  whole : ∀ who, who ∉ t.quitters → (s.line t).filter (·.1 = who) = t.sent.filter (·.1 = who)
  pongs : t.sent.filter (·.1 = .reader) = List.replicate t.pings (.reader, pong serde)
  staying : s.cancelled = false → .reader ∉ t.quitters

/-! ## one step -/

/-- Nothing happens to the queue. -/
theorem Lined.keep (h : Lined serde s t) (hidle : s'.router.outbound = []) (hq : s'.queue = s.queue)
    (hw : s'.writer = s.writer) (hc : s'.cancelled = false → s.cancelled = false) :
    Lined serde s' t := by
  have hline : s'.line t = s.line t := by rw [line, line, hq]
  refine ⟨hidle, ?_, hline ▸ h.order, hline ▸ h.whole, h.pongs, fun hs => h.staying (hc hs)⟩
  rw [hq, hw]
  exact h.pending

/-- A message comes at the end of the line. -/
theorem line_post (hq : s'.queue = s.queue.send who msg) :
    s'.line (t.post s who msg) = s.line t ++ [(who, msg)] := by
  simp only [line, Traffic.post, hq]
  by_cases hroom : s.queue.Room
  · rw [if_pos hroom, (Backlog.send_of_room hroom who msg).2, hroom.nobody_waits]
    simp
  · rw [if_neg hroom, Backlog.waiting_send_of_full hroom, List.append_assoc _ _ [_]]

theorem pending_post (h : Lined serde s t) (hq : s'.queue = s.queue.send who msg)
    (hw : s'.writer = s.writer) :
    (t.post s who msg).pending.map (·.2) = s'.writer.message.toList ++ s'.queue.buffer := by
  simp only [Traffic.post, hq, hw]
  by_cases hroom : s.queue.Room
  · rw [if_pos hroom, (Backlog.send_of_room hroom who msg).1, List.map_append, h.pending,
      List.append_assoc]
    rfl
  · rw [if_neg hroom, Backlog.buffer_send_of_full hroom, h.pending]

/-- A message is sent: `pings` more PINGs have been read, as many as it is a PONG of the
reader. -/
theorem Lined.post {pings : Nat} (h : Lined serde s t) (hidle : s'.router.outbound = [])
    (hq : s'.queue = s.queue.send who msg) (hw : s'.writer = s.writer)
    (hc : s'.cancelled = s.cancelled)
    (hshare : [(who, msg)].filter (·.1 = .reader) = List.replicate pings (.reader, pong serde)) :
    Lined serde s' ({ t with pings := t.pings + pings }.post s who msg) := by
  have hline : s'.line ({ t with pings := t.pings + pings }.post s who msg) = s.line t ++
      [(who, msg)] :=
    line_post (t := { t with pings := t.pings + pings }) hq
  refine ⟨hidle, pending_post (t := t) h hq hw, ?_, ?_, ?_, fun hs => h.staying (hc ▸ hs)⟩
  · rw [hline]
    exact h.order.append_right _
  · intro x hx
    rw [hline, Traffic.post, List.filter_append, List.filter_append, h.whole x hx]
  · simp only [Traffic.post]
    rw [List.filter_append, h.pongs, hshare, List.replicate_append_replicate]

/-- A sender gives up: who waits for another one stays in the line. -/
theorem Lined.quit (h : Lined serde s t) (hidle : s'.router.outbound = [])
    (hq : s'.queue = s.queue.forget who) (hw : s'.writer = s.writer)
    (hc : s'.cancelled = s.cancelled) (hleave : who = .reader → s.cancelled = true) :
    Lined serde s' (t.quit who) := by
  have hline : s'.line (t.quit who) = t.written ++ t.pending ++
      s.queue.waiting.filter (·.1 ≠ who) := by
    rw [line, hq]
    rfl
  refine ⟨hidle, ?_, ?_, ?_, h.pongs, ?_⟩
  · rw [hq, hw]
    exact h.pending
  · rw [hline]
    exact (List.Sublist.append_left List.filter_sublist _).trans h.order
  · intro x hx
    have hne : x ≠ who := fun heq => hx (heq ▸ List.mem_cons_self)
    have hquit : x ∉ t.quitters := fun hmem => hx (List.mem_cons_of_mem _ hmem)
    have hfilter : (s.queue.waiting.filter (·.1 ≠ who)).filter (·.1 = x) = s.queue.waiting.filter
        (·.1 = x) := by
      rw [List.filter_filter]
      refine List.filter_congr fun y _ => ?_
      by_cases hy : y.1 = x
      · simp [hy, hne]
      · simp [hy]
    rw [hline, List.filter_append, hfilter, ← List.filter_append]
    exact h.whole x hquit
  · intro hs hmem
    rcases List.mem_cons.1 hmem with heq | hmem
    · rw [hc, hleave heq.symm] at hs
      cases hs
    · exact h.staying (hc ▸ hs) hmem

/-- The writer takes a message: the line stays as it is. -/
theorem line_take {queue : Backlog 64 CastMessage Sender} {resumed : Option Sender}
    (hr : s.queue.recv = some (msg, resumed, queue)) (hq : s'.queue = queue) :
    s'.line { t with pending := t.pending ++ s.queue.waiting.head?.toList } = s.line t := by
  obtain ⟨-, -, -, hwaiting⟩ := Backlog.recv_eq hr
  have hsplit : s.queue.waiting.head?.toList ++ s.queue.waiting.tail = s.queue.waiting := by
    cases s.queue.waiting <;> rfl
  rw [line, line, hq, hwaiting, List.append_assoc, List.append_assoc, hsplit, List.append_assoc]

theorem Lined.take (h : Lined serde s t) {queue : Backlog 64 CastMessage Sender}
    {resumed : Option Sender}
    (hrecv : s.writer = .receiving) (hr : s.queue.recv = some (msg, resumed, queue))
    (hidle : s'.router.outbound = []) (hq : s'.queue = queue) (hw : s'.writer = .writing msg)
    (hc : s'.cancelled = s.cancelled) :
    Lined serde s' { t with pending := t.pending ++ s.queue.waiting.head?.toList } := by
  obtain ⟨rest, hbuffer, hbuffer', -⟩ := Backlog.recv_eq hr
  have hpending := h.pending
  rw [hrecv, hbuffer] at hpending
  have hline := line_take (t := t) hr hq
  refine ⟨hidle, ?_, hline ▸ h.order, hline ▸ h.whole, h.pongs, fun hs => h.staying (hc ▸ hs)⟩
  rw [hq, hw, hbuffer', List.map_append, hpending]
  rfl

/-- The message in hand is written. -/
theorem Lined.wrote (h : Lined serde s t) (hw : s.writer = .writing msg) :
    ∃ x rest, t.pending = x :: rest ∧ x.2 = msg := by
  have hpending := h.pending
  rw [hw] at hpending
  cases hp : t.pending with
  | nil =>
      rw [hp] at hpending
      cases hpending
  | cons x rest =>
      rw [hp] at hpending
      exact ⟨x, rest, rfl, (List.cons.inj hpending).1⟩

theorem record_wrote {x : Sender × CastMessage} {rest : List (Sender × CastMessage)}
    (hw : s.writer = .writing msg)
    (hp : t.pending = x :: rest) (hx : x.2 = msg) :
    t.record serde s .wrote { s with writer := .receiving } =
      { t with pending := rest, written := t.written ++ [x] } := by
  simp only [Traffic.record, hw, hp]
  rw [← hx]

theorem line_wrote {x : Sender × CastMessage} {rest : List (Sender × CastMessage)}
    (hp : t.pending = x :: rest) :
    line { s with writer := .receiving } { t with pending := rest, written := t.written ++ [x] } =
      s.line t := by
  simp [line, hp]

theorem Lined.step_wrote (h : Lined serde s t) (hw : s.writer = .writing msg) :
    Lined serde { s with writer := .receiving }
      (t.record serde s .wrote { s with writer := .receiving }) := by
  obtain ⟨x, rest, hp, hx⟩ := h.wrote hw
  have hpending := h.pending
  rw [hw, hp] at hpending
  have hline := line_wrote (s := s) hp
  rw [record_wrote hw hp hx]
  exact ⟨h.idle, (List.cons.inj hpending).2, hline ▸ h.order, hline ▸ h.whole, h.pongs, h.staying⟩

/-- A message is read, and replied to if it is a PING. -/
theorem inbound_cases (h : Lined serde s t) (hopen : ¬ s.Closed) (msg : CastMessage) :
    ∃ router reader, router.outbound = [] ∧
      (s.inbound serde msg = { s with lastActivity := s.now, router, reader } ∧
          t.record serde s (.inbound msg) (s.inbound serde msg) = t ∨
        s.inbound serde msg =
            { s with
              lastActivity := s.now, router, reader, queue := s.queue.send .reader (pong serde) } ∧
          t.record serde s (.inbound msg) (s.inbound serde msg) =
            { t with pings := t.pings + 1 }.post s .reader (pong serde)) := by
  have hout := Router.outbound_route serde s.router msg
  rw [h.idle, List.nil_append] at hout
  simp only [Traffic.record, Link.inbound]
  by_cases hping : isPing msg = true
  · rw [if_pos hping] at hout
    simp only [hout, if_pos hping]
    split
    next hclosed => exact absurd hclosed hopen
    next => exact ⟨_, _, rfl, .inr ⟨rfl, trivial⟩⟩
  · rw [if_neg hping] at hout
    simp only [hout, if_neg hping]
    exact ⟨_, _, rfl, .inl ⟨rfl, trivial⟩⟩

theorem Lined.inbound (h : Lined serde s t) (hopen : ¬ s.Closed) :
    Lined serde (s.inbound serde msg) (t.record serde s (.inbound msg) (s.inbound serde msg)) := by
  obtain ⟨router, reader, hidle, ⟨heq, hrec⟩ | ⟨heq, hrec⟩⟩ := inbound_cases h hopen msg
  · rw [hrec, heq]
    exact h.keep hidle rfl rfl id
  · rw [hrec, heq]
    exact h.post hidle rfl rfl rfl rfl

/-- The check behind a PING does nothing to the queue. -/
theorem Lined.check (h : Lined serde s t) : Lined serde (s.check cfg) t := by
  unfold Link.check
  split
  · exact h.keep h.idle rfl rfl id
  · exact h.keep h.idle rfl rfl id

theorem Lined.tick (h : Lined serde s t) (hopen : ¬ s.Closed) :
    Lined serde (s.tick serde cfg) (t.record serde s .tick (s.tick serde cfg)) := by
  have hrec : t.record serde s .tick (s.tick serde cfg) =
      { t with pings := t.pings + 0 }.post s .heartbeat (ping serde) := rfl
  rw [hrec, Link.tick, if_neg hopen]
  split
  · have hpost : Lined serde { s with queue := s.queue.send .heartbeat (ping serde) }
        ({ t with pings := t.pings + 0 }.post s .heartbeat (ping serde)) :=
        h.post h.idle rfl rfl rfl rfl
    exact hpost.check
  · exact h.post h.idle rfl rfl rfl rfl

/-- An open channel has been open. -/
theorem open_of_step (hs : Step serde cfg s a s') (hopen : ¬ s'.Closed) : ¬ s.Closed := by
  intro hclosed
  refine hopen ?_
  have hstopped : s.writer = .stopped := hclosed
  cases hs with
  | @inbound msg hr =>
      obtain ⟨router, queue, reader, heq, -⟩ := inbound_eq serde s msg
      rw [heq]
      exact hclosed
  | tick hh => rw [Link.tick, if_pos hclosed]; exact hclosed
  | check hh => unfold check; split <;> exact hclosed
  | take hw hq => rw [hw] at hstopped; cases hstopped
  | wrote hw => rw [hw] at hstopped; cases hstopped
  | writeFailed hw => rfl
  | stopWriter hc => rfl
  | _ => exact hclosed

theorem Lined.step (h : Lined serde s t) (hs : Step serde cfg s a s') (hopen : ¬ s'.Closed) :
    Lined serde s' (t.record serde s a s') := by
  have hwas := open_of_step hs hopen
  cases hs with
  | inbound hr => exact h.inbound hwas
  | tick hh => exact h.tick hwas
  | check hh => exact h.check
  | @take msg resumed queue hw hq =>
      obtain ⟨reader, heq⟩ := resume_eq { s with queue, writer := .writing msg } resumed
      rw [heq]
      exact h.take hw hq h.idle rfl rfl rfl
  | wrote hw => exact h.step_wrote hw
  | writeFailed hw => exact absurd rfl hopen
  | stopWriter hc => exact absurd rfl hopen
  | @send n msg ho =>
      have hrec : t.record serde s (.send n msg) { s with queue := s.queue.send (.user n) msg } =
          { t with pings := t.pings + 0 }.post s (.user n) msg := rfl
      rw [hrec]
      exact h.post h.idle rfl rfl rfl rfl
  | giveUp => exact h.quit h.idle rfl rfl rfl (by simp)
  | stopReader hc => exact h.quit h.idle rfl rfl rfl fun _ => hc
  | stopHeartbeat hc => exact h.quit h.idle rfl rfl rfl (by simp)
  | calls => exact h.keep rfl rfl rfl id
  | cancel => exact h.keep h.idle rfl rfl (by simp)
  | _ => exact h.keep h.idle rfl rfl id

theorem lined_of_run (h : (trafficSystem serde cfg).Run Any (start cfg, .none) (s, t))
    (hopen : ¬ s.Closed) : Lined serde s t := by
  refine h.invariant_observed (I := fun s t => ¬ s.Closed → Lined serde s t) (J := fun _ => True)
    (fun _ _ => trivial) (fun _ => ?_) (fun s t a s' _ hi _ hs hopen => ?_) hopen
  · exact ⟨rfl, rfl, List.Sublist.refl _, fun _ _ => rfl, rfl, fun _ => List.not_mem_nil⟩
  · have hstep := step_cases hs
    exact (hi (open_of_step hstep hopen)).step hstep hopen

/-- **Every PING has its PONG**: while nobody tears the connection down, the line is what
has been sent, in this order and without a gap but for those who gave up, and the
reader's share of it is one PONG for each PING read. -/
theorem pings_answered (h : (trafficSystem serde cfg).Run Any (start cfg, .none) (s, t))
    (hopen : ¬ s.Closed) (hc : s.cancelled = false) :
    t.pending.map (·.2) = s.writer.message.toList ++ s.queue.buffer ∧ (s.line t).Sublist t.sent ∧
      (∀ who, who ∉ t.quitters → (s.line t).filter (·.1 = who) = t.sent.filter (·.1 = who)) ∧
      (s.line t).filter (·.1 = .reader) = List.replicate t.pings (.reader, pong serde) := by
  have hlined := lined_of_run h hopen
  refine ⟨hlined.pending, hlined.order, hlined.whole, ?_⟩
  rw [hlined.whole .reader (hlined.staying hc), hlined.pongs]

set_option maxRecDepth 8000 in
/-- Two PINGs and a message between them: one PONG is in the hand of the writer, the
other one stands behind the message. -/
theorem pings_answered_twice : ∃ s t,
    (trafficSystem (.ofTexts []) heartbeatCfg).Run Any (start heartbeatCfg, .none) (s, t) ∧
      t.pings = 2 ∧ s.queue.buffer.length = 2 ∧
      (s.line t).filter (·.1 = .reader) = List.replicate t.pings (.reader, pong (.ofTexts [])) := by
  have hrun := reachable_of_exec (M := trafficSystem (.ofTexts []) heartbeatCfg)
    [.inbound (ping (.ofTexts [])), .take, .send 0 (ping (.ofTexts [])),
      .inbound (ping (.ofTexts []))] rfl
  exact ⟨_, _, hrun, rfl, rfl, (pings_answered hrun (by decide) rfl).2.2.2⟩

/-! ## the writer goes on -/

/-- Messages to be taken and written up to the PONG of the PING number `k`. -/
def ahead (serde : SerdeJson) (k : Nat) (s : Link) (t : Traffic) : Nat :=
  2 * ((s.line t).findIdxNth (· == (.reader, pong serde)) k - t.written.length) +
    s.writer.message.elim 1 fun _ => 0

/-- The writer takes or writes a message. -/
def Writes (a : LinkAct) : Prop := a = .take ∨ a = .wrote

/-- PING number `k` is read and its PONG is not written. -/
structure Unanswered (serde : SerdeJson) (k : Nat) (s : Link) (t : Traffic) : Prop where
  read : k < t.pings
  unwritten : t.written.count (.reader, pong serde) ≤ k
  live : ¬ s.Closed
  calm : s.cancelled = false

variable {k : Nat}

/-- The line has a PONG for each PING. -/
theorem Lined.count (h : Lined serde s t) (hc : s.cancelled = false) :
    (s.line t).count (.reader, pong serde) = t.pings := by
  have hshare := h.whole .reader (h.staying hc)
  rw [h.pongs] at hshare
  have hcount := congrArg (List.count (Sender.reader, pong serde)) hshare
  rw [List.count_filter (by simp), List.count_replicate_self] at hcount
  exact hcount

/-- Who comes later is not ahead. -/
theorem ahead_post {t' : Traffic} (hk : k < (s.line t).count (.reader, pong serde))
    (hline : s'.line t' = s.line t ++ [(who, msg)]) (hwritten : t'.written = t.written)
    (hw : s'.writer = s.writer) : ahead serde k s' t' = ahead serde k s t := by
  rw [ahead, ahead, hline, hwritten, hw, findIdxNth_append hk]

/-- Who gives up is not ahead any more. -/
theorem ahead_quit (hq : s'.queue = s.queue.forget who) (hw : s'.writer = s.writer)
    (hne : who ≠ .reader) :
    ahead serde k s' (t.quit who) ≤ ahead serde k s t := by
  have hle : (s'.line (t.quit who)).findIdxNth (· == (.reader, pong serde)) k ≤
      (s.line t).findIdxNth (· == (.reader, pong serde)) k := by
    rw [line, line, hq]
    refine findIdxNth_filter_le fun x hx => ?_
    have heq : x = (.reader, pong serde) := by simpa using hx
    rw [heq, decide_eq_true_eq]
    exact hne.symm
  rw [ahead, ahead, hw]
  have hwritten : (t.quit who).written = t.written := rfl
  rw [hwritten]
  omega

theorem ahead_take {resumed : Option Sender} {queue : Backlog 64 CastMessage Sender}
    (hrecv : s.writer = .receiving) (hr : s.queue.recv = some (msg, resumed, queue))
    (hq : s'.queue = queue)
    (hw : s'.writer = .writing msg) :
    ahead serde k s' { t with pending := t.pending ++ s.queue.waiting.head?.toList } <
      ahead serde k s t := by
  rw [ahead, ahead, line_take hr hq, hw, hrecv]
  exact Nat.lt_succ_self _

theorem ahead_wrote (h : Lined serde s t) (hw : s.writer = .writing msg)
    (hbehind : (t.record serde s .wrote { s with writer := .receiving }).written.count
      (.reader, pong serde) ≤ k) :
    ahead serde k { s with writer := .receiving }
      (t.record serde s .wrote { s with writer := .receiving }) <
      ahead serde k s t := by
  obtain ⟨x, rest, hp, hx⟩ := h.wrote hw
  have hrec : t.record serde s .wrote { s with writer := .receiving } =
      { t with pending := rest, written := t.written ++ [x] } := record_wrote hw hp hx
  rw [hrec] at hbehind ⊢
  have hline : line { s with writer := .receiving }
      { t with pending := rest, written := t.written ++ [x] } =
      s.line t := line_wrote hp
  have hplace := length_le_findIdxNth (m := rest ++ s.queue.waiting) hbehind
  rw [← List.append_assoc] at hplace
  change (t.written ++ [x]).length ≤
    (line { s with writer := .receiving }
      { t with pending := rest, written := t.written ++ [x] }).findIdxNth
      (· == (.reader, pong serde)) k at hplace
  rw [hline, List.length_append, List.length_singleton] at hplace
  rw [ahead, ahead, hline, hw]
  simp only [WriterPc.message, Option.elim_none, Option.elim_some, List.length_append,
    List.length_singleton]
  omega

/-- PINGs that have been read stay read. -/
theorem pings_record : t.pings ≤ (t.record serde s a s').pings := by
  cases a with
  | inbound msg =>
      simp only [Traffic.record]
      split <;> split <;> simp [Traffic.post]
  | wrote =>
      simp only [Traffic.record]
      split <;> exact Nat.le_refl _
  | _ => exact Nat.le_refl _

/-- No step puts more ahead of a PONG, and the writer's own steps bring it on. -/
theorem ahead_step (h : Lined serde s t) (hu : Unanswered serde k s t) (hs : Step serde cfg s a s')
    (hu' : Unanswered serde k s' (t.record serde s a s')) :
    ahead serde k s' (t.record serde s a s') ≤ ahead serde k s t ∧
      (Writes a → ahead serde k s' (t.record serde s a s') < ahead serde k s t) := by
  have hk : k < (s.line t).count (.reader, pong serde) := h.count hu.calm ▸ hu.read
  have hle (heq : ahead serde k s' (t.record serde s a s') ≤ ahead serde k s t)
      (hother : ¬ Writes a) :
      ahead serde k s' (t.record serde s a s') ≤ ahead serde k s t ∧
        (Writes a → ahead serde k s' (t.record serde s a s') < ahead serde k s t) :=
    ⟨heq, fun hwrites => absurd hwrites hother⟩
  have hlt (hfall : ahead serde k s' (t.record serde s a s') < ahead serde k s t) :
      ahead serde k s' (t.record serde s a s') ≤ ahead serde k s t ∧
        (Writes a → ahead serde k s' (t.record serde s a s') < ahead serde k s t) :=
    ⟨Nat.le_of_lt hfall, fun _ => hfall⟩
  cases hs with
  | @inbound msg hr =>
      refine hle (Nat.le_of_eq ?_) (by simp [Writes])
      obtain ⟨router, reader, -, ⟨heq, hrec⟩ | ⟨heq, hrec⟩⟩ := inbound_cases h hu.live msg
      · rw [hrec, heq]
        rfl
      · rw [hrec, heq]
        exact ahead_post hk (line_post (t := { t with pings := t.pings + 1 }) rfl) rfl rfl
  | tick hh =>
      refine hle (Nat.le_of_eq ?_) (by simp [Writes])
      rw [Link.tick, if_neg hu.live]
      split
      · unfold Link.check
        split
        · exact ahead_post hk (line_post rfl) rfl rfl
        · exact ahead_post hk (line_post rfl) rfl rfl
      · exact ahead_post hk (line_post rfl) rfl rfl
  | check hh =>
      refine hle (Nat.le_of_eq ?_) (by simp [Writes])
      unfold Link.check
      split <;> rfl
  | @take msg resumed queue hw hq =>
      obtain ⟨reader, heq⟩ := resume_eq { s with queue, writer := .writing msg } resumed
      rw [heq] at hlt ⊢
      exact hlt (ahead_take hw hq rfl rfl)
  | wrote hw => exact hlt (ahead_wrote h hw hu'.unwritten)
  | writeFailed hw => exact absurd rfl hu'.live
  | stopWriter hc => exact absurd rfl hu'.live
  | send ho => exact hle (Nat.le_of_eq (ahead_post hk (line_post rfl) rfl rfl)) (by simp [Writes])
  | giveUp => exact hle (ahead_quit rfl rfl (by simp)) (by simp [Writes])
  | stopReader hc => exact absurd hu.calm (by simp [hc])
  | stopHeartbeat hc => exact absurd hu.calm (by simp [hc])
  | _ => exact hle (Nat.le_of_eq rfl) (by simp [Writes])

/-- There is something to take or to write. -/
theorem writes_enabled (h : Lined serde s t) (hu : Unanswered serde k s t) :
    (trafficSystem serde cfg).Enabled Writes (s, t) := by
  have hmap (a : LinkAct) (ha : Writes a) (hs : (s.step serde cfg a).isSome) :
      (trafficSystem serde cfg).Enabled Writes (s, t) := by
    obtain ⟨s', hs'⟩ := Option.isSome_iff_exists.1 hs
    exact ⟨a, (s', t.record serde s a s'), ha, step_observe_iff.2 ⟨hs', rfl⟩⟩
  cases hw : s.writer with
  | writing msg => exact hmap .wrote (.inr rfl) (by simp [Link.step, hw])
  | stopped => exact absurd hw hu.live
  | receiving =>
      refine hmap .take (.inl rfl) ?_
      cases hq : s.queue.recv with
      | some x => simp [Link.step, hw, hq]
      | none =>
          -- an empty queue: then all is written
          have hempty : s.queue.buffer = [] := Backlog.buffer_of_recv_none hq
          have hpending := h.pending
          rw [hw, hempty] at hpending
          have hcount := h.count hu.calm
          rw [line, Backlog.waiting_of_empty (by decide) hempty, List.map_eq_nil_iff.1 hpending,
            List.append_nil, List.append_nil] at hcount
          have hread := hu.read
          have hunwritten := hu.unwritten
          omega

/-- **PONGs are written**: when the writer is scheduled fairly, every PING read is answered
on the wire, or the channel is closed or the connection torn down. -/
theorem pongs_written {b : (trafficSystem serde cfg).Behavior} (hfair : b.WeaklyFair Writes) :
    b.LeadsTo (fun x => n ≤ x.2.pings) fun x => n ≤ x.2.written.count (.reader, pong serde) ∨
      x.1.Closed ∨ x.1.cancelled = true := by
  cases n with
  | zero => exact fun m _ => ⟨m, Nat.le_refl m, .inl (Nat.zero_le _)⟩
  | succ k =>
  have hsettle (s : Link) (t : Traffic) (hread : k < t.pings) :
      (k + 1 ≤ t.written.count (.reader, pong serde) ∨ s.Closed ∨ s.cancelled = true) ∨
        Unanswered serde k s t := by
    by_cases hw : k + 1 ≤ t.written.count (.reader, pong serde)
    · exact .inl (.inl hw)
    · by_cases hclosed : s.Closed
      · exact .inl (.inr (.inl hclosed))
      · cases hc : s.cancelled with
        | true => exact .inl (.inr (.inr rfl))
        | false => exact .inr ⟨hread, by omega, hclosed, hc⟩
  have hunanswered : b.LeadsTo (fun x => Unanswered serde k x.1 x.2) fun x =>
      k + 1 ≤ x.2.written.count (.reader, pong serde) ∨ x.1.Closed ∨ x.1.cancelled = true := by
    refine Behavior.leadsTo_of_falling (fun x => ahead serde k x.1 x.2) hfair ?_ ?_ ?_
    · intro x a y hr hu hs
      obtain ⟨hstep, hrecord⟩ := step_observe_iff.1 hs
      have hread : k < y.2.pings := hrecord ▸ Nat.lt_of_lt_of_le hu.read pings_record
      refine (hsettle y.1 y.2 hread).imp_right fun hu' => ⟨hu', ?_⟩
      rw [hrecord] at hu' ⊢
      exact (ahead_step (lined_of_run hr hu.live) hu (step_cases hstep) hu').1
    · exact fun x hr hu => writes_enabled (lined_of_run hr hu.live) hu
    · intro x a y hr hu ha hs hu'
      obtain ⟨hstep, hrecord⟩ := step_observe_iff.1 hs
      rw [hrecord] at hu' ⊢
      exact (ahead_step (lined_of_run hr hu.live) hu (step_cases hstep) hu').2 ha
  intro m hread
  rcases hsettle (b.state m).1 (b.state m).2 hread with hset | hu
  · exact ⟨m, Nat.le_refl m, hset⟩
  · exact hunanswered m hu

/-- A PING is read, and its PONG taken and written. -/
def pingActs : List LinkAct := [.inbound (ping (.ofTexts [])), .take, .wrote]

set_option maxRecDepth 8000 in
theorem pongs_written_once :
    ∃ x, ∃ h : (trafficSystem (.ofTexts []) heartbeatCfg).exec
      (start heartbeatCfg, .none) pingActs = some x,
      x.2.written.count (.reader, pong (.ofTexts [])) = 1 ∧
      (Behavior.ofSchedule pingActs h).LeadsTo (fun x => 1 ≤ x.2.pings) fun x =>
        1 ≤ x.2.written.count (.reader, pong (.ofTexts [])) ∨ x.1.Closed ∨
        x.1.cancelled = true := by
  refine ⟨_, rfl, by decide, pongs_written (Behavior.stronglyFair_ofSchedule ?_).weaklyFair⟩
  rintro ⟨a, y, ha, hs⟩
  obtain rfl | rfl := ha
  · cases hs
  · cases hs

end Link

end Oxicast
