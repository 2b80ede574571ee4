import Oxicast.Session.Flush

/-!
# Oxicast.Session.Stream

What the device reads of a connection.

Whatever is interleaved with whatever, and however a writer ends, what it has
written is an initial segment of the messages its channel has accepted
(`Streaming`), each of them small enough for the framing; and what it has written of
the message it was at is a part of the next one (`Cuts`).  So wherever the bytes on
the socket end, the device reads an initial segment of the accepted messages.
-/

namespace Oxicast.Flushing

open TransitionSystem Session

variable {prost : Prost CastMessage} {serde : SerdeJson} {cfg : ClientConfig} {x x' : Flushing}
  {s s' : Session} {a : SessionAct} {b : FlushAct} {c : Nat}

/-! ## open channels -/

/-- A step opens no channel but the one of the next connection. -/
theorem open_of_session_step (ht : s.life.Tasks) (hs : Session.Step serde cfg s a s')
    (ho : Open s'.life c) : Open s.life c ∨ c = s.life.writeTx + 1 := by
  rcases life_or_same hs with ⟨b, rfl, hl⟩ | ⟨htask, hw, hr⟩
  · exact open_of_passage (Lifecycle.passage_of_step ht hl) ho
  · exact .inl (by simpa [Open, htask, hw, hr] using ho)

theorem writeTx_of_session_step (ht : s.life.Tasks) (hs : Session.Step serde cfg s a s') :
    s.life.writeTx ≤ s'.life.writeTx := by
  rcases life_or_same hs with ⟨b, rfl, hl⟩ | ⟨-, hw, -⟩
  · exact (Lifecycle.passage_of_step ht hl).writeTx_le
  · exact Nat.le_of_eq hw.symm

theorem tasks_of_session_step (ht : s.life.Tasks) (hs : Session.Step serde cfg s a s') :
    s'.life.Tasks := by
  rcases hs.life_step with heq | ⟨b, hl⟩
  · rw [heq]; exact ht
  · exact ht.step hl

/-- A channel that is still open has lost no writer: without one it belongs to a
reconnect that has not spawned it yet. -/
theorem stopped_of_open (ht : s.life.Tasks) (hs : Session.Step serde cfg s a s')
    (ho : Open s'.life c) (hstop : s'.life.task c .writer = .stopped) :
    s.life.task c .writer = .stopped := by
  obtain ⟨hc, hfresh⟩ := (open_iff_stage.1 ho).resolve_left (not_not_intro hstop)
  rcases life_or_same hs with ⟨b, rfl, hl⟩ | ⟨htask, -, -⟩
  · have hall := Lifecycle.Tasks.stopped_of_fresh (s := s.life) ht
    cases Lifecycle.passage_of_step ht hl with
    | keep hq hst hw => exact hall (hst.symm.trans hfresh) c .writer
    | swapWriteTx hst hst' hw htask hd => rw [← htask]; exact hstop
    | clearAndSpawn hst hst' hw htask hd => exact hall hst c .writer
    | builderSent hst hst' hw h0 => rw [hst'] at hfresh; contradiction
    | connectSent hst hst' hw => rw [hst'] at hfresh; contradiction
    | @readTransport tid hst hst' hw =>
        rw [hst'] at hfresh
        cases tid <;> contradiction
    | transportSent hst hst' hw hlive => rw [hst'] at hfresh; contradiction
    | giveUp hq hst' hw hgone => rw [hst'] at hfresh; contradiction
  · rw [← htask]; exact hstop

/-! ## the invariant -/

/-- Of every channel the accepted messages begin with what is written, being written
and waiting, in this order, and as long as it is open they are just these. -/
structure Streaming (prost : Prost CastMessage) (x : Flushing) : Prop where
  tasks : x.session.life.Tasks
  front : ∀ c, x.written c ++ (x.writing c).toList ++ x.queue c <+: x.session.sent c
  whole : ∀ c, Open x.session.life c →
    x.session.sent c = x.written c ++ (x.writing c).toList ++ x.queue c
  idle : ∀ c, x.session.life.task c .writer = .stopped → x.writing c = none
  unsent : ∀ c, x.session.life.writeTx < c → x.session.sent c = []
  fits : ∀ c, ∀ msg ∈ x.written c, (prost.encode msg).length ≤ 65536

theorem streaming_start : Streaming prost (start cfg) :=
  ⟨Lifecycle.tasks_start, fun _ => List.prefix_refl _, fun _ _ => rfl, fun _ _ => rfl,
    fun _ _ => rfl,
    fun _ _ hmem => absurd hmem List.not_mem_nil⟩

theorem Streaming.session (h : Streaming prost x) (hs : Session.Step serde cfg x.session a s) :
    Streaming prost (x.afterSession s) := by
  have ht' := tasks_of_session_step h.tasks hs
  have hle := writeTx_of_session_step h.tasks hs
  -- before the step the accepted messages are these in a channel that is open after it
  have hbefore (c : Nat) (ho : Open s.life c) :
      x.session.sent c = x.written c ++ (x.writing c).toList ++ x.queue c := by
    rcases open_of_session_step h.tasks hs ho with ho | hnew
    · exact h.whole c ho
    · have hnil := h.unsent c (by omega)
      have hfront := h.front c
      rw [hnil] at hfront ⊢
      exact (List.prefix_nil.1 hfront).symm
  have hwhole (c : Nat) (ho : Open s.life c) : s.sent c = (x.afterSession s).written c ++
      ((x.afterSession s).writing c).toList ++ (x.afterSession s).queue c := by
    obtain ⟨new, hnew, -⟩ := sent_of_step hs c
    have hwriting : (x.afterSession s).writing c = x.writing c := by
      simp only [afterSession]
      split
      next hstop => exact (h.idle c (stopped_of_open h.tasks hs ho hstop)).symm
      next => rfl
    rw [hwriting]
    simp only [afterSession, if_pos ho]
    rw [hnew, List.drop_left, hbefore c ho, List.append_assoc _ _ new]
  refine ⟨ht', fun c => ?_, hwhole, fun c hstop => if_pos hstop, fun c hc => ?_, h.fits⟩
  · by_cases ho : Open s.life c
    · exact hwhole c ho ▸ List.prefix_refl _
    · obtain ⟨new, hnew, hopen⟩ := sent_of_step hs c
      obtain rfl := hopen.resolve_right ho
      simp only [afterSession, if_neg ho, List.append_nil]
      rw [hnew, List.append_nil]
      refine List.IsPrefix.trans ?_ (h.front c)
      rw [List.append_assoc, List.prefix_append_right_inj]
      split
      next => exact List.nil_prefix
      next => exact List.prefix_append _ _
  · obtain ⟨new, hnew, hopen⟩ := sent_of_step hs c
    have hlt : s.life.writeTx < c := hc
    rcases hopen with rfl | ho
    · have hnil := h.unsent c (by omega)
      change s.sent c = []
      rw [hnew, hnil, List.append_nil]
    · have hcur := open_current ht' ho
      omega

/-- A message is written only if the framing takes it. -/
theorem fits_of_writes {msg : CastMessage} (h : writes prost msg = true) :
    (prost.encode msg).length ≤ 65536 := by
  by_contra hsize
  obtain ⟨e, he⟩ := @Prost.writeMessage_of_oversized _ _ _ .accepting (Nat.lt_of_not_le hsize)
  rw [writes, he] at h
  contradiction

theorem writes_of_step (h : x.step prost serde cfg (.wrote c) = some x') {msg : CastMessage}
    (hw : x.writing c = some msg) : writes prost msg = true := by
  simp only [step, hw] at h
  exact (of_if h).1.2

theorem Streaming.step (h : Streaming prost x) (hstep : x.step prost serde cfg b = some x') :
    Streaming prost x' := by
  cases step_cases hstep with
  | session hready hs => exact h.session hs
  | @take c msg rest hq hw hrun =>
      obtain ⟨tasks, front, whole, idle, unsent, fits⟩ := h
      refine ⟨tasks, fun c' => ?_, fun c' ho => ?_, fun c' hstop => ?_, unsent, fits⟩
      · have hc := front c'
        by_cases heq : c' = c
        · subst heq
          simpa [hq, hw] using hc
        · simpa [heq] using hc
      · have hc := whole c' ho
        by_cases heq : c' = c
        · subst heq
          simpa [hq, hw] using hc
        · simpa [heq] using hc
      · have hne : c' ≠ c := fun heq => by
          subst heq
          rw [hrun] at hstop
          contradiction
        simpa [hne] using idle c' hstop
  | @wrote c msg hw hrun =>
      have hmsg := fits_of_writes (writes_of_step hstep hw)
      obtain ⟨tasks, front, whole, idle, unsent, fits⟩ := h
      refine ⟨tasks, fun c' => ?_, fun c' ho => ?_, fun c' hstop => ?_, unsent, fun c' m hm => ?_⟩
      · have hc := front c'
        by_cases heq : c' = c
        · subst heq
          simpa [hw] using hc
        · simpa [heq] using hc
      · have hc := whole c' ho
        by_cases heq : c' = c
        · subst heq
          simpa [hw] using hc
        · simpa [heq] using hc
      · have hne : c' ≠ c := fun heq => by
          subst heq
          rw [hrun] at hstop
          contradiction
        simpa [hne] using idle c' hstop
      · simp only [Function.update_apply] at hm
        split at hm
        next =>
          rcases List.mem_append.1 hm with hm | hm
          · exact fits c m hm
          · rw [List.mem_singleton.1 hm]
            exact hmsg
        next => exact fits c' m hm

theorem streaming_of_run (h : (system prost serde cfg).Reachable x) : Streaming prost x :=
  Run.invariant h streaming_start fun _ _ _ hi _ hs => hi.step hs

/-! ## what the device reads -/

/-- The message each writer was writing when it ended. -/
def recordCut (cut : Nat → Option CastMessage) (x : Flushing) (a : FlushAct) (x' : Flushing) :
    Nat → Option CastMessage :=
  match a with
  | .session _ => fun c =>
      match x.writing c, x'.writing c with
      | some msg, none => some msg
      | _, _ => cut c
  | _ => cut

/-- The client, its writers and the messages they have left half-written. -/
def wireSystem (prost : Prost CastMessage) (serde : SerdeJson) (cfg : ClientConfig) :
    TransitionSystem (Flushing × (Nat → Option CastMessage)) FlushAct :=
  (system prost serde cfg).observe (fun _ => none) recordCut

/-- What has gone out on a connection: the frames of the messages written, and of the
message being written, or left half-written, as much as a socket takes that breaks after
`room` bytes. -/
def onSocket (prost : Prost CastMessage) (x : Flushing × (Nat → Option CastMessage))
    (c room : Nat) :
    List UInt8 :=
  (x.1.written c).flatMap prost.frame ++ ((x.1.writing c).or (x.2 c)).elim [] fun msg =>
    (prost.writeMessage ⟨[], some (room, .brokenPipe)⟩ msg).2.sent

/-- A message that was left half-written is the next of those accepted, on a channel that
stays closed. -/
def Cuts (x : Flushing) (cut : Nat → Option CastMessage) : Prop :=
  ∀ c msg, cut c = some msg → ¬ Open x.session.life c ∧ c ≤ x.session.life.writeTx ∧
    x.writing c = none ∧ x.queue c = [] ∧ x.written c ++ [msg] <+: x.session.sent c

variable {cut : Nat → Option CastMessage} {msg : CastMessage}

/-- A writer that ends leaves the message it is writing. -/
theorem cut_cases (h : recordCut cut x (.session a) x' c = some msg) :
    cut c = some msg ∨ x.writing c = some msg ∧ x'.writing c = none := by
  simp only [recordCut] at h
  split at h
  next hw hw' => exact .inr ⟨hw.trans h, hw'⟩
  next => exact .inl h

theorem Cuts.session (h : Cuts x cut) (hstream : Streaming prost x)
    (hs : Session.Step serde cfg x.session a s) :
    Cuts (x.afterSession s) (recordCut cut x (.session a) (x.afterSession s)) := by
  intro c msg hcut
  have hle := writeTx_of_session_step hstream.tasks hs
  obtain ⟨new, hnew, hopen⟩ := sent_of_step hs c
  -- the writer has just ended with the message, or had ended before
  have hcases : ¬ Open s.life c ∧ c ≤ x.session.life.writeTx ∧
      x.written c ++ [msg] <+: x.session.sent c := by
    rcases cut_cases hcut with hold | ⟨hw, hw'⟩
    · obtain ⟨hclosed, hc, -, -, hfront⟩ := h c msg hold
      refine ⟨fun ho => ?_, hc, hfront⟩
      rcases open_of_session_step hstream.tasks hs ho with ho | rfl
      · exact hclosed ho
      · omega
    · have hstop : s.life.task c .writer = .stopped := by
        by_contra hrun
        simp only [afterSession, if_neg hrun, hw] at hw'
        contradiction
      have hran : x.session.life.task c .writer ≠ .stopped := by
        intro hstop'
        rw [hstream.idle c hstop'] at hw
        contradiction
      refine ⟨fun ho => hran (stopped_of_open hstream.tasks hs ho hstop), ?_, ?_⟩
      · exact Nat.le_of_eq (open_current hstream.tasks (.inl hran))
      · have hfront := hstream.front c
        rw [hw] at hfront
        exact (List.prefix_append _ _).trans hfront
  obtain ⟨hclosed, hc, hfront⟩ := hcases
  refine ⟨hclosed, Nat.le_trans hc hle, ?_, if_neg hclosed, ?_⟩
  · exact if_pos (not_not.1 fun hrun => hclosed (.inl hrun))
  · change x.written c ++ [msg] <+: s.sent c
    rw [hnew]
    exact hfront.trans (List.prefix_append _ _)

theorem Cuts.step (h : Cuts x cut) (hstream : Streaming prost x)
    (hs : Step prost serde cfg x b x') : Cuts x' (recordCut cut x b x') := by
  cases hs with
  | session hready hs => exact h.session hstream hs
  | @take d m rest hq hw hrun =>
      intro c msg hcut
      obtain ⟨hclosed, hc, hwriting, hqueue, hfront⟩ := h c msg hcut
      have hne : c ≠ d := by
        rintro rfl
        rw [hq] at hqueue
        contradiction
      refine ⟨hclosed, hc, ?_, ?_, hfront⟩
      · rw [← hwriting]; exact Function.update_of_ne hne ..
      · rw [← hqueue]; exact Function.update_of_ne hne ..
  | @wrote d m hw hrun =>
      intro c msg hcut
      obtain ⟨hclosed, hc, hwriting, hqueue, hfront⟩ := h c msg hcut
      have hne : c ≠ d := by
        rintro rfl
        rw [hw] at hwriting
        contradiction
      refine ⟨hclosed, hc, ?_, hqueue, ?_⟩
      · rw [← hwriting]; exact Function.update_of_ne hne ..
      · simpa [Function.update_of_ne hne] using hfront

theorem cuts_of_run {y : Flushing × (Nat → Option CastMessage)}
    (h : (wireSystem prost serde cfg).Reachable y) : Cuts y.1 y.2 := by
  refine h.invariant_observed (I := Cuts) (fun _ hx => streaming_of_run hx) ?_ ?_
  · intro c msg hcut
    contradiction
  · intro x cut b x' hstream hi _ hs
    exact hi.step hstream (step_cases hs)

/-- **The device reads what was accepted**: in every reachable state, however much of the
message at hand has gone out and wherever the stream of a connection is cut, the device
reads of it an initial segment of the messages that were accepted on this connection, in
their order, and nothing else. -/
theorem device_reads_accepted {y : Flushing × (Nat → Option CastMessage)}
    (h : (wireSystem prost serde cfg).Reachable y) (c : Nat)
    (hencodes : ∀ m ∈ y.1.session.sent c, prost.Encodes m) (room n : Nat) :
    ∃ k, prost.readAll ((onSocket prost y c room).take n) =
      ((y.1.session.sent c).take k, .disconnected) := by
  have hs : Streaming prost y.1 := streaming_of_run (h.unobserved fun _ _ _ => trivial)
  have hcuts := cuts_of_run h
  -- the bytes are a part of the frames of an initial segment of the messages
  have hbytes : ∃ ms m, onSocket prost y c room = (ms.flatMap prost.frame).take m ∧
      ms <+: y.1.session.sent c ∧ ∀ msg ∈ ms, (prost.encode msg).length ≤ 65536 := by
    have hwritten : y.1.written c <+: y.1.session.sent c := by
      refine List.IsPrefix.trans ?_ (hs.front c)
      rw [List.append_assoc]
      exact List.prefix_append _ _
    cases hhand : (y.1.writing c).or (y.2 c) with
    | none =>
        refine ⟨y.1.written c, ((y.1.written c).flatMap prost.frame).length, ?_, hwritten,
          hs.fits c⟩
        rw [onSocket, hhand, Option.elim_none, List.append_nil, List.take_length]
    | some msg =>
        have hnext : y.1.written c ++ [msg] <+: y.1.session.sent c := by
          cases hw : y.1.writing c with
          | none =>
              rw [hw] at hhand
              exact (hcuts c msg hhand).2.2.2.2
          | some m =>
              rw [hw] at hhand
              obtain rfl := Option.some.inj hhand
              have hfront := hs.front c
              rw [hw] at hfront
              exact (List.prefix_append _ _).trans hfront
        obtain ⟨m, hsent, hfits, -⟩ :=
          Prost.sent_writeMessage prost ⟨[], some (room, .brokenPipe)⟩ msg
        rw [List.nil_append] at hsent
        rw [onSocket, hhand, Option.elim_some, hsent]
        rcases hfits with hfits | rfl
        · refine ⟨y.1.written c ++ [msg], ((y.1.written c).flatMap prost.frame).length + m, ?_,
            hnext, fun x hx => ?_⟩
          · simp [List.take_append]
          · rcases List.mem_append.1 hx with hx | hx
            · exact hs.fits c x hx
            · rw [List.mem_singleton.1 hx]
              exact hfits
        · exact ⟨y.1.written c, ((y.1.written c).flatMap prost.frame).length, by simp, hwritten,
            hs.fits c⟩
  obtain ⟨ms, m, hsocket, hfront, hfits⟩ := hbytes
  obtain ⟨k, hk, -⟩ := Reader.within_eq_take prost.frame ms (min n m)
  refine ⟨min k ms.length, ?_⟩
  rw [hsocket, List.take_take,
    Prost.readAll_take (fun x hx => hencodes x (hfront.subset hx)) hfits,
    hk, ← List.take_take, ← List.prefix_iff_eq_take.1 hfront]

/-- A writer is aborted while it writes the CLOSE of its connection. -/
def abortedActs : List FlushAct :=
  closeActs ++ [.take 0] ++
    [LifecycleAct.flagDead 0, .lockHandles (.disconnect 0), .noticeAbort 0 .reader, .awaitHandle,
      .noticeAbort 0 .writer].map fun b => .session (.life b)

/-- The messages of that connection, and prost for them. -/
def connectAndClose : List CastMessage :=
  [connectMsg launchSerde Ns.receiverId,
    (Operation.close launchSerde).message 0 Call.fresh.target]

set_option maxRecDepth 4000 in
theorem encodes_connectAndClose :
    ∀ m ∈ connectAndClose, (Prost.ofMessages connectAndClose).Encodes m := by
  simp only [connectAndClose, List.forall_mem_cons]
  exact ⟨Prost.encodes_ofMessages (by decide), Prost.encodes_ofMessages (by decide), by simp⟩

set_option maxRecDepth 8000 in
/-- Sixty bytes of the CLOSE have gone out. -/
theorem device_reads_aborted :
    ∃ y, (wireSystem (.ofMessages connectAndClose) launchSerde Lifecycle.autoCfg).exec
        (start Lifecycle.autoCfg, fun _ => none) abortedActs = some y ∧
      (y.2 0).isSome ∧ ∀ n, ∃ k, (Prost.ofMessages connectAndClose).readAll
        ((onSocket (.ofMessages connectAndClose) y 0 60).take n) =
          ((y.1.session.sent 0).take k, .disconnected) := by
  have hrun := reachable_of_exec
    (M := wireSystem (.ofMessages connectAndClose) launchSerde Lifecycle.autoCfg) abortedActs rfl
  refine ⟨_, rfl, rfl, device_reads_accepted hrun 0 ?_ 60⟩
  exact encodes_connectAndClose

end Oxicast.Flushing
