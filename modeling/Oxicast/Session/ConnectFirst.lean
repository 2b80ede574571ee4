import Oxicast.Session.Reconnect

/-!
# Oxicast.Session.ConnectFirst

CONNECT before use, on every connection.

A device accepts messages for a destination only after a CONNECT to it.  The
first one of a connection is sent by `from_builder` or the reconnect, well
after the write channel has been published; the ones to an app's transport are
sent by the launch and by every later reconnect.  What a call has read of the
transport is good for one connection only, the one it was read for.
-/

namespace Oxicast.Session

open TransitionSystem Lifecycle Ns

variable {serde : SerdeJson} {cfg : ClientConfig} {s s' : Session} {a : SessionAct} {r c : Nat}
  {msgs : List CastMessage} {msg : CastMessage} {tid : String}

/-! ## sequences of messages -/

/-- The first message is CONNECT to receiver-0, and every message to another
destination is CONNECT to it or comes after one. -/
structure ConnectsFirst (serde : SerdeJson) (msgs : List CastMessage) : Prop where
  first : ∀ m, msgs.head? = some m → m = connectMsg serde receiverId
  opened : ∀ (i : Nat) m, msgs[i]? = some m → m.destinationId ≠ receiverId →
    m = connectMsg serde m.destinationId ∨ connectMsg serde m.destinationId ∈ msgs.take i

theorem connectsFirst_nil : ConnectsFirst serde [] := by
  constructor <;> simp

theorem ConnectsFirst.snoc (h : ConnectsFirst serde msgs)
    (hfirst : msgs = [] → msg = connectMsg serde receiverId)
    (hopened : msg.destinationId ≠ receiverId → msg = connectMsg serde msg.destinationId ∨
      connectMsg serde msg.destinationId ∈ msgs) : ConnectsFirst serde (msgs ++ [msg]) := by
  constructor
  · intro m hm
    cases msgs with
    | nil =>
        obtain rfl : msg = m := by simpa using hm
        exact hfirst rfl
    | cons x xs => exact h.first m (by simpa using hm)
  · intro i m hi hdest
    by_cases hlt : i < msgs.length
    · rw [List.getElem?_append_left hlt] at hi
      rw [List.take_append_of_le_length (Nat.le_of_lt hlt)]
      exact h.opened i m hi hdest
    · obtain ⟨hlen, hm⟩ := List.getElem?_eq_some_iff.1 hi
      obtain rfl : i = msgs.length := by simp at hlen; omega
      obtain rfl : msg = m := by simpa using hm
      rw [List.take_left]
      exact hopened hdest

/-- CONNECT can be sent to any destination at any time, but to receiver-0 first. -/
theorem ConnectsFirst.connect (h : ConnectsFirst serde msgs) (tid : String)
    (hfirst : msgs = [] → tid = receiverId) :
    ConnectsFirst serde (msgs ++ [connectMsg serde tid]) :=
  h.snoc (fun hnil => by rw [hfirst hnil]) fun _ => .inl rfl

@[grind =] theorem push_apply (s : Session) (c x : Nat) (msg : CastMessage) :
    s.push c msg x = if x = c then s.sent c ++ [msg] else s.sent x := by
  simp [push, Function.update_apply]

/-! ## the stage of a connection -/

theorem open_iff_stage {life : Lifecycle} :
    Open life c ↔ life.task c .writer ≠ .stopped ∨ c = life.writeTx ∧ life.stage = .fresh := by
  refine or_congr_right (and_congr_right fun _ => ?_)
  cases hr : life.reconnecting with
  | none => simp only [stage, hr, Option.map_none]; split <;> simp
  | some f =>
      simp only [stage_of_some hr, Option.map_some, Option.some.injEq]
      cases f.pc <;> simp [ReconnectPc.stage]

theorem resending_eq_some_iff {life : Lifecycle} :
    resending life = some tid ↔ life.stage = .resending tid := by
  cases hr : life.reconnecting with
  | none => simp only [resending, stage, hr, Option.bind_none]; split <;> simp
  | some f =>
      rw [stage_of_some hr, resending, hr, Option.bind_some]
      cases f.pc <;> simp [ReconnectPc.stage]

/-- Only the current channel is open. -/
theorem open_current {life : Lifecycle} (ht : life.Tasks) (h : Open life c) : c = life.writeTx :=
  h.elim (fun hrun => (ht.owned c .writer hrun).1) And.left

/-- A closed channel stays closed; only the publication of a write channel opens
a new one. -/
theorem open_of_passage {l l' : Lifecycle} {b : LifecycleAct} (hp : Passage l l' b)
    (h : Open l' c) : Open l c ∨ c = l.writeTx + 1 := by
  rw [open_iff_stage] at h ⊢
  cases hp with
  | keep ha hs hw =>
      exact .inl (h.imp (fun hrun hstop => hrun (hw.stopped c _ hstop))
        (And.imp (·.trans hw.writeTx) (hs.symm.trans ·)))
  | swapWriteTx hs hs' hw ht hd =>
      exact h.elim (fun hrun => .inl (.inl (ht ▸ hrun))) fun ⟨hc, _⟩ => .inr (hc.trans hw)
  | clearAndSpawn hs hs' hw ht hd =>
      simp only [ht, hs'] at h
      grind
  | builderSent hs hs' hw h0 => exact .inl (.inl fun hstop => by simp_all [hw.stopped c _ hstop])
  | connectSent hs hs' hw => exact .inl (.inl fun hstop => by simp_all [hw.stopped c _ hstop])
  | @readTransport tid hs hs' hw =>
      have hne : l'.stage ≠ .fresh := by rw [hs']; cases tid <;> simp
      exact .inl (.inl fun hstop => by simp_all [hw.stopped c _ hstop])
  | transportSent hs hs' hw hlive =>
      exact .inl (.inl fun hstop => by simp_all [hw.stopped c _ hstop])
  | giveUp ha hs hw hgone => exact .inl (.inl fun hstop => by simp_all [hw.stopped c _ hstop])

/-! ## what the queues hold -/

/-- The call holds the transport it has read. -/
def CallPc.Holding : CallPc → Prop
  | .readSession | .readMediaSession | .register | .send .request | .enqueue .request _ => True
  | _ => False

/-- A call that starts holds no transport yet, -/
theorem CallPc.Begun.not_holding {op : Operation} {pc : CallPc} (h : Begun op pc)
    (hreads : op.reads ≠ .nothing) : ¬ Holding pc := by
  cases pc with
  | send what => cases what <;> simp_all [Begun]
  | _ => simp_all [Begun, Holding]

/-- and one that has its answer holds none any more. -/
theorem CallPc.Answered.not_holding {pc : CallPc} (h : Answered pc) : ¬ Holding pc := by
  cases pc with
  | send what => cases what <;> simp_all [Answered, Holding]
  | _ => simp_all [Answered, Holding]

theorem CallPc.holding_enqueue {what : Outgoing} :
    Holding (.enqueue what c) ↔ Holding (.send what) := by
  cases what <;> rfl

/-- Only typed methods are called.  No message of a user is accepted between the
publication of a write channel and its first CONNECT.  What an operation has
read of the transport was read for the connection that accepts its message, or
the reconnect to that one has read the same and sent its CONNECT.  A launch
records its transport only if its CONNECT went to the connection whose reconnect
has read `transport_id` last, or that reconnect has read the same transport, or
that connection is gone. -/
def InOrder (serde : SerdeJson) (s : Session) : SessionAct → Prop
  | .begin _ op => Operation.Typed serde op
  | .accept r => s.life.stage ≠ .fresh ∧ s.life.stage ≠ .unopened ∧
      ((s.calls r).op.reads = .nothing ∨ ∀ c, (s.calls r).pc = .enqueue .request c →
        (s.calls r).epoch = c ∨
          s.reopened c = some (s.calls r).target.transportId ∧ resending s.life = none)
  | .storeTransport r => ∀ app, (s.calls r).pc = .storeTransport app → Open s.life s.opened →
      (s.calls r).connectedOn = some s.opened ∨ s.reopened s.opened = some app.transportId
  | _ => True

theorem sentAfter_of_quiet {b : LifecycleAct} (hb : Quiet b) : s.sentAfter serde b = s.sent := by
  cases b <;> first | rfl | contradiction

/-- What the queues hold, and where the CONNECT to the recorded transport is. -/
structure Queues (serde : SerdeJson) (s : Session) : Prop where
  ordered : ∀ c, ConnectsFirst serde (s.sent c)
  unsent : ∀ c, s.life.writeTx < c → s.sent c = []
  started : s.life.task s.life.writeTx .writer ≠ .stopped →
    s.life.stage = .unopened ∨ s.sent s.life.writeTx ≠ []
  lagging : s.opened ≤ s.life.writeTx
  reread : ∀ c, s.reopened c ≠ none → c ≤ s.opened
  recorded : ∀ tid, s.transportId = some tid ∨ s.reopened s.opened = some tid →
    Open s.life s.opened →
    connectMsg serde tid ∈ s.sent s.opened ∨ s.life.stage = .resending tid

/-- What the calls have read or are about to record. -/
structure Records (serde : SerdeJson) (s : Session) : Prop where
  held : ∀ r, (s.calls r).op.reads ≠ .nothing → CallPc.Holding (s.calls r).pc →
    (s.calls r).epoch ≤ s.life.writeTx ∧ (Open s.life (s.calls r).epoch →
      connectMsg serde (s.calls r).target.transportId ∈ s.sent (s.calls r).epoch)
  launched : ∀ r app, (s.calls r).pc = .storeTransport app →
    ∃ c, (s.calls r).connectedOn = some c ∧ connectMsg serde app.transportId ∈ s.sent c
  typed : ∀ r, (s.calls r).pc ≠ .idle → Operation.Typed serde (s.calls r).op

theorem queues_start : Queues serde (start cfg) := by
  constructor <;> simp [start, Lifecycle.start, stage, connectsFirst_nil]

theorem records_start : Records serde (start cfg) := by
  constructor <;> simp [start, Call.fresh, CallPc.Holding]

/-! ### the lifecycle -/

/-- The calls keep all they hold in a step of the lifecycle. -/
theorem callsAfter_eq (s : Session) (b : LifecycleAct) (x : Nat) :
    ∃ killedBy, s.callsAfter b x = { s.calls x with killedBy } := by
  cases b <;> simp only [callsAfter] <;> try exact ⟨_, rfl⟩
  split <;> exact ⟨_, rfl⟩

theorem mem_push {x : Nat} {m : CastMessage} (h : msg ∈ s.sent c) : msg ∈ s.push x m c := by
  rw [push_apply]; split <;> simp_all

theorem mem_sentAfter {b : LifecycleAct} (h : msg ∈ s.sent c) : msg ∈ s.sentAfter serde b c := by
  cases b with
  | builderSent => exact mem_push h
  | connectSent => exact mem_push h
  | transportSent =>
      simp only [sentAfter]
      cases resending s.life with
      | none => exact h
      | some tid => exact mem_push h
  | _ => exact h

theorem Records.mono (h : Records serde s)
    (hcalls : ∀ x, ∃ killedBy, s'.calls x = { s.calls x with killedBy })
    (hsent : ∀ c msg, msg ∈ s.sent c → msg ∈ s'.sent c)
    (hle : s.life.writeTx ≤ s'.life.writeTx)
    (hopen : ∀ c, Open s'.life c → Open s.life c ∨ c = s.life.writeTx + 1) : Records serde s' := by
  obtain ⟨held, launched, typed⟩ := h
  constructor
  · intro r hreads hpc
    obtain ⟨killedBy, heq⟩ := hcalls r
    rw [heq] at hreads hpc ⊢
    obtain ⟨hepoch, hmem⟩ := held r hreads hpc
    refine ⟨Nat.le_trans hepoch hle, fun ho => hsent _ _ ?_⟩
    rcases hopen _ ho with ho | hnew
    · exact hmem ho
    · simp only at hnew; omega
  · intro r app hpc
    obtain ⟨killedBy, heq⟩ := hcalls r
    rw [heq] at hpc ⊢
    obtain ⟨c, hc, hmem⟩ := launched r app hpc
    exact ⟨c, hc, hsent _ _ hmem⟩
  · intro r hpc
    obtain ⟨killedBy, heq⟩ := hcalls r
    rw [heq] at hpc ⊢
    exact typed r hpc

theorem Queues.life {b : LifecycleAct} {life : Lifecycle} (h : Queues serde s)
    (ht : s.life.Tasks) (hb : Plain b) (hs : Lifecycle.Step cfg s.life b life) :
    Queues serde (s.afterLife serde b life) := by
  have hpass := passage_of_step ht hs
  have hopen := open_of_passage (c := s.opened) hpass
  have hcur := open_current (c := s.opened) ht
  have howned (x : Nat) (hx : s.life.task x .writer ≠ .stopped) : x = s.life.writeTx :=
    (ht.owned x .writer hx).1
  obtain ⟨ordered, unsent, started, lagging, reread, recorded⟩ := h
  cases hpass with
  | keep hq hst hw =>
      obtain ⟨hw, hstop, hrun, -⟩ := hw
      constructor <;> simp only [afterLife, sentAfter_of_quiet hq] <;> grind
  | swapWriteTx hst hst' hw htask hd =>
      constructor <;> simp only [afterLife, sentAfter]
      case started =>
        intro hrun
        rw [htask, hw] at hrun
        have := howned _ hrun
        omega
      all_goals grind
  | clearAndSpawn hst hst' hw htask hd =>
      constructor <;> simp only [afterLife, sentAfter] <;> grind
  | builderSent hst hst' hw h0 =>
      obtain ⟨hw, hstop, hrun, -⟩ := hw
      have hfirst := (ordered 0).connect receiverId fun _ => rfl
      constructor <;> simp only [afterLife, sentAfter]
      case started => intro _; rw [hw, h0, push_apply, if_pos rfl]; simp
      all_goals grind
  | connectSent hst hst' hw =>
      obtain ⟨hw, hstop, hrun, -⟩ := hw
      have hfirst := (ordered s.life.writeTx).connect receiverId fun _ => rfl
      constructor <;> simp only [afterLife, sentAfter]
      case started => intro _; rw [hw, push_apply, if_pos rfl]; simp
      all_goals grind
  | readTransport hst hst' hw => contradiction
  | @transportSent tid hst hst' hw hlive =>
      obtain ⟨hw, hstop, hrun, -⟩ := hw
      have hre := resending_eq_some_iff.2 hst
      have hsome : s.sent s.life.writeTx ≠ [] := (started hlive).resolve_left (by simp [hst])
      have hnext := (ordered s.life.writeTx).connect tid fun hnil => absurd hnil hsome
      constructor <;> simp only [afterLife, sentAfter, hre]
      case started => intro _; rw [hw, push_apply, if_pos rfl]; simp
      all_goals grind
  | giveUp hq hst hw hgone =>
      obtain ⟨hw, hstop, hrun, -⟩ := hw
      have hclosed : ¬ Open life s.opened := by
        intro h
        have hlast : s.opened = s.life.writeTx := by
          rcases hopen h with ho | hnew
          · exact hcur ho
          · omega
        simp [open_iff_stage, hst, hlast, hstop _ _ hgone] at h
      constructor <;> simp only [afterLife, sentAfter_of_quiet hq] <;> grind

/-- The reconnect reads `transport_id`, and CONNECT to it is outstanding from then on. -/
theorem Queues.afterReadTransport {life : Lifecycle} (h : Queues serde s) (ht : s.life.Tasks)
    (hs : Lifecycle.Step cfg s.life (.readTransport s.transportId) life) :
    Queues serde (s.afterReadTransport life) := by
  have hpass := passage_of_step ht hs
  obtain ⟨ordered, unsent, started, lagging, reread, recorded⟩ := h
  cases hpass with
  | keep hq => contradiction
  | giveUp hq => contradiction
  | readTransport hst hst' hw =>
      obtain ⟨hw, hstop, hrun, -⟩ := hw
      constructor <;> simp only [Session.afterReadTransport]
      case reread => grind [Function.update_apply]
      case recorded =>
        intro tid htid hopen
        have htid : s.transportId = some tid := by simpa using htid
        exact .inr (by rw [hst', htid]; rfl)
      all_goals grind

/-! ### the calls -/

/-- Nothing of what the records depend on has changed. -/
theorem Records.congr (h : Records serde s) (hcalls : s'.calls = s.calls) (hsent : s'.sent = s.sent)
    (hle : s.life.writeTx ≤ s'.life.writeTx) (hopen : ∀ c, Open s'.life c → Open s.life c) :
    Records serde s' :=
  h.mono (fun x => ⟨(s.calls x).killedBy, by rw [hcalls]⟩) (fun c m hm => by rw [hsent]; exact hm)
    hle fun c hc => .inl (hopen c hc)

theorem Records.move {f : Call → Call} (h : Records serde s)
    (hheld : (f (s.calls r)).op.reads ≠ .nothing → CallPc.Holding (f (s.calls r)).pc →
      (f (s.calls r)).epoch ≤ s.life.writeTx ∧ (Open s.life (f (s.calls r)).epoch →
        connectMsg serde (f (s.calls r)).target.transportId ∈ s.sent (f (s.calls r)).epoch))
    (hlaunched : ∀ app, (f (s.calls r)).pc = .storeTransport app →
      ∃ c, (f (s.calls r)).connectedOn = some c ∧ connectMsg serde app.transportId ∈ s.sent c)
    (htyped : (f (s.calls r)).pc ≠ .idle → Operation.Typed serde (f (s.calls r)).op) :
    Records serde { s with calls := s.setCall r f } := by
  constructor <;> intro x <;> simp only [setCall_apply] <;> split
  next => exact hheld
  next => exact h.held x
  next => exact hlaunched
  next => exact h.launched x
  next => exact htyped
  next => exact h.typed x

/-- A call goes on with what it holds, if it still holds it. -/
theorem Records.goto {pc : CallPc} (h : Records serde s) (hidle : (s.calls r).pc ≠ .idle)
    (hholding : CallPc.Holding pc → CallPc.Holding (s.calls r).pc)
    (hstore : ∀ app, pc ≠ .storeTransport app) : Records serde (s.goto r pc) :=
  h.move (fun hreads hpc => h.held r hreads (hholding hpc)) (fun app heq => absurd heq (hstore app))
    fun _ => h.typed r hidle

/-- A transport that is read while no reconnect is resending has its CONNECT in
the queue of the connection it was read for. -/
theorem Queues.connected (h : Queues serde s) (hfree : resending s.life = none)
    (htid : s.transportId = some tid) (hopen : Open s.life s.opened) :
    connectMsg serde tid ∈ s.sent s.opened := by
  refine (h.recorded tid (.inl htid) hopen).resolve_right ?_
  rw [← resending_eq_some_iff, hfree]
  simp

theorem Records.step (h : Records serde s) (hq : Queues serde s) (ht : s.life.Tasks)
    (hok : InOrder serde s a) (hs : Step serde cfg s a s') : Records serde s' := by
  have hh := h
  -- what a step on the requests or the cells alone makes of the records
  have keep {requests : Requests} {mediaSessionId : Int32} {transportId sessionId : Option String} :
      Records serde { s with requests, mediaSessionId, transportId, sessionId } :=
    h.congr rfl rfl (Nat.le_refl _) fun _ => id
  cases hs with
  | life hb h =>
      have hpass := passage_of_step ht h
      exact hh.mono (callsAfter_eq s _) (fun _ _ => mem_sentAfter) hpass.writeTx_le
        fun _ => open_of_passage hpass
  | lifeReadTransport h =>
      have hpass := passage_of_step ht h
      exact hh.mono (fun x => ⟨_, rfl⟩) (fun _ _ => id) hpass.writeTx_le
        fun _ => open_of_passage hpass
  | route h => exact hh.congr rfl rfl (Nat.le_refl _) fun _ => id
  | @begin r op hb h =>
      obtain ⟨pc, heq, hpc⟩ := Session.begin_eq s r op
      rw [heq]
      refine hh.move (fun hreads hhold => absurd hhold (hpc.not_holding hreads))
        (fun app happ => ?_)
        fun _ => hok
      rw [show pc = .storeTransport app from happ] at hpc
      exact hpc.elim
  | @readTransport r h hfree =>
      have htyped := hh.typed r (by simp [h])
      obtain ⟨-, heq⟩ | ⟨tid, pc, htid, hafter, heq⟩ := s.readTransport_eq r
      · rw [heq]
        exact hh.goto (by simp [h]) False.elim nofun
      · rw [heq]
        refine hh.move (fun _ _ => ⟨hq.lagging, hq.connected hfree htid⟩) (fun app happ => ?_)
          fun _ => htyped
        rw [show pc = .storeTransport app from happ] at hafter
        exact hafter.elim
  | @readSession r h =>
      unfold Session.readSession
      split
      · exact hh.goto (by simp [h]) False.elim nofun
      · exact hh.move (fun hreads _ => hh.held r hreads (by rw [h]; trivial)) nofun
          fun _ => hh.typed r (by simp [h])
  | @readMediaSession r h =>
      unfold Session.readMediaSession
      split
      · exact hh.move (fun hreads _ => hh.held r hreads (by rw [h]; trivial)) nofun
          fun _ => hh.typed r (by simp [h])
      · exact hh.goto (by simp [h]) False.elim nofun
  | increment h hq => exact keep
  | incrementAgain h hq => exact keep
  | insert h hq => exact keep.goto (by simp [h]) (fun _ => by rw [h]; trivial) nofun
  | @cloneWriteTx r what h =>
      exact hh.goto (by simp [h])
        (fun hhold => by rw [h]; exact CallPc.holding_enqueue.1 hhold) nofun
  | @accept r c what h hopen =>
      have hpush (m : CastMessage) : Records serde { s with sent := s.push c m } :=
        hh.mono (fun x => ⟨_, rfl⟩) (fun _ _ => mem_push) (Nat.le_refl _) fun _ => .inl
      have htyped := hh.typed r (by simp [h])
      cases what with
      | request =>
          refine (hpush (s.message r)).move (r := r) (f := fun call =>
            { call with
              acceptedOn := some c
              pc := if call.op.answered then .wait else .ended (some (.ok .unit)) })
            (fun _ hhold => ?_) (fun app happ => ?_) fun _ => htyped
          · dsimp only at hhold
            split at hhold <;> exact hhold.elim
          · dsimp only at happ
            split at happ <;> contradiction
      | connect app =>
          refine (hpush (connectMsg serde app.transportId)).move (r := r) (f := fun call =>
            { call with connectedOn := some c, pc := .storeTransport app })
            (fun _ => False.elim) (fun app' happ => ?_) fun _ => htyped
          obtain rfl : app = app' := by simpa using happ
          exact ⟨c, rfl, by simp [push_apply]⟩
  | sendFailed h hopen => exact hh.goto (by simp [h]) False.elim nofun
  | @receive r n json q h hrx hq =>
      obtain ⟨m, pc, heq, hpc⟩ := Session.answer_eq { s with requests := q } r json
      rw [heq]
      refine keep.goto (by simp [h]) (fun hhold => absurd hhold hpc.not_holding) fun app happ => ?_
      rw [happ] at hpc
      exact hpc.elim
  | senderDropped h hq => exact keep
  | timeout h hq => exact keep
  | cleanup h hp hq => exact keep.goto (by simp [h]) False.elim nofun
  | appSeen h hbuf happ =>
      have hnext : Records serde { s with life := s.life.nextEvent } :=
        hh.congr rfl rfl (Nat.le_refl _) fun _ => id
      exact hnext.goto (by simp [h]) False.elim nofun
  | skipEvent h hbuf happ => exact hh.congr rfl rfl (Nat.le_refl _) fun _ => id
  | launchTimeout h => exact hh.goto (by simp [h]) False.elim nofun
  | storeTransport h hfree => exact keep.goto (by simp [h]) False.elim nofun
  | storeSession h => exact keep.goto (by simp [h]) False.elim nofun
  | clearTransport h hfree => exact keep.goto (by simp [h]) False.elim nofun
  | clearSession h => exact keep.goto (by simp [h]) False.elim nofun
  | drop hidle hend => exact hh.goto hidle False.elim nofun

/-- A step that leaves the queues and the recorded transport as they are. -/
theorem Queues.congr (h : Queues serde s) (hlife : s'.life = s.life) (hsent : s'.sent = s.sent)
    (htid : s'.transportId = s.transportId) (hopened : s'.opened = s.opened)
    (hre : s'.reopened = s.reopened) : Queues serde s' := by
  obtain ⟨ordered, unsent, started, lagging, reread, recorded⟩ := h
  constructor <;> simp only [hlife, hsent, htid, hopened, hre] <;> assumption

/-- One more message in the queue of an open connection that has its first CONNECT. -/
theorem Queues.push (h : Queues serde s) (ht : s.life.Tasks) (hopen : Open s.life c)
    (hfresh : s.life.stage ≠ .fresh) (hunopened : s.life.stage ≠ .unopened) (msg : CastMessage)
    (hdest : msg.destinationId ≠ receiverId → msg = connectMsg serde msg.destinationId ∨
      connectMsg serde msg.destinationId ∈ s.sent c) :
    Queues serde { s with sent := s.push c msg } := by
  obtain rfl := open_current ht hopen
  have hlive : s.life.task s.life.writeTx .writer ≠ .stopped :=
    (open_iff_stage.1 hopen).resolve_right fun hf => hfresh hf.2
  obtain ⟨ordered, unsent, started, lagging, reread, recorded⟩ := h
  have hsome : s.sent s.life.writeTx ≠ [] := (started hlive).resolve_left hunopened
  have hnext := (ordered s.life.writeTx).snoc (fun hnil => absurd hnil hsome) hdest
  constructor
  case started => intro _; simp [push_apply]
  all_goals grind

/-- What an operation sends to a transport comes after a CONNECT to it. -/
theorem connected_of_inOrder (h : Records serde s) (hq : Queues serde s) (ht : s.life.Tasks)
    (hpc : (s.calls r).pc = .enqueue .request c) (hopen : Open s.life c)
    (hok : InOrder serde s (.accept r)) (hdest : (s.message r).destinationId ≠ receiverId) :
    connectMsg serde (s.message r).destinationId ∈ s.sent c := by
  have htyped := h.typed r (by simp [hpc])
  obtain ⟨-, -, hreads⟩ := hok
  rw [Session.message, htyped.destination] at hdest ⊢
  split at hdest
  · contradiction
  next hne =>
    rw [if_neg hne]
    rcases hreads.resolve_left hne c hpc with hepoch | ⟨hre, hfree⟩
    · obtain ⟨-, hmem⟩ := h.held r hne (by simp [hpc, CallPc.Holding])
      rw [hepoch] at hmem
      exact hmem hopen
    · -- the reconnect to `c` has read the same transport, and is past its CONNECT
      have hlast : c = s.opened :=
        Nat.le_antisymm (hq.reread c (by simp [hre])) (open_current ht hopen ▸ hq.lagging)
      subst hlast
      refine (hq.recorded _ (.inr hre) hopen).resolve_right ?_
      rw [← resending_eq_some_iff, hfree]
      simp

theorem Queues.step (h : Queues serde s) (hr : Records serde s) (ht : s.life.Tasks)
    (hok : InOrder serde s a) (hs : Step serde cfg s a s') : Queues serde s' := by
  have hh := h
  obtain ⟨ordered, unsent, started, lagging, reread, recorded⟩ := h
  cases hs with
  | life hb h => exact hh.life ht hb h
  | lifeReadTransport h => exact hh.afterReadTransport ht h
  | route h => exact ⟨ordered, unsent, started, lagging, reread, recorded⟩
  | begin hb h => exact hh.congr rfl rfl rfl rfl rfl
  | readTransport h hfree =>
      unfold Session.readTransport; split <;> exact hh.congr rfl rfl rfl rfl rfl
  | readSession h => unfold Session.readSession; split <;> exact hh.congr rfl rfl rfl rfl rfl
  | readMediaSession h =>
      unfold Session.readMediaSession; split <;> exact hh.congr rfl rfl rfl rfl rfl
  | increment h hq => exact hh.congr rfl rfl rfl rfl rfl
  | incrementAgain h hq => exact hh.congr rfl rfl rfl rfl rfl
  | insert h hq => exact hh.congr rfl rfl rfl rfl rfl
  | cloneWriteTx h => exact hh.congr rfl rfl rfl rfl rfl
  | @accept r c what h hopen =>
      cases what with
      | request =>
          have hpush := hh.push ht hopen hok.1 hok.2.1 (s.message r) fun hdest =>
            .inr (connected_of_inOrder hr hh ht h hopen hok hdest)
          exact hpush.congr rfl rfl rfl rfl rfl
      | connect app =>
          have hpush := hh.push ht hopen hok.1 hok.2.1 (connectMsg serde app.transportId)
            fun _ => .inl rfl
          exact hpush.congr rfl rfl rfl rfl rfl
  | sendFailed h hopen => exact hh.congr rfl rfl rfl rfl rfl
  | @receive r n json q h hrx hq =>
      obtain ⟨m, pc, heq, hpc⟩ := Session.answer_eq { s with requests := q } r json
      rw [heq]
      exact hh.congr rfl rfl rfl rfl rfl
  | senderDropped h hq => exact hh.congr rfl rfl rfl rfl rfl
  | timeout h hq => exact hh.congr rfl rfl rfl rfl rfl
  | cleanup h hp hq => exact hh.congr rfl rfl rfl rfl rfl
  | appSeen h hbuf happ => exact ⟨ordered, unsent, started, lagging, reread, recorded⟩
  | skipEvent h hbuf happ => exact ⟨ordered, unsent, started, lagging, reread, recorded⟩
  | launchTimeout h => exact hh.congr rfl rfl rfl rfl rfl
  | @storeTransport r app h hfree =>
      obtain ⟨c, hc, hmem⟩ := hr.launched r app h
      refine ⟨ordered, unsent, started, lagging, reread, fun tid htid hopen => ?_⟩
      rcases htid with htid | htid
      · obtain rfl : app.transportId = tid := Option.some.inj htid
        rcases hok app h hopen with hlaunched | hre
        · exact .inl (Option.some.inj (hc.symm.trans hlaunched) ▸ hmem)
        · exact recorded _ (.inr hre) hopen
      · exact recorded tid (.inr htid) hopen
  | storeSession h => exact hh.congr rfl rfl rfl rfl rfl
  | clearTransport h hfree =>
      refine ⟨ordered, unsent, started, lagging, reread, fun tid htid hopen => ?_⟩
      exact recorded tid (htid.imp_left nofun) hopen
  | clearSession h => exact hh.congr rfl rfl rfl rfl rfl
  | drop hidle hend => exact hh.congr rfl rfl rfl rfl rfl

theorem opening_of_run (h : (system serde cfg).Run (InOrder serde) (start cfg) s) :
    Queues serde s ∧ Records serde s := by
  induction h with
  | refl => exact ⟨queues_start, records_start⟩
  | tail hrun hok hstep ih =>
      have ht := tasks_of_run hrun
      exact ⟨ih.1.step ih.2 ht hok (step_cases hstep), ih.2.step ih.1 ht hok (step_cases hstep)⟩

/-! ## CONNECT before use -/

/-- **CONNECT before use**: in every run whose steps are in order, the queue of
every connection starts with CONNECT to receiver-0 and holds a CONNECT before
anything else for a transport. -/
theorem connects_first (h : (system serde cfg).Run (InOrder serde) (start cfg) s) (c : Nat) :
    ConnectsFirst serde (s.sent c) :=
  (opening_of_run h).1.ordered c

def inOrderTest (s : Session) : SessionAct → Bool
  | .accept r => s.life.stage ≠ .fresh && s.life.stage ≠ .unopened &&
      ((s.calls r).op.reads = .nothing || match (s.calls r).pc with
        | .enqueue .request c => (s.calls r).epoch = c
        | _ => true)
  | .storeTransport r => (s.calls r).connectedOn = some s.opened
  | _ => true

theorem inOrder_of_test (h : inOrderTest s a = true)
    (htyped : ∀ r op, a = .begin r op → Operation.Typed serde op) : InOrder serde s a := by
  cases a with
  | begin r op => exact htyped r op rfl
  | accept r =>
      simp only [inOrderTest, Bool.and_eq_true, Bool.or_eq_true, decide_eq_true_eq] at h
      obtain ⟨⟨hfresh, hunopened⟩, hreads⟩ := h
      refine ⟨hfresh, hunopened, hreads.imp_right fun hepoch c hpc => ?_⟩
      rw [hpc] at hepoch
      exact .inl (of_decide_eq_true hepoch)
  | storeTransport r => exact fun app _ _ => .inl (of_decide_eq_true h)
  | _ => trivial

/-- A RECEIVER_STATUS that lists one app. -/
def launched : Json := .object [("requestId", .ofU32 1),
  ("status", .object [("applications", .array [.object [("appId", .string "CC1AD845"),
    ("sessionId", .string "s-1"), ("transportId", .string "web-1")]]), ("volume", .object [])]),
  ("type", .string msgReceiverStatus)]

/-- The serde_json that reads it. -/
def launchSerde : SerdeJson := .ofText launched.compact launched

/-- Operation 0 launches the app. -/
def launchActs : List SessionAct :=
  registerActs (.launchApp launchSerde "CC1AD845") ++
    [.accept 0, .route 0 (buildMessage nsReceiver receiverId senderId launched.compact), .receive 0,
      .cloneWriteTx 0, .accept 0, .storeTransport 0, .storeSession 0]

/-- The connection is lost and a reconnect opens the next one. -/
def reopenActs : List SessionAct :=
  (lostAndConnecting.drop 2 ++
    [LifecycleAct.tlsConnected, .swapWriteTx, .arm, .clearAndSpawn, .install,
    .connectSent, .readTransport (some "web-1"), .transportSent, .publishConnected]).map .life

/-- Operation 1 asks the app for its media status. -/
def mediaStatusActs : List SessionAct :=
  [.begin 1 (.mediaStatus launchSerde), .readTransport 1, .increment 1, .insert 1, .cloneWriteTx 1,
    .accept 1]

set_option maxRecDepth 8000 in
/-- After a launch and a reconnect, a request to the app comes third. -/
theorem connects_first_reopened :
    ∃ s, (system launchSerde autoCfg).execIf inOrderTest (start autoCfg)
        (launchActs ++ reopenActs ++ mediaStatusActs) = some s ∧
      (s.sent 1).map (·.destinationId) = [receiverId, "web-1", "web-1"] ∧
      ConnectsFirst launchSerde (s.sent 1) := by
  refine ⟨_, rfl, rfl, @connects_first launchSerde autoCfg _ (run_of_execIf_mem (p := inOrderTest)
    (launchActs ++ reopenActs ++ mediaStatusActs) (fun a ha x hx => inOrder_of_test hx ?_) rfl) 1⟩
  rintro r op rfl
  simp [launchActs, registerActs, reopenActs, lostAndConnecting, mediaStatusActs] at ha
  rcases ha with ⟨-, rfl⟩ | ⟨-, rfl⟩
  · exact .launchApp "CC1AD845"
  · exact .mediaStatus

/-- A GET_STATUS is accepted right after the write channel of a reconnect is
published, before any CONNECT. -/
theorem request_before_connect :
    ¬ ∀ (serde : SerdeJson) (cfg : ClientConfig) (s : Session) (c : Nat),
    (system serde cfg).Run (fun _ a => ∀ r op, a = .begin r op → Operation.Typed serde op)
      (start cfg) s → ConnectsFirst serde (s.sent c) := by
  intro h
  have hfirst := h (Router.answerSerde "STATE") autoCfg _ 1
    (run_of_execIf_mem (p := fun _ _ => true)
    (publishedActs ++ sendActs statusOp) (fun a ha _ _ r op heq => ?_) rfl)
  · have hm := congrArg CastMessage.ns (hfirst.first _ rfl)
    exact absurd hm (by decide)
  · subst heq
    simp [publishedActs, sendActs] at ha
    obtain ⟨-, rfl⟩ := ha
    exact .receiverStatus

end Oxicast.Session
