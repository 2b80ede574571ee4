import Oxicast.Lifecycle.Stage
import Oxicast.Session.Leak

/-!
# Oxicast.Session.Reconnect

What a reconnect does to the requests of its own new connection.

`clear` takes no account of connections, and it runs after the new write
channel has been published.  A request is safe on the new connection when its
entry is still in the map at the time its message is accepted, and `clear` is
over by then; nothing else takes the entry out while the connection is up.
-/

namespace Oxicast.Session

open TransitionSystem Lifecycle

variable {serde : SerdeJson} {cfg : ClientConfig} {s s' : Session} {a : SessionAct} {r c : Nat}

/-! ## serving -/

/-- Connection `c` is the current one and its reader runs, or a reconnect is
about to spawn it; nobody has called `disconnect`. -/
structure Serving (life : Lifecycle) (c : Nat) : Prop where
  current : c = life.writeTx
  reader : life.task c .reader = .running ∨ life.stage = .fresh
  undisturbed : ∀ d, life.disconnects d = .idle

/-- Connection `c` is up: its reader runs and nobody has called `disconnect`. -/
structure Up (life : Lifecycle) (c : Nat) : Prop where
  current : c = life.writeTx
  reader : life.task c .reader = .running
  undisturbed : ∀ d, life.disconnects d = .idle

theorem Up.serving {life : Lifecycle} (h : Up life c) : Serving life c :=
  ⟨h.current, .inl h.reader, h.undisturbed⟩

/-- A connection does not come back; only the publication of a write channel
makes a new one. -/
theorem serving_of_passage {l l' : Lifecycle} {b : LifecycleAct} (hp : Passage l l' b)
    (h : Serving l' c) : Serving l c ∨ c = l.writeTx + 1 := by
  obtain ⟨hc, hr, hd⟩ := h
  cases hp with
  | keep ha hs hw =>
      exact .inl ⟨hc.trans hw.writeTx, hs ▸ hr.imp_left (hw.running c _), hw.undisturbed hd⟩
  | swapWriteTx hs hs' hw ht hd' => exact .inr (hc.trans hw)
  | clearAndSpawn hs hs' hw ht hd' => exact .inl ⟨hc.trans hw, .inr hs, hd' ▸ hd⟩
  | builderSent hs hs' hw h0 =>
      exact .inl ⟨hc.trans hw.writeTx, .inl (hw.running c _ (by simpa [hs'] using hr)),
        hw.undisturbed hd⟩
  | connectSent hs hs' hw =>
      exact .inl ⟨hc.trans hw.writeTx, .inl (hw.running c _ (by simpa [hs'] using hr)),
        hw.undisturbed hd⟩
  | @readTransport tid hs hs' hw =>
      have hne : l'.stage ≠ .fresh := by rw [hs']; cases tid <;> simp
      exact .inl ⟨hc.trans hw.writeTx, .inl (hw.running c _ (hr.resolve_right hne)),
        hw.undisturbed hd⟩
  | transportSent hs hs' hw hlive =>
      exact .inl ⟨hc.trans hw.writeTx, .inl (hw.running c _ (by simpa [hs'] using hr)),
        hw.undisturbed hd⟩
  | giveUp ha hs hw hgone =>
      exact .inl ⟨hc.trans hw.writeTx, .inl (hw.running c _ (by simpa [hs] using hr)),
        hw.undisturbed hd⟩

/-- The reader that clears the tracker serves no longer, and nobody else does. -/
theorem not_serving_of_clearing {l l' : Lifecycle} {x : Nat} (ht : l.Tasks)
    (hx : l.task x .reader = .clearing) (hw : l'.writeTx = l.writeTx)
    (hrun : ∀ y, l'.task y .reader = .running → l.task y .reader = .running)
    (hs : l'.stage = l.stage) : ¬ Serving l' c := by
  rintro ⟨hc, hr | hf, -⟩
  · have hcur := (ht.owned x .reader (by simp [hx])).1
    have := hrun c hr
    rw [hc, hw, ← hcur, hx] at this
    contradiction
  · rw [ht.stopped_of_fresh (hs.symm.trans hf) x .reader] at hx
    contradiction

/-! ## the generations of requests -/

/-- A reconnect clears no entry whose message its own channel has accepted, no
channel accepts a message whose entry has been cleared before, and no request
takes another's entry out of the map. -/
def KeepsNew (s : Session) : SessionAct → Prop
  | .life .clearAndSpawn =>
      ∀ r, s.requests.Holds r → (s.calls r).acceptedOn ≠ some s.life.writeTx
  | .accept r => (s.requests.request r).rx ≠ .closed
  | .insert r | .cleanup r => ∀ k x, (s.requests.request r).phase.id? = some k →
      s.requests.tracker.pending k = some x → x = r
  | _ => True

/-- To which connection a request belongs, and what that is good for. -/
structure Generations (s : Session) : Prop where
  cloned : ∀ r what c, (s.calls r).pc = .enqueue what c → c ≤ s.life.writeTx
  accepted : ∀ r c, (s.calls r).acceptedOn = some c → c ≤ s.life.writeTx
  killed : ∀ r c, (s.calls r).killedBy = some c → (s.requests.request r).rx = .closed
  unkilled : ∀ r c, (s.calls r).acceptedOn = some c → (s.calls r).killedBy ≠ some c
  kept : ∀ r c k, (s.calls r).acceptedOn = some c → Serving s.life c →
    (s.requests.request r).phase = .registered k → (s.requests.request r).rx ≠ .closed

theorem generations_start : Generations (start cfg) := by
  constructor <;> simp [start, Call.fresh]

@[simp, grind =] theorem acceptedOn_callsAfter (s : Session) (b : LifecycleAct) (x : Nat) :
    (s.callsAfter b x).acceptedOn = (s.calls x).acceptedOn := by
  cases b <;> simp only [callsAfter]
  split <;> rfl

/-- An entry in the map is one of an unanswered request. -/
theorem rx_of_holds {requests : Requests} (hf : requests.Filing) (h : requests.Holds r) :
    (requests.request r).rx = .empty := by
  obtain ⟨id, -, hp⟩ := h
  exact (hf.held r id (hf.owner id r hp)).2 hp

/-- What `clear` does to the channels. -/
theorem rx_clear {requests : Requests} (hf : requests.Filing) (r : Nat) :
    (requests.clear.request r).rx =
      if requests.Holds r then .closed else (requests.request r).rx := by
  rw [Requests.request_clear]
  split
  next h => rw [rx_of_holds hf h]; rfl
  next => rfl

/-- The requests of a client that serves nobody are cleared. -/
theorem Generations.cleared {life : Lifecycle} (h : Generations s) (hf : s.requests.Filing)
    (hle : s.life.writeTx ≤ life.writeTx) (hnot : ∀ c, ¬ Serving life c) :
    Generations { s with life, requests := s.requests.clear } := by
  refine ⟨fun r what c hpc => Nat.le_trans (h.cloned r what c hpc) hle,
    fun r c hacc => Nat.le_trans (h.accepted r c hacc) hle, fun r c hk => ?_, h.unkilled,
    fun r c k _ hserv => absurd hserv (hnot c)⟩
  rw [rx_clear hf, h.killed r c hk]
  exact ite_self _

theorem Generations.life {b : LifecycleAct} {life : Lifecycle} (h : Generations s)
    (ht : s.life.Tasks) (hf : s.requests.Filing) (hok : KeepsNew s (.life b))
    (hs : Lifecycle.Step cfg s.life b life) : Generations (s.afterLife serde b life) := by
  have hpass := passage_of_step ht hs
  have hle := hpass.writeTx_le
  have kept : ∀ r c k, (s.calls r).acceptedOn = some c → Serving life c →
      (s.requests.request r).phase = .registered k → (s.requests.request r).rx ≠ .closed := by
    intro r c k hacc hserv hph
    rcases serving_of_passage hpass hserv with hserv | hnew
    · exact h.kept r c k hacc hserv hph
    · have hlt := h.accepted r c hacc
      omega
  cases b with
  | clearAndSpawn =>
      have hcurrent : life.writeTx = s.life.writeTx := by cases hs; rfl
      refine ⟨fun r what c hpc => ?_, fun r c hacc => ?_, fun r c hk => ?_, fun r c hacc hk => ?_,
        fun r c k hacc hserv hph => ?_⟩
      · rw [afterLife, pc_callsAfter] at hpc
        exact Nat.le_trans (h.cloned r what c hpc) hle
      · rw [afterLife, acceptedOn_callsAfter] at hacc
        exact Nat.le_trans (h.accepted r c hacc) hle
      · simp only [afterLife, requestsAfter, callsAfter, rx_clear hf] at hk ⊢
        split
        next => rfl
        next hholds => rw [if_neg hholds] at hk; exact h.killed r c hk
      · rw [afterLife, acceptedOn_callsAfter] at hacc
        simp only [afterLife, callsAfter] at hk
        split at hk
        next hholds => exact hok r hholds (hacc.trans hk.symm)
        next => exact h.unkilled r c hacc hk
      · rw [afterLife, acceptedOn_callsAfter] at hacc
        rw [afterLife, phase_requestsAfter] at hph
        have hholds : ¬ s.requests.Holds r := by
          intro hholds
          refine hok r hholds ?_
          rw [hacc, hserv.current]
          exact congrArg some hcurrent
        simp only [afterLife, requestsAfter, rx_clear hf, if_neg hholds]
        exact kept r c k hacc hserv hph
  | readerCleared x =>
      cases hs with
      | readerCleared hx =>
      refine h.cleared hf hle fun c => not_serving_of_clearing ht hx rfl (fun y hy => ?_) rfl
      simp only [stop, setTask] at hy
      split at hy
      next => contradiction
      next => exact hy
  | publishDisconnected d =>
      cases hs with
      | publishDisconnected hd =>
      refine h.cleared hf hle fun c hserv => ?_
      simpa [Lifecycle.publishDisconnected] using hserv.undisturbed d
  | _ =>
      exact ⟨fun r what c hpc => Nat.le_trans (h.cloned r what c hpc) hle,
        fun r c hacc => Nat.le_trans (h.accepted r c hacc) hle, h.killed, h.unkilled, kept⟩

/-- An entry in the map is handed a payload, and nothing is closed. -/
theorem rx_resolved {requests : Requests} (hf : requests.Filing) (call : Option (UInt32 × Json))
    (r : Nat) : ((Router.resolved requests call).request r).rx = .closed ↔
      (requests.request r).rx = .closed := by
  cases call with
  | none => rfl
  | some call =>
      simp only [Router.resolved, Requests.request_resolve]
      split
      next hp =>
        have := (hf.held r call.1 (hf.owner call.1 r hp)).2 hp
        simp [this]
      next => rfl

/-- A call goes on, with a connection that exists. -/
theorem Generations.move {f : Call → Call} (h : Generations s)
    (hpc : ∀ what c, (f (s.calls r)).pc = .enqueue what c → c ≤ s.life.writeTx)
    (hacc : ∀ c, (f (s.calls r)).acceptedOn = some c → (s.calls r).acceptedOn = some c)
    (hkill : ∀ c, (f (s.calls r)).killedBy = some c → (s.calls r).killedBy = some c) :
    Generations { s with calls := s.setCall r f } := by
  have hacc' (x c : Nat) (hx : (s.setCall r f x).acceptedOn = some c) :
      (s.calls x).acceptedOn = some c := by
    rw [setCall_apply] at hx
    split at hx
    next heq => rw [heq]; exact hacc c hx
    next => exact hx
  have hkill' (x c : Nat) (hx : (s.setCall r f x).killedBy = some c) :
      (s.calls x).killedBy = some c := by
    rw [setCall_apply] at hx
    split at hx
    next heq => rw [heq]; exact hkill c hx
    next => exact hx
  refine ⟨fun x what c hx => ?_, fun x c hx => h.accepted x c (hacc' x c hx),
    fun x c hk => h.killed x c (hkill' x c hk),
    fun x c hx hk => h.unkilled x c (hacc' x c hx) (hkill' x c hk),
    fun x c k hx => h.kept x c k (hacc' x c hx)⟩
  simp only [setCall_apply] at hx
  split at hx
  next => exact hpc what c hx
  next => exact h.cloned x what c hx

/-- A call goes on, not to a send on some connection. -/
theorem Generations.goto {pc : CallPc} (h : Generations s) (hpc : ∀ what c, pc ≠ .enqueue what c) :
    Generations (s.goto r pc) :=
  h.move (fun what c heq => absurd heq (hpc what c)) (fun _ => id) fun _ => id

/-- The generations do not depend on the three cells. -/
theorem Generations.cells (h : Generations s) (mediaSessionId : Int32)
    (transportId sessionId : Option String) :
    Generations { s with mediaSessionId, transportId, sessionId } :=
  ⟨h.cloned, h.accepted, h.killed, h.unkilled, h.kept⟩

/-- A step of the requests that opens no closed channel and closes none that
somebody waits on. -/
theorem Generations.request {q : Requests} (h : Generations s)
    (hclosed : ∀ x, (s.requests.request x).rx = .closed → (q.request x).rx = .closed)
    (hopen : ∀ x k, (q.request x).phase = .registered k → (q.request x).rx = .closed →
      (s.requests.request x).phase = .registered k ∧ (s.requests.request x).rx = .closed) :
    Generations { s with requests := q } := by
  refine ⟨h.cloned, h.accepted, fun x c hk => hclosed x (h.killed x c hk), h.unkilled,
    fun x c k hacc hserv hph hrx => ?_⟩
  obtain ⟨hph, hrx⟩ := hopen x k hph hrx
  exact h.kept x c k hacc hserv hph hrx

/-- A request gets a phase that is no `registered`. -/
theorem Generations.rephase {tracker : RequestTracker} {n : Nat} {q : Request} (h : Generations s)
    (hrx : q.rx = (s.requests.request r).rx) (hq : ∀ k, q.phase ≠ .registered k) :
    Generations { s with requests :=
      { s.requests with tracker, increments := n }.update r fun _ => q } := by
  refine h.request (fun x hx => ?_) fun x k hph hx => ?_
  · rw [Requests.request_update]
    split
    next heq => rw [hrx, ← heq]; exact hx
    next => exact hx
  · rw [Requests.request_update] at hph hx
    split at hph
    next => exact absurd hph (hq k)
    next hne => rw [if_neg hne] at hx; exact ⟨hph, hx⟩

theorem Generations.step (h : Generations s) (ht : s.life.Tasks) (hf : s.requests.Filing)
    (hok : KeepsNew s a) (hs : Step serde cfg s a s') : Generations s' := by
  have hh := h
  cases hs with
  | life hb h => exact hh.life ht hf hok h
  | lifeReadTransport h =>
      have hlife : Generations (s.afterLife serde (.readTransport s.transportId) _) :=
        hh.life ht hf trivial h
      exact ⟨hlife.cloned, hlife.accepted, hh.killed, hh.unkilled, hlife.kept⟩
  | @route c msg h =>
      have hrx := rx_resolved hf (Router.resolveCall serde msg)
      refine ⟨hh.cloned, hh.accepted, ?_, hh.unkilled, ?_⟩
      · intro r x hk
        rw [requests_route, hrx]
        exact hh.killed r x hk
      · intro r x k hacc hserv hph
        rw [requests_route, Ne, hrx]
        rw [requests_route, phase_resolved] at hph
        exact hh.kept r x k hacc ⟨hserv.current, hserv.reader, hserv.undisturbed⟩ hph
  | @begin r op hb h =>
      obtain ⟨pc, heq, hpc⟩ := Session.begin_eq s r op
      rw [heq]
      refine hh.move (fun what c heq => ?_) nofun nofun
      rw [show pc = .enqueue what c from heq] at hpc
      exact hpc.elim
  | @readTransport r h hfree =>
      obtain ⟨-, heq⟩ | ⟨tid, pc, -, hafter, heq⟩ := s.readTransport_eq r
      · rw [heq]
        exact hh.goto nofun
      · rw [heq]
        refine hh.move (fun what c heq => ?_) (fun _ => id) fun _ => id
        rw [show pc = .enqueue what c from heq] at hafter
        exact hafter.elim
  | readSession h =>
      unfold Session.readSession
      split
      · exact hh.goto nofun
      · exact hh.move nofun (fun _ => id) fun _ => id
  | readMediaSession h =>
      unfold Session.readMediaSession
      split
      · exact hh.move nofun (fun _ => id) fun _ => id
      · exact hh.goto nofun
  | increment h hq =>
      cases Requests.step_cases hq with
      | increment hp => exact hh.rephase rfl fun k => by dsimp only; split <;> nofun
  | incrementAgain h hq =>
      cases Requests.step_cases hq with
      | incrementAgain hp => exact hh.rephase rfl nofun
  | @insert r q h hq =>
      cases Requests.step_cases hq with
      | @insert _ id hp =>
      -- the entry it replaces would be its own, and it has none yet
      have hnone (x : Nat) : s.requests.tracker.pending id ≠ some x := by
        intro hx
        obtain rfl := hok id x (by rw [hp]; rfl) hx
        have hfiled := hf.owner id x hx
        rw [hp] at hfiled
        contradiction
      refine (Generations.request hh (fun x hx => ?_) fun x k hph hx => ?_).goto nofun
      · rw [Requests.request_insert, if_neg (hnone x)]
        exact hx
      · simp only [Requests.request_insert, if_neg (hnone x)] at hph hx
        split at hph
        next heq =>
          rw [heq, (hf.quiet r (by rw [hp]; rfl)).1] at hx
          contradiction
        next => exact ⟨hph, hx⟩
  | @cloneWriteTx r what h =>
      refine hh.move (fun what' c heq => ?_) (fun _ => id) fun _ => id
      cases heq
      exact Nat.le_refl _
  | @accept r c what h hopen =>
      cases what with
      | connect app =>
          have hmove := @Generations.move s r (fun call =>
            { call with connectedOn := some c, pc := .storeTransport app }) hh
            (fun _ _ heq => by contradiction) (fun _ => id) fun _ => id
          exact ⟨hmove.cloned, hmove.accepted, hmove.killed, hmove.unkilled, hmove.kept⟩
      | request =>
          have hle := hh.cloned r .request c h
          -- what is accepted now, or was
          have hacc (x y : Nat) (hx : ((s.accept serde r .request c).calls x).acceptedOn = some y) :
              x = r ∧ y = c ∨ (s.calls x).acceptedOn = some y := by
            simp only [Session.accept, setCall_apply] at hx
            split at hx
            next heq => exact .inl ⟨heq, (Option.some.inj hx).symm⟩
            next => exact .inr hx
          have hkill (x : Nat) : ((s.accept serde r .request c).calls x).killedBy =
              (s.calls x).killedBy := by
            simp only [Session.accept, setCall_apply]
            split
            next heq => rw [heq]
            next => rfl
          refine ⟨fun x what y hpc => ?_, fun x y hx => ?_, fun x y hk => ?_, fun x y hx hk => ?_,
            fun x y k hx hserv hph => ?_⟩
          · simp only [Session.accept, setCall_apply] at hpc
            split at hpc
            next => split at hpc <;> contradiction
            next => exact hh.cloned x what y hpc
          · rcases hacc x y hx with ⟨-, rfl⟩ | hx
            · exact hle
            · exact hh.accepted x y hx
          · exact hh.killed x y (hkill x ▸ hk)
          · rw [hkill] at hk
            rcases hacc x y hx with ⟨rfl, rfl⟩ | hx
            · exact hok (hh.killed x y hk)
            · exact hh.unkilled x y hx hk
          · rcases hacc x y hx with ⟨rfl, rfl⟩ | hx
            · exact hok
            · exact hh.kept x y k hx hserv hph
  | sendFailed h hopen => exact hh.goto nofun
  | @receive r n json q h hrx hq =>
      obtain ⟨m, pc, heq, hpc⟩ := Session.answer_eq { s with requests := q } r json
      rw [heq]
      cases Requests.step_cases hq with
      | @receive _ _ id v hp _ =>
      have hret : Generations { s with
          requests := s.requests.update r fun q => { q with phase := .returned id (.ok v) } } :=
        hh.rephase rfl nofun
      refine (hret.cells m _ _).goto fun what c heq => ?_
      rw [heq] at hpc
      exact hpc.elim
  | senderDropped h hq =>
      cases Requests.step_cases hq with
      | senderDropped hp hrx => exact hh.rephase rfl nofun
  | timeout h hq =>
      cases Requests.step_cases hq with
      | timeout hp => exact hh.rephase rfl nofun
  | @cleanup r id err q h hp hq =>
      cases Requests.step_cases hq with
      | @cleanup _ id err hp =>
      have hown (x : Nat) (hne : x ≠ r) : s.requests.tracker.pending id ≠ some x :=
        fun hx => hne (hok id x (by rw [hp]; rfl) hx)
      refine (Generations.request hh (fun x hx => ?_) fun x k hph hx => ?_).goto nofun
      · simp only [Requests.request_cleanup, hx]
        exact ite_self _
      · simp only [Requests.request_cleanup] at hph hx
        split at hph
        next => contradiction
        next hne => rw [if_neg (hown x hne)] at hx; exact ⟨hph, hx⟩
  | appSeen h hbuf happ =>
      refine Generations.goto ⟨hh.cloned, hh.accepted, hh.killed, hh.unkilled,
        fun x y k hacc hserv => hh.kept x y k hacc ?_⟩ nofun
      exact ⟨hserv.current, hserv.reader, hserv.undisturbed⟩
  | skipEvent h hbuf happ =>
      refine ⟨hh.cloned, hh.accepted, hh.killed, hh.unkilled,
        fun x y k hacc hserv => hh.kept x y k hacc ?_⟩
      exact ⟨hserv.current, hserv.reader, hserv.undisturbed⟩
  | launchTimeout h => exact hh.goto nofun
  | storeTransport h hfree => exact (hh.cells ..).goto nofun
  | storeSession h => exact (hh.cells ..).goto nofun
  | clearTransport h hfree => exact (hh.cells ..).goto nofun
  | clearSession h => exact (hh.cells ..).goto nofun
  | drop hidle hend => exact hh.goto nofun

theorem generations_of_run (h : (system serde cfg).Run KeepsNew (start cfg) s) : Generations s := by
  induction h with
  | refl => exact generations_start
  | tail hrun hok hstep ih =>
      exact ih.step (tasks_of_run hrun) (filing_of_run hrun) hok (step_cases hstep)

/-! ## requests of the new connection -/

/-- What the caller of a request whose message connection `c` has accepted can
count on: the clear of the reconnect to `c` has not hit it, and while `c` is up
its sender is not dropped and an answer reaches it. -/
structure Kept (serde : SerdeJson) (cfg : ClientConfig) (s : Session) (r c : Nat) : Prop where
  unkilled : (s.calls r).killedBy ≠ some c
  undropped : Up s.life c → s.step serde cfg (.senderDropped r) = none
  answered : Up s.life c → ∀ k msg json, (s.calls r).pc = .wait →
    (s.requests.request r).phase = .registered k →
    Router.resolveCall serde msg = some (k, json) →
    ∃ v t, (s.route serde c msg).step serde cfg (.receive r) = some t ∧
      (t.requests.request r).phase = .returned k (.ok v) ∧
      ((s.requests.request r).rx = .empty → v = json)

/-- A channel that is not closed holds a payload once its id is resolved. -/
theorem sent_of_resolve {requests : Requests} {k : UInt32} (hf : requests.Filing)
    (hp : (requests.request r).phase = .registered k) (hopen : (requests.request r).rx ≠ .closed)
    (json : Json) : ∃ n v, ((requests.resolve k json).2.request r).rx = .sent n v ∧
      ((requests.request r).rx = .empty → v = json) := by
  have hheld := hf.held r k (by simp [hp, Phase.filed?])
  rw [Requests.request_resolve]
  cases hrx : (requests.request r).rx with
  | empty => exact ⟨requests.resolves, json, by simp [hheld.1 hrx], fun _ => rfl⟩
  | sent n v =>
      have hgone : requests.tracker.pending k ≠ some r := by rw [Ne, ← hheld, hrx]; simp
      exact ⟨n, v, by simp [hgone], by simp⟩
  | closed => contradiction

/-- A waiting caller with a payload in its channel returns it. -/
theorem receive_of_sent {k : UInt32} {n : Nat} {v : Json} (hpc : (s.calls r).pc = .wait)
    (hph : (s.requests.request r).phase = .registered k)
    (hrx : (s.requests.request r).rx = .sent n v) :
    ∃ t, s.step serde cfg (.receive r) = some t ∧
      (t.requests.request r).phase = .returned k (.ok v) := by
  let q := s.requests.update r fun q => { q with phase := .returned k (.ok v) }
  refine ⟨{ s with requests := q }.answer r v, ?_, by simp [q, Requests.request_update]⟩
  simp only [step, hpc, hrx, requestStep, Requests.step, hph, Option.map_some, q]

/-- **A reconnect keeps the requests of its new connection**, in every run whose
steps keep them apart from its `clear` and from each other. -/
theorem reconnect_keeps_requests (h : (system serde cfg).Run KeepsNew (start cfg) s)
    (hacc : (s.calls r).acceptedOn = some c) : Kept serde cfg s r c := by
  have hg := generations_of_run h
  have hf := filing_of_run h
  refine ⟨hg.unkilled r c hacc, fun hup => ?_, fun hup k msg json hpc hph hcall => ?_⟩
  · cases hstep : s.step serde cfg (.senderDropped r) with
    | none => rfl
    | some t =>
        cases step_cases hstep with
        | senderDropped hpc hq =>
        cases Requests.step_cases hq with
        | senderDropped hph hrx => exact absurd hrx (hg.kept r c _ hacc hup.serving hph)
  · obtain ⟨n, v, hrx, hv⟩ := sent_of_resolve hf hph (hg.kept r c k hacc hup.serving hph) json
    have hreq : (s.route serde c msg).requests = (s.requests.resolve k json).2 := by
      rw [requests_route, hcall]; rfl
    obtain ⟨t, ht, hret⟩ := @receive_of_sent serde cfg (s.route serde c msg) r k n v
      hpc (by rw [requests_route, phase_resolved]; exact hph) (by rw [hreq]; exact hrx)
    exact ⟨v, t, ht, hret, hv⟩

/-- A clear that hits a request of its own connection breaks the promise, -/
theorem not_kept_of_clear (hs : s.step serde cfg (.life .clearAndSpawn) = some s')
    (hbad : ¬ KeepsNew s (.life .clearAndSpawn)) :
    ∃ r c, (s'.calls r).acceptedOn = some c ∧ ¬ Kept serde cfg s' r c := by
  simp only [KeepsNew, not_forall, not_not] at hbad
  obtain ⟨r, hr, hacc⟩ := hbad
  cases step_cases hs with
  | life hb h =>
  refine ⟨r, s.life.writeTx, by simp [afterLife, hacc], fun hk => hk.unkilled ?_⟩
  simp [afterLife, callsAfter, hr]

/-- and so does a message that is accepted after its entry has been cleared. -/
theorem not_kept_of_accept {k : UInt32} (hs : s.step serde cfg (.accept r) = some s')
    (hpc : (s.calls r).pc = .enqueue .request c) (hup : Up s.life c)
    (hans : (s.calls r).op.answered = true) (hph : (s.requests.request r).phase = .registered k)
    (hbad : ¬ KeepsNew s (.accept r)) : ¬ Kept serde cfg s' r c := by
  have hrx : (s.requests.request r).rx = .closed := not_not.1 hbad
  intro hk
  cases step_cases hs with
  | accept hpc' hopen =>
  obtain ⟨rfl, rfl⟩ : Outgoing.request = _ ∧ c = _ := by simpa [hpc] using hpc'
  have hdrop := hk.undropped (by rw [life_accept]; exact hup)
  simp [step, Session.accept, setCall_apply, hans, requestStep, Requests.step, hph, hrx] at hdrop

def keepsTest (s : Session) : SessionAct → Bool
  | .life .clearAndSpawn => false
  | .accept r => match (s.requests.request r).rx with
      | .closed => false
      | _ => true
  | .insert r | .cleanup r => match (s.requests.request r).phase.id? with
      | some k => (s.requests.tracker.pending k).isNone
      | none => true
  | _ => true

theorem keeps_of_test (h : keepsTest s a = true) : KeepsNew s a := by
  have nobody (r : Nat) (h : (match (s.requests.request r).phase.id? with
      | some k => (s.requests.tracker.pending k).isNone
      | none => true) = true) (k : UInt32) (x : Nat)
      (hk : (s.requests.request r).phase.id? = some k)
      (hx : s.requests.tracker.pending k = some x) : x = r := by
    simp [hk, hx] at h
  cases a with
  | life b =>
      cases b with
      | clearAndSpawn => simp [keepsTest] at h
      | _ => trivial
  | accept r =>
      intro hrx
      simp [keepsTest, hrx] at h
  | insert r => exact nobody r h
  | cleanup r => exact nobody r h
  | _ => trivial

/-- Operation 0 registers the id 1 and sends its message. -/
def sendActs (op : Operation) : List SessionAct :=
  [.begin 0 op, .increment 0, .insert 0, .cloneWriteTx 0, .accept 0]

/-- A GET_STATUS. -/
def statusOp : Operation := .receiverStatus (Router.answerSerde "STATE")

/-- A loss and a reconnect up to the publication of its write channel. -/
def publishedActs : List SessionAct :=
  (lostAndConnecting ++ [LifecycleAct.tlsConnected, .swapWriteTx]).map .life

/-- A request that is registered and sent after the clear is kept. -/
theorem request_kept :
    ∃ s, (system (Router.answerSerde "STATE") autoCfg).exec (start autoCfg)
        (publishedActs ++ [.life .arm, .life .clearAndSpawn] ++ sendActs statusOp) = some s ∧
      (s.calls 0).acceptedOn = some 1 ∧ Up s.life 1 ∧
      Kept (Router.answerSerde "STATE") autoCfg s 0 1 := by
  have hbefore := run_of_execIf (M := system (Router.answerSerde "STATE") autoCfg)
    (s := start autoCfg) (p := keepsTest) (publishedActs ++ [.life .arm])
    (fun s a => @keeps_of_test s a) rfl
  have hclear := Run.tail (a := .life .clearAndSpawn) hbefore
    (by rintro r ⟨k, -, hp⟩; exact absurd (show none = some r from hp) (by simp)) rfl
  have hsent := hclear.trans (run_of_execIf (p := keepsTest) (sendActs statusOp)
    (fun s a => @keeps_of_test s a) rfl)
  exact ⟨_, rfl, rfl, ⟨rfl, rfl, fun _ => rfl⟩, reconnect_keeps_requests hsent rfl⟩

/-- A GET_STATUS is accepted right after the new write channel is published; the
clear that follows fails it. -/
theorem request_killed : ¬ ∀ (serde : SerdeJson) (cfg : ClientConfig) (s : Session) (r c : Nat),
    (system serde cfg).Reachable s → (s.calls r).acceptedOn = some c → Kept serde cfg s r c := by
  intro h
  have hkept := h (Router.answerSerde "STATE") autoCfg _ 0 1 (reachable_of_exec
    (publishedActs ++ sendActs statusOp ++ [.life .arm, .life .clearAndSpawn]) rfl) rfl
  exact hkept.unkilled rfl

end Oxicast.Session
