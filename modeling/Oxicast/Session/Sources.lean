import Oxicast.Session.ConnectFirst

/-!
# Oxicast.Session.Sources

Which application the two cells of the current app, and the two ids of a load,
come from.

`transport_id` and `session_id` are two mutexes.  A launch fills them one after
the other, a stop empties them, a load reads them, and others run in between.
A `Source` names the call that made a store and the application it stored from;
`Sources` records the source of either cell and of what every call has read.
-/

namespace Oxicast.Session

open TransitionSystem Lifecycle Ns

variable {serde : SerdeJson} {cfg : ClientConfig} {s s' : Session} {a : SessionAct} {r x : Nat}

/-! ## the history of the two cells -/

/-- The call that made a store, and the application it is from; a stop has none. -/
structure Source where
  call : Nat
  app : Option Application

/-- What it stores in the two cells. -/
def Source.transportId (w : Source) : Option String := w.app.map Application.transportId
def Source.sessionId (w : Source) : Option String := w.app.map Application.sessionId

/-- Where the call stands after its first store. -/
def Source.secondStore (w : Source) : CallPc :=
  match w.app with
  | some app => .storeSession app
  | none => .clearSession

/-- The source is still to store its session id. -/
def Source.Pending (s : Session) (w : Source) : Prop := (s.calls w.call).pc = w.secondStore

/-- The sources of `transport_id` and `session_id`, and of what each call has
read of them. -/
structure Sources where
  transport : Option Source
  session : Option Source
  readTransport : Nat → Option Source
  readSession : Nat → Option Source

def Sources.record (h : Sources) (s : Session) (a : SessionAct) (_ : Session) : Sources :=
  match a with
  | .storeTransport r =>
      match (s.calls r).pc with
      | .storeTransport app => { h with transport := some ⟨r, some app⟩ }
      | _ => h
  | .storeSession r =>
      match (s.calls r).pc with
      | .storeSession app => { h with session := some ⟨r, some app⟩ }
      | _ => h
  | .clearTransport r => { h with transport := some ⟨r, none⟩ }
  | .clearSession r => { h with session := some ⟨r, none⟩ }
  | .readTransport r => { h with readTransport := Function.update h.readTransport r h.transport }
  | .readSession r => { h with readSession := Function.update h.readSession r h.session }
  | _ => h

def Sources.empty : Sources := ⟨none, none, fun _ => none, fun _ => none⟩

/-- The client and the sources of its cells. -/
def sourceSystem (serde : SerdeJson) (cfg : ClientConfig) :
    TransitionSystem (Session × Sources) SessionAct :=
  (system serde cfg).observe .empty Sources.record

/-! ## undivided pairs -/

/-- Somebody relies on the session id of `w`: its transport id is the current
one, or a load has read it and is about to read the session id. -/
def Held (s : Session) (h : Sources) (w : Source) : Prop :=
  h.transport = some w ∨ ∃ r, (s.calls r).pc = .readSession ∧ h.readTransport r = some w

/-- A session id is stored only while every call whose transport id is relied on
still has its own to store (the storing one has); a load reads the session id
only when the launch whose transport id it has read has stored its own; and such
a launch or stop is not dropped between its stores. -/
def Undivided (x : Session × Sources) : SessionAct → Prop
  | .storeSession _ | .clearSession _ => ∀ w, Held x.1 x.2 w → w.Pending x.1
  | .readSession r => ∀ w, x.2.readTransport r = some w → ¬ w.Pending x.1
  | .drop r => ∀ w, Held x.1 x.2 w → w.call = r → ¬ w.Pending x.1
  | _ => True

/-- The call is between its two stores. -/
def CallPc.Storing : CallPc → Prop
  | .storeSession _ | .clearSession => True
  | _ => False

/-- The call has read both ids of one application, stored by one launch. -/
def FromOneApp (s : Session) (h : Sources) (r : Nat) : Prop :=
  ∃ x app, h.readTransport r = some ⟨x, some app⟩ ∧ h.readSession r = some ⟨x, some app⟩ ∧
    (s.calls r).target.transportId = app.transportId ∧ (s.calls r).target.sessionId = app.sessionId

/-- The cells hold what their sources stored, and a transport id that is relied
on waits for its session id or has it. -/
structure Paired (s : Session) (h : Sources) : Prop where
  transport : s.transportId = h.transport.bind Source.transportId
  session : s.sessionId = h.session.bind Source.sessionId
  first : h.transport = none → h.session = none ∧ ∀ r, ¬ CallPc.Storing (s.calls r).pc
  held : ∀ w, Held s h w → w.Pending s ∨ h.session = some w
  reading : ∀ r, (s.calls r).pc = .readSession → ∃ x app, h.readTransport r = some ⟨x, some app⟩ ∧
    (s.calls r).target.transportId = app.transportId
  sending : ∀ r, (s.calls r).op.reads = .transportAndSession → CallPc.Sending (s.calls r).pc →
    FromOneApp s h r

variable {hist : Sources}

theorem paired_start : Paired (start cfg) .empty := by
  refine ⟨rfl, rfl, fun _ => ⟨rfl, fun _ => id⟩, ?_, ?_, ?_⟩
  · rintro w (h | ⟨r, h, -⟩) <;> contradiction
  · intro r h
    contradiction
  · intro r hreads
    contradiction

/-! ## what a step keeps -/

theorem Source.storing (w : Source) : CallPc.Storing w.secondStore := by
  unfold secondStore
  split <;> trivial

theorem Source.Pending.storing {w : Source} (h : w.Pending s) :
    CallPc.Storing (s.calls w.call).pc := by
  rw [h]; exact w.storing

/-- A call that is elsewhere is no pending source. -/
theorem not_pending (h : ¬ CallPc.Storing (s.calls r).pc) {w : Source} (hw : w.call = r) :
    ¬ w.Pending s := fun hp => h (hw ▸ hp.storing)

/-- A call stores from one application. -/
theorem Source.Pending.unique {v w : Source} (hv : v.Pending s) (hw : w.Pending s)
    (hc : v.call = w.call) : v = w := by
  obtain ⟨c, app⟩ := v
  obtain ⟨c', app'⟩ := w
  obtain rfl : c = c' := hc
  have heq := hv.symm.trans hw
  cases app <;> cases app' <;> simp_all [secondStore]

theorem pending_congr {w : Source} (h : (s'.calls w.call).pc = (s.calls w.call).pc) :
    w.Pending s' ↔ w.Pending s := by
  simp only [Source.Pending, h]

/-- What the pairs depend on. -/
theorem Paired.congr (h : Paired s hist) (ht : s'.transportId = s.transportId)
    (hs : s'.sessionId = s.sessionId) (hpc : ∀ x, (s'.calls x).pc = (s.calls x).pc)
    (hop : ∀ x, (s'.calls x).op = (s.calls x).op)
    (htarget : ∀ x, (s'.calls x).target = (s.calls x).target) : Paired s' hist := by
  refine ⟨ht.trans h.transport, hs.trans h.session, fun hnone => ?_, fun w hw => ?_,
    fun x hx => ?_, fun x hreads hx => ?_⟩
  · simp only [hpc]
    exact h.first hnone
  · rw [pending_congr (hpc _)]
    refine h.held w (hw.imp_right ?_)
    rintro ⟨y, hy, hread⟩
    exact ⟨y, (hpc y).symm.trans hy, hread⟩
  · rw [htarget]
    exact h.reading x ((hpc x).symm.trans hx)
  · rw [FromOneApp, htarget]
    exact h.sending x (hop x ▸ hreads) (hpc x ▸ hx)

/-- What is relied on after a call has gone on, but not to its second read. -/
theorem Held.of_move {w : Source} (hw : Held s' hist w) (hc : ∀ x, x ≠ r → s'.calls x = s.calls x)
    (hread : (s'.calls r).pc ≠ .readSession) : Held s hist w := by
  refine hw.imp_right ?_
  rintro ⟨y, hy, hy'⟩
  have hne : y ≠ r := by rintro rfl; exact hread hy
  exact ⟨y, by rw [← hc y hne]; exact hy, hy'⟩

/-- One call goes on that nobody waits for: it makes no store and no second read. -/
theorem Paired.move (h : Paired s hist) (ht : s'.transportId = s.transportId)
    (hs : s'.sessionId = s.sessionId) (hc : ∀ x, x ≠ r → s'.calls x = s.calls x)
    (hpend : ∀ w, Held s hist w → w.call = r → ¬ w.Pending s)
    (hread : (s'.calls r).pc ≠ .readSession) (hstore : ¬ CallPc.Storing (s'.calls r).pc)
    (hload : (s'.calls r).op.reads = .transportAndSession → CallPc.Sending (s'.calls r).pc →
      FromOneApp s' hist r) : Paired s' hist := by
  refine ⟨ht.trans h.transport, hs.trans h.session, fun hnone => ?_, fun w hw => ?_,
    fun x hx => ?_, fun x hreads hx => ?_⟩
  · obtain ⟨hsession, hnot⟩ := h.first hnone
    refine ⟨hsession, fun x => ?_⟩
    by_cases hne : x = r
    · subst hne; exact hstore
    · rw [hc x hne]; exact hnot x
  · have hw := hw.of_move hc hread
    refine (h.held w hw).imp_left fun hp => ?_
    have hne : w.call ≠ r := fun heq => hpend w hw heq hp
    exact (pending_congr (congrArg Call.pc (hc _ hne))).2 hp
  · have hne : x ≠ r := by rintro rfl; exact hread hx
    rw [hc x hne] at hx ⊢
    exact h.reading x hx
  · by_cases hne : x = r
    · subst hne; exact hload hreads hx
    · rw [hc x hne] at hreads hx
      rw [FromOneApp, hc x hne]
      exact h.sending x hreads hx

/-- A call goes on that is not between its stores. -/
theorem Paired.goto {pc : CallPc} (h : Paired s hist) (hfrom : ¬ CallPc.Storing (s.calls r).pc)
    (hto : pc ≠ .readSession ∧ ¬ CallPc.Storing pc)
    (hload : CallPc.Sending pc → CallPc.Sending (s.calls r).pc) :
    Paired (s.goto r pc) hist := by
  refine h.move (r := r) rfl rfl (fun x hx => ?_) (fun w _ hw => not_pending hfrom hw) ?_ ?_ ?_
  · rw [calls_goto, if_neg hx]
  · rw [calls_goto, if_pos rfl]; exact hto.1
  · rw [calls_goto, if_pos rfl]; exact hto.2
  · simp only [calls_goto, if_true, FromOneApp]
    exact fun hreads hl => h.sending r hreads (hload hl)

/-- The pairs do not depend on the requests, the lifecycle and the media session. -/
theorem Paired.beside (h : Paired s hist) (life : Lifecycle) (requests : Requests) (m : Int32) :
    Paired { s with life, requests, mediaSessionId := m } hist :=
  h.congr rfl rfl (fun _ => rfl) (fun _ => rfl) fun _ => rfl

/-! ## the stores and the reads -/

/-- The first store of a launch or stop. -/
theorem Paired.firstStore (h : Paired s hist) (w : Source)
    (hfrom : ¬ CallPc.Storing (s.calls w.call).pc) :
    Paired ({ s with transportId := w.transportId }.goto w.call w.secondStore)
      { hist with transport := some w } := by
  have hpc (x : Nat) : (({ s with transportId := w.transportId }.goto w.call
      w.secondStore).calls x).pc = if x = w.call then w.secondStore else (s.calls x).pc := by
    rw [calls_goto]; split <;> rfl
  have hstore := w.storing
  refine ⟨rfl, h.session, fun hnone => by contradiction, fun v hv => ?_, fun x hx => ?_,
    fun x hreads hx => ?_⟩
  · rcases hv with hv | ⟨y, hy, hread⟩
    · obtain rfl := Option.some.inj hv
      exact .inl ((hpc _).trans (if_pos rfl))
    · rw [hpc] at hy
      split at hy
      next => rw [hy] at hstore; contradiction
      next =>
        refine (h.held v (.inr ⟨y, hy, hread⟩)).imp_left fun hp => ?_
        have hne : v.call ≠ w.call := fun heq => not_pending hfrom heq hp
        exact (pending_congr ((hpc _).trans (if_neg hne))).2 hp
  · rw [hpc] at hx
    split at hx
    next => rw [hx] at hstore; contradiction
    next hne => rw [calls_goto, if_neg hne]; exact h.reading x hx
  · rw [hpc] at hx
    split at hx
    next => unfold Source.secondStore at hx; split at hx <;> contradiction
    next hne =>
      rw [calls_goto, if_neg hne] at hreads
      rw [FromOneApp, calls_goto, if_neg hne]
      exact h.sending x hreads hx

/-- The second store, of a source that everybody who relies on a pair waits for. -/
theorem Paired.secondStore {result : Option (Except Error Value)} (h : Paired s hist) {w : Source}
    (hw : w.Pending s) (hheld : ∀ v, Held s hist v → v.Pending s) :
    Paired ({ s with sessionId := w.sessionId }.goto w.call (.ended result))
      { hist with session := some w } := by
  have hc (x : Nat) (hx : x ≠ w.call) : ({ s with sessionId := w.sessionId }.goto w.call
      (.ended result)).calls x = s.calls x := by rw [calls_goto, if_neg hx]
  have hend : (({ s with sessionId := w.sessionId }.goto w.call
      (.ended result)).calls w.call).pc = .ended result := by rw [calls_goto, if_pos rfl]
  refine ⟨h.transport, rfl, fun hnone => ?_, fun v hv => ?_, fun x hx => ?_, fun x hreads hx => ?_⟩
  · exact absurd hw.storing ((h.first hnone).2 _)
  · have hv : Held ({ s with sessionId := w.sessionId }.goto w.call (.ended result)) hist v := hv
    have hp := hheld v (hv.of_move hc (by rw [hend]; simp))
    by_cases heq : v.call = w.call
    · exact .inr (congrArg some (hw.unique hp heq.symm))
    · exact .inl ((pending_congr (congrArg Call.pc (hc _ heq))).2 hp)
  · have hne : x ≠ w.call := by rintro rfl; rw [hend] at hx; contradiction
    rw [hc x hne] at hx ⊢
    exact h.reading x hx
  · have hne : x ≠ w.call := by rintro rfl; rw [hend] at hx; contradiction
    rw [hc x hne] at hreads hx
    rw [FromOneApp, hc x hne]
    exact h.sending x hreads hx

/-- A call that is not reading has no use for what it has read. -/
theorem Paired.record {w : Option Source} (h : Paired s hist) (hpc : (s.calls r).pc ≠ .readSession)
    (hload : ¬ CallPc.Sending (s.calls r).pc) :
    Paired s { hist with readTransport := Function.update hist.readTransport r w } := by
  refine ⟨h.transport, h.session, h.first, fun v hv => ?_, fun x hx => ?_, fun x hreads hx => ?_⟩
  · refine h.held v (hv.imp_right ?_)
    rintro ⟨y, hy, hread⟩
    have hne : y ≠ r := by rintro rfl; exact hpc hy
    exact ⟨y, hy, by simpa only [Function.update_of_ne hne] using hread⟩
  · have hne : x ≠ r := by rintro rfl; exact hpc hx
    simp only [Function.update_of_ne hne]
    exact h.reading x hx
  · have hne : x ≠ r := by rintro rfl; exact hload hx
    simp only [FromOneApp, Function.update_of_ne hne]
    exact h.sending x hreads hx

theorem Paired.readTransport (h : Paired s hist) (hpc : (s.calls r).pc = .readTransport) :
    Paired (s.readTransport r)
      { hist with readTransport := Function.update hist.readTransport r hist.transport } := by
  have hrec := h.record (r := r) (w := hist.transport) (by simp [hpc])
    (by simp [hpc, CallPc.Sending])
  have hfrom : ¬ CallPc.Storing (s.calls r).pc := by simp [hpc, CallPc.Storing]
  obtain ⟨-, heq⟩ | ⟨tid, pc, htid, hafter, heq⟩ := s.readTransport_eq r
  · rw [heq]
    exact hrec.goto hfrom ⟨by simp, id⟩ False.elim
  obtain ⟨w, hw, hwt⟩ := Option.bind_eq_some_iff.1 (h.transport.symm.trans htid)
  obtain ⟨app, happ, rfl⟩ := Option.map_eq_some_iff.1 hwt
  by_cases hreads : (s.calls r).op.reads = .transportAndSession
  · obtain rfl : pc = .readSession := by cases pc <;> simp_all [CallPc.AfterTransport]
    have hpc' : ((s.readTransport r).calls r).pc = .readSession := by simp [heq, setCall_apply]
    have hc (x : Nat) (hx : x ≠ r) : (s.readTransport r).calls x = s.calls x := by
      simp [heq, setCall_apply, hx]
    refine ⟨by rw [heq]; exact h.transport, by rw [heq]; exact h.session, fun hnone => ?_,
      fun v hv => ?_, fun x hx => ?_, fun x hx hl => ?_⟩
    · rw [hw] at hnone; contradiction
    · -- a new reader relies on what the cell holds
      have hheld : Held s hist v := by
        rcases hv with hv | ⟨y, hy, hread⟩
        · exact .inl hv
        · by_cases hne : y = r
          · subst hne
            exact .inl (by simpa only [Function.update_self] using hread)
          · rw [hc y hne] at hy
            exact .inr ⟨y, hy, by simpa only [Function.update_of_ne hne] using hread⟩
      refine (h.held v hheld).imp_left fun hp => ?_
      have hne : v.call ≠ r := fun heq => not_pending hfrom heq hp
      exact (pending_congr (congrArg Call.pc (hc _ hne))).2 hp
    · by_cases hne : x = r
      · subst hne
        refine ⟨w.call, app, ?_, by simp [heq, setCall_apply]⟩
        simp only [Function.update_self, hw, ← happ]
      · rw [hc x hne] at hx ⊢
        simp only [Function.update_of_ne hne]
        exact h.reading x hx
    · have hne : x ≠ r := by rintro rfl; simp [hpc', CallPc.Sending] at hl
      rw [hc x hne] at hx hl
      simp only [FromOneApp, hc x hne, Function.update_of_ne hne]
      exact h.sending x hx hl
  · rw [heq]
    refine hrec.move (r := r) rfl rfl (fun x hx => by simp [setCall_apply, hx])
      (fun v _ hv => not_pending hfrom hv) ?_ ?_ ?_
    · simp only [setCall_apply, if_true]
      rintro rfl
      exact hreads hafter
    · simp only [setCall_apply, if_true]
      cases pc <;> simp_all [CallPc.AfterTransport, CallPc.Storing]
    · simp only [setCall_apply, if_true]
      exact fun hx => absurd hx hreads

theorem Paired.readSession (h : Paired s hist) (hpc : (s.calls r).pc = .readSession)
    (hok : ∀ w, hist.readTransport r = some w → ¬ w.Pending s) :
    Paired (s.readSession r)
      { hist with readSession := Function.update hist.readSession r hist.session } := by
  obtain ⟨x, app, hx, htarget⟩ := h.reading r hpc
  have hsession : hist.session = some ⟨x, some app⟩ :=
    (h.held _ (.inr ⟨r, hpc, hx⟩)).resolve_left (hok _ hx)
  have hrec : Paired s
      { hist with readSession := Function.update hist.readSession r hist.session } := by
    refine ⟨h.transport, h.session, h.first, h.held, h.reading, fun y hreads hl => ?_⟩
    have hne : y ≠ r := by rintro rfl; simp [hpc, CallPc.Sending] at hl
    simp only [FromOneApp, Function.update_of_ne hne]
    exact h.sending y hreads hl
  have hfrom : ¬ CallPc.Storing (s.calls r).pc := by simp [hpc, CallPc.Storing]
  have hsid : s.sessionId = some app.sessionId := by rw [h.session, hsession]; rfl
  unfold Session.readSession
  split
  next hnone => rw [hsid] at hnone; contradiction
  next sid hs =>
    obtain rfl : app.sessionId = sid := Option.some.inj (hsid.symm.trans hs)
    refine hrec.move (r := r) rfl rfl (fun y hy => by simp [setCall_apply, hy])
      (fun v _ hv => not_pending hfrom hv) ?_ ?_ fun _ _ => ⟨x, app, hx, ?_, ?_, ?_⟩
    · simp [setCall_apply]
    · simp [setCall_apply, CallPc.Storing]
    · exact (Function.update_self ..).trans hsession
    · simpa [setCall_apply] using htarget
    · simp [setCall_apply]

theorem Paired.step (h : Paired s hist) (hreading : Reading s) (hok : Undivided (s, hist) a)
    (hs : Step serde cfg s a s') : Paired s' (hist.record s a s') := by
  cases hs with
  | life hb hl =>
      refine h.congr rfl rfl (fun x => ?_) (fun x => ?_) fun x => ?_
      · simp [afterLife]
      · simp [afterLife]
      · simp [afterLife]
  | lifeReadTransport hl => exact h.congr rfl rfl (fun _ => rfl) (fun _ => rfl) fun _ => rfl
  | route hl => exact h.congr rfl rfl (fun _ => rfl) (fun _ => rfl) fun _ => rfl
  | @begin r op hb hpc =>
      obtain ⟨pc, heq, hbegun⟩ := begin_eq s r op
      rw [heq]
      refine h.move (r := r) rfl rfl (fun x hx => by simp [setCall_apply, hx]) ?_ ?_ ?_ ?_
      · exact fun w _ hw => not_pending (by simp [hpc, CallPc.Storing]) hw
      · simp only [setCall_apply, if_true]
        rintro rfl
        exact hbegun
      · simp only [setCall_apply, if_true]
        cases pc <;> simp_all [CallPc.Begun, CallPc.Storing]
      · simp only [setCall_apply, if_true]
        intro hreads hl
        cases pc with
        | register => simp_all [CallPc.Begun]
        | send what => cases what <;> simp_all [CallPc.Begun]
        | _ => contradiction
  | readTransport hpc hfree => exact h.readTransport hpc
  | readSession hpc => exact h.readSession hpc hok
  | @readMediaSession r hpc =>
      unfold Session.readMediaSession
      split
      · refine h.move (r := r) rfl rfl (fun x hx => by simp [setCall_apply, hx]) ?_ ?_ ?_ ?_
        · exact fun w _ hw => not_pending (by simp [hpc, CallPc.Storing]) hw
        · simp [setCall_apply]
        · simp [setCall_apply, CallPc.Storing]
        · have hreads := hreading r
          rw [hpc] at hreads
          simp only [setCall_apply, if_true]
          exact fun hx => absurd (hx.symm.trans hreads) (by simp)
      · exact h.goto (by simp [hpc, CallPc.Storing]) ⟨by simp, id⟩ False.elim
  | increment hpc hq => exact h.beside _ _ _
  | incrementAgain hpc hq => exact h.beside _ _ _
  | @insert r q hpc hq =>
      exact (h.beside s.life q s.mediaSessionId).goto (by simp [hpc, CallPc.Storing]) ⟨by simp, id⟩
        (by simp [hpc, CallPc.Sending])
  | @cloneWriteTx r what hpc =>
      refine h.goto (by simp [hpc, CallPc.Storing]) ⟨by simp, id⟩ ?_
      rw [hpc]
      cases what <;> exact id
  | @accept r c what hpc hopen =>
      obtain ⟨msg, f, heq, -, -, hacc⟩ := accept_eq serde s r c what
      rw [heq]
      refine h.move (r := r) rfl rfl (fun x hx => by simp [setCall_apply, hx])
        (fun w _ hw => not_pending (by simp [hpc, CallPc.Storing]) hw) ?_ ?_ ?_
      · simp only [setCall_apply, if_true]
        intro hf; simp [hf, CallPc.Accepted] at hacc
      · simp only [setCall_apply, if_true]
        cases hf : (f (s.calls r)).pc <;> simp_all [CallPc.Accepted, CallPc.Storing]
      · simp only [setCall_apply, if_true]
        intro _ hl
        cases hf : (f (s.calls r)).pc <;> simp_all [CallPc.Accepted, CallPc.Sending]
  | sendFailed hpc hopen => exact h.goto (by simp [hpc, CallPc.Storing]) ⟨by simp, id⟩ False.elim
  | @receive r n json q hpc hrx hq =>
      obtain ⟨m, pc, heq, hans⟩ := Session.answer_eq { s with requests := q } r json
      rw [heq]
      refine (h.beside s.life q m).goto (by simp [hpc, CallPc.Storing]) ?_ ?_
      · cases pc <;> simp_all [CallPc.Answered, CallPc.Storing]
      · cases pc with
        | send what => cases what <;> simp_all [CallPc.Answered, CallPc.Sending]
        | _ => simp_all [CallPc.Answered, CallPc.Sending]
  | senderDropped hpc hq => exact h.beside _ _ _
  | timeout hpc hq => exact h.beside _ _ _
  | @cleanup r k err q hpc hp hq =>
      exact (h.beside s.life q s.mediaSessionId).goto (by simp [hpc, CallPc.Storing]) ⟨by simp, id⟩
        False.elim
  | appSeen hpc hbuf happ =>
      exact (h.beside s.life.nextEvent s.requests s.mediaSessionId).goto
        (by simp [hpc, CallPc.Storing]) ⟨by simp, id⟩
        False.elim
  | skipEvent hpc hbuf happ => exact h.beside s.life.nextEvent s.requests s.mediaSessionId
  | launchTimeout hpc => exact h.goto (by simp [hpc, CallPc.Storing]) ⟨by simp, id⟩ False.elim
  | @storeTransport r app hpc hfree =>
      simp only [Sources.record, hpc]
      exact h.firstStore ⟨r, some app⟩ (by simp [hpc, CallPc.Storing])
  | @storeSession r app hpc =>
      simp only [Sources.record, hpc]
      exact h.secondStore (w := ⟨r, some app⟩) hpc hok
  | @clearTransport r hpc hfree => exact h.firstStore ⟨r, none⟩ (by simp [hpc, CallPc.Storing])
  | @clearSession r hpc => exact h.secondStore (w := ⟨r, none⟩) hpc hok
  | @drop r hidle hend =>
      refine h.move (r := r) rfl rfl (fun x hx => by rw [calls_goto, if_neg hx])
        (fun w hw hc => hok w hw hc) ?_ ?_ ?_
      · simp [calls_goto]
      · simp [calls_goto, CallPc.Storing]
      · simp [calls_goto, CallPc.Sending]

theorem paired_of_run {x : Session × Sources}
    (h : (sourceSystem serde cfg).Run Undivided (start cfg, .empty) x) : Paired x.1 x.2 := by
  refine h.invariant_observed (fun _ => reading_of_run) paired_start ?_
  intro t hist a t' hreading hp hok hs
  exact hp.step hreading hok (step_cases hs)

/-! ## one application -/

/-- Both cells are empty, or filled by one launch from its application. -/
def CellsFromOneApp (s : Session) (h : Sources) : Prop :=
  s.transportId = none ∧ s.sessionId = none ∨
  ∃ x app, h.transport = some ⟨x, some app⟩ ∧ h.session = some ⟨x, some app⟩ ∧
    s.transportId = some app.transportId ∧ s.sessionId = some app.sessionId

theorem Paired.cells (h : Paired s hist) (hrest : ∀ r, ¬ CallPc.Storing (s.calls r).pc) :
    CellsFromOneApp s hist := by
  have ht := h.transport
  have hs := h.session
  cases hw : hist.transport with
  | none =>
      rw [hw] at ht
      rw [(h.first hw).1] at hs
      exact .inl ⟨ht, hs⟩
  | some w =>
      have hsession : hist.session = some w :=
        (h.held w (.inl hw)).resolve_left (not_pending (hrest _) rfl)
      rw [hw] at ht
      rw [hsession] at hs
      obtain ⟨x, app⟩ := w
      cases app with
      | none => exact .inl ⟨ht, hs⟩
      | some app => exact .inr ⟨x, app, hw, hsession, ht, hs⟩

/-- **A load targets one application**: in every run whose stores and reads of the
two cells are undivided, the message of a load goes to the transport and names
the session that one launch has stored from its application, and the cells are
both empty or from one launch whenever no launch or stop is between its stores. -/
theorem load_targets_one_app
    (h : (sourceSystem serde cfg).Run Undivided (start cfg, .empty) (s, hist)) :
    (∀ r c s', Operation.Load serde (s.calls r).op → (s.calls r).pc = .enqueue .request c →
      s.step serde cfg (.accept r) = some s' →
      ∃ x app msg id m, hist.readTransport r = some ⟨x, some app⟩ ∧
        hist.readSession r = some ⟨x, some app⟩ ∧ s'.sent c = s.sent c ++ [msg] ∧
        msg.destinationId = app.transportId ∧
        msg = (s.calls r).op.message id ⟨app.transportId, app.sessionId, m⟩) ∧
    ((∀ r, ¬ CallPc.Storing (s.calls r).pc) → CellsFromOneApp s hist) := by
  have hp : Paired s hist := paired_of_run h
  refine ⟨fun r c s' hload hpc hs => ?_, hp.cells⟩
  obtain ⟨x, app, ht, hsession, htid, hsid⟩ := hp.sending r hload.reads (by rw [hpc]; trivial)
  cases step_cases hs with
  | @accept _ c' what hpc' hopen =>
      obtain ⟨rfl, rfl⟩ : Outgoing.request = what ∧ c = c' := by simpa [hpc] using hpc'
      refine ⟨x, app, s.message r, (s.requests.request r).phase.id?.getD 0,
        (s.calls r).target.mediaSessionId, ht, hsession, ?_, ?_, ?_⟩
      · simp [Session.accept, Session.push]
      · rw [← htid]; exact hload.destination serde _ _
      · rw [← htid, ← hsid]; rfl

/-- The actions whose order matters to no pair. -/
def freeTest (_ : Session × Sources) : SessionAct → Bool
  | .storeSession _ | .clearSession _ | .readSession _ | .drop _ => false
  | _ => true

theorem undivided_of_free {y : Session × Sources} (h : freeTest y a = true) : Undivided y a := by
  cases a with
  | storeSession r => simp [freeTest] at h
  | clearSession r => simp [freeTest] at h
  | readSession r => simp [freeTest] at h
  | drop r => simp [freeTest] at h
  | _ => trivial

/-- Nobody reads while the launch that has filled the transport cell stores again. -/
theorem undivided_of_alone {y : Session × Sources} {w : Source} (hcell : y.2.transport = some w)
    (hw : w.Pending y.1) (halone : ∀ x, (y.1.calls x).pc ≠ .readSession) :
    Undivided y (.storeSession r) := by
  rintro v (hv | ⟨x, hx, -⟩)
  · rwa [← Option.some.inj (hcell.symm.trans hv)]
  · exact absurd hx (halone x)

/-- The launch whose transport id has been read has stored its session id. -/
theorem undivided_of_stored {y : Session × Sources} {w : Source}
    (hread : y.2.readTransport r = some w)
    (hw : ¬ w.Pending y.1) : Undivided y (.readSession r) := by
  intro v hv
  rwa [← Option.some.inj (hread.symm.trans hv)]

/-- Operation 1 loads a video, up to the read of the session id. -/
def loadActs : List SessionAct :=
  [.begin 1 (.loadMedia launchSerde ⟨"https://example.com/a.mp4", "video/mp4", .buffered,
    none, none⟩
    true .zero none), .readTransport 1]

set_option maxRecDepth 8000 in
/-- A launch, and a load after it: the LOAD goes to the app that was launched. -/
theorem load_targets_one_app_launched : ∃ s s' hist msg,
    (sourceSystem launchSerde autoCfg).Run Undivided (start autoCfg, .empty) (s, hist) ∧
      s.step launchSerde autoCfg (.accept 1) = some s' ∧ s'.sent 0 = s.sent 0 ++ [msg] ∧
      msg.destinationId = "web-1" := by
  have hlaunch := run_of_execIf (M := sourceSystem launchSerde autoCfg)
    (s := (start autoCfg, .empty)) (p := freeTest) launchActs.dropLast
    (fun _ _ => undivided_of_free) rfl
  have hstored := hlaunch.tail (undivided_of_alone (r := 0) (w := ⟨0, some _⟩) rfl rfl
    fun | 0 => nofun | _ + 1 => nofun) rfl
  have hload := hstored.trans (run_of_execIf (p := freeTest) loadActs
    (fun _ _ => undivided_of_free) rfl)
  have hread := hload.tail (undivided_of_stored (r := 1) rfl nofun) rfl
  have hrun := hread.trans (run_of_execIf (p := freeTest)
    [.increment 1, .insert 1, .cloneWriteTx 1] (fun _ _ => undivided_of_free) rfl)
  obtain ⟨x, app, msg, id, m, ht, -, hsent, hdest, -⟩ :=
    (load_targets_one_app hrun).1 1 0 _ (.loadMedia ..) rfl rfl
  have happ : some (some "web-1") = some (some app.transportId) :=
    congrArg (Option.map Source.transportId) ht
  refine ⟨_, _, _, msg, hrun, rfl, hsent, ?_⟩
  rw [hdest]
  simpa using happ.symm

/-- A second launch of the app, in another instance. -/
def relaunched : Json := .object [("requestId", .ofU32 2),
  ("status", .object [("applications", .array [.object [("appId", .string "CC1AD845"),
    ("sessionId", .string "s-2"), ("transportId", .string "web-2")]]), ("volume", .object [])]),
  ("type", .string msgReceiverStatus)]

/-- The serde_json that reads both answers. -/
def launchesSerde : SerdeJson :=
  .ofTexts [(launched.compact, launched), (relaunched.compact, relaunched)]

/-- An answer of the receiver. -/
def receiverMsg (json : Json) : CastMessage :=
  buildMessage nsReceiver receiverId senderId json.compact

/-- Operation `r` sends a launch of the app. -/
def sendLaunch (serde : SerdeJson) (r : Nat) : List SessionAct :=
  [.begin r (.launchApp serde "CC1AD845"), .increment r, .insert r, .cloneWriteTx r, .accept r]

/-- Its answer, up to the CONNECT to the app. -/
def answerLaunch (r : Nat) (json : Json) : List SessionAct :=
  [.route 0 (receiverMsg json), .receive r, .cloneWriteTx r, .accept r]

set_option maxRecDepth 8000 in
/-- Two launches store at the same time, and the app of one is paired with the
session of the other. -/
theorem cells_from_two_apps : ¬ ∀ (serde : SerdeJson) (cfg : ClientConfig) (s : Session)
    (hist : Sources), (sourceSystem serde cfg).Reachable (s, hist) →
      (∀ r, (s.calls r).pc = .idle ∨ s.Ended r) → CellsFromOneApp s hist := by
  intro h
  have hrun := reachable_of_exec (M := sourceSystem launchesSerde autoCfg)
    ([.life .builderSent, .life .builderDone] ++ sendLaunch launchesSerde 0 ++
      sendLaunch launchesSerde 1 ++
      answerLaunch 0 launched ++ answerLaunch 1 relaunched ++
      [.storeTransport 0, .storeTransport 1, .storeSession 1, .storeSession 0]) rfl
  have hrest : CellsFromOneApp _ _ := h _ _ _ _ hrun fun r => match r with
    | 0 => .inr ⟨_, rfl⟩
    | 1 => .inr ⟨_, rfl⟩
    | _ + 2 => .inl rfl
  obtain ⟨hempty, -⟩ | ⟨x, app, ht, hs, -⟩ := hrest
  · contradiction
  · have htransport : some 1 = some x := congrArg (Option.map Source.call) ht
    have hsession : some 0 = some x := congrArg (Option.map Source.call) hs
    simp [← hsession] at htransport

end Oxicast.Session
