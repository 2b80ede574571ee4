import Oxicast.Router.MediaSession
import Oxicast.Session.Once
import Oxicast.Session.Routing

/-!
# Oxicast.Session.MediaSession

Which media session the client tracks.

`media_session_id` is one atomic.  The router stores the id of every MEDIA_STATUS,
of an idle one too, after it has resolved the request the message answers; a load
stores the id its answer names; `stop_media` stores 0.  None of them looks at what it
overwrites, and they do so in any order: the system here is `Routing`, the client
between two writes of its readers.  `Reports` records which sessions have ended since
they were last reported in use, and which is the one in use.
-/

namespace Oxicast.Session

open TransitionSystem Lifecycle Ns

variable {serde : SerdeJson} {cfg : ClientConfig} {s s' : Session} {a : SessionAct} {r : Nat}
  {id : Int32}

/-! ## the cell -/

theorem getMediaSessionId_eq_ok_iff :
    s.getMediaSessionId = .ok id ↔ 0 < s.mediaSessionId ∧ s.mediaSessionId = id := by
  unfold getMediaSessionId
  split
  next h => simp [h]
  next h => simp [h]

/-- A call goes on with the session it is given, or ends without one. -/
theorem readMediaSession_eq (s : Session) (r : Nat) :
    s.readMediaSession r = match s.getMediaSessionId with
      | .ok id => { s with calls := s.setCall r fun call =>
          { call with target := { call.target with mediaSessionId := id }, pc := .register } }
      | .error err => s.goto r (.ended (some (.error err))) := by
  unfold readMediaSession getMediaSessionId
  split <;> rfl

/-- What an answer stores. -/
theorem mediaSessionId_answer {json : Json} (h : (s.calls r).op.check json = .ok ()) :
    (s.answer r json).mediaSessionId = (s.calls r).op.mediaSession json s.mediaSessionId := by
  simp only [answer, h]
  rfl

/-- An error of the device ends the call, and nothing is stored. -/
theorem answer_of_error {json : Json} {err : Error} (h : (s.calls r).op.check json = .error err) :
    s.answer r json = s.goto r (.ended (some (.error err))) := by
  simp only [answer, h]

theorem mediaSessionId_route (serde : SerdeJson) (s : Session) (c : Nat) (msg : CastMessage) :
    (s.route serde c msg).mediaSessionId =
      (Router.mediaStatusIn serde msg).elim s.mediaSessionId fun status =>
        if 0 < status.mediaSessionId then status.mediaSessionId else s.mediaSessionId :=
  Router.mediaSessionId_route serde s.router msg

/-- Only the router and an answer store a media session. -/
theorem mediaSessionId_of_step (hs : Step serde cfg s a s') (hroute : ∀ c msg, a ≠ .route c msg)
    (hreceive : ∀ r, a ≠ .receive r) : s'.mediaSessionId = s.mediaSessionId := by
  cases hs with
  | route h => exact absurd rfl (hroute _ _)
  | receive h hrx hq => exact absurd rfl (hreceive _)
  | @readTransport r h hfree => unfold Session.readTransport; split <;> rfl
  | readSession h => unfold Session.readSession; split <;> rfl
  | readMediaSession h => unfold Session.readMediaSession; split <;> rfl
  | @accept r c what h hopen => cases what <;> rfl
  | _ => rfl

/-! ## the history of the sessions -/

/-- The sessions that have ended — an end was announced, or `stop_media` has
returned `Ok` — and were not reported in use since, and the session that was
reported in use last and has not ended since. -/
structure Reports where
  ended : Int32 → Prop
  live : Int32 → Prop

/-- A MEDIA_STATUS arrives. -/
def Reports.note (h : Reports) (status : MediaStatus) : Reports :=
  if status.playerState = .idle then
    { h with live := fun id => h.live id ∧ id ≠ status.mediaSessionId }
  else if 0 < status.mediaSessionId then
    { ended := fun id => h.ended id ∧ id ≠ status.mediaSessionId
      live := fun id => id = status.mediaSessionId }
  else h

/-- The call has got `Ok` from `stop_media` for a session, and 0 is stored. -/
def Stopped (serde : SerdeJson) (s : Session) (r : Nat) (id : Int32) : Prop :=
  (s.calls r).op = .stopMedia serde ∧ (s.calls r).target.mediaSessionId = id ∧
    ∃ status, (s.calls r).pc = .ended (some (.ok (.mediaStatus status)))

/-- A message counts when it arrives, an end when it is announced, and a stop when
the call returns to its caller. -/
def Reports.record (serde : SerdeJson) (h : Reports) (x : Routing) (a : RoutingAct)
    (_ : Routing) : Reports :=
  match a with
  | .session _ => h
  | .read _ msg => (Router.mediaStatusIn serde msg).elim h h.note
  | .write c =>
      match x.todo c with
      | .offer (.mediaSessionEnded id _) :: _ => { h with ended := fun k => h.ended k ∨ k = id }
      | _ => h
  | .returns r =>
      { ended := fun id => h.ended id ∨ Stopped serde x.session r id
        live := fun id => h.live id ∧ ¬ Stopped serde x.session r id }

/-- No session has been heard of. -/
def Reports.empty : Reports := ⟨fun _ => False, fun _ => False⟩

/-- A `stop_media` for a session has stored 0 and has not returned yet. -/
def Returning (serde : SerdeJson) (x : Routing) (id : Int32) : Prop :=
  ∃ r, Stopped serde x.session r id ∧ x.returned r = false

/-- What messages and answers may arrive when.  No MEDIA_STATUS of a real session arrives
while a `stop_media` for it is about to return, and an idle one neither gives a reason, so
that no end is announced, nor names a session that has ended.  No answer names such a
session either; and `stop_media` gets its answer only when no message that names its
session is still to be stored, and no other session is in use. -/
def Tracks (serde : SerdeJson) (x : Routing × Reports) : RoutingAct → Prop
  | .read _ msg => ∀ status, Router.mediaStatusIn serde msg = some status →
      0 < status.mediaSessionId → ¬ Returning serde x.1 status.mediaSessionId ∧
        (status.playerState = .idle → status.idleReason = none ∧ ¬ x.2.ended status.mediaSessionId)
  | .session (.receive r) => ∀ n json,
      let call := x.1.session.calls r
      let stored := call.op.mediaSession json x.1.session.mediaSessionId
      (x.1.session.requests.request r).rx = .sent n json → call.op.check json = .ok () →
      (0 < stored → ¬ x.2.ended stored ∧ ¬ Returning serde x.1 stored) ∧
      (call.op = .stopMedia serde →
        ((parseMediaStatus json).isSome →
          ∀ c, .storeSession call.target.mediaSessionId ∉ x.1.todo c) ∧
        (0 < x.1.session.mediaSessionId → ∀ id, x.2.live id → id = call.target.mediaSessionId))
  | _ => True

/-- Neither the cell nor a write to come names a session that has ended or is about to. -/
structure Tracked (serde : SerdeJson) (x : Routing) (hist : Reports) : Prop where
  ended : ∀ id, hist.ended id → x.session.getMediaSessionId ≠ .ok id
  returning : ∀ id, Returning serde x id → x.session.getMediaSessionId ≠ .ok id
  pending : ∀ c id, .storeSession id ∈ x.todo c →
    0 < id ∧ ¬ hist.ended id ∧ ¬ Returning serde x id
  quiet : ∀ c id reason, .offer (.mediaSessionEnded id reason) ∉ x.todo c
  returned : ∀ r, x.returned r = true → ∃ result, (x.session.calls r).pc = .ended result

/-! ## what a step does to the cell and the stops -/

/-- Only an answer lets `stop_media` return a status. -/
theorem returned_of_step {status : MediaStatus} (hs : Step serde cfg s a s') (ha : a ≠ .receive r)
    (hop : (s'.calls r).op = .stopMedia serde)
    (hpc : (s'.calls r).pc = .ended (some (.ok (.mediaStatus status)))) :
    (s.calls r).pc = .ended (some (.ok (.mediaStatus status))) := by
  by_cases hown : a.call? = some r ∨ ∃ op, a = .begin r op
  · cases hs with
    | life hb hl => simp [SessionAct.call?] at hown
    | lifeReadTransport hl => simp [SessionAct.call?] at hown
    | route hl => simp [SessionAct.call?] at hown
    | @begin x op hb hidle =>
        obtain rfl : x = r := by simpa [SessionAct.call?] using hown
        obtain rfl : op = .stopMedia serde := by simpa [Session.begin] using hop
        simp [Session.begin, Operation.stopMedia] at hpc
    | @readTransport x hpc' hfree =>
        obtain rfl : x = r := by simpa [SessionAct.call?] using hown
        obtain ⟨-, heq⟩ | ⟨tid, pc, -, hafter, heq⟩ := s.readTransport_eq x
        · have hnone : (s.calls x).op.noTransport = .error .noApplication := by
            rw [heq] at hop
            rw [show (s.calls x).op = .stopMedia serde by simpa [calls_goto] using hop]
            rfl
          simp [heq, calls_goto, hnone] at hpc
        · cases pc <;> simp_all [setCall_apply, CallPc.AfterTransport]
    | @readSession x hpc' =>
        obtain rfl : x = r := by simpa [SessionAct.call?] using hown
        unfold Session.readSession at hpc
        split at hpc <;> simp [calls_goto, setCall_apply] at hpc
    | @readMediaSession x hpc' =>
        obtain rfl : x = r := by simpa [SessionAct.call?] using hown
        unfold Session.readMediaSession at hpc
        split at hpc <;> simp [calls_goto, setCall_apply] at hpc
    | @accept x c what hpc' hopen =>
        obtain rfl : x = r := by simpa [SessionAct.call?] using hown
        cases what with
        | request =>
            simp only [Session.accept, setCall_apply, if_true] at hpc
            split at hpc <;> simp at hpc
        | connect app => simp [Session.accept, setCall_apply] at hpc
    | @receive x n json q hpc' hrx hq =>
        obtain rfl : x = r := by simpa [SessionAct.call?] using hown
        exact absurd rfl ha
    | @increment x q hpc' hq | @incrementAgain x q hpc' hq | @senderDropped x q hpc' hq
    | @timeout x q hpc' hq | @skipEvent x id event rest hpc' hbuf happ =>
        exact hpc
    | @insert x q hpc' hq | @cloneWriteTx x what hpc' | @sendFailed x c what hpc' hopen
    | @cleanup x id err q hpc' hp hq | @appSeen x id event rest app hpc' hbuf happ
    | @launchTimeout x id hpc' | @storeTransport x app hpc' hfree | @storeSession x app hpc'
    | @clearTransport x hpc' hfree | @clearSession x hpc' | @drop x hidle hend =>
        obtain rfl : x = r := by simpa [SessionAct.call?] using hown
        simp [calls_goto] at hpc
  · rw [not_or, not_exists] at hown
    rw [← (call_of_ne hs hown.1 hown.2).1, hpc]

theorem stopped_of_step (hs : Step serde cfg s a s') (ha : a ≠ .receive r)
    (h : Stopped serde s' r id) : Stopped serde s r id := by
  obtain ⟨hop, htarget, status, hpc⟩ := h
  have hold := returned_of_step hs ha hop hpc
  have hpast : CallPc.Past (s.calls r).pc := by
    rw [hold]
    trivial
  rw [(past_of_step hs hpast).2.1] at hop
  rw [target_of_step hs hpast] at htarget
  exact ⟨hop, htarget, status, hold⟩

/-- The answer lets a `stop_media` return when it has a status. -/
theorem stopped_answer_iff {q : Requests} {json : Json} (hop : (s.calls r).op = .stopMedia serde)
    (hok : checkDeviceError json = .ok ()) :
    Stopped serde (({ s with requests := q } : Session).answer r json) r id ↔
      (s.calls r).target.mediaSessionId = id ∧ (parseMediaStatus json).isSome := by
  obtain ⟨m, pc, heq, -⟩ := ({ s with requests := q } : Session).answer_eq r json
  have hpc := pc_answer { s with requests := q } r json
  have hcheck : (s.calls r).op.check json = .ok () := by rw [hop]; exact hok
  have hafter : (s.calls r).op.after = .give Operation.giveMediaStatus := by rw [hop]; rfl
  simp only [hcheck, hafter] at hpc
  rw [Stopped, hpc, heq, calls_goto, if_pos rfl]
  simp only [hop, true_and]
  cases hparse : parseMediaStatus json with
  | none => simp [Operation.giveMediaStatus, hparse]
  | some status => simp [Operation.giveMediaStatus, hparse]

/-- What an answer does: it stores what the operation says, and lets a `stop_media`
return when it has a status. -/
theorem answer_of_step (hs : Step serde cfg s (.receive r) s') :
    ∃ n json, (s.requests.request r).rx = .sent n json ∧
      (s'.mediaSessionId = s.mediaSessionId ∨ (s.calls r).op.check json = .ok () ∧
        s'.mediaSessionId = (s.calls r).op.mediaSession json s.mediaSessionId) ∧
      ∀ x id, Stopped serde s' x id → Stopped serde s x id ∨
        x = r ∧ (s.calls r).op = .stopMedia serde ∧ checkDeviceError json = .ok () ∧
          (s.calls r).target.mediaSessionId = id ∧ (parseMediaStatus json).isSome ∧
          s'.mediaSessionId = 0 := by
  cases hs with
  | @receive _ n json q hpc hrx hq =>
      refine ⟨n, json, hrx, ?_, fun x id h => ?_⟩
      · cases hcheck : (s.calls r).op.check json with
        | error err =>
            rw [answer_of_error (s := { s with requests := q }) hcheck]
            exact .inl rfl
        | ok => exact .inr ⟨rfl, mediaSessionId_answer (s := { s with requests := q }) hcheck⟩
      · obtain ⟨m, pc, heq, -⟩ := ({ s with requests := q } : Session).answer_eq r json
        by_cases hx : x = r
        · subst hx
          have hop : (s.calls x).op = .stopMedia serde := by
            obtain ⟨hop, -⟩ := h
            rw [heq, calls_goto, if_pos rfl] at hop
            exact hop
          cases hcheck : checkDeviceError json with
          | error err =>
              have hcheck' : (s.calls x).op.check json = .error err := by rw [hop]; exact hcheck
              obtain ⟨-, -, status, hpc⟩ := h
              rw [answer_of_error (s := { s with requests := q }) hcheck', calls_goto,
                if_pos rfl] at hpc
              simp at hpc
          | ok value =>
              have hcheck' : (s.calls x).op.check json = .ok () := by rw [hop]; exact hcheck
              obtain ⟨htarget, hparse⟩ := (stopped_answer_iff hop hcheck).1 h
              refine .inr ⟨rfl, hop, rfl, htarget, hparse, ?_⟩
              rw [mediaSessionId_answer (s := { s with requests := q }) hcheck', hop]
              rfl
        · rw [Stopped, heq, calls_goto, if_neg hx] at h
          exact .inl h

/-! ## tracked steps -/

variable {hist : Reports} {x y : Routing} {c : Nat}

theorem getMediaSessionId_congr (h : s'.mediaSessionId = s.mediaSessionId) :
    s'.getMediaSessionId = s.getMediaSessionId := by
  simp only [getMediaSessionId, h]

theorem Tracked.of_session (hi : Tracked serde x hist) (ha : ∀ r, a ≠ .receive r)
    (hroute : ∀ c msg, a ≠ .route c msg) (hs : Step serde cfg x.session a s') :
    Tracked serde { x with session := s' } hist := by
  have hget := getMediaSessionId_congr (mediaSessionId_of_step hs hroute ha)
  have hreturning (id : Int32) (h : Returning serde { x with session := s' } id) :
      Returning serde x id := by
    obtain ⟨r, hstopped, hnot⟩ := h
    exact ⟨r, stopped_of_step hs (ha r) hstopped, hnot⟩
  refine ⟨fun id hid => ?_, fun id hid => ?_, fun c id hmem => ?_, hi.quiet, fun r hr => ?_⟩
  · exact hget ▸ hi.ended id hid
  · exact hget ▸ hi.returning id (hreturning id hid)
  · obtain ⟨hpos, hended, hnot⟩ := hi.pending c id hmem
    exact ⟨hpos, hended, fun h => hnot (hreturning id h)⟩
  · obtain ⟨result, hpc⟩ := hi.returned r hr
    exact ⟨result, ended_of_step hs hpc⟩

theorem Tracked.of_answer (hi : Tracked serde x hist)
    (hok : Tracks serde (x, hist) (.session (.receive r)))
    (hs : Step serde cfg x.session (.receive r) s') :
    Tracked serde { x with session := s' } hist := by
  obtain ⟨n, json, hrx, hcell, hstopped⟩ := answer_of_step hs
  -- what is stored now is what was there, or what the condition speaks of
  have hstore (id : Int32) (hold : x.session.getMediaSessionId ≠ .ok id)
      (hnew : hist.ended id ∨ Returning serde x id) : s'.getMediaSessionId ≠ .ok id := by
    rcases hcell with hcell | ⟨hcheck, hcell⟩
    · exact getMediaSessionId_congr hcell ▸ hold
    · rw [ne_eq, getMediaSessionId_eq_ok_iff, hcell]
      rintro ⟨hpos, rfl⟩
      obtain ⟨hended, hreturning⟩ := (hok n json hrx hcheck).1 hpos
      exact hnew.elim hended hreturning
  refine ⟨fun id hid => ?_, fun id hid => ?_, fun c id hmem => ?_, hi.quiet, fun r' hr => ?_⟩
  · exact hstore id (hi.ended id hid) (.inl hid)
  · obtain ⟨r', hnow, hnot⟩ := hid
    rcases hstopped r' id hnow with hold | ⟨-, -, -, -, -, hzero⟩
    · exact hstore id (hi.returning id ⟨r', hold, hnot⟩) (.inr ⟨r', hold, hnot⟩)
    · rw [ne_eq, getMediaSessionId_eq_ok_iff, hzero]
      rintro ⟨hpos, -⟩
      exact absurd hpos (by decide)
  · obtain ⟨hpos, hended, hnot⟩ := hi.pending c id hmem
    refine ⟨hpos, hended, fun hreturning => ?_⟩
    obtain ⟨r', hnow, hfresh⟩ := hreturning
    rcases hstopped r' id hnow with hold | ⟨-, hop, hcheck, rfl, hparse, -⟩
    · exact hnot ⟨r', hold, hfresh⟩
    · have hcheck' : (x.session.calls r).op.check json = .ok () := by rw [hop]; exact hcheck
      exact ((hok n json hrx hcheck').2 hop).1 hparse c hmem
  · obtain ⟨result, hpc⟩ := hi.returned r' hr
    exact ⟨result, ended_of_step hs hpc⟩

/-- A report takes ended sessions back, and adds none. -/
theorem ended_of_note {status : MediaStatus} {id : Int32} (h : (hist.note status).ended id) :
    hist.ended id := by
  unfold Reports.note at h
  split at h
  · exact h
  · split at h
    · exact h.1
    · exact h

/-- A session that is reported in use has not ended. -/
theorem not_ended_note {status : MediaStatus} (hpos : 0 < status.mediaSessionId)
    (hidle : status.playerState = .idle → ¬ hist.ended status.mediaSessionId) :
    ¬ (hist.note status).ended status.mediaSessionId := by
  unfold Reports.note
  split
  next hstate => exact hidle hstate
  next hstate => simp

theorem Tracked.of_read {msg : CastMessage} (hi : Tracked serde x hist)
    (hok : Tracks serde (x, hist) (.read c msg)) :
    Tracked serde { x with todo := Function.update x.todo c (Router.effects serde msg) }
      ((Router.mediaStatusIn serde msg).elim hist hist.note) := by
  have hended (id : Int32) (h : ((Router.mediaStatusIn serde msg).elim hist hist.note).ended id) :
      hist.ended id := by
    cases hin : Router.mediaStatusIn serde msg with
    | none => simpa [hin] using h
    | some status =>
        rw [hin] at h
        exact ended_of_note h
  -- a write to come is one of this message, or was to come before
  have hcases (c' : Nat) (e : Router.Effect)
      (h : e ∈ Function.update x.todo c (Router.effects serde msg) c') :
      e ∈ Router.effects serde msg ∨ e ∈ x.todo c' := by
    by_cases hc : c' = c
    · subst hc
      rw [Function.update_self] at h
      exact .inl h
    · rw [Function.update_of_ne hc] at h
      exact .inr h
  refine ⟨fun id hid => hi.ended id (hended id hid), hi.returning, fun c' id hmem => ?_,
    fun c' id reason hmem => ?_, hi.returned⟩
  · rcases hcases c' _ hmem with hmem | hmem
    · obtain ⟨status, hin, hmem⟩ := Router.mediaStatusIn_of_mem_effects hmem (.inl ⟨id, rfl⟩)
      obtain ⟨hpos, rfl⟩ := Router.storeSession_mem_mediaEffects.1 hmem
      obtain ⟨hnot, hidle⟩ := hok status hin hpos
      rw [hin]
      exact ⟨hpos, not_ended_note hpos fun hstate => (hidle hstate).2, hnot⟩
    · obtain ⟨hpos, hnot, hreturning⟩ := hi.pending c' id hmem
      exact ⟨hpos, fun hid => hnot (hended id hid), hreturning⟩
  · rcases hcases c' _ hmem with hmem | hmem
    · obtain ⟨status, hin, hmem⟩ :=
        Router.mediaStatusIn_of_mem_effects hmem (.inr ⟨id, reason, rfl⟩)
      obtain ⟨hstate, hpos, -, hreason⟩ := Router.ended_mem_mediaEffects hmem
      obtain ⟨hnone, -⟩ := (hok status hin hpos).2 hstate
      rw [hnone] at hreason
      contradiction
    · exact hi.quiet c' id reason hmem

/-- Only an announcement is noted of the writes. -/
theorem record_of_write {e : Router.Effect} {rest : List Router.Effect}
    (htodo : x.todo c = e :: rest) (he : ∀ id reason, e ≠ .offer (.mediaSessionEnded id reason))
    (y : Routing) : hist.record serde x (.write c) y = hist := by
  simp only [Reports.record, htodo]
  split
  next heq => exact absurd (List.cons.inj heq).1 (he _ _)
  next => rfl

theorem Tracked.of_write {e : Router.Effect} {rest : List Router.Effect}
    (hi : Tracked serde x hist) (htodo : x.todo c = e :: rest) :
    Tracked serde
      { x with session := x.session.write c e, todo := Function.update x.todo c rest } hist := by
  have hhead : e ∈ x.todo c := by simp [htodo]
  have hcell := mediaSessionId_write x.session c e
  have hstore (id : Int32) (hold : x.session.getMediaSessionId ≠ .ok id)
      (hnew : hist.ended id ∨ Returning serde x id) :
      (x.session.write c e).getMediaSessionId ≠ .ok id := by
    cases e with
    | storeSession own =>
        rw [ne_eq, getMediaSessionId_eq_ok_iff, hcell]
        rintro ⟨-, rfl⟩
        obtain ⟨-, hended, hreturning⟩ := hi.pending c own hhead
        exact hnew.elim hended hreturning
    | _ => exact getMediaSessionId_congr hcell ▸ hold
  have hmem (c' : Nat) (e' : Router.Effect) (h : e' ∈ Function.update x.todo c rest c') :
      e' ∈ x.todo c' := by
    by_cases hc : c' = c
    · subst hc
      rw [Function.update_self] at h
      simp [htodo, h]
    · rwa [Function.update_of_ne hc] at h
  exact ⟨fun id hid => hstore id (hi.ended id hid) (.inl hid),
    fun id hid => hstore id (hi.returning id hid) (.inr hid),
    fun c' id h => hi.pending c' id (hmem c' _ h),
    fun c' id reason h => hi.quiet c' id reason (hmem c' _ h), hi.returned⟩

theorem Tracked.of_returns {result : Except Error Value} (hi : Tracked serde x hist)
    (hpc : (x.session.calls r).pc = .ended (some result)) (hnot : x.returned r = false) :
    Tracked serde { x with returned := Function.update x.returned r true }
      (hist.record serde x (.returns r) y) := by
  have hreturning (id : Int32)
      (h : Returning serde { x with returned := Function.update x.returned r true } id) :
      Returning serde x id := by
    obtain ⟨r', hstopped, hfresh⟩ := h
    have hne : r' ≠ r := by
      rintro rfl
      simp at hfresh
    exact ⟨r', hstopped, by simpa [Function.update_of_ne hne] using hfresh⟩
  refine ⟨fun id hid => ?_, fun id hid => hi.returning id (hreturning id hid), fun c id hmem => ?_,
    hi.quiet, fun r' hr => ?_⟩
  · rcases hid with hid | hstopped
    · exact hi.ended id hid
    · exact hi.returning id ⟨r, hstopped, hnot⟩
  · obtain ⟨hpos, hended, hfree⟩ := hi.pending c id hmem
    exact ⟨hpos, fun hid => hid.elim hended fun hstopped => hfree ⟨r, hstopped, hnot⟩,
      fun h => hfree (hreturning id h)⟩
  · by_cases hr' : r' = r
    · exact ⟨some result, by rw [hr', hpc]⟩
    · exact hi.returned r' (by simpa [Function.update_of_ne hr'] using hr)

theorem Tracked.step {a : RoutingAct} (hi : Tracked serde x hist)
    (hok : Tracks serde (x, hist) a) (hs : Routing.Step serde cfg x a y) :
    Tracked serde y (hist.record serde x a y) := by
  cases hs with
  | @session a s' hroute hends h =>
      by_cases hreceive : ∃ r, a = .receive r
      · obtain ⟨r, rfl⟩ := hreceive
        exact hi.of_answer hok h
      · exact hi.of_session (fun r heq => hreceive ⟨r, heq⟩) hroute h
  | read hrun hidle => exact hi.of_read hok
  | @write c e rest htodo =>
      have he (id : Int32) (reason : IdleReason) : e ≠ .offer (.mediaSessionEnded id reason) := by
        rintro rfl
        exact hi.quiet c id reason (by simp [htodo])
      rw [record_of_write htodo he]
      exact hi.of_write htodo
  | returns hpc hnot => exact hi.of_returns hpc hnot

variable {u v : Routing × Reports}

/-- A MEDIA_STATUS broadcast about session 5. -/
def sessionStatus (entry : List (String × Json)) : Json := .object [("requestId", .ofU32 0),
  ("status", .array [.object (("mediaSessionId", .ofU32 5) :: entry)]),
  ("type", .string msgMediaStatus)]

/-- The session is playing, and it is over. -/
def playing : Json := sessionStatus [("playerState", .string "PLAYING")]
def finished : Json :=
  sessionStatus [("idleReason", .string "FINISHED"), ("playerState", .string "IDLE")]

/-- The app sends it. -/
def appMsg (transportId : String) (json : Json) : CastMessage :=
  buildMessage nsMedia transportId senderId json.compact

end Oxicast.Session
