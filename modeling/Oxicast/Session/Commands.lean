import Oxicast.Session.MediaSession
import Oxicast.Session.Sources

/-!
# Oxicast.Session.Commands

Which application the media session of a command belongs to.

A command takes the transport id from one cell and the media session id from
another.  The second one is tracked without its source: any app's MEDIA_STATUS
overwrites it, and neither a launch nor a stop empties it.  `Pairing` records
which app has reported which session.
-/

namespace Oxicast.Session

open TransitionSystem Lifecycle Ns

variable {serde : SerdeJson} {cfg : ClientConfig} {s s' : Session} {a : SessionAct} {r : Nat}
  {id m : Int32} {msg : CastMessage}

/-! ## the history of the reports -/

/-- The message is a MEDIA_STATUS about the media session. -/
def Names (serde : SerdeJson) (msg : CastMessage) (id : Int32) : Prop :=
  msg.ns = nsMedia ∧ ∃ json, serde.fromStr (msg.payloadUtf8.getD "") = some json ∧
    messageType json = msgMediaStatus ∧ json.entryId = some id

theorem names_of_mediaStatusIn {status : MediaStatus}
    (h : Router.mediaStatusIn serde msg = some status) : Names serde msg status.mediaSessionId := by
  have hns : msg.ns = nsMedia := by
    by_contra hns
    simp [Router.mediaStatusIn, hns] at h
  simp only [Router.mediaStatusIn, if_pos hns, Option.bind_eq_some_iff] at h
  obtain ⟨json, hjson, hstatus⟩ := h
  split at hstatus
  next htype => exact ⟨hns, json, hjson, htype, entryId_of_parseMediaStatus hstatus⟩
  next => contradiction

/-- Which transport has reported which media session, the transport that was
launched last, and what it has reported since the switch to it. -/
structure Pairing where
  reported : String → Int32 → Prop
  current : Option String
  since : Int32 → Prop

/-- A message arrives. -/
def Pairing.hear (serde : SerdeJson) (h : Pairing) (msg : CastMessage) : Pairing :=
  { h with
    reported := fun tid id => h.reported tid id ∨ tid = msg.sourceId ∧ Names serde msg id
    since := fun id => h.since id ∨ h.current = some msg.sourceId ∧ Names serde msg id }

/-- A launch stores its transport id. -/
def Pairing.switch (h : Pairing) (tid : String) : Pairing :=
  if h.current = some tid then h else { h with current := some tid, since := fun _ => False }

def Pairing.record (serde : SerdeJson) (h : Pairing) (s : Session) (a : SessionAct)
    (_ : Session) : Pairing :=
  match a with
  | .route _ msg => h.hear serde msg
  | .storeTransport r =>
      match (s.calls r).pc with
      | .storeTransport app => h.switch app.transportId
      | _ => h
  | _ => h

/-- Nothing has been reported. -/
def Pairing.empty : Pairing := ⟨fun _ _ => False, none, fun _ => False⟩

/-- The client and who has reported its media sessions. -/
def pairingSystem (serde : SerdeJson) (cfg : ClientConfig) :
    TransitionSystem (Session × Pairing) SessionAct :=
  (system serde cfg).observe .empty (Pairing.record serde)

/-! ## matching pairs -/

/-- The media session is one of whatever it may be paired with: of the current
transport, and of each transport a command between its two reads has read. -/
def Suits (s : Session) (h : Pairing) (id : Int32) : Prop :=
  (s.transportId ≠ none → h.since id) ∧
  ∀ r, (s.calls r).pc = .readMediaSession → h.reported (s.calls r).target.transportId id

/-- A MEDIA_STATUS of a real session, and the answer of a load, come from what the
client is paired with or name a session of it; and another app's transport id is
stored only while no media session is tracked. -/
def Matched (serde : SerdeJson) (x : Session × Pairing) : SessionAct → Prop
  | .route _ msg => ∀ status, Router.mediaStatusIn serde msg = some status →
      0 < status.mediaSessionId → Suits x.1 (x.2.hear serde msg) status.mediaSessionId
  | .receive r => ∀ n json, (x.1.requests.request r).rx = .sent n json →
      (x.1.calls r).op.check json = .ok () →
      0 < (x.1.calls r).op.mediaSession json x.1.mediaSessionId →
      Suits x.1 x.2 ((x.1.calls r).op.mediaSession json x.1.mediaSessionId)
  | .storeTransport r => ∀ app, (x.1.calls r).pc = .storeTransport app → 0 < x.1.mediaSessionId →
      x.2.current = some app.transportId ∧ x.2.since x.1.mediaSessionId
  | _ => True

/-- The media session the client tracks, and those its commands have read, belong
to the transports they are paired with. -/
structure Matches (s : Session) (h : Pairing) : Prop where
  cell : ∀ tid, s.transportId = some tid → h.current = some tid
  suits : 0 < s.mediaSessionId → Suits s h s.mediaSessionId
  since : ∀ tid id, h.current = some tid → h.since id → h.reported tid id
  sending : ∀ r, (s.calls r).op.reads = .transportAndMediaSession → CallPc.Sending (s.calls r).pc →
    h.reported (s.calls r).target.transportId (s.calls r).target.mediaSessionId

variable {hist : Pairing}

theorem matches_start : Matches (start cfg) .empty := by
  refine ⟨nofun, fun h => ?_, nofun, nofun⟩
  exact absurd h (by decide : ¬ (0 : Int32) < 0)

/-! ## what a step keeps -/

/-- What the pairs depend on. -/
theorem Matches.congr (h : Matches s hist) (ht : s'.transportId = s.transportId)
    (hm : s'.mediaSessionId = s.mediaSessionId) (hpc : ∀ x, (s'.calls x).pc = (s.calls x).pc)
    (hop : ∀ x, (s'.calls x).op = (s.calls x).op)
    (htarget : ∀ x, (s'.calls x).target = (s.calls x).target) : Matches s' hist := by
  refine ⟨fun tid htid => h.cell tid (ht ▸ htid), fun hpos => ?_, h.since, fun r hreads hsend => ?_⟩
  · rw [hm] at hpos ⊢
    obtain ⟨hcell, hread⟩ := h.suits hpos
    refine ⟨fun hne => hcell (ht ▸ hne), fun r hr => ?_⟩
    rw [htarget]
    exact hread r (hpc r ▸ hr)
  · rw [htarget]
    exact h.sending r (hop r ▸ hreads) (hpc r ▸ hsend)

/-- One call goes on, but not to the read of the media session. -/
theorem Matches.move (h : Matches s hist) (ht : s'.transportId = s.transportId)
    (hm : s'.mediaSessionId = s.mediaSessionId) (hc : ∀ x, x ≠ r → s'.calls x = s.calls x)
    (hread : (s'.calls r).pc ≠ .readMediaSession)
    (hsend : (s'.calls r).op.reads = .transportAndMediaSession → CallPc.Sending (s'.calls r).pc →
      hist.reported (s'.calls r).target.transportId (s'.calls r).target.mediaSessionId) :
    Matches s' hist := by
  refine ⟨fun tid htid => h.cell tid (ht ▸ htid), fun hpos => ?_, h.since, fun x hreads hx => ?_⟩
  · rw [hm] at hpos ⊢
    obtain ⟨hcell, hsuits⟩ := h.suits hpos
    refine ⟨fun hne => hcell (ht ▸ hne), fun x hx => ?_⟩
    have hne : x ≠ r := by rintro rfl; exact hread hx
    rw [hc x hne] at hx ⊢
    exact hsuits x hx
  · by_cases hne : x = r
    · subst hne; exact hsend hreads hx
    · rw [hc x hne] at hreads hx ⊢
      exact h.sending x hreads hx

theorem Matches.goto {pc : CallPc} (h : Matches s hist) (hto : pc ≠ .readMediaSession)
    (hsend : CallPc.Sending pc → CallPc.Sending (s.calls r).pc) : Matches (s.goto r pc) hist := by
  refine h.move (r := r) rfl rfl (fun x hx => by rw [calls_goto, if_neg hx]) ?_ ?_
  · rw [calls_goto, if_pos rfl]; exact hto
  · simp only [calls_goto, if_true]
    exact fun hreads hs => h.sending r hreads (hsend hs)

/-- The pairs do not depend on the requests, the lifecycle and the session id. -/
theorem Matches.beside (h : Matches s hist) (life : Lifecycle) (requests : Requests)
    (sessionId : Option String) : Matches { s with life, requests, sessionId } hist :=
  h.congr rfl rfl (fun _ => rfl) (fun _ => rfl) fun _ => rfl

/-- More has been reported. -/
theorem Matches.hear (h : Matches s hist) (msg : CastMessage) :
    Matches s (hist.hear serde msg) := by
  refine ⟨h.cell, fun hpos => ?_, fun tid id hc hs => ?_, fun r hreads hr => ?_⟩
  · obtain ⟨hcell, hread⟩ := h.suits hpos
    exact ⟨fun hne => .inl (hcell hne), fun r hr => .inl (hread r hr)⟩
  · rcases hs with hs | ⟨hsource, hn⟩
    · exact .inl (h.since tid id hc hs)
    · obtain rfl := Option.some.inj (hc.symm.trans hsource)
      exact .inr ⟨rfl, hn⟩
  · exact .inl (h.sending r hreads hr)

/-- A media session is stored that suits the client. -/
theorem Matches.store (h : Matches s hist) (hm : 0 < m → Suits s hist m) :
    Matches { s with mediaSessionId := m } hist := ⟨h.cell, hm, h.since, h.sending⟩

/-! ## the reads and the stores -/

theorem Matches.readTransport (h : Matches s hist) : Matches (s.readTransport r) hist := by
  obtain ⟨-, heq⟩ | ⟨tid, pc, htid, hafter, heq⟩ := s.readTransport_eq r
  · rw [heq]
    exact h.goto (by simp) False.elim
  by_cases hreads : (s.calls r).op.reads = .transportAndMediaSession
  · obtain rfl : pc = .readMediaSession := by cases pc <;> simp_all [CallPc.AfterTransport]
    have hc (x : Nat) (hx : x ≠ r) : (s.readTransport r).calls x = s.calls x := by
      simp [heq, setCall_apply, hx]
    have hr : (s.readTransport r).calls r = { s.calls r with
        target := { (s.calls r).target with transportId := tid }, epoch := s.opened
        pc := .readMediaSession } := by simp [heq, setCall_apply]
    refine ⟨fun t ht => h.cell t (by rw [heq] at ht; exact ht), fun hpos => ?_, h.since,
      fun x hx hs => ?_⟩
    · rw [heq] at hpos
      obtain ⟨hcell, hsuits⟩ := h.suits hpos
      have hsince := hcell (by simp [htid])
      have hm : (s.readTransport r).mediaSessionId = s.mediaSessionId := by rw [heq]
      rw [hm]
      refine ⟨fun _ => hsince, fun x hx => ?_⟩
      by_cases hne : x = r
      · subst hne
        rw [hr]
        exact h.since tid _ (h.cell tid htid) hsince
      · rw [hc x hne] at hx ⊢
        exact hsuits x hx
    · have hne : x ≠ r := by rintro rfl; simp [hr, CallPc.Sending] at hs
      rw [hc x hne] at hx hs ⊢
      exact h.sending x hx hs
  · rw [heq]
    refine h.move (r := r) rfl rfl (fun x hx => by simp [setCall_apply, hx]) ?_ ?_
    · simp only [setCall_apply, if_true]
      rintro rfl
      exact hreads hafter
    · simp only [setCall_apply, if_true]
      exact fun hx => absurd hx hreads

theorem Matches.readMediaSession (h : Matches s hist) (hpc : (s.calls r).pc = .readMediaSession) :
    Matches (s.readMediaSession r) hist := by
  rw [readMediaSession_eq]
  split
  next id hid =>
    obtain ⟨hpos, rfl⟩ := getMediaSessionId_eq_ok_iff.1 hid
    refine h.move (r := r) rfl rfl (fun x hx => by simp [setCall_apply, hx]) ?_ fun _ _ => ?_
    · simp [setCall_apply]
    · simpa [setCall_apply] using (h.suits hpos).2 r hpc
  next err hid => exact h.goto (by simp) False.elim

theorem Matches.storeTransport {app : Application} (h : Matches s hist)
    (hok : 0 < s.mediaSessionId → hist.current = some app.transportId ∧
      hist.since s.mediaSessionId) :
    Matches ({ s with transportId := some app.transportId }.goto r (.storeSession app))
      (hist.switch app.transportId) := by
  have hreported : (hist.switch app.transportId).reported = hist.reported := by
    unfold Pairing.switch; split <;> rfl
  have hcurrent : (hist.switch app.transportId).current = some app.transportId := by
    unfold Pairing.switch; split
    next hc => exact hc
    next => rfl
  have hswitched : Matches { s with transportId := some app.transportId }
      (hist.switch app.transportId) := by
    refine ⟨fun tid htid => ?_, fun hpos => ?_, fun tid id hc hs => ?_, fun x hx hs => ?_⟩
    · obtain rfl := Option.some.inj htid
      exact hcurrent
    · obtain ⟨hc, hsince⟩ := hok hpos
      rw [Pairing.switch, if_pos hc]
      exact ⟨fun _ => hsince, (h.suits hpos).2⟩
    · rw [hreported]
      unfold Pairing.switch at hs
      split at hs
      next heq =>
        rw [hcurrent] at hc
        exact h.since tid id (heq.trans hc) hs
      next => exact hs.elim
    · rw [hreported]
      exact h.sending x hx hs
  exact hswitched.goto (by simp) False.elim

theorem Matches.clearTransport (h : Matches s hist) :
    Matches ({ s with transportId := none }.goto r .clearSession) hist := by
  have hcleared : Matches { s with transportId := none } hist :=
    ⟨nofun, fun hpos => ⟨fun hne => absurd rfl hne, (h.suits hpos).2⟩, h.since, h.sending⟩
  exact hcleared.goto (by simp) False.elim

theorem Matches.answer {q : Requests} {n : Nat} {json : Json} (h : Matches s hist)
    (hrx : (s.requests.request r).rx = .sent n json) (hok : Matched serde (s, hist) (.receive r)) :
    Matches (({ s with requests := q }).answer r json) hist := by
  obtain ⟨m, pc, heq, hans⟩ := Session.answer_eq { s with requests := q } r json
  have hstored : Matches { s with requests := q, mediaSessionId := m } hist := by
    refine (h.beside s.life q s.sessionId).store fun hpos => ?_
    have hm : (({ s with requests := q }).answer r json).mediaSessionId = m := by rw [heq]; rfl
    cases hcheck : (s.calls r).op.check json with
    | error err =>
        have herr := answer_of_error (s := { s with requests := q }) hcheck
        rw [herr] at hm
        obtain rfl : s.mediaSessionId = m := hm
        exact h.suits hpos
    | ok =>
        rw [mediaSessionId_answer (s := { s with requests := q }) hcheck] at hm
        subst hm
        exact hok n json hrx hcheck hpos
  rw [heq]
  refine hstored.goto ?_ ?_
  · cases pc <;> simp_all [CallPc.Answered]
  · cases pc with
    | send what => cases what <;> simp_all [CallPc.Answered, CallPc.Sending]
    | _ => simp_all [CallPc.Answered, CallPc.Sending]

theorem Matches.step (h : Matches s hist) (hreading : Reading s) (hok : Matched serde (s, hist) a)
    (hs : Step serde cfg s a s') : Matches s' (hist.record serde s a s') := by
  cases hs with
  | life hb hl =>
      refine h.congr rfl rfl (fun x => ?_) (fun x => ?_) fun x => ?_
      · simp [afterLife]
      · simp [afterLife]
      · simp [afterLife]
  | lifeReadTransport hl => exact h.congr rfl rfl (fun _ => rfl) (fun _ => rfl) fun _ => rfl
  | @route c msg hrun =>
      have hm := mediaSessionId_route serde s c msg
      have hstored : Matches { s with mediaSessionId := (s.route serde c msg).mediaSessionId }
          (hist.hear serde msg) := by
        refine (h.hear msg).store fun hpos => ?_
        rw [hm] at hpos ⊢
        cases hstatus : Router.mediaStatusIn serde msg with
        | none =>
            rw [hstatus] at hpos
            exact (h.hear msg).suits hpos
        | some status =>
            rw [hstatus, Option.elim_some] at hpos
            rw [Option.elim_some]
            split at hpos
            next hpos' => rw [if_pos hpos']; exact hok status hstatus hpos'
            next hneg => rw [if_neg hneg]; exact (h.hear msg).suits hpos
      exact hstored.congr rfl rfl (fun _ => rfl) (fun _ => rfl) fun _ => rfl
  | @begin r op hb hpc =>
      obtain ⟨pc, heq, hbegun⟩ := begin_eq s r op
      rw [heq]
      refine h.move (r := r) rfl rfl (fun x hx => by simp [setCall_apply, hx]) ?_ ?_
      · simp only [setCall_apply, if_true]
        rintro rfl
        exact hbegun
      · simp only [setCall_apply, if_true]
        intro hreads hl
        cases pc with
        | register => simp_all [CallPc.Begun]
        | send what => cases what <;> simp_all [CallPc.Begun]
        | _ => contradiction
  | readTransport hpc hfree => exact h.readTransport
  | @readSession r hpc =>
      have hreads := hreading r
      rw [hpc] at hreads
      unfold Session.readSession
      split
      · exact h.goto (by simp) False.elim
      · refine h.move (r := r) rfl rfl (fun x hx => by simp [setCall_apply, hx]) ?_ ?_
        · simp [setCall_apply]
        · simp only [setCall_apply, if_true]
          exact fun hx => absurd (hx.symm.trans hreads) (by simp)
  | readMediaSession hpc => exact h.readMediaSession hpc
  | increment hpc hq => exact h.beside _ _ _
  | incrementAgain hpc hq => exact h.beside _ _ _
  | @insert r q hpc hq =>
      exact (h.beside s.life q s.sessionId).goto (by simp) (by simp [hpc, CallPc.Sending])
  | @cloneWriteTx r what hpc =>
      refine h.goto (by simp) ?_
      rw [hpc]
      cases what <;> exact fun hs => hs
  | @accept r c what hpc hopen =>
      obtain ⟨msg, f, heq, -, -, hacc⟩ := accept_eq serde s r c what
      rw [heq]
      refine h.move (r := r) rfl rfl (fun x hx => by simp [setCall_apply, hx]) ?_ ?_
      · simp only [setCall_apply, if_true]
        intro hf; simp [hf, CallPc.Accepted] at hacc
      · simp only [setCall_apply, if_true]
        intro _ hl
        cases hf : (f (s.calls r)).pc <;> simp_all [CallPc.Accepted, CallPc.Sending]
  | sendFailed hpc hopen => exact h.goto (by simp) False.elim
  | receive hpc hrx hq => exact h.answer hrx hok
  | senderDropped hpc hq => exact h.beside _ _ _
  | timeout hpc hq => exact h.beside _ _ _
  | @cleanup r k err q hpc hp hq => exact (h.beside s.life q s.sessionId).goto (by simp) False.elim
  | appSeen hpc hbuf happ =>
      exact (h.beside s.life.nextEvent s.requests s.sessionId).goto (by simp) False.elim
  | skipEvent hpc hbuf happ => exact h.beside s.life.nextEvent s.requests s.sessionId
  | launchTimeout hpc => exact h.goto (by simp) False.elim
  | @storeTransport r app hpc hfree =>
      simp only [Pairing.record, hpc]
      exact h.storeTransport (hok app hpc)
  | @storeSession r app hpc => exact (h.beside s.life s.requests _).goto (by simp) False.elim
  | clearTransport hpc hfree => exact h.clearTransport
  | @clearSession r hpc => exact (h.beside s.life s.requests _).goto (by simp) False.elim
  | drop hidle hend => exact h.goto (by simp) False.elim

theorem matches_of_run {x : Session × Pairing}
    (h : (pairingSystem serde cfg).Run (Matched serde) (start cfg, .empty) x) :
    Matches x.1 x.2 := by
  refine h.invariant_observed (fun _ => reading_of_run) matches_start ?_
  intro t hist a t' hreading hi hok hs
  exact hi.step hreading hok (step_cases hs)

/-! ## commands go to the app of their session -/

/-- **A command and its session belong to one application**: in every run whose
reports and launches match, a command that is sent names a media session its own
destination has reported; and after a switch to another app nothing is commanded
before that app has reported a session. -/
theorem commands_match
    (h : (pairingSystem serde cfg).Run (Matched serde) (start cfg, .empty) (s, hist)) :
    (∀ r c s', Operation.Command serde (s.calls r).op → (s.calls r).pc = .enqueue .request c →
      s.step serde cfg (.accept r) = some s' →
      ∃ msg id, s'.sent c = s.sent c ++ [msg] ∧
        msg = (s.calls r).op.message id (s.calls r).target ∧
        hist.reported msg.destinationId (s.calls r).target.mediaSessionId) ∧
    ∀ tid, s.transportId = some tid → hist.current = some tid ∧ ((∀ id, ¬ hist.since id) →
      ∀ r s', s.step serde cfg (.readMediaSession r) = some s' →
        (s'.calls r).pc = .ended (some (.error .noMediaSession))) := by
  have hmatch : Matches s hist := matches_of_run h
  refine ⟨fun r c s' hcommand hpc hs => ?_, fun tid htid => ⟨hmatch.cell tid htid, ?_⟩⟩
  · have hreported := hmatch.sending r hcommand.reads (by rw [hpc]; trivial)
    cases step_cases hs with
    | @accept _ c' what hpc' hopen =>
        obtain ⟨rfl, rfl⟩ : Outgoing.request = what ∧ c = c' := by simpa [hpc] using hpc'
        refine ⟨s.message r, (s.requests.request r).phase.id?.getD 0, ?_, rfl, ?_⟩
        · simp [Session.accept, Session.push]
        · have hdest := hcommand.destination serde ((s.requests.request r).phase.id?.getD 0)
            (s.calls r).target
          rw [Session.message, hdest]
          exact hreported
  · intro hnone r s' hs
    have hnot : ¬ 0 < s.mediaSessionId := fun hpos =>
      hnone _ ((hmatch.suits hpos).1 (by simp [htid]))
    cases step_cases hs with
    | readMediaSession hpc =>
        rw [Session.readMediaSession, if_neg hnot, calls_goto, if_pos rfl]

/-- The serde_json of a client that launches two apps, of which the first one plays. -/
def switchSerde : SerdeJson :=
  .ofTexts [(launched.compact, launched), (relaunched.compact, relaunched),
    (playing.compact, playing)]

/-- Operation `r` launches the app. -/
def launchedActs (r : Nat) (json : Json) : List SessionAct :=
  sendLaunch switchSerde r ++ answerLaunch r json ++ [.storeTransport r, .storeSession r]

/-- Operation `r` is about to send PLAY. -/
def playActs (r : Nat) : List SessionAct :=
  [.begin r (.play switchSerde), .readTransport r, .readMediaSession r, .increment r, .insert r,
    .cloneWriteTx r]

/-- A message without a MEDIA_STATUS, and an answer or launch without a media session. -/
def matchedTest (serde : SerdeJson) (x : Session × Pairing) : SessionAct → Bool
  | .route _ msg => (Router.mediaStatusIn serde msg).isNone
  | .receive r =>
      match (x.1.requests.request r).rx with
      | .sent _ json => ¬ 0 < (x.1.calls r).op.mediaSession json x.1.mediaSessionId
      | _ => true
  | .storeTransport _ => ¬ 0 < x.1.mediaSessionId
  | _ => true

theorem matched_of_test {x : Session × Pairing} (h : matchedTest serde x a = true) :
    Matched serde x a := by
  cases a with
  | route c msg =>
      intro status hs
      simp [matchedTest, hs] at h
  | receive r =>
      intro n json hrx hcheck hpos
      simp [matchedTest, hrx] at h
      exact absurd hpos (Int32.not_lt.2 h)
  | storeTransport r =>
      intro app hpc hpos
      simp [matchedTest] at h
      exact absurd hpos (Int32.not_lt.2 h)
  | _ => trivial

/-- The app that was launched last reports, and no command is reading. -/
theorem matched_of_source {x : Session × Pairing} {c : Nat} {m : CastMessage}
    (hsource : x.2.current = some m.sourceId)
    (halone : ∀ r, (x.1.calls r).pc ≠ .readMediaSession) : Matched serde x (.route c m) :=
  fun _ hs _ => ⟨fun _ => .inr ⟨hsource, names_of_mediaStatusIn hs⟩,
    fun r hr => absurd hr (halone r)⟩

set_option maxRecDepth 8000 in
/-- The app that was launched plays, and PLAY names what it has reported. -/
theorem commands_match_playing : ∃ s s' hist msg,
    (pairingSystem switchSerde autoCfg).Run (Matched switchSerde) (start autoCfg, .empty)
    (s, hist) ∧
      s.step switchSerde autoCfg (.accept 1) = some s' ∧ s'.sent 0 = s.sent 0 ++ [msg] ∧
      hist.reported msg.destinationId 5 := by
  have hlaunch := run_of_execIf (M := pairingSystem switchSerde autoCfg)
    (s := (start autoCfg, .empty))
    (p := matchedTest switchSerde)
    ([.life .builderSent, .life .builderDone] ++ launchedActs 0 launched)
    (fun _ _ => matched_of_test) rfl
  have hheard := hlaunch.tail (matched_of_source (c := 0) (m := appMsg "web-1" playing) rfl
    fun | 0 => nofun | _ + 1 => nofun) rfl
  have hrun := hheard.trans (run_of_execIf (p := matchedTest switchSerde) (playActs 1)
    (fun _ _ => matched_of_test) rfl)
  obtain ⟨msg, id, hsent, -, hreported⟩ := (commands_match hrun).1 1 0 _ .play rfl rfl
  exact ⟨_, _, _, msg, hrun, rfl, hsent, hreported⟩

set_option maxRecDepth 8000 in
/-- The user switches apps, and PLAY names the media session of the old one. -/
theorem session_of_other_app : ¬ ∀ (serde : SerdeJson) (cfg : ClientConfig) (s s' : Session)
    (hist : Pairing) (r c : Nat), (pairingSystem serde cfg).Reachable (s, hist) →
      Operation.Command serde (s.calls r).op → (s.calls r).pc = .enqueue .request c →
      s.step serde cfg (.accept r) = some s' →
      hist.reported (s.calls r).target.transportId (s.calls r).target.mediaSessionId := by
  intro h
  have hrun := reachable_of_exec (M := pairingSystem switchSerde autoCfg)
    ([.life .builderSent, .life .builderDone] ++ launchedActs 0 launched ++
      [.route 0 (appMsg "web-1" playing)] ++ launchedActs 1 relaunched ++ playActs 2) rfl
  have hreported := h _ _ _ _ _ 2 0 hrun .play rfl rfl
  -- three messages have been routed, and none of them came from the second app
  rcases hreported with ((hnone | ⟨hsource, -⟩) | ⟨hsource, -⟩) | ⟨hsource, -⟩
  · exact hnone
  · exact absurd hsource (by decide)
  · exact absurd hsource (by decide)
  · exact absurd hsource (by decide)

end Oxicast.Session
