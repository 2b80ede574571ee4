import Oxicast.Session.Once

/-!
# Oxicast.Session.Answers

Whose answer a call returns.

The messages the readers took for answers are kept in a history, one for every
`resolve` call, with the connection each was read from.  A call that returns `Ok`
returns what it has made of one of them (`Served`), and of one that carries its own id
(`Heard`).  When the device quotes on a connection the ids of requests it was sent on
that connection only, the answer came on the connection its request went out on.
-/

namespace Oxicast.Session

open Ns TransitionSystem

variable {serde : SerdeJson} {cfg : ClientConfig} {s s' : Session} {a : SessionAct} {r c : Nat}

/-! ## what a call makes of its answer -/

/-- Points a call comes to with an answer it has taken. -/
def CallPc.GoesOn : CallPc → Prop
  | .awaitApp _ | .send (.connect _) | .enqueue (.connect _) _ | .storeTransport _ | .storeSession _
  | .clearTransport | .clearSession | .ended (some (.ok _)) => True
  | _ => False

/-- The first app of a status with the given id. -/
def listed (appId : String) (json : Json) : Option Application :=
  (parseReceiverStatus json).bind (findApp · appId)

/-- An app a launch may return: the one its answer lists, or one with the id it has asked
for when the answer lists none. -/
structure Launched (appId : String) (json : Json) (app : Application) : Prop where
  asked : app.appId = appId
  first : ∀ app', listed appId json = some app' → app = app'

/-- A result a call may make of its answer. -/
def Returns (json : Json) (v : Value) : After → Prop
  | .give parse => parse json = .ok v
  | .launch appId => ∃ app, v = .application app ∧ Launched appId json app
  | .forgetApp => v = .unit

/-- What a call that goes on with its answer has made of it so far. -/
def CallPc.Made (after : After) (json : Json) : CallPc → Prop
  | .awaitApp appId => after = .launch appId ∧ listed appId json = none
  | .send (.connect app) | .enqueue (.connect app) _ | .storeTransport app | .storeSession app =>
      ∃ appId, after = .launch appId ∧ Launched appId json app
  | .clearTransport | .clearSession => after = .forgetApp
  | .ended (some (.ok v)) => Returns json v after
  | _ => True

theorem launched_of_listed {appId : String} {json : Json} {app : Application}
    (h : listed appId json = some app) : Launched appId json app := by
  refine ⟨?_, fun app' happ => Option.some.inj (h.symm.trans happ)⟩
  obtain ⟨status, -, hfind⟩ := Option.bind_eq_some_iff.1 h
  simpa using List.find?_some hfind

/-- An app of an event, when the answer has listed none. -/
theorem launched_of_appIn {appId : String} {json : Json} {app : Application} {event : CastEvent}
    (hnone : listed appId json = none) (h : appIn appId event = some app) :
    Launched appId json app := by
  refine ⟨?_, fun app' happ => by rw [hnone] at happ; cases happ⟩
  cases event with
  | receiverStatusChanged status => simpa using List.find?_some h
  | _ => cases h

/-- The call has been answered with `json`, has taken it, and goes on accordingly. -/
structure Took (s : Session) (r : Nat) (json : Json) : Prop where
  returned : ∃ id, (s.requests.request r).phase = .returned id (.ok json)
  check : (s.calls r).op.check json = .ok ()
  made : CallPc.Made (s.calls r).op.after json (s.calls r).pc

/-- An answer with which a call goes on is taken. -/
theorem took_answer {json : Json} {id : UInt32}
    (hop : ((s.answer r json).calls r).op = (s.calls r).op)
    (hphase : (s.requests.request r).phase = .returned id (.ok json))
    (hon : CallPc.GoesOn ((s.answer r json).calls r).pc) : Took (s.answer r json) r json := by
  have hpc := pc_answer s r json
  cases hcheck : (s.calls r).op.check json with
  | error err =>
      simp only [hcheck] at hpc
      rw [hpc] at hon
      exact hon.elim
  | ok _ =>
      simp only [hcheck] at hpc
      refine ⟨⟨id, by rw [requests_answer, hphase]⟩, by rw [hop, hcheck], ?_⟩
      rw [hop]
      cases hafter : (s.calls r).op.after with
      | give parse =>
          simp only [hafter] at hpc
          rw [hpc] at hon ⊢
          cases hparse : parse json with
          | error err =>
              rw [hparse] at hon
              exact hon.elim
          | ok v => exact hparse
      | launch appId =>
          simp only [hafter] at hpc
          cases happ : (parseReceiverStatus json).bind (findApp · appId) with
          | none =>
              rw [happ] at hpc
              rw [hpc]
              exact ⟨rfl, happ⟩
          | some app =>
              rw [happ] at hpc
              rw [hpc]
              exact ⟨appId, rfl, launched_of_listed happ⟩
      | forgetApp =>
          simp only [hafter] at hpc
          rw [hpc]
          rfl

/-- Who has sent a request and goes on has taken an answer. -/
def Served (s : Session) : Prop :=
  ∀ r, (s.calls r).acceptedOn ≠ none → (s.calls r).op.answered = true →
    CallPc.GoesOn (s.calls r).pc →
    ∃ json, Took s r json

/-- An own step of a call that had sent its request already. -/
theorem took_of_own (h : Served s) (hacc : (s.calls r).acceptedOn ≠ none)
    (hp : CallPc.Past (s.calls r).pc)
    (hs : Step serde cfg s a s') (hcall : a.call? = some r) (hans : (s.calls r).op.answered = true)
    (hon : CallPc.GoesOn (s'.calls r).pc) : ∃ json, Took s' r json := by
  have hop := op_of_step hs hcall
  have hstay {pc pc' : CallPc} (hpc : (s.calls r).pc = pc) (hgo : CallPc.GoesOn pc)
      (hpc' : (s'.calls r).pc = pc')
      (hphase : (s'.requests.request r).phase = (s.requests.request r).phase)
      (hmade : ∀ json, CallPc.Made (s.calls r).op.after json pc →
        CallPc.Made (s.calls r).op.after json pc') :
      ∃ json, Took s' r json := by
    obtain ⟨json, htook⟩ := h r hacc hans (hpc ▸ hgo)
    refine ⟨json, hphase ▸ htook.returned, hop ▸ htook.check, ?_⟩
    rw [hop, hpc']
    exact hmade json (hpc ▸ htook.made)
  have hto {u : Session} {pc : CallPc} (hu : s' = u.goto r pc) : (s'.calls r).pc = pc := by
    rw [hu, calls_goto, if_pos rfl]
  have hnone {pc : CallPc} (hpc : (s.calls r).pc = pc) (hnot : ¬ CallPc.Past pc) : False :=
    hnot (hpc ▸ hp)
  have hends {u : Session} {result : Option (Except Error Value)}
      (hu : s' = u.goto r (.ended result))
      (hnot : ∀ v, result ≠ some (.ok v)) : False := by
    rw [hu, calls_goto, if_pos rfl] at hon
    cases result with
    | none => exact hon
    | some result =>
        cases result with
        | error err => exact hon
        | ok v => exact hnot v rfl
  cases hs with
  | life hb hl => cases hcall
  | lifeReadTransport hl => cases hcall
  | route hr => cases hcall
  | begin hb hpc => cases hcall
  | readTransport hpc hfree => cases hcall; exact (hnone hpc id).elim
  | readSession hpc => cases hcall; exact (hnone hpc id).elim
  | readMediaSession hpc => cases hcall; exact (hnone hpc id).elim
  | increment hpc hq => cases hcall; exact (hnone hpc id).elim
  | incrementAgain hpc hq => cases hcall; exact (hnone hpc id).elim
  | insert hpc hq => cases hcall; exact (hnone hpc id).elim
  | @cloneWriteTx _ what hpc =>
      cases hcall
      cases what with
      | request => exact (hnone hpc id).elim
      | connect app => exact hstay hpc trivial (hto rfl) rfl fun _ h => h
  | @accept _ c what hpc hopen =>
      cases hcall
      cases what with
      | request => exact (hnone hpc id).elim
      | connect app =>
          have hpc' : ((s.accept serde r (.connect app) c).calls r).pc = .storeTransport app := by
            simp [Session.accept, setCall]
          exact hstay hpc trivial hpc' rfl fun _ h => h
  | sendFailed hpc hopen => cases hcall; exact (hends rfl fun v => by simp).elim
  | @receive _ n json q hpc hrx hq =>
      cases hcall
      have hphase : ∃ id, (q.request r).phase = .returned id (.ok json) := by
        cases Requests.step_cases hq with
        | @receive _ n' id v hreg hrx' =>
            rw [hrx] at hrx'
            cases hrx'
            exact ⟨id, by rw [Requests.request_update, if_pos rfl]⟩
      obtain ⟨id, hphase⟩ := hphase
      exact ⟨json, took_answer (s := { s with requests := q }) hop hphase hon⟩
  | senderDropped hpc hq => cases hcall; rw [hpc] at hon; exact hon.elim
  | timeout hpc hq => cases hcall; rw [hpc] at hon; exact hon.elim
  | cleanup hpc hph hq => cases hcall; exact (hends rfl fun v => by simp).elim
  | appSeen hpc hbuf happ =>
      cases hcall
      refine hstay hpc trivial (hto rfl) rfl ?_
      rintro json ⟨hafter, hlisted⟩
      exact ⟨_, hafter, launched_of_appIn hlisted happ⟩
  | skipEvent hpc hbuf happ => cases hcall; exact hstay hpc trivial hpc rfl fun _ h => h
  | launchTimeout hpc => cases hcall; exact (hends rfl fun v => by simp).elim
  | storeTransport hpc hfree =>
      cases hcall
      exact hstay hpc trivial (hto rfl) rfl fun _ h => h
  | storeSession hpc =>
      cases hcall
      refine hstay hpc trivial (hto rfl) rfl ?_
      rintro json ⟨appId, hafter, hlaunched⟩
      change Returns json _ _
      rw [hafter]
      exact ⟨_, rfl, hlaunched⟩
  | clearTransport hpc hfree =>
      cases hcall
      exact hstay hpc trivial (hto rfl) rfl fun _ h => h
  | clearSession hpc =>
      cases hcall
      refine hstay hpc trivial (hto rfl) rfl fun json hafter => ?_
      change Returns json _ _
      rw [show (s.calls r).op.after = .forgetApp from hafter]
      rfl
  | drop hidle hend => cases hcall; exact (hends rfl fun v => by simp).elim

/-- A call that has sent no request before a step, and has after it, waits. -/
theorem acceptedOn_of_step (hacc : Accepted s) (hs : Step serde cfg s a s') (r : Nat) :
    (s'.calls r).acceptedOn = (s.calls r).acceptedOn ∨ (s.calls r).acceptedOn = none ∧
      CallPc.Past (s'.calls r).pc ∧ ((s.calls r).op.answered = true → (s'.calls r).pc = .wait) ∧
      ¬ CallPc.Past (s.calls r).pc := by
  cases sends_of_step hacc hs with
  | quiet _ hsame => exact .inl (hsame r)
  | connect _ _ _ hsame => exact .inl (hsame r)
  | request r' c hpc hpast hwait hkeep hmessage hsent hsame =>
      by_cases hr : r = r'
      · subst hr
        have hnot : ¬ CallPc.Past (s.calls r).pc := by
          rw [hpc]
          exact id
        exact .inr ⟨of_not_not fun hsome => hnot (hacc r hsome), hpast, hwait, hnot⟩
      · rw [hsame, if_neg hr]
        exact .inl rfl

theorem Served.step (h : Served s) (hacc : Accepted s) (hs : Step serde cfg s a s') :
    Served s' := by
  intro r hsent hans hon
  by_cases hbegin : ∃ op, a = .begin r op
  · obtain ⟨op, rfl⟩ := hbegin
    cases hs with
    | begin hb hpc =>
        simp only [Session.begin, Function.update_self] at hsent
        exact absurd rfl hsent
  have hop : (s'.calls r).op = (s.calls r).op := by
    by_cases hcall : a.call? = some r
    · exact op_of_step hs hcall
    · exact (call_of_ne hs hcall fun op heq => hbegin ⟨op, heq⟩).2
  rw [hop] at hans
  obtain hsame | ⟨-, -, hwait, -⟩ := acceptedOn_of_step hacc hs r
  · rw [hsame] at hsent
    by_cases hcall : a.call? = some r
    · exact took_of_own h hsent (hacc r hsent) hs hcall hans hon
    · obtain ⟨hpc, -⟩ := call_of_ne hs hcall fun op heq => hbegin ⟨op, heq⟩
      rw [hpc] at hon
      obtain ⟨json, htook⟩ := h r hsent hans hon
      refine ⟨json, ?_, hop ▸ htook.check, ?_⟩
      · rw [phase_of_other hs hcall]
        exact htook.returned
      · rw [hop, hpc]
        exact htook.made
  · rw [hwait hans] at hon
    exact hon.elim

theorem served_of_run {ok : Session → SessionAct → Prop}
    (h : (system serde cfg).Run ok (start cfg) s) :
    Served s :=
  h.invariant_with (fun _ h => (once_of_run h).accepted) (fun _ h => absurd rfl h)
    fun _ _ _ hj hi _ hs => hi.step hj (step_cases hs)

/-! ## the answers heard -/

/-- The messages taken for answers, each with the connection it was read from. -/
def recordAnswer (serde : SerdeJson) (heard : List (Nat × CastMessage)) (_ : Session) :
    SessionAct → Session → List (Nat × CastMessage)
  | .route c msg, _ => if (Router.resolveCall serde msg).isSome then heard ++ [(c, msg)] else heard
  | _, _ => heard

/-- A client with the answers its readers have heard. -/
def hearingSystem (serde : SerdeJson) (cfg : ClientConfig) :
    TransitionSystem (Session × List (Nat × CastMessage)) SessionAct :=
  (system serde cfg).observe [] (recordAnswer serde)

/-- The device answers, on each connection, requests it was sent on this connection. -/
def AnswersOwn (serde : SerdeJson) (x : Session × List (Nat × CastMessage)) : SessionAct → Prop
  | .route c msg => ∀ id json, Router.resolveCall serde msg = some (id, json) →
      ∃ r, (x.1.calls r).acceptedOn = some c ∧ (x.1.calls r).op.answered = true ∧
        x.1.requestId r = id
  | _ => True

/-- Every `resolve` call was made for a message heard, and a request that got it is the
one whose id the message carries, and was sent on the connection it came from. -/
structure Heard (serde : SerdeJson) (s : Session) (heard : List (Nat × CastMessage)) : Prop where
  count : heard.length = s.requests.resolves
  source : ∀ r n json, (s.requests.request r).rx = .sent n json → ∃ c msg id,
    heard[n]? = some (c, msg) ∧ Router.resolveCall serde msg = some (id, json) ∧
      (s.requests.request r).phase.id? = some id ∧ (s.calls r).acceptedOn = some c

/-- A step other than the routing of a message makes no `resolve` call. -/
theorem quiet_of_step (hs : Step serde cfg s a s') (hroute : ∀ c msg, a ≠ .route c msg) :
    s'.requests = s.requests ∨
      ∃ b, (∀ id json, b ≠ .resolve id json) ∧ Requests.Step s.requests b s'.requests := by
  cases hs with
  | @life b life hb h =>
      cases b with
      | clearAndSpawn => exact .inr ⟨.clear, fun _ _ => by simp, .clear⟩
      | readerCleared c => exact .inr ⟨.clear, fun _ _ => by simp, .clear⟩
      | publishDisconnected d => exact .inr ⟨.clear, fun _ _ => by simp, .clear⟩
      | _ => exact .inl rfl
  | route h => exact absurd rfl (hroute _ _)
  | increment h hq => exact .inr ⟨_, fun _ _ => by simp, Requests.step_cases hq⟩
  | incrementAgain h hq => exact .inr ⟨_, fun _ _ => by simp, Requests.step_cases hq⟩
  | insert h hq => exact .inr ⟨_, fun _ _ => by simp, Requests.step_cases hq⟩
  | receive h hrx hq =>
      exact .inr ⟨.receive _, fun _ _ => by simp, by simpa using Requests.step_cases hq⟩
  | senderDropped h hq => exact .inr ⟨_, fun _ _ => by simp, Requests.step_cases hq⟩
  | timeout h hq => exact .inr ⟨_, fun _ _ => by simp, Requests.step_cases hq⟩
  | cleanup h hp hq => exact .inr ⟨_, fun _ _ => by simp, Requests.step_cases hq⟩
  | _ => exact .inl (by simp [Session.begin, afterReadTransport])

theorem increments_of_step {requests requests' : Requests} {b : TrackerAct}
    (hs : Requests.Step requests b requests') : requests.increments ≤ requests'.increments := by
  cases hs with
  | increment hp => exact Nat.le_succ _
  | incrementAgain hp => exact Nat.le_succ _
  | resolve id payload => simp
  | insert hp => simp
  | cleanup hp => simp
  | _ => exact Nat.le_refl _

/-- An answer from the connection its request was sent on: the entry under its id is
that of the request. -/
theorem Heard.route {heard : List (Nat × CastMessage)} {msg : CastMessage} (h : Heard serde s heard)
    (honce : Once serde s) (hf : s.requests.Filing) (hn : s.requests.Numbering)
    (hfew : s.requests.increments < 2 ^ 32) (hok : AnswersOwn serde (s, heard) (.route c msg)) :
    Heard serde (s.route serde c msg)
      (recordAnswer serde heard s (.route c msg) (s.route serde c msg)) := by
  simp only [recordAnswer]
  cases hcall : Router.resolveCall serde msg with
  | none =>
      have hreq : (s.route serde c msg).requests = s.requests := by rw [requests_route, hcall]; rfl
      refine ⟨?_, fun r n json hrx => ?_⟩
      · rw [hreq]
        exact h.count
      · rw [hreq] at hrx ⊢
        exact h.source r n json hrx
  | some call =>
      obtain ⟨id, json⟩ := call
      have hreq : (s.route serde c msg).requests = (s.requests.resolve id json).2 := by
        rw [requests_route, hcall]; rfl
      obtain ⟨r₀, hacc₀, hans₀, hid₀⟩ := hok id json hcall
      refine ⟨?_, fun r n v hrx => ?_⟩
      · rw [hreq, Requests.resolves_resolve, ← h.count]
        exact List.length_append
      · rw [hreq, Requests.request_resolve] at hrx ⊢
        simp only at hrx ⊢
        split at hrx
        next hpending =>
          cases hrx
          have hid := (Requests.live_of_filed (hf.owner id r hpending)).2
          obtain ⟨id', hid'⟩ := (honce.registered r₀ (hacc₀ ▸ Option.some_ne_none c)).2 hans₀
          rw [requestId, hid', Option.getD_some] at hid₀
          subst hid₀
          obtain rfl := eq_of_id hn hfew hid' hid
          refine ⟨c, msg, id', ?_, hcall, hid, hacc₀⟩
          rw [← h.count]
          exact List.getElem?_concat_length
        next =>
          obtain ⟨c', msg', id', hget, hrest⟩ := h.source r n v hrx
          refine ⟨c', msg', id', ?_, hrest⟩
          rw [if_pos (by rfl), List.getElem?_append_left (List.getElem?_eq_some_iff.1 hget).1, hget]

theorem Heard.step {heard : List (Nat × CastMessage)} (h : Heard serde s heard)
    (honce : Once serde s)
    (hf : s.requests.Filing) (hn : s.requests.Numbering) (hfew : s.requests.increments < 2 ^ 32)
    (hok : AnswersOwn serde (s, heard) a) (hs : Step serde cfg s a s') :
    Heard serde s' (recordAnswer serde heard s a s') := by
  by_cases hroute : ∃ c msg, a = .route c msg
  · obtain ⟨c, msg, rfl⟩ := hroute
    cases hs with
    | route hrun => exact h.route honce hf hn hfew hok
  have hquiet (c : Nat) (msg : CastMessage) : a ≠ .route c msg := fun heq => hroute ⟨c, msg, heq⟩
  have hsame : recordAnswer serde heard s a s' = heard := by
    cases a with
    | route c msg => exact absurd rfl (hquiet c msg)
    | _ => rfl
  rw [hsame]
  have hresolves : s'.requests.resolves = s.requests.resolves ∧ ∀ r n json,
      (s'.requests.request r).rx = .sent n json → (s.requests.request r).rx = .sent n json := by
    obtain heq | ⟨b, hb, hstep⟩ := quiet_of_step hs hquiet
    · rw [heq]
      exact ⟨rfl, fun _ _ _ => id⟩
    · refine ⟨?_, fun r n json => Requests.sent_of_step hstep hb⟩
      generalize s'.requests = requests at hstep
      cases hstep with
      | resolve id payload => exact absurd rfl (hb id payload)
      | insert hp => simp
      | cleanup hp => simp
      | _ => rfl
  refine ⟨by rw [hresolves.1, h.count], fun r n json hrx => ?_⟩
  obtain ⟨c, msg, id, hget, hcall, hid, hacc⟩ := h.source r n json (hresolves.2 r n json hrx)
  have hpast := honce.accepted r (hacc ▸ Option.some_ne_none c)
  refine ⟨c, msg, id, hget, hcall, ?_, ?_⟩
  · rw [(past_of_step hs hpast).2.2, hid]
  · obtain hsame | ⟨-, -, -, hnot⟩ := acceptedOn_of_step honce.accepted hs r
    · rw [hsame, hacc]
    · exact absurd hpast hnot

/-- What a run with answers to its own requests has heard. -/
theorem heard_of_run {heard : List (Nat × CastMessage)}
    (h : (hearingSystem serde cfg).Run (AnswersOwn serde) (start cfg, []) (s, heard))
    (hfew : s.requests.increments < 2 ^ 32) : Heard serde s heard := by
  refine h.invariant_observed
    (I := fun s heard => s.requests.increments < 2 ^ 32 → Heard serde s heard)
    (J := fun s => Once serde s ∧ s.requests.Filing ∧ s.requests.Numbering)
    (fun s hs => ⟨once_of_run hs, filing_of_run hs, Requests.numbering_of_run (requests_run hs)⟩)
    (fun _ => ⟨rfl, fun r n json hrx => by cases hrx⟩) ?_ hfew
  intro s heard a t hj hi hok hs hfew
  have hle : s.requests.increments ≤ t.requests.increments := by
    obtain heq | ⟨b, hb⟩ := (step_cases hs).requests_step
    · rw [heq]
    · exact increments_of_step hb
  exact (hi (by omega)).step hj.1 hj.2.1 hj.2.2 (by omega) hok (step_cases hs)

/-- **A call returns its own answer**: when the device answers on every connection the
requests it was sent there, a call that returns `Ok` has taken a message that was read
from the connection its request went out on and carries its id, returns what it makes of
that message, and no other call has got the same message. -/
theorem answered_by_own {heard : List (Nat × CastMessage)} {v : Value}
    (h : (hearingSystem serde cfg).Run (AnswersOwn serde) (start cfg, []) (s, heard))
    (hfew : s.requests.increments < 2 ^ 32) (hacc : (s.calls r).acceptedOn = some c)
    (hans : (s.calls r).op.answered = true) (hok : (s.calls r).pc = .ended (some (.ok v))) :
    ∃ n msg json, heard[n]? = some (c, msg) ∧
      Router.resolveCall serde msg = some (s.requestId r, json) ∧
      (s.calls r).op.check json = .ok () ∧ Returns json v (s.calls r).op.after ∧
      (s.requests.request r).rx = .sent n json ∧
      ∀ r' json', (s.requests.request r').rx = .sent n json' → r' = r := by
  have hrun : (system serde cfg).Reachable s := h.unobserved fun _ _ _ => trivial
  have hanswering := Requests.answering_of_run (requests_run hrun)
  obtain ⟨json, htook⟩ :=
    served_of_run hrun r (hacc ▸ Option.some_ne_none c) hans (by rw [hok]; trivial)
  obtain ⟨id, hreturned⟩ := htook.returned
  obtain ⟨n, hrx⟩ := hanswering.result r id json hreturned
  obtain ⟨c', msg, id', hget, hcall, hid, hacc'⟩ := (heard_of_run h hfew).source r n json hrx
  obtain rfl : c' = c := Option.some.inj (hacc'.symm.trans hacc)
  have hown : s.requestId r = id' := by rw [requestId, hid, Option.getD_some]
  have hmade := htook.made
  rw [hok] at hmade
  exact ⟨n, msg, json, hget, hown ▸ hcall, htook.check, hmade, hrx,
    fun r' json' hrx' => hanswering.once r' r n json' json hrx' hrx⟩

/-- The device answers call 0. -/
def answersFirst (serde : SerdeJson) (x : Session × List (Nat × CastMessage)) : SessionAct → Bool
  | .route c msg => (x.1.calls 0).acceptedOn = some c && (x.1.calls 0).op.answered &&
      (Router.resolveCall serde msg).all (·.1 == x.1.requestId 0)
  | _ => true

theorem answersOwn_of_first {x : Session × List (Nat × CastMessage)}
    (h : answersFirst serde x a = true) :
    AnswersOwn serde x a := by
  cases a with
  | route c msg =>
      simp only [answersFirst, Bool.and_eq_true, decide_eq_true_eq] at h
      intro id json hcall
      rw [hcall, Option.all_some, beq_iff_eq] at h
      exact ⟨0, h.1.1, h.1.2, h.2.symm⟩
  | _ => trivial

/-- Operation 0 asks for the receiver's status, and is answered. -/
def statusActs : List SessionAct :=
  registerActs (.receiverStatus launchSerde) ++
    [.accept 0, .route 0 (buildMessage nsReceiver receiverId senderId launched.compact), .receive 0]

set_option maxRecDepth 8000 in
theorem answered_by_own_status :
    ∃ s heard v, (hearingSystem launchSerde Lifecycle.autoCfg).execIf (answersFirst launchSerde)
        (start Lifecycle.autoCfg, []) statusActs = some (s, heard) ∧
      ∃ n msg json, heard[n]? = some (0, msg) ∧
        Router.resolveCall launchSerde msg = some (s.requestId 0, json) ∧
        checkDeviceError json = .ok () ∧ Operation.giveReceiverStatus json = .ok v ∧
        (s.requests.request 0).rx = .sent n json ∧
        ∀ r' json', (s.requests.request r').rx = .sent n json' → r' = 0 := by
  have hrun : (hearingSystem launchSerde Lifecycle.autoCfg).Run (AnswersOwn launchSerde)
      (start Lifecycle.autoCfg, []) _ :=
    run_of_execIf statusActs (fun _ _ => answersOwn_of_first) rfl
  exact ⟨_, _, _, rfl, answered_by_own hrun (by decide : 1 < 2 ^ 32) rfl rfl rfl⟩

end Oxicast.Session
