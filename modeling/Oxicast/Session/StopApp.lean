import Oxicast.Session.Sources

/-!
# Oxicast.Session.StopApp

What `stop_app` forgets.

It empties the cells of the current app whatever session it has stopped.  A stop
of another app than the tracked one so takes the tracked one away.
-/

namespace Oxicast.Session

open TransitionSystem Lifecycle Operation Ns

variable {serde : SerdeJson} {cfg : ClientConfig} {s s' : Session} {a : SessionAct} {r : Nat}
  {sid : String}

/-- Only these steps store in the two cells. -/
def Stores (a : SessionAct) (r : Nat) : Prop :=
  a = .storeTransport r ∨ a = .storeSession r ∨ a = .clearTransport r ∨ a = .clearSession r

theorem cells_of_step (hs : Step serde cfg s a s') (hstore : ∀ r, ¬ Stores a r) :
    s'.transportId = s.transportId ∧ s'.sessionId = s.sessionId := by
  cases hs with
  | @readTransport r h hfree => unfold Session.readTransport; split <;> exact ⟨rfl, rfl⟩
  | readSession h => unfold Session.readSession; split <;> exact ⟨rfl, rfl⟩
  | readMediaSession h => unfold Session.readMediaSession; split <;> exact ⟨rfl, rfl⟩
  | @accept r c what h hopen => cases what <;> exact ⟨rfl, rfl⟩
  | @receive r n json q hpc hrx hq =>
      obtain ⟨m, pc, heq, -⟩ := Session.answer_eq { s with requests := q } r json
      rw [heq]
      exact ⟨rfl, rfl⟩
  | storeTransport => exact absurd (.inl rfl) (hstore _)
  | storeSession => exact absurd (.inr (.inl rfl)) (hstore _)
  | clearTransport => exact absurd (.inr (.inr (.inl rfl))) (hstore _)
  | clearSession => exact absurd (.inr (.inr (.inr rfl))) (hstore _)
  | _ => exact ⟨rfl, rfl⟩

/-! ## one stop -/

/-- A stop under way: what it has emptied so far. -/
structure Stopping (serde : SerdeJson) (sid : String) (r : Nat) (s : Session) : Prop where
  op : (s.calls r).op = stopApp serde sid
  begun : (s.calls r).pc ≠ .idle
  first : (s.calls r).pc = .clearSession → s.transportId = none
  last : (s.calls r).pc = .ended (some (.ok .unit)) → s.transportId = none ∧ s.sessionId = none

theorem stopping_begin (serde : SerdeJson) (s : Session) (r : Nat) (sid : String) :
    Stopping serde sid r (s.begin r (stopApp serde sid)) := by
  have hcall : (s.begin r (stopApp serde sid)).calls r =
      { Call.fresh with op := stopApp serde sid, pc := .register } := by
    simp [begin, stopApp]
  refine ⟨?_, ?_, ?_, ?_⟩ <;> simp [hcall]

/-- The stop and the cells are as before. -/
theorem Stopping.congr (h : Stopping serde sid r s) (hop : (s'.calls r).op = (s.calls r).op)
    (hpc : (s'.calls r).pc = (s.calls r).pc)
    (hcells : s'.transportId = s.transportId ∧ s'.sessionId = s.sessionId) :
    Stopping serde sid r s' := by
  obtain ⟨ht, hsid⟩ := hcells
  refine ⟨hop.trans h.op, hpc ▸ h.begun, ?_, ?_⟩
  · rw [hpc, ht]
    exact h.first
  · rw [hpc, ht, hsid]
    exact h.last

/-- Where a stop can be that has not emptied the cells. -/
def CallPc.Before : CallPc → Prop
  | .idle | .clearSession | .ended (some (.ok .unit)) => False
  | _ => True

theorem Stopping.move (h : Stopping serde sid r s) (hop : (s'.calls r).op = (s.calls r).op)
    (hpc : CallPc.Before (s'.calls r).pc) : Stopping serde sid r s' := by
  refine ⟨hop.trans h.op, fun hp => ?_, fun hp => ?_, fun hp => ?_⟩
  all_goals
    rw [hp] at hpc
    contradiction

theorem Stopping.goto {pc : CallPc} (h : Stopping serde sid r s) (hcalls : s'.calls = s.calls)
    (hpc : CallPc.Before pc) : Stopping serde sid r (s'.goto r pc) := by
  have hcall : (s'.goto r pc).calls r = { s.calls r with pc } := by
    rw [calls_goto, if_pos rfl, hcalls]
  exact h.move (by rw [hcall]) (by rw [hcall]; exact hpc)

/-- The stop goes on by itself. -/
theorem Stopping.own (h : Stopping serde sid r s) (hcall : a.call? = some r)
    (hs : Step serde cfg s a s') : Stopping serde sid r s' := by
  cases hs with
  | life hb hl => contradiction
  | lifeReadTransport hl => contradiction
  | route hl => contradiction
  | begin hb hpc => contradiction
  | readTransport hpc hfree =>
      obtain rfl := Option.some.inj hcall
      rcases s.readTransport_eq _ with ⟨-, heq⟩ | ⟨tid, pc, -, hafter, heq⟩
      · rw [heq, h.op]
        exact h.goto rfl trivial
      · rw [heq]
        refine h.move (by simp [setCall_apply]) ?_
        simp only [setCall_apply, if_true]
        cases pc <;> trivial
  | readSession hpc =>
      obtain rfl := Option.some.inj hcall
      unfold Session.readSession
      split
      · exact h.goto rfl trivial
      · exact h.move (by simp [setCall_apply]) (by simp [setCall_apply, CallPc.Before])
  | readMediaSession hpc =>
      obtain rfl := Option.some.inj hcall
      unfold Session.readMediaSession
      split
      · exact h.move (by simp [setCall_apply]) (by simp [setCall_apply, CallPc.Before])
      · exact h.goto rfl trivial
  | increment hpc hq | incrementAgain hpc hq | senderDropped hpc hq | timeout hpc hq
  | skipEvent hpc hbuf happ => exact h.congr rfl rfl ⟨rfl, rfl⟩
  | insert hpc hq | cleanup hpc hp hq | appSeen hpc hbuf happ | cloneWriteTx hpc
  | sendFailed hpc hopen | launchTimeout hpc | storeTransport hpc hfree | storeSession hpc
  | drop hidle hend =>
      obtain rfl := Option.some.inj hcall
      exact h.goto rfl trivial
  | @accept _ c what hpc hopen =>
      obtain rfl := Option.some.inj hcall
      cases what with
      | request =>
          exact h.move (by simp [Session.accept, setCall_apply])
            (by simp [Session.accept, setCall_apply, h.op, stopApp, CallPc.Before])
      | connect app =>
          exact h.move (by simp [Session.accept, setCall_apply])
            (by simp [Session.accept, setCall_apply, CallPc.Before])
  | @receive _ n json q hpc hrx hq =>
      obtain rfl := Option.some.inj hcall
      unfold Session.answer
      simp only [h.op]
      split
      · exact h.goto rfl trivial
      · exact h.goto rfl trivial
  | clearTransport hpc hfree =>
      obtain rfl := Option.some.inj hcall
      refine ⟨?_, ?_, fun _ => rfl, ?_⟩
      · rw [calls_goto, if_pos rfl]
        exact h.op
      · simp [calls_goto]
      · simp [calls_goto]
  | clearSession hpc =>
      obtain rfl := Option.some.inj hcall
      refine ⟨?_, ?_, ?_, fun _ => ⟨h.first hpc, rfl⟩⟩
      · rw [calls_goto, if_pos rfl]
        exact h.op
      · simp [calls_goto]
      · simp [calls_goto]

/-- No other call stores in the two cells. -/
def Undisturbed (r : Nat) (_ : Session) (a : SessionAct) : Prop :=
  ∀ x, x ≠ r → ¬ Stores a x

theorem Stopping.step (h : Stopping serde sid r s) (hok : Undisturbed r s a)
    (hs : Step serde cfg s a s') : Stopping serde sid r s' := by
  by_cases hcall : a.call? = some r
  · exact h.own hcall hs
  · have hbegin : ∀ op, a ≠ .begin r op := by
      rintro op rfl
      cases hs with
      | begin hb hpc => exact h.begun hpc
    obtain ⟨hpc, hop⟩ := call_of_ne hs hcall hbegin
    refine h.congr hop hpc (cells_of_step hs fun x hx => ?_)
    by_cases hne : x = r
    · subst hne
      rcases hx with rfl | rfl | rfl | rfl <;> exact hcall rfl
    · exact hok x hne hx

/-- What a stop of the session should do to the cells. -/
def ForgetsOwn (s s' : Session) (sid : String) : Prop :=
  if s.sessionId = some sid then s'.transportId = none ∧ s'.sessionId = none
  else s'.transportId = s.transportId ∧ s'.sessionId = s.sessionId

/-- **A stop forgets another app** exactly when one is tracked: while no other call
stores, the cells are empty after it whatever they were before. -/
theorem forgetsOwn_iff {s₁ s₂ : Session}
    (hbegin : s.step serde cfg (.begin r (stopApp serde sid)) = some s₁)
    (hrun : (system serde cfg).Run (Undisturbed r) s₁ s₂)
    (hend : (s₂.calls r).pc = .ended (some (.ok .unit))) :
    ForgetsOwn s s₂ sid ↔ s.sessionId = some sid ∨ s.transportId = none ∧ s.sessionId = none := by
  have hstart : Stopping serde sid r s₁ := by
    cases step_cases hbegin with
    | begin hb hpc => exact stopping_begin serde s r sid
  have hstop : Stopping serde sid r s₂ :=
    hrun.invariant hstart fun _ _ _ hi hok hs => hi.step hok (step_cases hs)
  obtain ⟨ht, hsid⟩ := hstop.last hend
  rw [ForgetsOwn, ht, hsid]
  split_ifs with htracked
  · simp [htracked]
  · simp [htracked, eq_comm]

/-- The answer to a stop, with the apps that still run. -/
def stopAnswer (applications : List Json) : Json := .object [("requestId", .ofU32 2),
  ("status", .object [("applications", .array applications), ("volume", .object [])]),
  ("type", .string msgReceiverStatus)]

/-- The app that was launched. -/
def runningApp : Json := .object [("appId", .string "CC1AD845"), ("sessionId", .string "s-1"),
  ("transportId", .string "web-1")]

/-- The serde_json of a client that launches an app and stops one. -/
def stopSerde (applications : List Json) : SerdeJson :=
  .ofTexts [(launched.compact, launched),
    ((stopAnswer applications).compact, stopAnswer applications)]

/-- Operation 0 launches the app, whose session is `s-1`. -/
def runningActs (applications : List Json) : List SessionAct :=
  [.life .builderSent, .life .builderDone] ++ sendLaunch (stopSerde applications) 0 ++
    answerLaunch 0 launched ++ [.storeTransport 0, .storeSession 0]

/-- Operation 1 stops an app, once it has begun. -/
def stopActs (applications : List Json) : List SessionAct :=
  [.increment 1, .insert 1, .cloneWriteTx 1, .accept 1,
    .route 0 (receiverMsg (stopAnswer applications)),
    .receive 1, .clearTransport 1, .clearSession 1]

theorem undisturbed_of_stopActs {applications : List Json} (h : a ∈ stopActs applications) :
    Undisturbed 1 s a := by
  intro x hx hstore
  simp only [stopActs, List.mem_cons, List.not_mem_nil, or_false] at h
  rcases hstore with rfl | rfl | rfl | rfl <;> simp_all

theorem run_stopActs (applications : List Json)
    (h : (system serde cfg).exec s (stopActs applications) = some s') :
    (system serde cfg).Run (Undisturbed 1) s s' :=
  run_of_execIf_mem (stopActs applications) (fun _ ha _ _ => undisturbed_of_stopActs ha) h

set_option maxRecDepth 8000 in
/-- The stop of the app that was launched. -/
theorem forgetsOwn_launched : ∃ s s₂,
    (system (stopSerde []) autoCfg).exec (start autoCfg) (runningActs []) = some s ∧
      s.sessionId = some "s-1" ∧ ForgetsOwn s s₂ "s-1" := by
  refine ⟨_, _, rfl, rfl, (@forgetsOwn_iff (stopSerde []) autoCfg _ 1 "s-1" _ _ rfl
    (run_stopActs [] rfl) ?_).2 (.inl rfl)⟩
  rfl

set_option maxRecDepth 8000 in
/-- A stop of a session that the client has not launched: the app it has launched
still runs, and is no longer tracked. -/
theorem other_app_forgotten :
    ¬ ∀ (serde : SerdeJson) (cfg : ClientConfig) (s s₁ s₂ : Session) (r : Nat)
    (sid : String), (system serde cfg).Reachable s →
      s.step serde cfg (.begin r (stopApp serde sid)) = some s₁ →
      (system serde cfg).Run (Undisturbed r) s₁ s₂ → (s₂.calls r).pc = .ended (some (.ok .unit)) →
      ForgetsOwn s s₂ sid := by
  intro h
  have hreach := reachable_of_exec (M := system (stopSerde [runningApp]) autoCfg)
    (runningActs [runningApp]) rfl
  have hforgets := h (stopSerde [runningApp]) autoCfg _ _ _ 1 "s-9" hreach rfl
    (run_stopActs [runningApp] rfl) rfl
  have hkept : (none : Option String) = some "web-1" := hforgets.1
  contradiction

end Oxicast.Session
