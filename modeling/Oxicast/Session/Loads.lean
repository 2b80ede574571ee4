import Oxicast.Session.MediaSession
import Oxicast.Session.Sources

/-!
# Oxicast.Session.Loads

`load_media` and `queue_load` against the media session they track.

Both store the session id of the answer first and look afterwards at what else
the answer says, so an answer that comes to an error may have been stored.
-/

namespace Oxicast

namespace Operation

variable {serde : SerdeJson} {op : Operation} {json : Json}

/-- The id a load stores is the one of the first entry. -/
theorem storeLoaded_eq (json : Json) (current : Int32) :
    storeLoaded json current = json.entryId.getD current := by
  unfold storeLoaded Json.entryId
  cases ((json.arrayAt "status").bind List.head?).bind fun entry =>
    (entry.get "mediaSessionId").bind Json.asI64 <;> rfl

/-- The answer of a load is not a failed one. -/
def Loaded (json : Json) (status : MediaStatus) : Prop :=
  parseMediaStatus json = some status ∧ ¬ (status.playerState = .idle ∧ status.media = none)

theorem giveLoaded_eq_ok_iff {noStatus : String} {value : Value} :
    giveLoaded noStatus json = .ok value ↔ ∃ status, Loaded json status ∧
    value = .mediaStatus status := by
  unfold giveLoaded Loaded
  cases parseMediaStatus json with
  | none => simp
  | some status =>
      simp only [Option.some.injEq]
      split
      next hidle =>
        refine iff_of_false (by simp) ?_
        rintro ⟨other, ⟨rfl, hnot⟩, -⟩
        exact hnot hidle
      next hnot =>
        simp only [Except.ok.injEq]
        constructor
        · rintro rfl
          exact ⟨status, ⟨rfl, hnot⟩, rfl⟩
        · rintro ⟨other, ⟨rfl, -⟩, rfl⟩
          rfl

/-- What the two loads have in common. -/
theorem Load.parts (h : Load serde op) :
    op.check = checkDeviceError ∧ op.mediaSession = storeLoaded ∧ op.answered = true ∧
      op.noTransport = .error .noApplication ∧
      ∃ noStatus, op.after = .give (giveLoaded noStatus) := by
  cases h with
  | loadMedia => exact ⟨rfl, rfl, rfl, rfl, _, rfl⟩
  | queueLoad => exact ⟨rfl, rfl, rfl, rfl, _, rfl⟩

end Operation

namespace Session

open Operation Lifecycle TransitionSystem Ns

variable {serde : SerdeJson} {cfg : ClientConfig} {s s' : Session} {a : SessionAct} {r : Nat}

/-- A step of a load stores a media session only together with `Ok`, and then the
one of the status it returns. -/
structure StoresLoaded (s s' : Session) (r : Nat) : Prop where
  failed : (∀ status, (s'.calls r).pc ≠ .ended (some (.ok (.mediaStatus status)))) →
    s'.mediaSessionId = s.mediaSessionId
  loaded : ∀ status, (s'.calls r).pc = .ended (some (.ok (.mediaStatus status))) →
    s'.mediaSessionId = status.mediaSessionId

/-- The answer is a device error, or a load that succeeds, or its first entry
names no other session than the tracked one. -/
def Harmless (json : Json) (current : Int32) : Prop :=
  checkDeviceError json = .ok () → (∀ status, ¬ Loaded json status) →
    ∀ id, json.entryId = some id → id = current

theorem pc_goto (s : Session) (r : Nat) (pc : CallPc) : ((s.goto r pc).calls r).pc = pc := by
  simp [calls_goto]

/-- What an answer does to a load, by its two checks. -/
theorem answer_of_load (h : Load serde (s.calls r).op) (json : Json) :
    (∃ err, checkDeviceError json = .error err ∧
      s.answer r json = s.goto r (.ended (some (.error err)))) ∨
    ∃ result, checkDeviceError json = .ok () ∧
      s.answer r json =
        { s with mediaSessionId := json.entryId.getD s.mediaSessionId }.goto r
        (.ended (some result)) ∧
      ∀ status, result = .ok (.mediaStatus status) ↔ Loaded json status := by
  obtain ⟨hcheck, hstore, -, -, noStatus, hafter⟩ := h.parts
  unfold answer
  simp only [hcheck, hstore, hafter, storeLoaded_eq]
  cases checkDeviceError json with
  | error err => exact .inl ⟨err, rfl, rfl⟩
  | ok => exact .inr ⟨_, rfl, rfl, fun status => by simp [giveLoaded_eq_ok_iff]⟩

/-- An answer stores what it should exactly when it is harmless. -/
theorem storesLoaded_answer_iff (h : Load serde (s.calls r).op) (json : Json) :
    StoresLoaded s (s.answer r json) r ↔ Harmless json s.mediaSessionId := by
  rcases answer_of_load h json with ⟨err, hdev, heq⟩ | ⟨result, hdev, heq, hloaded⟩
  · rw [heq]
    refine iff_of_true ⟨fun _ => rfl, fun status hend => ?_⟩ fun hok => ?_
    · rw [pc_goto] at hend
      simp at hend
    · rw [hdev] at hok
      contradiction
  · rw [heq]
    have hend (status : MediaStatus) :
        CallPc.ended (some result) = .ended (some (.ok (.mediaStatus status))) ↔
        Loaded json status := by
      rw [← hloaded]
      simp
    constructor
    · intro hs _ hfailed id hid
      have hkeep := hs.failed fun status => by
        rw [pc_goto, Ne, hend]
        exact hfailed status
      change json.entryId.getD s.mediaSessionId = s.mediaSessionId at hkeep
      rwa [hid] at hkeep
    · intro hharmless
      constructor
      · intro hfailed
        change json.entryId.getD s.mediaSessionId = s.mediaSessionId
        cases hid : json.entryId with
        | none => rfl
        | some id =>
            refine hharmless hdev (fun status => ?_) id hid
            have hpc := hfailed status
            rwa [pc_goto, Ne, hend] at hpc
      · intro status hpc
        rw [pc_goto, hend] at hpc
        change json.entryId.getD s.mediaSessionId = status.mediaSessionId
        rw [entryId_of_parseMediaStatus hpc.1]
        rfl

/-- No other step of a load comes to a status. -/
theorem not_loaded_of_step (h : Load serde (s.calls r).op) (hcall : a.call? = some r)
    (hs : Step serde cfg s a s') (hreceive : a ≠ .receive r) (status : MediaStatus) :
    (s'.calls r).pc ≠ .ended (some (.ok (.mediaStatus status))) := by
  obtain ⟨-, -, hanswered, hnone, -⟩ := h.parts
  cases hs with
  | life hb hl => contradiction
  | lifeReadTransport hl => contradiction
  | route hl => contradiction
  | begin hb hpc => contradiction
  | readTransport hpc hfree =>
      obtain rfl := Option.some.inj hcall
      rcases s.readTransport_eq _ with ⟨-, heq⟩ | ⟨tid, pc, -, hafter, heq⟩
      · rw [heq, pc_goto, hnone]
        simp
      · rw [heq]
        simp only [setCall_apply, if_true]
        rintro rfl
        exact hafter
  | readSession hpc =>
      obtain rfl := Option.some.inj hcall
      unfold Session.readSession
      split
      · simp [pc_goto]
      · simp [setCall_apply]
  | readMediaSession hpc =>
      obtain rfl := Option.some.inj hcall
      unfold Session.readMediaSession
      split
      · simp [setCall_apply]
      · simp [pc_goto]
  | @accept _ c what hpc hopen =>
      obtain rfl := Option.some.inj hcall
      cases what with
      | request => simp [Session.accept, setCall_apply, hanswered]
      | connect app => simp [Session.accept, setCall_apply]
  | increment hpc hq => obtain rfl := Option.some.inj hcall; simp [hpc]
  | incrementAgain hpc hq => obtain rfl := Option.some.inj hcall; simp [hpc]
  | senderDropped hpc hq => obtain rfl := Option.some.inj hcall; simp [hpc]
  | timeout hpc hq => obtain rfl := Option.some.inj hcall; simp [hpc]
  | skipEvent hpc hbuf happ => obtain rfl := Option.some.inj hcall; simp [hpc]
  | receive hpc hrx hq => exact absurd (congrArg _ (Option.some.inj hcall)) hreceive
  | _ => obtain rfl := Option.some.inj hcall; simp [pc_goto]

/-! ## a failed load -/

/-- **A failed load leaves the tracked session alone**: whatever a load does next,
it stores a media session only with `Ok`, and then the one it returns, exactly
when the answer it takes, if it takes one, is harmless. -/
theorem storesLoaded_iff (h : Load serde (s.calls r).op) (hcall : a.call? = some r)
    (hs : s.step serde cfg a = some s') :
    StoresLoaded s s' r ↔ ∀ n json, a = .receive r → (s.requests.request r).rx = .sent n json →
      Harmless json s.mediaSessionId := by
  by_cases hreceive : a = .receive r
  · subst hreceive
    cases step_cases hs with
    | @receive _ n json q hpc hrx hq =>
        have hiff := @storesLoaded_answer_iff serde { s with requests := q } r h json
        constructor
        · intro hstores n' json' _ hrx'
          obtain ⟨-, rfl⟩ := Oneshot.sent.inj (hrx.symm.trans hrx')
          exact hiff.1 ⟨hstores.failed, hstores.loaded⟩
        · intro hharmless
          have hstores := hiff.2 (hharmless n json rfl hrx)
          exact ⟨hstores.failed, hstores.loaded⟩
  · refine iff_of_true ⟨fun _ => ?_, fun status hpc => ?_⟩ fun _ _ heq => absurd heq hreceive
    · refine mediaSessionId_of_step (step_cases hs) ?_ fun x heq => ?_
      · rintro c msg rfl
        contradiction
      · subst heq
        obtain rfl := Option.some.inj hcall
        exact hreceive rfl
    · exact absurd hpc (not_loaded_of_step h hcall (step_cases hs) hreceive status)

/-- An answer to the load, about session 7. -/
def loadAnswer (playerState : String) : Json := .object [("requestId", .ofU32 2),
  ("status", .array [.object [("mediaSessionId", .ofU32 7), ("playerState", .string playerState)]]),
  ("type", .string msgMediaStatus)]

/-- The serde_json of a client that launches an app and loads a video. -/
def loadSerde : SerdeJson := .ofTexts [(launched.compact, launched),
  ((loadAnswer "PLAYING").compact, loadAnswer "PLAYING"),
  ((loadAnswer "LOADING").compact, loadAnswer "LOADING")]

/-- Operation 0 launches an app, and operation 1 is given an answer to its load. -/
def loadedActs (playerState : String) : List SessionAct :=
  [.life .builderSent, .life .builderDone] ++ sendLaunch loadSerde 0 ++ answerLaunch 0 launched ++
    [.storeTransport 0, .storeSession 0,
      .begin 1 (.loadMedia loadSerde ⟨"https://example.com/a.mp4", "video/mp4", .buffered,
        none, none⟩
        true .zero none),
      .readTransport 1, .readSession 1, .increment 1, .insert 1, .cloneWriteTx 1, .accept 1,
      .route 0 (appMsg "web-1" (loadAnswer playerState))]

theorem harmless_loadAnswer (current : Int32) : Harmless (loadAnswer "PLAYING") current := by
  intro _ hfailed
  refine absurd ⟨rfl, ?_⟩ (hfailed _)
  rintro ⟨hidle, -⟩
  exact absurd hidle (by decide)

set_option maxRecDepth 8000 in
/-- A load that comes to play stores the session of its status. -/
theorem storesLoaded_playing : ∃ s s',
    (system loadSerde autoCfg).exec (start autoCfg) (loadedActs "PLAYING") = some s ∧
      s.step loadSerde autoCfg (.receive 1) = some s' ∧ s'.mediaSessionId = 7 ∧
      StoresLoaded s s' 1 := by
  refine ⟨_, _, rfl, rfl, rfl,
    (@storesLoaded_iff _ autoCfg _ _ (.receive 1) 1 (.loadMedia ..) rfl rfl).2 ?_⟩
  intro n json _ hrx
  have hsent : Oneshot.sent 1 (loadAnswer "PLAYING") = .sent n json := hrx
  rw [← (Oneshot.sent.inj hsent).2]
  exact harmless_loadAnswer _

set_option maxRecDepth 8000 in
/-- The player is in a state the client does not know: the load fails, and its
session is tracked. -/
theorem failed_load_stored : ¬ ∀ (serde : SerdeJson) (cfg : ClientConfig) (s s' : Session)
    (a : SessionAct) (r : Nat), (system serde cfg).Reachable s → Load serde (s.calls r).op →
      a.call? = some r → s.step serde cfg a = some s' → StoresLoaded s s' r := by
  intro h
  have hrun := reachable_of_exec (M := system loadSerde autoCfg) (loadedActs "LOADING") rfl
  have hstores : StoresLoaded _ _ 1 := h _ _ _ _ (.receive 1) 1 hrun (.loadMedia ..) rfl rfl
  have hkept : (7 : Int32) = 0 := hstores.failed fun status hpc => by
    have hend : CallPc.ended (some (.error (.loadFailed "no media status in response" none))) =
        .ended (some (.ok (.mediaStatus status))) := hpc
    simp at hend
  contradiction

end Session

end Oxicast
