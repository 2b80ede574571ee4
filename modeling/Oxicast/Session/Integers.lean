import Oxicast.Session.Loads
import Oxicast.Status.Integers

/-!
# Oxicast.Session.Integers

The session id a load stores, narrowed like that of a status.
-/

namespace Oxicast

theorem Json.entryId_eq (json : Json) : json.entryId =
    ((json.firstEntry.bind (Json.get "mediaSessionId")).bind Json.asI64).map Int64.toInt32 := by
  unfold Json.entryId Json.firstEntry
  cases (json.arrayAt "status").bind List.head? <;> rfl

namespace Session

open Operation

/-- A session id that the answer of a load makes the client store, whatever it
had stored before, is the integer of the first entry. -/
def LoadExact (s : Session) (r : Nat) (json : Json) : Prop :=
  ∀ id, (∀ current, (answer { s with mediaSessionId := current } r json).mediaSessionId = id) →
    json.firstEntry.bind (Json.intAt "mediaSessionId") = some id.toInt

/-- Whatever was stored before, a load stores the id of the first entry, if it has one. -/
theorem mediaSessionId_answer_of_load {serde : SerdeJson} {s : Session} {r : Nat} {json : Json}
    (h : Load serde (s.calls r).op) (hdev : checkDeviceError json = .ok ()) (current : Int32) :
    (answer { s with mediaSessionId := current } r json).mediaSessionId =
      json.entryId.getD current := by
  obtain ⟨hcheck, hstore, -⟩ := h.parts
  have hok : (s.calls r).op.check json = .ok () := by rw [hcheck, hdev]
  rw [@mediaSessionId_answer
    { s with mediaSessionId := current } r json hok, ← storeLoaded_eq, ← hstore]

/-- The id a load stores is exact when it fits. -/
theorem loadExact_iff {serde : SerdeJson} {s : Session} {r : Nat} {json : Json}
    (h : Load serde (s.calls r).op) (hdev : checkDeviceError json = .ok ()) :
    LoadExact s r json ↔ SessionFits json := by
  have hexact : LoadExact s r json ↔ ∀ id, (∀ current, json.entryId.getD current = id) →
      json.firstEntry.bind (Json.intAt "mediaSessionId") = some id.toInt :=
    forall_congr' fun id => imp_congr_left <| forall_congr' fun current => by
      rw [mediaSessionId_answer_of_load h hdev]
  rw [hexact, Json.entryId_eq]
  unfold SessionFits
  cases hid : (json.firstEntry.bind (Json.get "mediaSessionId")).bind Json.asI64 with
  | none =>
      refine iff_of_true (fun id hstored => ?_) (by simp)
      -- nothing is stored: two ids stored before are two ids after
      have hzero : (0 : Int32) = id := hstored 0
      have hone : (1 : Int32) = id := hstored 1
      exact absurd (hzero.trans hone.symm) (by decide)
  | some n =>
      have hint : json.firstEntry.bind (Json.intAt "mediaSessionId") = some n.toInt := by
        simp only [Option.bind_eq_some_iff] at hid ⊢
        obtain ⟨member, ⟨entry, hentry, hmember⟩, hn⟩ := hid
        exact ⟨entry, hentry, by simp [Json.intAt, hmember, Json.asInt_of_asI64 hn]⟩
      simp only [Option.map_some, Option.getD_some, hint, Option.some.injEq, forall_const,
        forall_eq']
      rw [eq_comm, toInt_toInt32_eq_iff]

/-- **The integers of a device are kept** exactly when they fit the fields they
are narrowed to: those of a status that parses, and the session id a load stores. -/
theorem integers_exact_iff (json : Json) :
    (∀ status, parseMediaStatus json = some status → (StatusExact json status ↔ StatusFits json)) ∧
    ∀ (serde : SerdeJson) (s : Session) (r : Nat), Load serde (s.calls r).op →
      checkDeviceError json = .ok () → (LoadExact s r json ↔ SessionFits json) :=
  ⟨fun _ => statusExact_iff, fun _ _ _ => loadExact_iff⟩

/-- A status of the session `2 ^ 32 + 1`. -/
def wideStatus : Json := .object [("status", .array [.object
  [("mediaSessionId", .number (.posInt 4294967297)), ("playerState", .string "PLAYING")]])]

/-- It is taken for session 1. -/
theorem wide_session_narrowed : ¬ ∀ json status, parseMediaStatus json = some status →
    StatusExact json status := by
  intro h
  have hsession : some (4294967297 : Int) = some 1 := (h wideStatus _ rfl).mediaSessionId
  simp at hsession

end Session

end Oxicast
