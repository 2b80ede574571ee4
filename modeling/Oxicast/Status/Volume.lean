import Oxicast.Float
import Oxicast.Operation
import Oxicast.Status.Echo

/-!
# Oxicast.Status.Volume

The volume a user sets, read back out of the status that echoes it.

The level is an `f32`; it is clamped, written as an `f64`, and what the device writes
is read as an `f64` and made an `f32` again.  JSON text need not give an `f64` back
exactly, but it gives a number near it, and that is enough.
-/

namespace Oxicast.Receiver

open Ns Json

/-- The device writes a number as one near it, and what is no number as none. -/
def Echoes (sent echoed : Json) : Prop :=
  match sent.asF64 with
  | some x => ∃ y, echoed.asF64 = some y ∧ x.Near y
  | none => echoed.asF64 = none

/-- The level a user gets for the one set: the nearest in the range, and full volume for
what is no number. -/
def heardLevel (level : F32) : F32 := if level.isNan then F32.one else level.clampUnit

/-! ## one level -/

/-- NaN is no JSON number. -/
theorem ofF32_nan {x : F32} (h : x.isNan = true) : ofF32 x = .null := by
  have hexp : x.expField = 2 ^ 8 - 1 := by
    simp only [F32.isNan, decide_eq_true_eq] at h
    exact h.1
  have hfin : x.isFinite = false := by simp only [F32.isFinite, hexp, ne_eq, not_true, decide_false]
  rw [ofF32, ofF64, F64.isFinite_toF64_of_not hfin]
  rfl

theorem asF64_ofF32 {x : F32} (h : x.isFinite = true) : (ofF32 x).asF64 = some x.toF64 := by
  rw [ofF32, ofF64, F64.isFinite_toF64 h, if_pos rfl, asF64]

theorem clampUnit_nan {x : F32} (h : x.isNan = true) : x.clampUnit = x := by
  rw [F32.clampUnit, if_pos h]

/-- What is read of an echoed level: the level set. -/
theorem toF32_echoed {level : F32} {echoed : Json} (h : Echoes (ofF32 level.clampUnit) echoed) :
    (echoed.asF64.getD .one).toF32 = heardLevel level := by
  unfold Echoes at h
  cases hnan : level.isNan with
  | true =>
      have hnone : (ofF32 level.clampUnit).asF64 = none := by
        rw [clampUnit_nan hnan, ofF32_nan hnan]
        rfl
      rw [hnone] at h
      have hechoed : echoed.asF64 = none := h
      have hone : F64.one.toF32 = F32.one := by decide
      rw [hechoed, heardLevel, if_pos hnan, Option.getD_none, hone]
  | false =>
      have hfin := F32.isFinite_clampUnit hnan
      rw [asF64_ofF32 hfin] at h
      obtain ⟨y, hechoed, hnear⟩ := h
      rw [hechoed, heardLevel, hnan, if_neg (by simp), Option.getD_some]
      exact F64.toF32_of_near hfin hnear

/-! ## the status -/

theorem parseVolume_echoed {level : F32} {volume echoed : Json}
    (hechoed : volume.get "level" = some echoed)
    (h : Echoes (ofF32 level.clampUnit) echoed) :
    parseVolume (some volume) = ⟨heardLevel level, (volume.boolAt "muted").getD false⟩ := by
  have hlevel : volume.f64At "level" = echoed.asF64 := by rw [f64At, hechoed, Option.bind_some]
  rw [parseVolume, Option.bind_some, Option.bind_some, hlevel, toF32_echoed h]

theorem giveVolume_eq {json volume : Json}
    (h : (json.get "status").bind (Json.get "volume") = some volume) :
    Operation.giveVolume json = .ok (.volume (parseVolume (some volume))) := by
  obtain ⟨status, hstatus, hvolume⟩ := Option.bind_eq_some_iff.1 h
  simp [Operation.giveVolume, parseReceiverStatus, hstatus, hvolume]

/-- **The volume set is the volume heard**: the SET_VOLUME carries the level clamped, or
null for what is no number; and what the device echoes of it is the level that is heard. -/
theorem volume_echoed (serde : SerdeJson) (level : F32) (id : UInt32) (target : Target) :
    ∃ payload sent,
      (Operation.setVolume serde level).message id target =
        buildMessage nsReceiver senderId receiverId (serde.toString payload) ∧
      payload.get "type" = some (.string msgSetVolume) ∧
      (payload.get "volume").bind (Json.get "level") = some sent ∧
      (∀ json volume echoed, (json.get "status").bind (Json.get "volume") = some volume →
        volume.get "level" = some echoed → Echoes sent echoed →
        Operation.giveVolume json =
          .ok (.volume ⟨heardLevel level, (volume.boolAt "muted").getD false⟩)) ∧
      (level.isNan = true → sent = .null ∧ heardLevel level = F32.one) ∧
      (level.isNan = false → heardLevel level = level.clampUnit ∧
        (heardLevel level).place = max 0 (min level.place F32.one.place) ∧
        ∃ x, sent.asF64 = some x ∧ x.sign = level.clampUnit.sign ∧
          x.units = level.clampUnit.units * 2 ^ 925) := by
  refine ⟨_, ofF32 level.clampUnit, rfl, rfl, by simp, ?_, ?_, ?_⟩
  · intro json volume echoed hvolume hlevel hecho
    rw [giveVolume_eq hvolume, parseVolume_echoed hlevel hecho]
  · intro hnan
    refine ⟨?_, by rw [heardLevel, if_pos hnan]⟩
    rw [clampUnit_nan hnan, ofF32_nan hnan]
  · intro hnan
    have hfin := F32.isFinite_clampUnit hnan
    have hheard : heardLevel level = level.clampUnit := by rw [heardLevel, hnan, if_neg (by simp)]
    rw [hheard]
    exact ⟨rfl, F32.place_clampUnit hnan, _, asF64_ofF32 hfin, F64.sign_toF64 hfin,
      F64.units_toF64 hfin⟩

end Oxicast.Receiver
