import Mathlib.Algebra.Group.Nat.Defs
import Mathlib.Data.Nat.Basic

/-!
# Oxicast.Duration

`std::time::Duration` by its length in nanoseconds, with the operations that
panic on overflow as partial ones: `None` is a panic.
-/

namespace Oxicast

/-- A duration: fewer than `2 ^ 64` seconds. -/
structure Duration where
  nanos : Nat
  fits : nanos < 2 ^ 64 * 10 ^ 9
  deriving DecidableEq

namespace Duration

/-- `Duration::from_millis`. -/
def fromMillis (ms : UInt64) : Duration where
  nanos := ms.toNat * 10 ^ 6
  fits := by
    have h := ms.toNat_lt
    omega

/-- `as_millis`, which has 128 bits for the result. -/
def asMillis (d : Duration) : Nat := d.nanos / 10 ^ 6

/-- The duration of so many nanoseconds, if there is one. -/
def ofNanos (n : Nat) : Option Duration := if h : n < 2 ^ 64 * 10 ^ 9 then some ⟨n, h⟩ else none

/-- `d * n`. -/
def mul (d : Duration) (n : UInt32) : Option Duration := ofNanos (d.nanos * n.toNat)

/-- `d + e`. -/
def add (d e : Duration) : Option Duration := ofNanos (d.nanos + e.nanos)

/-- `d.saturating_sub(e)`. -/
def saturatingSub (d e : Duration) : Duration where
  nanos := d.nanos - e.nanos
  fits := Nat.lt_of_le_of_lt (Nat.sub_le _ _) d.fits

theorem ofNanos_eq_some_iff {n : Nat} {d : Duration} : ofNanos n = some d ↔ d.nanos = n := by
  obtain ⟨nanos, fits⟩ := d
  unfold ofNanos
  constructor
  · intro h
    split_ifs at h
    exact (congrArg Duration.nanos (Option.some.inj h)).symm
  · rintro rfl
    rw [dif_pos fits]

theorem exists_ofNanos_iff {n : Nat} : (∃ d, ofNanos n = some d) ↔ n < 2 ^ 64 * 10 ^ 9 := by
  constructor
  · rintro ⟨d, hd⟩
    rw [← ofNanos_eq_some_iff.1 hd]
    exact d.fits
  · intro h
    exact ⟨⟨n, h⟩, ofNanos_eq_some_iff.2 rfl⟩

end Duration

end Oxicast
