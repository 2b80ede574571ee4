import Oxicast.Json

/-!
# Oxicast.Float

IEEE 754 numbers by their bits: `as f64` of an `f32` is exact, and `as f32` takes it
back, also after it has been through a text that is not quite exact.

The magnitude of a finite number is an integer in units of the smallest subnormal of
its format (`units`).  Rounding to nearest gives `m` for everything that is less than
half a unit away from `m` (`roundShift_near`), so `as f32` gives the same `f32` for all
`f64` that are less than 2^28 units in the last place away from it (`toF32_of_near`).
-/

namespace Oxicast

/-- Whatever is less than half a unit away from `m` is rounded to `m`. -/
theorem roundShift_near {n m shift : Nat} (hlow : m * 2 ^ (shift + 1) < n + 2 ^ shift)
    (hhigh : n < m * 2 ^ (shift + 1) + 2 ^ shift) : roundShift n (shift + 1) = m := by
  have hpos := Nat.two_pow_pos shift
  have hdiv := Nat.div_add_mod n (2 ^ (shift + 1))
  have hmod := Nat.mod_lt n (Nat.two_pow_pos (shift + 1))
  have hhalf : 2 ^ (shift + 1) / 2 = 2 ^ shift := by
    rw [Nat.pow_succ, Nat.mul_div_cancel _ (by decide)]
  have hunit : 2 ^ (shift + 1) = 2 ^ shift + 2 ^ shift := by rw [Nat.pow_succ, Nat.mul_two]
  simp only [roundShift, Nat.shiftRight_eq_div_pow, Nat.succ_ne_zero, if_false, hhalf]
  rcases Nat.lt_or_ge n (m * 2 ^ (shift + 1)) with hlt | hge
  · cases m with
    | zero => omega
    | succ m =>
        rw [Nat.succ_mul] at hlow hlt
        have hq : n / 2 ^ (shift + 1) = m :=
          Nat.div_eq_of_lt_le (by omega) (by rw [Nat.succ_mul]; exact hlt)
        rw [hq, Nat.mul_comm] at hdiv
        rw [if_pos (.inl (by omega)), hq]
  · have hq : n / 2 ^ (shift + 1) = m :=
      Nat.div_eq_of_lt_le hge (by rw [Nat.succ_mul]; omega)
    rw [hq, Nat.mul_comm] at hdiv
    rw [if_neg (by omega), hq]

/-! ## fields -/

namespace F32

/-- A number is its sign, its exponent and its fraction. -/
theorem bits_eq (x : F32) :
    x.bits.toNat = (if x.sign then 2 ^ 31 else 0) + (x.expField * 2 ^ 23 + x.fraction) := by
  have hlt := x.bits.toNat_lt
  simp only [sign, expField, fraction, Nat.shiftRight_eq_div_pow, decide_eq_true_eq]
  split <;> omega

theorem expField_lt (x : F32) : x.expField < 2 ^ 8 := Nat.mod_lt _ (by decide)

theorem fraction_lt (x : F32) : x.fraction < 2 ^ 23 := Nat.mod_lt _ (by decide)

/-- `is_finite`. -/
def isFinite (x : F32) : Bool := x.expField ≠ 2 ^ 8 - 1

end F32

namespace F64

/-- The bits below the sign. -/
def magnitude (x : F64) : Nat := x.bits.toNat % 2 ^ 63

theorem expField_eq (x : F64) : x.expField = x.magnitude / 2 ^ 52 := by
  simp only [expField, magnitude, Nat.shiftRight_eq_div_pow]
  omega

theorem fraction_eq (x : F64) : x.fraction = x.magnitude % 2 ^ 52 := by
  simp only [fraction, magnitude]
  omega

/-- The number with this sign and these bits below it. -/
def ofMagnitudeBits (sign : Bool) (n : Nat) : F64 :=
  ⟨UInt64.ofNat ((if sign then 2 ^ 63 else 0) + n)⟩

theorem sign_ofMagnitudeBits {s : Bool} {n : Nat} (hn : n < 2 ^ 63) :
    (ofMagnitudeBits s n).sign = s := by
  simp only [ofMagnitudeBits, sign, UInt64.toNat_ofNat']
  cases s with
  | false => simp only [Bool.false_eq_true, if_false, decide_eq_false_iff_not]; omega
  | true => simp only [if_true, decide_eq_true_eq]; omega

theorem magnitude_ofMagnitudeBits {s : Bool} {n : Nat} (hn : n < 2 ^ 63) :
    (ofMagnitudeBits s n).magnitude = n := by
  simp only [ofMagnitudeBits, magnitude, UInt64.toNat_ofNat']
  cases s with
  | false => simp only [Bool.false_eq_true, if_false]; omega
  | true => simp only [if_true]; omega

/-- Both have the same sign, and less than 2^28 units in the last place lie between them. -/
def Near (x y : F64) : Prop :=
  x.sign = y.sign ∧ x.magnitude < y.magnitude + 2 ^ 28 ∧ y.magnitude < x.magnitude + 2 ^ 28

end F64

/-! ## widening -/

namespace F32

/-- The bits of `as f64` below the sign, for a finite number. -/
def widened (x : F32) : Nat :=
  if x.expField ≠ 0 then (x.expField + 896) * 2 ^ 52 + x.fraction * 2 ^ 29
  else if x.fraction = 0 then 0
  else
    (Nat.log2 x.fraction + 874) * 2 ^ 52 +
      ((x.fraction <<< (52 - Nat.log2 x.fraction)) - 2 ^ 52)

theorem toF64_eq {x : F32} (h : x.isFinite = true) :
    x.toF64 = F64.ofMagnitudeBits x.sign x.widened := by
  have hexp : x.expField ≠ 2 ^ 8 - 1 := by simpa [isFinite] using h
  simp only [toF64, F64.ofMagnitudeBits, widened, if_neg hexp]

end F32

/-! ## narrowing -/

/-- The bits of `as f32` below the sign, for a finite `f64` with these fields. -/
def narrowed (exp fraction : Nat) : Nat :=
  if 1023 + 127 < exp then 0x7f800000
  else if 1023 - 126 ≤ exp then (exp - 896) * 2 ^ 23 + (roundShift (2 ^ 52 + fraction) 29 - 2 ^ 23)
  else if exp = 0 then 0
  else roundShift (2 ^ 52 + fraction) (29 + (897 - exp))

/-- Whatever is near a number that is normal as an `f32` is taken for it. -/
theorem narrowed_normal {e f n : Nat} (hlow : 896 < e) (hhigh : e ≤ 1150) (hf : f < 2 ^ 23)
    (hbelow : e * 2 ^ 52 + f * 2 ^ 29 < n + 2 ^ 28)
    (habove : n < e * 2 ^ 52 + f * 2 ^ 29 + 2 ^ 28) :
    narrowed (n / 2 ^ 52) (n % 2 ^ 52) = (e - 896) * 2 ^ 23 + f := by
  rcases Nat.lt_or_ge n (e * 2 ^ 52) with hlt | hge
  · -- just below a power of two
    have hzero : f = 0 := by omega
    have hdiv : n / 2 ^ 52 = e - 1 := by omega
    have hmod : n % 2 ^ 52 + 2 ^ 28 > 2 ^ 52 := by omega
    have hlt : n % 2 ^ 52 < 2 ^ 52 := Nat.mod_lt _ (by decide)
    subst hzero
    rw [narrowed, hdiv, if_neg (by omega)]
    by_cases he : 1023 - 126 ≤ e - 1
    · have hround : roundShift (2 ^ 52 + n % 2 ^ 52) 29 = 2 ^ 24 :=
        @roundShift_near _ _ 28 (by omega) (by omega)
      rw [if_pos he, hround]
      omega
    · have hround : roundShift (2 ^ 52 + n % 2 ^ 52) 30 = 2 ^ 23 :=
        @roundShift_near _ _ 29 (by omega) (by omega)
      have hshift : 29 + (897 - (e - 1)) = 30 := by omega
      rw [if_neg he, if_neg (by omega), hshift, hround]
      omega
  · have hdiv : n / 2 ^ 52 = e := by omega
    have hexact : (2 ^ 23 + f) * 2 ^ 29 = 2 ^ 52 + f * 2 ^ 29 := by omega
    have hround : roundShift (2 ^ 52 + n % 2 ^ 52) 29 = 2 ^ 23 + f := by
      refine @roundShift_near _ _ 28 ?_ ?_
      · rw [hexact]
        omega
      · rw [hexact]
        omega
    rw [narrowed, hdiv, if_neg (by omega), if_pos (by omega), hround, Nat.add_sub_cancel_left]

/-- Whatever is near a number that is subnormal as an `f32` is taken for it. -/
theorem narrowed_subnormal {e k f n : Nat} (he : e = k + 874) (hk : k < 23) (hlow : 2 ^ k ≤ f)
    (hhigh : f < 2 ^ (k + 1)) (hbelow : e * 2 ^ 52 + (f * 2 ^ (52 - k) - 2 ^ 52) < n + 2 ^ 28)
    (habove : n < e * 2 ^ 52 + (f * 2 ^ (52 - k) - 2 ^ 52) + 2 ^ 28) :
    narrowed (n / 2 ^ 52) (n % 2 ^ 52) = f := by
  have hunit : 2 ^ 29 ≤ 2 ^ (51 - k) := Nat.pow_le_pow_right (by decide) (by omega)
  have hdouble : 2 ^ (52 - k) = 2 ^ (51 - k) + 2 ^ (51 - k) := by
    rw [← Nat.mul_two, ← Nat.pow_succ]
    congr 1
    omega
  have hbottom : 2 ^ k * 2 ^ (52 - k) = 2 ^ 52 := by rw [← Nat.pow_add]; congr 1; omega
  have htop : 2 ^ (k + 1) * 2 ^ (52 - k) = 2 ^ 53 := by rw [← Nat.pow_add]; congr 1; omega
  have hge : 2 ^ k * 2 ^ (52 - k) ≤ f * 2 ^ (52 - k) := Nat.mul_le_mul_right _ hlow
  have hle : (f + 1) * 2 ^ (52 - k) ≤ 2 ^ (k + 1) * 2 ^ (52 - k) := Nat.mul_le_mul_right _ hhigh
  rw [Nat.succ_mul] at hle
  rcases Nat.lt_or_ge n (e * 2 ^ 52) with hlt | hge'
  · -- just below a power of two
    have hpow : f = 2 ^ k := by
      rcases Nat.lt_or_eq_of_le hlow with hmore | heq
      · have hmore : (2 ^ k + 1) * 2 ^ (52 - k) ≤ f * 2 ^ (52 - k) := Nat.mul_le_mul_right _ hmore
        rw [Nat.succ_mul] at hmore
        omega
      · exact heq.symm
    have hexact : f * 2 ^ (52 - k + 1) = 2 ^ 53 := by
      rw [hpow, ← Nat.pow_add]
      congr 1
      omega
    have hdiv : n / 2 ^ 52 = e - 1 := by omega
    have hmod : n % 2 ^ 52 + 2 ^ 28 > 2 ^ 52 := by omega
    have hlt : n % 2 ^ 52 < 2 ^ 52 := Nat.mod_lt _ (by decide)
    have hround : roundShift (2 ^ 52 + n % 2 ^ 52) (52 - k + 1) = f := by
      refine roundShift_near ?_ ?_
      · rw [hexact]
        omega
      · rw [hexact]
        omega
    have hshift : 29 + (897 - (e - 1)) = 52 - k + 1 := by omega
    rw [narrowed, hdiv, if_neg (by omega), if_neg (by omega), if_neg (by omega), hshift, hround]
  · have hdiv : n / 2 ^ 52 = e := by omega
    have hround : roundShift (2 ^ 52 + n % 2 ^ 52) (51 - k + 1) = f := by
      have hsucc : 51 - k + 1 = 52 - k := by omega
      refine roundShift_near ?_ ?_
      · rw [hsucc]
        omega
      · rw [hsucc]
        omega
    have hshift : 29 + (897 - e) = 51 - k + 1 := by omega
    rw [narrowed, hdiv, if_neg (by omega), if_neg (by omega), if_neg (by omega), hshift, hround]

theorem narrowed_zero {n : Nat} (h : n < 2 ^ 28) : narrowed (n / 2 ^ 52) (n % 2 ^ 52) = 0 := by
  have hdiv : n / 2 ^ 52 = 0 := by omega
  rw [narrowed, hdiv, if_neg (by decide), if_neg (by decide), if_pos rfl]

namespace F32

/-- The fraction of a subnormal starts at its highest bit. -/
theorem log2_fraction {x : F32} (h : x.fraction ≠ 0) :
    2 ^ Nat.log2 x.fraction ≤ x.fraction ∧ x.fraction < 2 ^ (Nat.log2 x.fraction + 1) ∧
      Nat.log2 x.fraction < 23 :=
  ⟨Nat.log2_self_le h, Nat.lt_log2_self, (Nat.log2_lt h).2 x.fraction_lt⟩

theorem widened_le (x : F32) (h : x.isFinite = true) : x.widened ≤ 1151 * 2 ^ 52 - 2 ^ 29 := by
  have hexp : x.expField ≠ 2 ^ 8 - 1 := by simpa [isFinite] using h
  have hlt := x.expField_lt
  have hfrac := x.fraction_lt
  unfold widened
  split
  · omega
  · split
    · exact Nat.zero_le _
    next hne =>
      obtain ⟨-, hhigh, hk⟩ := log2_fraction hne
      rw [Nat.shiftLeft_eq]
      have hle := Nat.mul_le_mul_right (2 ^ (52 - Nat.log2 x.fraction)) (Nat.le_of_lt hhigh)
      have hpow : 2 ^ (Nat.log2 x.fraction + 1) * 2 ^ (52 - Nat.log2 x.fraction) = 2 ^ 53 := by
        rw [← Nat.pow_add]
        congr 1
        omega
      rw [hpow] at hle
      omega

/-- Whatever is near what a finite number is widened to is narrowed to this number. -/
theorem narrowed_of_near {x : F32} {n : Nat} (h : x.isFinite = true)
    (hbelow : x.widened < n + 2 ^ 28)
    (habove : n < x.widened + 2 ^ 28) :
    narrowed (n / 2 ^ 52) (n % 2 ^ 52) = x.expField * 2 ^ 23 + x.fraction := by
  have hexp : x.expField ≠ 2 ^ 8 - 1 := by simpa [isFinite] using h
  have hlt := x.expField_lt
  unfold widened at hbelow habove
  split at hbelow
  next hnormal =>
    rw [if_pos hnormal] at habove
    rw [narrowed_normal (by omega) (by omega) x.fraction_lt hbelow habove, Nat.add_sub_cancel]
  next hzero =>
    rw [if_neg hzero] at habove
    have hexp0 : x.expField = 0 := of_not_not hzero
    rw [hexp0, Nat.zero_mul, Nat.zero_add]
    split at hbelow
    next hfrac =>
      rw [if_pos hfrac, Nat.zero_add] at habove
      rw [narrowed_zero habove, hfrac]
    next hfrac =>
      rw [if_neg hfrac] at habove
      obtain ⟨hlow, hhigh, hk⟩ := log2_fraction hfrac
      rw [Nat.shiftLeft_eq] at hbelow habove
      exact narrowed_subnormal rfl hk hlow hhigh hbelow habove

end F32

namespace F64

theorem toF32_eq {y : F64} (h : y.expField < 2 ^ 11 - 1) :
    y.toF32 = ⟨UInt32.ofNat ((if y.sign then 2 ^ 31 else 0) + narrowed y.expField y.fraction)⟩ := by
  have hne : y.expField ≠ 2 ^ 11 - 1 := Nat.ne_of_lt h
  have hnan : y.isNan = false := by simp only [isNan, hne, false_and, decide_false]
  simp only [toF32, hnan, hne, narrowed, false_or, Bool.false_eq_true, if_false]

/-- **`as f32` after `as f64`**: a finite `f32` comes back from all `f64` that are near
what it has been converted to. -/
theorem toF32_of_near {x : F32} {y : F64} (h : x.isFinite = true) (hnear : x.toF64.Near y) :
    y.toF32 = x := by
  have hle := x.widened_le h
  have hwide : x.widened < 2 ^ 63 := by omega
  obtain ⟨hsign, hbelow, habove⟩ := hnear
  rw [F32.toF64_eq h, sign_ofMagnitudeBits hwide] at hsign
  rw [F32.toF64_eq h, magnitude_ofMagnitudeBits hwide] at hbelow habove
  have hexp : y.expField < 2 ^ 11 - 1 := by
    rw [expField_eq]
    omega
  rw [toF32_eq hexp, expField_eq, fraction_eq, F32.narrowed_of_near h hbelow habove, ← hsign]
  have hbits := x.bits_eq
  have hlt := x.bits.toNat_lt
  obtain ⟨bits⟩ := x
  congr 1
  apply UInt32.toNat.inj
  rw [UInt32.toNat_ofNat', ← hbits]
  exact Nat.mod_eq_of_lt hlt

theorem sign_toF64 {x : F32} (h : x.isFinite = true) : x.toF64.sign = x.sign := by
  have hle := x.widened_le h
  rw [F32.toF64_eq h]
  exact sign_ofMagnitudeBits (by omega)

/-- A number stays finite when it is widened, -/
theorem isFinite_toF64 {x : F32} (h : x.isFinite = true) : x.toF64.isFinite = true := by
  have hle := x.widened_le h
  have hwide : x.widened < 2 ^ 63 := by omega
  rw [isFinite, F32.toF64_eq h, expField_eq, magnitude_ofMagnitudeBits hwide, decide_eq_true_eq]
  omega

/-- and what is not finite stays so. -/
theorem isFinite_toF64_of_not {x : F32} (h : x.isFinite = false) : x.toF64.isFinite = false := by
  have hexp : x.expField = 2 ^ 8 - 1 := by simpa [F32.isFinite] using h
  have hfrac := x.fraction_lt
  have hbits : x.toF64 = ofMagnitudeBits x.sign ((2 ^ 11 - 1) * 2 ^ 52 + x.fraction * 2 ^ 29) := by
    simp only [F32.toF64, ofMagnitudeBits, if_pos hexp]
  rw [isFinite, hbits, expField_eq, magnitude_ofMagnitudeBits (by omega), decide_eq_false_iff_not,
    not_not]
  omega

end F64

/-! ## values -/

namespace F32

/-- The magnitude of a finite number, in units of 2^-149. -/
def units (x : F32) : Nat :=
  if x.expField = 0 then x.fraction else (2 ^ 23 + x.fraction) * 2 ^ (x.expField - 1)

/-- The place of a number among all: numbers that are not NaN are ordered by their bits
below the sign. -/
def place (x : F32) : Int :=
  if x.sign then -((x.bits.toNat % 2 ^ 31 : Nat) : Int) else (x.bits.toNat : Int)

/-- The constant `1.0`. -/
def one : F32 := ⟨0x3f800000⟩

/-- `clamp` takes a number to the nearest one in the range. -/
theorem place_clampUnit {x : F32} (h : x.isNan = false) :
    x.clampUnit.place = max 0 (min x.place one.place) := by
  have hlt := x.bits.toNat_lt
  have hone : one.place = 0x3f800000 := rfl
  have hplace : x.place = if x.sign then -((x.bits.toNat % 2 ^ 31 : Nat) : Int)
      else (x.bits.toNat : Int) := rfl
  unfold clampUnit
  rw [h, if_neg (by simp), hone]
  cases hsign : x.sign with
  | true =>
      rw [hsign, if_pos rfl] at hplace
      by_cases hzero : x.bits = 0x80000000
      · simp only [hzero, ne_eq, not_true, and_false, Bool.not_true, Bool.false_eq_true, false_and,
          if_false]
        rw [hplace, hzero]
        rfl
      · have h0 : (⟨0⟩ : F32).place = 0 := rfl
        simp only [hzero, ne_eq, not_false_eq_true, and_true, if_true, h0]
        omega
  | false =>
      rw [hsign, if_neg (by simp)] at hplace
      simp only [Bool.false_eq_true, false_and, if_false, Bool.not_false, true_and]
      split
      next hgt =>
        have hgt := UInt32.lt_iff_toNat_lt.1 hgt
        change 0x3f800000 < x.bits.toNat at hgt
        rw [hplace]
        change (0x3f800000 : Int) = _
        omega
      next hle =>
        have hle : ¬ 0x3f800000 < x.bits.toNat := fun hgt => hle (UInt32.lt_iff_toNat_lt.2 hgt)
        omega

/-- Clamped, a number is finite. -/
theorem isFinite_clampUnit {x : F32} (h : x.isNan = false) : x.clampUnit.isFinite = true := by
  have hlt := x.bits.toNat_lt
  unfold clampUnit
  rw [h, if_neg (by simp)]
  split
  · decide
  next hlow =>
    split
    · decide
    next hhigh =>
      have hexp : x.expField = x.bits.toNat / 2 ^ 23 % 2 ^ 8 := by
        rw [expField, Nat.shiftRight_eq_div_pow]
      rw [isFinite, decide_eq_true_eq, hexp]
      by_cases hzero : x.bits = 0x80000000
      · rw [hzero]
        decide
      · have hsign : x.sign = false := by simpa [hzero] using hlow
        have hle : ¬ 0x3f800000 < x.bits.toNat := fun hgt =>
          hhigh ⟨by simp [hsign], UInt32.lt_iff_toNat_lt.2 hgt⟩
        omega

end F32

namespace F64

/-- The magnitude of a finite number, in units of 2^-1074. -/
def units (x : F64) : Nat :=
  if x.expField = 0 then x.fraction else (2 ^ 52 + x.fraction) * 2 ^ (x.expField - 1)

theorem mul_two_pow {a i j k : Nat} (h : i + j = k) : a * 2 ^ i * 2 ^ j = a * 2 ^ k := by
  subst h
  rw [Nat.pow_add, Nat.mul_assoc]

/-- **`as f64` is exact.** -/
theorem units_toF64 {x : F32} (h : x.isFinite = true) : x.toF64.units = x.units * 2 ^ 925 := by
  have hle := x.widened_le h
  have hwide : x.widened < 2 ^ 63 := by omega
  have hfrac := x.fraction_lt
  rw [F32.toF64_eq h, units, expField_eq, fraction_eq, magnitude_ofMagnitudeBits hwide, F32.units,
    F32.widened]
  split
  next hnormal =>
    obtain ⟨e, he⟩ : ∃ e, x.expField = e + 1 := Nat.exists_eq_succ_of_ne_zero hnormal
    have hdiv : ((x.expField + 896) * 2 ^ 52 + x.fraction * 2 ^ 29) / 2 ^ 52 = e + 896 + 1 := by
      omega
    have hmod : ((x.expField + 896) * 2 ^ 52 + x.fraction * 2 ^ 29) % 2 ^ 52 =
        x.fraction * 2 ^ 29 := by omega
    rw [hdiv, hmod, if_neg (Nat.succ_ne_zero _), he, Nat.add_sub_cancel, Nat.add_sub_cancel]
    have hsum : 2 ^ 52 + x.fraction * 2 ^ 29 = (2 ^ 23 + x.fraction) * 2 ^ 29 := by omega
    have hexp : 29 + (e + 896) = e + 925 := by omega
    rw [hsum, mul_two_pow hexp, mul_two_pow (rfl : e + 925 = e + 925)]
  next hzero =>
    have hexp : x.expField = 0 := of_not_not hzero
    rw [if_pos hexp]
    split
    next hnone => rw [hnone, Nat.zero_mul]; rfl
    next hsome =>
      obtain ⟨hlow, hhigh, hk⟩ := F32.log2_fraction hsome
      generalize Nat.log2 x.fraction = k at hlow hhigh hk ⊢
      have hbottom : 2 ^ k * 2 ^ (52 - k) = 2 ^ 52 := by rw [← Nat.pow_add]; congr 1; omega
      have htop : 2 ^ (k + 1) * 2 ^ (52 - k) = 2 ^ 53 := by rw [← Nat.pow_add]; congr 1; omega
      have hge := Nat.mul_le_mul_right (2 ^ (52 - k)) hlow
      have hlt := Nat.mul_lt_mul_of_pos_right hhigh (Nat.two_pow_pos (52 - k))
      rw [Nat.shiftLeft_eq]
      have hdiv : ((k + 874) * 2 ^ 52 + (x.fraction * 2 ^ (52 - k) - 2 ^ 52)) / 2 ^ 52 =
          k + 873 + 1 := by omega
      have hmod : ((k + 874) * 2 ^ 52 + (x.fraction * 2 ^ (52 - k) - 2 ^ 52)) % 2 ^ 52 =
          x.fraction * 2 ^ (52 - k) - 2 ^ 52 := by omega
      have hexp : 52 - k + (k + 873) = 925 := by omega
      rw [hdiv, hmod, if_neg (Nat.succ_ne_zero _), Nat.add_sub_cancel,
        Nat.add_sub_cancel' (by omega)]
      exact mul_two_pow hexp

end F64

end Oxicast
