import Mathlib.Algebra.Group.Nat.Defs
import Mathlib.Data.List.Basic

/-!
# Oxicast.Decimal

Unsigned numbers in text: decimal numerals, their value, and the integer parser
of the Rust standard library (`str::parse::<u64>`), which reads a numeral with
an optional plus sign and refuses what does not fit into 64 bits.

Printing is `Nat.toDigits 10`; `parseU64_toDigits` is the round trip.
-/

namespace Oxicast

/-! ## numerals -/

/-- One digit or more, and nothing else. -/
def IsNumeral (cs : List Char) : Prop := cs ≠ [] ∧ ∀ c ∈ cs, c.isDigit

instance : DecidablePred IsNumeral := fun cs =>
  @instDecidableAnd _ _ inferInstance (List.decidableBAll _ cs)

/-- The number a numeral stands for. -/
def numeralValue (cs : List Char) : Nat := Nat.ofDigitChars 10 cs 0

theorem isNumeral_toDigits (n : Nat) : IsNumeral (Nat.toDigits 10 n) :=
  ⟨Nat.toDigits_ne_nil, fun _ hc => Nat.isDigit_of_mem_toDigits (by decide) (by decide) hc⟩

@[simp] theorem numeralValue_toDigits (n : Nat) : numeralValue (Nat.toDigits 10 n) = n :=
  Nat.ofDigitChars_ten_toDigits

/-- What is no digit does not occur in a numeral. -/
theorem IsNumeral.not_mem {cs : List Char} (h : IsNumeral cs) {c : Char} (hc : c.isDigit = false) :
    c ∉ cs := by
  intro hmem
  rw [h.2 c hmem] at hc
  contradiction

/-! ## `str::parse::<u64>` -/

/-- The text without a leading plus sign. -/
def unsigned : List Char → List Char
  | '+' :: rest => rest
  | text => text

/-- `str::parse::<u64>`. -/
def parseU64 (text : List Char) : Option UInt64 :=
  if IsNumeral (unsigned text) ∧ numeralValue (unsigned text) < 2 ^ 64 then
    some (UInt64.ofNat (numeralValue (unsigned text)))
  else none

/-- Without a plus sign nothing is dropped. -/
theorem unsigned_of_head? {cs : List Char} (h : cs.head? ≠ some '+') : unsigned cs = cs := by
  unfold unsigned
  split
  · exact absurd rfl h
  · rfl

theorem unsigned_of_isNumeral {cs : List Char} (h : IsNumeral cs) : unsigned cs = cs :=
  unsigned_of_head? fun hplus => h.not_mem rfl (List.mem_of_mem_head? hplus)

/-- What parses is a numeral, possibly behind a plus sign. -/
theorem parseU64_eq_some_iff {text : List Char} {n : UInt64} :
    parseU64 text = some n ↔ IsNumeral (unsigned text) ∧
    numeralValue (unsigned text) = n.toNat := by
  unfold parseU64
  constructor
  · intro h
    split_ifs at h with hfits
    obtain rfl := Option.some.inj h
    exact ⟨hfits.1, (UInt64.toNat_ofNat_of_lt' hfits.2).symm⟩
  · rintro ⟨hnum, hval⟩
    rw [if_pos ⟨hnum, hval ▸ n.toNat_lt⟩, hval, UInt64.ofNat_toNat]

/-- A numeral parses to its value when that fits. -/
theorem parseU64_of_isNumeral {cs : List Char} {n : UInt64} (h : IsNumeral cs) :
    parseU64 cs = some n ↔ numeralValue cs = n.toNat := by
  rw [parseU64_eq_some_iff, unsigned_of_isNumeral h]
  exact and_iff_right h

/-- **Round trip**: the decimal text of a number parses to it. -/
theorem parseU64_toDigits (n : UInt64) : parseU64 (Nat.toDigits 10 n.toNat) = some n :=
  (parseU64_of_isNumeral (isNumeral_toDigits _)).2 (numeralValue_toDigits _)

end Oxicast
