import Mathlib.Logic.Function.Basic

/-!
# Oxicast.Hex

Numbers in a base up to 16, in lower-case digits, as `Nat.toDigits` prints them:
what a text stands for, that a printed number is read back, and which characters
occur in it.
-/

namespace Oxicast.Hex

variable {b n : Nat}

/-- The digits. -/
def alphabet : List Char := "0123456789abcdef".toList

/-- What a digit stands for. -/
def digitValue (c : Char) : Nat :=
  if c.isDigit then c.toNat - '0'.toNat else c.toNat - 'a'.toNat + 10

/-- The number a text stands for. -/
def value (b : Nat) (text : List Char) : Nat := text.foldl (fun n c => n * b + digitValue c) 0

theorem digitValue_digitChar (h : n < 16) : digitValue n.digitChar = n := by
  have hall : ∀ n < 16, digitValue n.digitChar = n := by decide
  exact hall n h

theorem digitChar_mem (h : n < 16) : n.digitChar ∈ alphabet := by
  have hall : ∀ n < 16, n.digitChar ∈ alphabet := by decide
  exact hall n h

theorem value_concat (text : List Char) (c : Char) :
    value b (text ++ [c]) = value b text * b + digitValue c := by
  rw [value, List.foldl_append]
  rfl

/-- **Round trip**: a printed number stands for itself. -/
theorem value_toDigits (hb : 1 < b) (hb' : b ≤ 16) (n : Nat) : value b (Nat.toDigits b n) = n := by
  induction n using Nat.strongRecOn with
  | ind n ih =>
    by_cases hlt : n < b
    · rw [Nat.toDigits_of_lt_base hlt]
      have hdigit : digitValue n.digitChar = n := digitValue_digitChar (by omega)
      simp [value, hdigit]
    · have hsmall : n / b < n := Nat.div_lt_self (by omega) hb
      have hmod : n % b < 16 := by
        have := Nat.mod_lt n (by omega : 0 < b)
        omega
      rw [Nat.toDigits_of_base_le hb (by omega), value_concat, ih _ hsmall,
        digitValue_digitChar hmod, Nat.div_add_mod']

theorem toDigits_injective (hb : 1 < b) (hb' : b ≤ 16) : Function.Injective (Nat.toDigits b) :=
  Function.LeftInverse.injective (g := value b) (value_toDigits hb hb')

/-- Nothing but digits is printed. -/
theorem mem_alphabet_of_mem_toDigits (hb : 1 < b) (hb' : b ≤ 16) {n : Nat} {c : Char}
    (h : c ∈ Nat.toDigits b n) : c ∈ alphabet := by
  induction n using Nat.strongRecOn with
  | ind n ih =>
    by_cases hlt : n < b
    · rw [Nat.toDigits_of_lt_base hlt, List.mem_singleton] at h
      rw [h]
      exact digitChar_mem (by omega)
    · have hsmall : n / b < n := Nat.div_lt_self (by omega) hb
      have hmod : n % b < b := Nat.mod_lt n (by omega)
      rw [Nat.toDigits_of_base_le hb (by omega), List.mem_append, List.mem_singleton] at h
      rcases h with h | h
      · exact ih _ hsmall h
      · rw [h]
        exact digitChar_mem (by omega)

end Oxicast.Hex
