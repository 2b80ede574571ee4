import Mathlib.Algebra.Group.Nat.Defs
import Mathlib.Data.List.Basic

/-!
# Oxicast.Stream

Self-delimiting codes on a stream that may be cut anywhere.

A `Reader` takes one item off the front of a stream or fails, and `Reader.all`
reads until it fails.  A code *delimits* an item when the reader finds the item
in front of anything and reports the end of the stream on every proper prefix
of its code.  Of a cut of the concatenated codes exactly the items are read
whose codes the cut leaves whole (`Reader.all_take`).
-/

namespace Oxicast

variable {α β ε : Type*}

/-! ## big-endian numbers -/

/-- `to_be_bytes` of a `u32`. -/
def toBeBytes (n : UInt32) : List UInt8 :=
  [UInt8.ofNat (n.toNat / 2 ^ 24), UInt8.ofNat (n.toNat / 2 ^ 16), UInt8.ofNat (n.toNat / 2 ^ 8),
    UInt8.ofNat n.toNat]

/-- `from_be_bytes` of a `u32`, of any number of bytes. -/
def fromBeBytes (bytes : List UInt8) : UInt32 :=
  UInt32.ofNat (bytes.foldl (fun n b => n * 2 ^ 8 + b.toNat) 0)

@[simp] theorem length_toBeBytes (n : UInt32) : (toBeBytes n).length = 4 := rfl

/-- The bytes of a number give it back. -/
@[simp] theorem fromBeBytes_toBeBytes (n : UInt32) : fromBeBytes (toBeBytes n) = n := by
  have hlt : n.toNat < 2 ^ 32 := n.toNat_lt
  apply UInt32.toNat.inj
  simp only [fromBeBytes, toBeBytes, List.foldl_cons, List.foldl_nil, UInt8.toNat_ofNat',
    UInt32.toNat_ofNat']
  omega

/-! ## readers -/

/-- A reader takes one item off the front of a stream, and something with it. -/
structure Reader (β α ε : Type*) where
  read : List β → Except ε (α × List β)
  consumes : ∀ {s a rest}, read s = .ok (a, rest) → rest.length < s.length

namespace Reader

variable (r : Reader β α ε) {code : α → List β} {eof : ε} {s rest : List β} {a : α} {as : List α}

/-- Read until it fails: the items, and the error at the end. -/
def all (s : List β) : List α × ε :=
  match _h : r.read s with
  | .ok (a, rest) => (a :: (all rest).1, (all rest).2)
  | .error e => ([], e)
termination_by s.length
decreasing_by all_goals exact r.consumes _h

theorem all_of_ok (h : r.read s = .ok (a, rest)) :
    r.all s = (a :: (r.all rest).1, (r.all rest).2) := by
  rw [all]
  split
  next a' rest' h' =>
    obtain ⟨rfl, rfl⟩ := Prod.mk.inj (Except.ok.inj (h.symm.trans h'))
    rfl
  next h' => rw [h] at h'; contradiction

theorem all_of_error {e : ε} (h : r.read s = .error e) : r.all s = ([], e) := by
  rw [all]
  split
  next h' => rw [h] at h'; contradiction
  next e' h' => rw [Except.error.inj (h.symm.trans h')]

/-- The code of an item is read back in front of anything, and a proper prefix
of it is the end of the stream. -/
structure Delimits (code : α → List β) (eof : ε) (a : α) : Prop where
  whole : ∀ rest, r.read (code a ++ rest) = .ok (a, rest)
  cut : ∀ n < (code a).length, r.read ((code a).take n) = .error eof

/-- The items whose codes lie wholly before the cut at `n`. -/
def within (code : α → List β) : List α → Nat → List α
  | [], _ => []
  | a :: as, n => if (code a).length ≤ n then a :: within code as (n - (code a).length) else []

/-- **Cut rule**: of a cut of the concatenated codes the items are read whose
codes are left whole, and then the end of the stream. -/
theorem all_take (hend : r.read [] = .error eof) (h : ∀ a ∈ as, r.Delimits code eof a) (n : Nat) :
    r.all ((as.flatMap code).take n) = (within code as n, eof) := by
  induction as generalizing n with
  | nil => simpa [within] using r.all_of_error hend
  | cons a as ih =>
      have ha := h a List.mem_cons_self
      have hrest := ih fun b hb => h b (List.mem_cons_of_mem a hb)
      rw [List.flatMap_cons, List.take_append, within]
      by_cases hn : (code a).length ≤ n
      · rw [if_pos hn, List.take_of_length_le hn, r.all_of_ok (ha.whole _), hrest]
      · have hz : n - (code a).length = 0 := by omega
        rw [if_neg hn, hz, List.take_zero, List.append_nil]
        exact r.all_of_error (ha.cut n (by omega))

/-- The items before the cut are those whose codes end there or earlier. -/
theorem within_eq_take (code : α → List β) (as : List α) (n : Nat) :
    ∃ k, within code as n = as.take k ∧
      ∀ i < as.length, i < k ↔ ((as.take (i + 1)).flatMap code).length ≤ n := by
  induction as generalizing n with
  | nil => exact ⟨0, rfl, nofun⟩
  | cons a as ih =>
      rw [within]
      split
      next hn =>
        obtain ⟨k, hk, hend⟩ := ih (n - (code a).length)
        refine ⟨k + 1, by rw [hk, List.take_succ_cons], fun i hi => ?_⟩
        rw [List.take_succ_cons, List.flatMap_cons, List.length_append]
        cases i with
        | zero => simp [hn]
        | succ i =>
            have := hend i (by simpa using hi)
            omega
      next hn =>
        refine ⟨0, rfl, fun i _ => ?_⟩
        rw [List.take_succ_cons, List.flatMap_cons, List.length_append]
        omega

end Reader

end Oxicast
