import Mathlib.Data.List.Induction
import Mathlib.Data.List.Sort

/-!
# Oxicast.Scan

What one pass over a list leaves behind:

* `lastWrite` — the value of a cell after a list of optional writes;
* `firsts` — the first element with each key, in order: what a loop with a set
  of seen keys keeps (`mem_firsts_iff`, `pairwise_firsts_iff`).
-/

namespace Oxicast

/-! ## the last write -/

section LastWrite

variable {α β : Type*} {f g : α → Option β} {b v : β} {xs : List α} {x : α}

/-- The value after a list of optional writes to a cell that holds `b`. -/
def lastWrite (f : α → Option β) (b : β) (xs : List α) : β := xs.foldl (fun b x => (f x).getD b) b

theorem lastWrite_nil (f : α → Option β) (b : β) : lastWrite f b [] = b := rfl

theorem lastWrite_snoc (f : α → Option β) (b : β) (xs : List α) (x : α) :
    lastWrite f b (xs ++ [x]) = (f x).getD (lastWrite f b xs) := by
  rw [lastWrite, List.foldl_append, List.foldl_cons, List.foldl_nil, lastWrite]

theorem lastWrite_append (f : α → Option β) (b : β) (xs ys : List α) :
    lastWrite f b (xs ++ ys) = lastWrite f (lastWrite f b xs) ys := by
  rw [lastWrite, List.foldl_append, lastWrite, lastWrite]

/-- Nothing is written, or the value is one that is written. -/
theorem lastWrite_cases (f : α → Option β) (b : β) (xs : List α) :
    (∀ x ∈ xs, f x = none) ∧ lastWrite f b xs = b ∨ ∃ x ∈ xs, f x = some (lastWrite f b xs) := by
  induction xs using List.reverseRecOn with
  | nil => exact .inl ⟨by simp, rfl⟩
  | append_singleton xs y ih =>
      rw [lastWrite_snoc]
      cases hy : f y with
      | some v => exact .inr ⟨y, by simp, hy⟩
      | none =>
          rcases ih with ⟨hnone, hkeep⟩ | ⟨x, hx, hval⟩
          · refine .inl ⟨fun x hx => ?_, hkeep⟩
            rcases List.mem_append.1 hx with hx | hx
            · exact hnone x hx
            · rw [List.mem_singleton.1 hx, hy]
          · exact .inr ⟨x, List.mem_append_left _ hx, hval⟩

/-- The last item of a list stands in what follows any other. -/
theorem snoc_eq_append_cons {pre post : List α} {y : α} (h : xs ++ [y] = pre ++ x :: post) :
    (post = [] ∧ pre = xs ∧ x = y) ∨ ∃ mid, post = mid ++ [y] ∧ xs = pre ++ x :: mid := by
  cases post using List.reverseRecOn with
  | nil =>
      obtain ⟨hpre, hx⟩ := List.append_inj' h rfl
      exact .inl ⟨rfl, hpre.symm, (List.singleton_inj.1 hx).symm⟩
  | append_singleton mid z =>
      rw [← List.cons_append, ← List.append_assoc] at h
      obtain ⟨hxs, hz⟩ := List.append_inj' h rfl
      exact .inr ⟨mid, by rw [List.singleton_inj.1 hz], hxs⟩

/-- A value the cell did not start with was written, and not overwritten since. -/
theorem lastWrite_eq_iff (hb : b ≠ v) :
    lastWrite f b xs = v ↔
      ∃ pre x post, xs = pre ++ x :: post ∧ f x = some v ∧ ∀ y ∈ post, f y = none ∨
        f y = some v := by
  induction xs using List.reverseRecOn with
  | nil =>
      refine iff_of_false hb ?_
      rintro ⟨pre, x, post, h, -⟩
      simp at h
  | append_singleton xs y ih =>
      rw [lastWrite_snoc]
      constructor
      · intro h
        cases hy : f y with
        | some w =>
            rw [hy, Option.getD_some] at h
            exact ⟨xs, y, [], rfl, by rw [hy, h], by simp⟩
        | none =>
            rw [hy, Option.getD_none] at h
            obtain ⟨pre, x, post, hxs, hx, hpost⟩ := ih.1 h
            refine ⟨pre, x, post ++ [y], by simp [hxs], hx, fun z hz => ?_⟩
            rcases List.mem_append.1 hz with hz | hz
            · exact hpost z hz
            · rw [List.mem_singleton.1 hz]; exact .inl hy
      · rintro ⟨pre, x, post, hxs, hx, hpost⟩
        rcases snoc_eq_append_cons hxs with ⟨-, -, rfl⟩ | ⟨mid, rfl, rfl⟩
        · rw [hx, Option.getD_some]
        · have hrest : lastWrite f b (pre ++ x :: mid) = v :=
            ih.2 ⟨pre, x, mid, rfl, hx, fun z hz => hpost z (by simp [hz])⟩
          rcases hpost y (by simp) with hy | hy
          · rw [hy, Option.getD_none, hrest]
          · rw [hy, Option.getD_some]

end LastWrite

/-! ## the first element with each key -/

section Firsts

variable {α β : Type*} {key : α → Option β}

/-- `a` has a key that none of `pre` has. -/
def New (key : α → Option β) (pre : List α) (a : α) : Prop :=
  ∃ b, key a = some b ∧ ∀ x ∈ pre, key x ≠ some b

instance [DecidableEq β] (key : α → Option β) (pre : List α) (a : α) : Decidable (New key pre a) :=
  match h : key a with
  | none => isFalse (by simp [New, h])
  | some b => decidable_of_iff (∀ x ∈ pre, key x ≠ some b) (by simp [New, h])

variable [DecidableEq β]

/-- The elements whose key is new. -/
def firsts (key : α → Option β) (l : List α) : List α :=
  l.foldl (fun kept a => if New key kept a then kept ++ [a] else kept) []

theorem firsts_nil : firsts key [] = [] := rfl

theorem firsts_snoc (l : List α) (a : α) :
    firsts key (l ++ [a]) = if New key (firsts key l) a then firsts key l ++ [a]
      else firsts key l := by
  unfold firsts
  rw [List.foldl_append]
  rfl

theorem firsts_subset (l : List α) : ∀ a ∈ firsts key l, a ∈ l := by
  induction l using List.reverseRecOn with
  | nil => simp [firsts_nil]
  | append_singleton l a ih =>
      rw [firsts_snoc]
      split <;> grind

/-- Every key has been kept. -/
theorem exists_firsts {l : List α} {a : α} {b : β} (ha : a ∈ l) (hb : key a = some b) :
    ∃ x ∈ firsts key l, key x = some b := by
  induction l using List.reverseRecOn with
  | nil => contradiction
  | append_singleton l c ih =>
      rw [firsts_snoc]
      rcases List.mem_append.1 ha with ha | ha
      · obtain ⟨x, hx, hkey⟩ := ih ha
        split
        · exact ⟨x, List.mem_append_left _ hx, hkey⟩
        · exact ⟨x, hx, hkey⟩
      · obtain rfl := List.mem_singleton.1 ha
        split
        · exact ⟨a, by simp, hb⟩
        · next hold =>
          unfold New at hold
          push Not at hold
          exact hold b hb

/-- New among the kept is new among all. -/
theorem new_firsts_iff {l : List α} {a : α} : New key (firsts key l) a ↔ New key l a := by
  constructor
  · rintro ⟨b, hb, hnew⟩
    refine ⟨b, hb, fun x hx hkey => ?_⟩
    obtain ⟨y, hy, hkey⟩ := exists_firsts hx hkey
    exact hnew y hy hkey
  · rintro ⟨b, hb, hnew⟩
    exact ⟨b, hb, fun x hx => hnew x (firsts_subset l x hx)⟩

theorem firsts_snoc_of_new {l : List α} {a : α} (h : New key l a) :
    firsts key (l ++ [a]) = firsts key l ++ [a] := by
  rw [firsts_snoc, if_pos (new_firsts_iff.2 h)]

theorem firsts_snoc_of_not_new {l : List α} {a : α} (h : ¬ New key l a) :
    firsts key (l ++ [a]) = firsts key l := by
  rw [firsts_snoc, if_neg fun hnew => h (new_firsts_iff.1 hnew)]

/-- What is kept is new where it stands. -/
theorem mem_firsts_iff {l : List α} {a : α} :
    a ∈ firsts key l ↔ ∃ pre post, l = pre ++ a :: post ∧ New key pre a := by
  induction l using List.reverseRecOn with
  | nil => simp [firsts_nil]
  | append_singleton l c ih =>
      constructor
      · intro h
        have hcases : a ∈ firsts key l ∨ a = c ∧ New key l c := by
          by_cases hnew : New key l c
          · rw [firsts_snoc_of_new hnew, List.mem_append, List.mem_singleton] at h
            exact h.imp_right fun heq => ⟨heq, hnew⟩
          · rw [firsts_snoc_of_not_new hnew] at h
            exact .inl h
        rcases hcases with h | ⟨rfl, hnew⟩
        · obtain ⟨pre, post, rfl, hpre⟩ := ih.1 h
          exact ⟨pre, post ++ [c], by simp, hpre⟩
        · exact ⟨l, [], rfl, hnew⟩
      · rintro ⟨pre, post, hl, hpre⟩
        rcases snoc_eq_append_cons hl with ⟨rfl, rfl, rfl⟩ | ⟨mid, rfl, rfl⟩
        · rw [firsts_snoc_of_new hpre]
          simp
        · have hmem := ih.2 ⟨pre, mid, rfl, hpre⟩
          rw [firsts_snoc]
          split
          · exact List.mem_append_left _ hmem
          · exact hmem

/-- A relation holds between what is kept when it holds from all that is kept
before a new element to this one. -/
theorem pairwise_firsts_iff {R : α → α → Prop} {l : List α} :
    (firsts key l).Pairwise R ↔ ∀ pre b post, l = pre ++ b :: post → New key pre b →
      ∀ a ∈ firsts key pre, R a b := by
  induction l using List.reverseRecOn with
  | nil => simp [firsts_nil]
  | append_singleton l c ih =>
      constructor
      · intro h pre b post hl hb
        rcases snoc_eq_append_cons hl with ⟨rfl, rfl, rfl⟩ | ⟨mid, rfl, rfl⟩
        · rw [firsts_snoc_of_new hb, List.pairwise_append] at h
          exact fun a ha => h.2.2 a ha b (by simp)
        · refine ih.1 ?_ pre b mid rfl hb
          rw [firsts_snoc] at h
          split at h
          · exact (List.pairwise_append.1 h).1
          · exact h
      · intro h
        have hl : (firsts key l).Pairwise R := ih.2 fun pre b post hl hb =>
          h pre b (post ++ [c]) (by simp [hl]) hb
        by_cases hnew : New key l c
        · rw [firsts_snoc_of_new hnew, List.pairwise_append]
          refine ⟨hl, by simp, fun a ha x hx => ?_⟩
          rw [List.mem_singleton.1 hx]
          exact h l c [] rfl hnew a ha
        · rwa [firsts_snoc_of_not_new hnew]

end Firsts

end Oxicast
