import Oxicast.Transition
import Mathlib.Data.List.Induction

/-!
# Oxicast.Liveness

Infinite behaviours of a transition system, and what happens in them eventually.

At every moment one action is taken, or none.  `WeaklyFair` and `StronglyFair`
say that a class of actions is not passed over when one of them is enabled from
some moment on, or again and again; `LeadsTo` is proved with

* `leadsTo_of_weaklyFair` — a class that stays enabled and each of whose actions
  leads to the goal;
* `leadsTo_of_stronglyFair` — a class that is enabled again and again, as the one
  that acquires a lock is;
* `leadsTo_of_rank` — induction on a number that gets smaller on the way;
* `leadsTo_of_falling` — the two together, for a class that stays enabled.

A schedule that ends where no action of a class is enabled is a behaviour that is
fair to it (`ofSchedule`).
-/

namespace Oxicast.TransitionSystem

variable {σ α : Type*} {M : TransitionSystem σ α}

/-- An action of the class is enabled. -/
def Enabled (M : TransitionSystem σ α) (A : α → Prop) (s : σ) : Prop :=
  ∃ a t, A a ∧ M.step s a = some t

/-- An infinite behaviour. -/
structure Behavior (M : TransitionSystem σ α) where
  state : Nat → σ
  action : Nat → Option α
  start : state 0 = M.init
  next : ∀ n, (action n).elim (some (state n)) (M.step (state n)) = some (state (n + 1))

namespace Behavior

variable (b : M.Behavior) {A : α → Prop} {P Q R : σ → Prop}

/-- An action of the class is taken. -/
def Takes (A : α → Prop) (n : Nat) : Prop := ∃ a, b.action n = some a ∧ A a

/-- The class is not passed over when it stays enabled. -/
def WeaklyFair (A : α → Prop) : Prop :=
  ∀ n, (∀ m, n ≤ m → M.Enabled A (b.state m)) → ∃ m, n ≤ m ∧ b.Takes A m

/-- The class is not passed over when it is enabled again and again. -/
def StronglyFair (A : α → Prop) : Prop :=
  ∀ n, (∀ m, n ≤ m → ∃ k, m ≤ k ∧ M.Enabled A (b.state k)) → ∃ m, n ≤ m ∧ b.Takes A m

/-- Whenever `P` holds, `Q` holds then or later. -/
def LeadsTo (P Q : σ → Prop) : Prop := ∀ n, P (b.state n) → ∃ m, n ≤ m ∧ Q (b.state m)

variable {b}

/-! ## behaviours -/

/-- A moment passes: a step, or nothing. -/
theorem step_or_stay (b : M.Behavior) (n : Nat) :
    (∃ a, b.action n = some a ∧ M.step (b.state n) a = some (b.state (n + 1))) ∨
      b.state (n + 1) = b.state n := by
  have hnext := b.next n
  cases haction : b.action n with
  | none =>
      rw [haction] at hnext
      exact .inr (Option.some.inj hnext).symm
  | some a =>
      rw [haction] at hnext
      exact .inl ⟨a, rfl, hnext⟩

theorem reachable (b : M.Behavior) (n : Nat) : M.Reachable (b.state n) := by
  induction n with
  | zero =>
      rw [b.start]
      exact .refl
  | succ n ih =>
      rcases b.step_or_stay n with ⟨a, -, hstep⟩ | hstay
      · exact .tail ih trivial hstep
      · rw [hstay]
        exact ih

theorem Takes.step {n : Nat} (h : b.Takes A n) :
    ∃ a, A a ∧ M.step (b.state n) a = some (b.state (n + 1)) := by
  obtain ⟨a, haction, hA⟩ := h
  have hnext := b.next n
  rw [haction] at hnext
  exact ⟨a, hA, hnext⟩

theorem StronglyFair.weaklyFair (h : b.StronglyFair A) : b.WeaklyFair A :=
  fun n hn => h n fun m hm => ⟨m, Nat.le_refl m, hn m hm⟩

/-! ## leads-to -/

theorem leadsTo_of_imp (h : ∀ s, M.Reachable s → P s → Q s) : b.LeadsTo P Q :=
  fun n hP => ⟨n, Nat.le_refl n, h _ (b.reachable n) hP⟩

theorem LeadsTo.trans (first : b.LeadsTo P Q) (second : b.LeadsTo Q R) :
    b.LeadsTo P R := fun n hP =>
  have ⟨i, hi, hQ⟩ := first n hP
  have ⟨j, hj, hR⟩ := second i hQ
  ⟨j, Nat.le_trans hi hj, hR⟩

/-- The goal, or a detour from which the goal is reached. -/
theorem LeadsTo.or_else (first : b.LeadsTo P fun s => Q s ∨ R s) (second : b.LeadsTo R Q) :
    b.LeadsTo P Q := fun n hP =>
  match first n hP with
  | ⟨i, hi, .inl hQ⟩ => ⟨i, hi, hQ⟩
  | ⟨i, hi, .inr hR⟩ =>
      have ⟨j, hj, hQ⟩ := second i hR
      ⟨j, Nat.le_trans hi hj, hQ⟩

/-- What holds until `Q` does holds as long as `Q` does not. -/
theorem holds_until (hkeep : ∀ s a t, M.Reachable s → P s → M.step s a = some t → P t ∨ Q t)
    {n : Nat}
    (hP : P (b.state n)) (hnever : ∀ m, n ≤ m → ¬ Q (b.state m)) (m : Nat) (hm : n ≤ m) :
    P (b.state m) := by
  induction hm with
  | refl => exact hP
  | @step m hm ih =>
      rcases b.step_or_stay m with ⟨a, -, hstep⟩ | hstay
      · exact (hkeep _ a _ (b.reachable m) ih hstep).resolve_right (hnever _ (Nat.le_succ_of_le hm))
      · rw [hstay]
        exact ih

/-- What happens later finds `P` still there, or `Q` has happened before. -/
theorem LeadsTo.keeping (later : b.LeadsTo P R)
    (hkeep : ∀ s a t, M.Reachable s → P s → M.step s a = some t → P t ∨ Q t) :
    b.LeadsTo P fun s => Q s ∨ P s ∧ R s := by
  intro n hP
  by_cases hQ : ∃ m, n ≤ m ∧ Q (b.state m)
  · obtain ⟨m, hm, hQ⟩ := hQ
    exact ⟨m, hm, .inl hQ⟩
  · obtain ⟨m, hm, hR⟩ := later n hP
    have hnever (i : Nat) (hi : n ≤ i) : ¬ Q (b.state i) := fun h => hQ ⟨i, hi, h⟩
    exact ⟨m, hm, .inr ⟨holds_until hkeep hP hnever m hm, hR⟩⟩

/-- **Weak fairness**: a class that is enabled until the goal is reached, and whose
actions reach it. -/
theorem leadsTo_of_weaklyFair (hfair : b.WeaklyFair A)
    (hkeep : ∀ s a t, M.Reachable s → P s → M.step s a = some t → P t ∨ Q t)
    (henabled : ∀ s, M.Reachable s → P s → M.Enabled A s)
    (hgoal : ∀ s a t, M.Reachable s → P s → A a → M.step s a = some t → Q t) : b.LeadsTo P Q := by
  intro n hP
  by_contra hno
  have hnever (m : Nat) (hm : n ≤ m) : ¬ Q (b.state m) := fun hQ => hno ⟨m, hm, hQ⟩
  have hall := holds_until hkeep hP hnever
  obtain ⟨m, hm, htakes⟩ := hfair n fun m hm => henabled _ (b.reachable m) (hall m hm)
  obtain ⟨a, hA, hstep⟩ := htakes.step
  exact hnever (m + 1) (by omega) (hgoal _ a _ (b.reachable m) (hall m hm) hA hstep)

/-- **Strong fairness**: a class that is enabled again and again until the goal is
reached, and whose actions reach it. -/
theorem leadsTo_of_stronglyFair (hfair : b.StronglyFair A)
    (hkeep : ∀ s a t, M.Reachable s → P s → M.step s a = some t → P t ∨ Q t)
    (henabled : b.LeadsTo P fun s => M.Enabled A s ∨ Q s)
    (hgoal : ∀ s a t, M.Reachable s → P s → A a → M.step s a = some t → Q t) : b.LeadsTo P Q := by
  intro n hP
  by_contra hno
  have hnever (m : Nat) (hm : n ≤ m) : ¬ Q (b.state m) := fun hQ => hno ⟨m, hm, hQ⟩
  have hall := holds_until hkeep hP hnever
  obtain ⟨m, hm, htakes⟩ := hfair n fun m hm => by
    obtain ⟨k, hk, hen⟩ := henabled m (hall m hm)
    exact ⟨k, hk, hen.resolve_right (hnever k (by omega))⟩
  obtain ⟨a, hA, hstep⟩ := htakes.step
  exact hnever (m + 1) (by omega) (hgoal _ a _ (b.reachable m) (hall m hm) hA hstep)

/-- **Induction on a rank**: whatever the rank, the goal is reached or the rank gets
smaller. -/
theorem leadsTo_of_rank (rank : σ → Nat)
    (h : ∀ v, b.LeadsTo (fun s => P s ∧ rank s = v) fun s => Q s ∨ P s ∧ rank s < v) :
    b.LeadsTo P Q := by
  have hall (v : Nat) : ∀ n, P (b.state n) → rank (b.state n) = v → ∃ m, n ≤ m ∧ Q (b.state m) := by
    induction v using Nat.strongRecOn with
    | ind v ih =>
      intro n hP hv
      obtain ⟨m, hm, hQ | ⟨hP', hlt⟩⟩ := h v n ⟨hP, hv⟩
      · exact ⟨m, hm, hQ⟩
      · obtain ⟨k, hk, hQ⟩ := ih _ hlt m hP' rfl
        exact ⟨k, Nat.le_trans hm hk, hQ⟩
  exact fun n hP => hall _ n hP rfl

/-- **A falling rank**: a class that is enabled until the goal is reached, whose actions
make a rank smaller that no step makes larger. -/
theorem leadsTo_of_falling (rank : σ → Nat) (hfair : b.WeaklyFair A)
    (hkeep : ∀ s a t, M.Reachable s → P s → M.step s a = some t → Q t ∨ P t ∧ rank t ≤ rank s)
    (henabled : ∀ s, M.Reachable s → P s → M.Enabled A s)
    (hfall : ∀ s a t, M.Reachable s → P s → A a → M.step s a = some t → P t → rank t < rank s) :
    b.LeadsTo P Q := by
  refine leadsTo_of_rank rank fun v => leadsTo_of_weaklyFair hfair ?_ ?_ ?_
  · intro s a t hr hP hs
    rcases hkeep s a t hr hP.1 hs with hQ | ⟨hPt, hle⟩
    · exact .inr (.inl hQ)
    · rcases Nat.lt_or_eq_of_le hle with hlt | heq
      · exact .inr (.inr ⟨hPt, hP.2 ▸ hlt⟩)
      · exact .inl ⟨hPt, heq.trans hP.2⟩
  · exact fun s hr hP => henabled s hr hP.1
  · intro s a t hr hP ha hs
    rcases hkeep s a t hr hP.1 hs with hQ | ⟨hPt, -⟩
    · exact .inl hQ
    · exact .inr ⟨hPt, hP.2 ▸ hfall s a t hr hP.1 ha hs hPt⟩

end Behavior

/-! ## schedules -/

/-- One more action at the end of a schedule. -/
theorem exec_concat (s : σ) (as : List α) (a : α) :
    M.exec s (as ++ [a]) = (M.exec s as).bind (M.step · a) := by
  induction as generalizing s with
  | nil =>
      change (if true = true then (M.step s a).bind some else none) = M.step s a
      rw [if_pos rfl, Option.bind_fun_some]
  | cons x as ih =>
      change (if true = true then (M.step s x).bind fun t => M.exec t (as ++ [a]) else none) =
        (if true = true then (M.step s x).bind fun t => M.exec t as else none).bind (M.step · a)
      rw [if_pos rfl, if_pos rfl, Option.bind_assoc]
      simp only [ih]

/-- The front of a schedule that can be executed can be. -/
theorem exec_take {s t : σ} {as : List α} (h : M.exec s as = some t) (n : Nat) :
    ∃ u, M.exec s (as.take n) = some u := by
  induction as using List.reverseRecOn generalizing t with
  | nil => exact ⟨s, by rw [List.take_nil]; rfl⟩
  | append_singleton as a ih =>
      rw [exec_concat, Option.bind_eq_some_iff] at h
      obtain ⟨u, hu, hlast⟩ := h
      rcases Nat.lt_or_ge as.length n with hn | hn
      · exact ⟨t, by
          rw [List.take_of_length_le (by rw [List.length_append]; exact hn), exec_concat, hu]
          exact hlast⟩
      · rw [List.take_append_of_le_length hn]
        exact ih hu

namespace Behavior

variable {s : σ}

/-- A schedule that can be executed, and nothing after it. -/
def ofSchedule (as : List α) (h : M.exec M.init as = some s) : M.Behavior where
  state n := (M.exec M.init (as.take n)).getD s
  action n := as[n]?
  start := rfl
  next n := by
    obtain ⟨u, hu⟩ := exec_take h n
    rcases Nat.lt_or_ge n as.length with hn | hn
    · obtain ⟨v, hv⟩ := exec_take h (n + 1)
      rw [List.getElem?_eq_getElem hn, Option.elim_some, hu, hv]
      rw [List.take_succ_eq_append_getElem hn, exec_concat, hu] at hv
      exact hv
    · rw [List.getElem?_eq_none hn, Option.elim_none, List.take_of_length_le hn,
        List.take_of_length_le (Nat.le_succ_of_le hn)]

theorem state_ofSchedule {as : List α} {h : M.exec M.init as = some s} {n : Nat}
    (hn : as.length ≤ n) :
    (ofSchedule as h).state n = s := by
  change (M.exec M.init (as.take n)).getD s = s
  rw [List.take_of_length_le hn, h]
  rfl

/-- What is not enabled in the end is not passed over. -/
theorem stronglyFair_ofSchedule {as : List α} {h : M.exec M.init as = some s} {A : α → Prop}
    (hend : ¬ M.Enabled A s) : (ofSchedule as h).StronglyFair A := by
  intro n hn
  obtain ⟨m, hm, hen⟩ := hn (max n as.length) (Nat.le_max_left _ _)
  rw [state_ofSchedule (Nat.le_trans (Nat.le_max_right _ _) hm)] at hen
  exact absurd hen hend

end Behavior

end Oxicast.TransitionSystem
