import Mathlib.Logic.Function.Basic

/-!
# Oxicast.Transition

Labelled transition systems given by a partial step function, and the rules
the concurrent models of this library are proved with.

A step function returns `none` when the action is not enabled, so a schedule
(a list of actions) can be executed by `exec` and a concrete interleaving is
checked by evaluation.  `Run ok s t` is a run all of whose steps meet the
condition `ok` on the state before the step and the action:

* `of_if` — an enabled step has passed its guard;
* `Run.invariant` — what one step preserves, a whole run preserves;
* `Run.mono` — a run under a stronger condition is a run under a weaker one;
* `run_of_execIf`, `run_of_execIf_mem` — an executed schedule is a run;
* `Run.simulate` — runs are carried along a step-wise simulation;
* `observe` — a history variable that every step extends and none reads: an
  observed run is a run (`Run.unobserved`), every run can be observed
  (`Run.observed`), and invariants may speak of the history
  (`Run.invariant_observed`).
-/

namespace Oxicast

/-- A labelled transition system: an initial state and a partial step function. -/
structure TransitionSystem (σ α : Type*) where
  init : σ
  step : σ → α → Option σ

namespace TransitionSystem

variable {σ α τ β : Type*} (M : TransitionSystem σ α) {N : TransitionSystem τ β}

/-- Execute a schedule whose every step passes the test `p`; `none` when a step
does not, or its action is not enabled. -/
def execIf (p : σ → α → Bool) (s : σ) : List α → Option σ
  | [] => some s
  | a :: as => if p s a then (M.step s a).bind fun t => execIf p t as else none

/-- Execute a schedule; `none` when one of its actions is not enabled. -/
def exec (s : σ) (as : List α) : Option σ := M.execIf (fun _ _ => true) s as

/-- A run from `s` to `t` whose every step meets `ok` in the state it leaves. -/
inductive Run (ok : σ → α → Prop) (s : σ) : σ → Prop
  | refl : Run ok s s
  | tail {t u : σ} {a : α} : Run ok s t → ok t a → M.step t a = some u → Run ok s u

/-- Every action is allowed. -/
def Any (_ : σ) (_ : α) : Prop := True

/-- Reachable from the initial state by any interleaving. -/
def Reachable (t : σ) : Prop := M.Run Any M.init t

variable {M} {ok ok' : σ → α → Prop} {s t u : σ}

/-! ## rules -/

/-- A guarded step that is enabled has passed its guard. -/
theorem of_if {p : Prop} [Decidable p] (h : (if p then some s else none) = some t) : p ∧ s = t := by
  split at h
  next hp => exact ⟨hp, Option.some.inj h⟩
  next => contradiction

/-- **Invariant rule**: a predicate that holds at the start and is preserved by
every step that meets the condition holds at the end of the run. -/
theorem Run.invariant {I : σ → Prop} (h : M.Run ok s t) (start : I s)
    (step : ∀ x a y, I x → ok x a → M.step x a = some y → I y) : I t := by
  induction h with
  | refl => exact start
  | tail _ hok hstep ih => exact step _ _ _ ih hok hstep

/-- The invariant rule with an invariant already established along the run. -/
theorem Run.invariant_with {I J : σ → Prop} (h : M.Run ok s t)
    (aux : ∀ x, M.Run ok s x → J x) (start : I s)
    (step : ∀ x a y, J x → I x → ok x a → M.step x a = some y → I y) : I t := by
  induction h with
  | refl => exact start
  | tail hrun hok hstep ih => exact step _ _ _ (aux _ hrun) ih hok hstep

/-- Weakening the condition on the steps. -/
theorem Run.mono (h : M.Run ok s t) (weaken : ∀ x a, ok x a → ok' x a) : M.Run ok' s t := by
  induction h with
  | refl => exact .refl
  | tail _ hok hstep ih => exact .tail ih (weaken _ _ hok) hstep

/-- Every run from the initial state ends in a reachable state. -/
theorem Run.reachable (h : M.Run ok M.init t) : M.Reachable t :=
  h.mono fun _ _ _ => trivial

/-- Runs compose. -/
theorem Run.trans (h : M.Run ok s t) (h' : M.Run ok t u) : M.Run ok s u := by
  induction h' with
  | refl => exact h
  | tail _ hok hstep ih => exact .tail ih hok hstep

/-- An executed schedule is a run under every condition its test implies for the
actions in it. -/
theorem run_of_execIf_mem {p : σ → α → Bool} (as : List α)
    (test : ∀ a ∈ as, ∀ x, p x a = true → ok x a) (h : M.execIf p s as = some t) :
    M.Run ok s t := by
  induction as generalizing s with
  | nil =>
      obtain rfl : s = t := by simpa [execIf] using h
      exact .refl
  | cons a as ih =>
      rw [execIf] at h
      split at h
      next hp =>
        rw [Option.bind_eq_some_iff] at h
        obtain ⟨x, hx, hrest⟩ := h
        have hlast := ih (fun b hb => test b (List.mem_cons_of_mem _ hb)) hrest
        exact (Run.tail .refl (test a List.mem_cons_self _ hp) hx).trans hlast
      next => contradiction

/-- An executed schedule is a run under every condition its test implies. -/
theorem run_of_execIf {p : σ → α → Bool} (as : List α) (test : ∀ x a, p x a = true → ok x a)
    (h : M.execIf p s as = some t) : M.Run ok s t :=
  run_of_execIf_mem as (fun a _ x => test x a) h

/-- A schedule goes on from where its first action leads. -/
theorem exec_cons {a : α} {as : List α} (h : M.step s a = some t) :
    M.exec s (a :: as) = M.exec t as := by
  rw [exec, execIf, if_pos rfl, h, Option.bind_some, exec]

/-- An executed schedule reaches its final state. -/
theorem reachable_of_exec (as : List α) (h : M.exec M.init as = some t) : M.Reachable t :=
  run_of_execIf as (fun _ _ _ => trivial) h

/-- **Simulation rule**: when `f` maps every step of `M` to a run of `N`, it maps
every run of `M` to a run of `N`. -/
theorem Run.simulate (f : σ → τ) (okN : τ → β → Prop) (h : M.Run ok s t)
    (step : ∀ x a y, ok x a → M.step x a = some y → N.Run okN (f x) (f y)) :
    N.Run okN (f s) (f t) := by
  induction h with
  | refl => exact .refl
  | tail _ hok hstep ih => exact ih.trans (step _ _ _ hok hstep)

/-! ## history variables -/

section Observe

variable {η : Type*} (M) (h₀ : η) (record : η → σ → α → σ → η)

/-- The system with a history variable: every step extends it by `record`, and no
step reads it. -/
def observe : TransitionSystem (σ × η) α where
  init := (M.init, h₀)
  step x a := (M.step x.1 a).map fun t => (t, record x.2 x.1 a t)

variable {M h₀ record} {x y : σ × η} {okH : σ × η → α → Prop} {a : α}

theorem step_observe_iff :
    (M.observe h₀ record).step x a = some y ↔
      M.step x.1 a = some y.1 ∧ y.2 = record x.2 x.1 a y.1 := by
  rw [observe, Option.map_eq_some_iff]
  constructor
  · rintro ⟨t, ht, rfl⟩
    exact ⟨ht, rfl⟩
  · rintro ⟨ht, hy⟩
    exact ⟨y.1, ht, Prod.ext rfl hy.symm⟩

/-- An observed run is a run. -/
theorem Run.unobserved (h : (M.observe h₀ record).Run okH x y)
    (weaken : ∀ x a, okH x a → ok x.1 a) : M.Run ok x.1 y.1 := by
  induction h with
  | refl => exact .refl
  | tail _ hok hstep ih => exact .tail ih (weaken _ _ hok) (step_observe_iff.1 hstep).1

/-- The invariant rule with a history: what a step records is what keeps the
invariant.  `J` is established along the runs without history. -/
theorem Run.invariant_observed {I : σ → η → Prop} {J : σ → Prop}
    (h : (M.observe h₀ record).Run okH x y) (aux : ∀ s, M.Run Any x.1 s → J s) (start : I x.1 x.2)
    (step : ∀ s e a t, J s → I s e → okH (s, e) a → M.step s a = some t → I t (record e s a t)) :
    I y.1 y.2 := by
  refine h.invariant_with (I := fun z => I z.1 z.2) (J := fun z => J z.1)
    (fun z hz => aux z.1 (hz.unobserved fun _ _ _ => trivial)) start fun z a w hj hi hok hs => ?_
  obtain ⟨hstep, hhist⟩ := step_observe_iff.1 hs
  rw [hhist]
  exact step z.1 z.2 a w.1 hj hi hok hstep

/-- Every run can be observed. -/
theorem Run.observed (h : M.Run ok s t) (past : η) :
    ∃ now, (M.observe h₀ record).Run (fun x => ok x.1) (s, past) (t, now) := by
  induction h with
  | refl => exact ⟨past, .refl⟩
  | @tail t u a _ hok hstep ih =>
      obtain ⟨now, hrun⟩ := ih
      exact ⟨record now t a u, .tail hrun hok (step_observe_iff.2 ⟨hstep, rfl⟩)⟩

end Observe

end TransitionSystem

end Oxicast
