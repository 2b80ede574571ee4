import Oxicast.Tracker.Correlation

/-!
# Oxicast.Tracker.Register

One `register` that nothing interrupts, from any counter and any map.

The id it inserts under is the one that follows the counter, 0 left out, and
`register` does not look whether a request still waits under it: the new sender
takes the place of the old one, whose request then cleans up the new entry.
-/

namespace Oxicast

/-- The id that follows the counter; 0 is none. -/
def RequestTracker.following (t : RequestTracker) : UInt32 :=
  if t.counter + 1 = 0 then 1 else t.counter + 1

/-- No request waits under the id that follows the counter. -/
def RequestTracker.FreeNext (t : RequestTracker) : Prop := t.pending t.following = none

namespace Requests

open TransitionSystem

variable {s : Requests} {r x : Nat}

/-- `register`, run without interleaving. -/
def register (t : RequestTracker) (r : Nat) : List TrackerAct :=
  if t.nextId = 0 then [.increment r, .incrementAgain r, .insert r] else [.increment r, .insert r]

/-- `register` has filed request `r` under a new id: what waited before waits on,
and no cleanup of it takes the new entry away. -/
structure Fresh (s s' : Requests) (r : Nat) (id : UInt32) : Prop where
  nonzero : id ≠ 0
  new : s.tracker.pending id = none
  pending : s'.tracker.pending = Function.update s.tracker.pending id (some r)
  waiting : ∀ x, (s'.request x).rx = (s.request x).rx
  survives : ∀ x k err, s.tracker.pending k = some x →
  (s'.cleanup x k err).tracker.pending id = some r

theorem following_ne_zero (t : RequestTracker) : t.following ≠ 0 := by
  unfold RequestTracker.following
  split_ifs with h
  · decide
  · exact h

/-- Up to the insert, `register` changes nothing but the counter and its own request. -/
theorem exec_register (h : (s.request r).phase = .idle) :
    ∃ t : Requests, system.exec s (register s.tracker r) = some (t.insert r s.tracker.following) ∧
      t.tracker.pending = s.tracker.pending ∧ ∀ x, (t.request x).rx = (s.request x).rx := by
  have hbegin : s.step (.increment r) = some (s.beginRegister r) := by simp [step, h]
  have hrx (x : Nat) : ((s.beginRegister r).request x).rx = (s.request x).rx := by
    rw [request_beginRegister]
    split_ifs with hx <;> simp [hx]
  have hinsert {t : Requests} {id : UInt32} (ht : (t.request r).phase = .allocated id) :
      t.step (.insert r) = some (t.insert r id) := by simp [step, ht]
  by_cases hzero : s.tracker.nextId = 0
  · have hphase : ((s.beginRegister r).request r).phase = .skippingZero := by
      simp [request_beginRegister, hzero]
    have hagain : (s.beginRegister r).step (.incrementAgain r) =
        some ((s.beginRegister r).skipZero r) := by
      simp [step, hphase]
    -- the second increment gives 1
    have hone : (s.beginRegister r).tracker.nextId = s.tracker.following := by
      have hcounter : s.tracker.counter + 1 = 0 := hzero
      change s.tracker.counter + 1 + 1 = _
      rw [RequestTracker.following, if_pos hcounter, hcounter]
      rfl
    have hfiled : (((s.beginRegister r).skipZero r).request r).phase =
        .allocated s.tracker.following := by
      simp [request_skipZero, hone]
    refine ⟨(s.beginRegister r).skipZero r, ?_, rfl, fun x => ?_⟩
    · rw [register, if_pos hzero, exec_cons hbegin, exec_cons hagain, exec_cons (hinsert hfiled)]
      rfl
    · rw [request_skipZero]
      split_ifs with hx
      · rw [hx]
        exact hrx r
      · exact hrx x
  · have hfollowing : s.tracker.following = s.tracker.nextId := if_neg hzero
    have hfiled : ((s.beginRegister r).request r).phase = .allocated s.tracker.following := by
      simp [request_beginRegister, hzero, hfollowing]
    refine ⟨s.beginRegister r, ?_, rfl, hrx⟩
    rw [register, if_neg hzero, exec_cons hbegin, exec_cons (hinsert hfiled)]
    rfl

/-- Under an id that is free the insert drops no sender. -/
theorem fresh_insert {t : Requests} {id : UInt32} (hpending : t.tracker.pending = s.tracker.pending)
    (hrx : ∀ x, (t.request x).rx = (s.request x).rx) (hzero : id ≠ 0)
    (hfree : s.tracker.pending id = none) : Fresh s (t.insert r id) r id := by
  refine ⟨hzero, hfree, ?_, fun x => ?_, fun x k err hk => ?_⟩
  · rw [tracker_insert, RequestTracker.insert, hpending]
  · simp only [request_insert, hpending, hfree]
    exact hrx x
  · have hne : id ≠ k := by
      rintro rfl
      rw [hfree] at hk
      contradiction
    rw [tracker_cleanup, RequestTracker.pending_remove, if_neg hne, tracker_insert,
      RequestTracker.pending_insert, if_pos rfl]

/-- **A waiting request is evicted** by a `register` exactly when it waits under the
id that follows the counter. -/
theorem register_fresh_iff (h : (s.request r).phase = .idle) :
    ∃ s' id, system.exec s (register s.tracker r) = some s' ∧
      (s'.request r).phase = .registered id ∧
      (Fresh s s' r id ↔ s.tracker.FreeNext) := by
  obtain ⟨t, hexec, hpending, hrx⟩ := exec_register h
  have hphase : ((t.insert r s.tracker.following).request r).phase =
      .registered s.tracker.following := by
    rw [request_insert]
    exact if_pos rfl
  exact ⟨_, _, hexec, hphase, fun hfresh => hfresh.new,
    fun hfree => fresh_insert hpending hrx (following_ne_zero _) hfree⟩

/-- The first `register` of a client finds its id free. -/
theorem register_fresh_new : ∃ s' id, system.exec .new (register RequestTracker.new 0) = some s' ∧
    (s'.request 0).phase = .registered id ∧ Fresh .new s' 0 id := by
  obtain ⟨s', id, hexec, hphase, hiff⟩ := @register_fresh_iff .new 0 rfl
  exact ⟨s', id, hexec, hphase, hiff.2 rfl⟩

/-- The counter has gone round, and request 0 still waits under its id 1. -/
def wrapped : Requests where
  tracker := ⟨0, Function.update (fun _ => none) 1 (some 0)⟩
  request := Function.update (fun _ => .fresh) 0 ⟨.registered 1, .empty, 1, 1, []⟩
  increments := 2 ^ 32
  resolves := 0

/-- The next `register` drops its sender. -/
theorem waiting_evicted :
    ¬ ∀ (s : Requests) (r : Nat) (keys : List UInt32), keys.length < 2 ^ 32 - 1 →
    (∀ k x, s.tracker.pending k = some x → k ∈ keys) → (s.request r).phase = .idle →
    ∀ s' id, system.exec s (register s.tracker r) = some s' →
      (s'.request r).phase = .registered id →
      Fresh s s' r id := by
  intro h
  have hkeys : ∀ k x, wrapped.tracker.pending k = some x → k ∈ [(1 : UInt32)] := by
    intro k x hk
    by_contra hne
    rw [List.mem_singleton] at hne
    simp [wrapped, hne] at hk
  have hfresh := h wrapped 1 [1] (by decide) hkeys rfl _ 1 rfl rfl
  have hclosed : Oneshot.closed = .empty := hfresh.waiting 0
  nomatch hclosed

/-! ## along a run -/

/-- A request that still waits was given its id within the last `2 ^ 32` numbers. -/
def Recent (s : Requests) : Prop :=
  ∀ x, (s.request x).phase.Live → s.increments + 2 < (s.request x).ticket + 2 ^ 32

theorem toNat_following (hn : Numbering s) :
    s.tracker.following.toNat = (s.increments + 1) % 2 ^ 32 ∨
    s.tracker.following.toNat = (s.increments + 2) % 2 ^ 32 := by
  have hnext := hn.toNat_nextId
  unfold RequestTracker.following
  split_ifs with hzero
  · have hlast : (s.increments + 1) % 2 ^ 32 = 0 := by
      rw [← hnext, RequestTracker.nextId, hzero]
      rfl
    right
    change 1 = _
    omega
  · exact .inl hnext

/-- In a run whose waits are shorter than a round of the counter, nobody is evicted. -/
theorem freeNext_of_recent (h : system.Reachable s) (hrecent : Recent s) : s.tracker.FreeNext := by
  have hn := numbering_of_run h
  rw [RequestTracker.FreeNext, Option.eq_none_iff_forall_ne_some]
  intro x hx
  have hlive := live_of_filed ((filing_of_run h).owner _ x hx)
  have hstarted : (s.request x).phase ≠ .idle := by
    intro hidle
    simp [hidle, Phase.Live] at hlive
  have hticket := (hn.started x hstarted).2
  have hresidue := hn.id x _ hlive.2
  have hbound := hrecent x hlive.1
  rcases toNat_following hn with hfollowing | hfollowing <;> omega

end Requests

end Oxicast
