import Oxicast.Tracker.Invariant

/-!
# Oxicast.Tracker.Correlation

The correlation theorem of `RequestTracker`: as long as the counter does not
go all the way round within the lifetime of one request, every answer goes to
the request it answers, for any number of concurrent requests and any
interleaving, wrapped counter included.
-/

namespace Oxicast.Requests

open TransitionSystem

variable {s s' : Requests} {r r' : Nat} {k : UInt32} {a : TrackerAct}

/-- Fewer than `2 ^ 32 - 1` increments have happened since any live request
made its first one. -/
def Timely (s : Requests) : Prop :=
  ∀ r, (s.request r).phase.Live → s.increments < (s.request r).born + (2 ^ 32 - 1)

theorem timely_of_lt (h : s.increments < 2 ^ 32 - 1) : Timely s := by
  intro r _; omega

/-! ## the invariants along a run -/

variable {ok : Requests → TrackerAct → Prop}

theorem filing_of_run (h : system.Run ok .new s) : Filing s :=
  h.invariant filing_new fun _ _ _ hi _ hs => hi.step (step_cases hs)

theorem answering_of_run (h : system.Run ok .new s) : Answering s :=
  h.invariant_with (fun _ => filing_of_run) answering_new
    fun _ _ _ hf ha _ hs => ha.step hf (step_cases hs)

theorem numbering_of_run (h : system.Run ok .new s) : Numbering s :=
  h.invariant numbering_new fun _ _ _ hi _ hs => hi.step (step_cases hs)

/-! ## no id 0 -/

/-- No request has been given the id 0, which the router takes for a broadcast. -/
def NoZeroId (s : Requests) : Prop := ∀ r k, (s.request r).phase.id? = some k → k ≠ 0

/-- The second increment of a request is not the one that wraps again. -/
theorem nextId_ne_zero_of_skipping (hn : Numbering s) (ht : Timely s)
    (hp : (s.request r).phase = .skippingZero) : s.tracker.nextId ≠ 0 := by
  intro h0
  have hres : (s.increments + 1) % 2 ^ 32 = 0 := by rw [← hn.toNat_nextId, h0]; rfl
  have hborn := hn.skipping r hp
  have hlow := hn.started r (by simp [hp])
  have hhigh := ht r (by simp [Phase.Live, hp])
  omega

theorem NoZeroId.step (h : NoZeroId s) (hn : Numbering s) (ht : Timely s) (hs : Step s a s') :
    NoZeroId s' := by
  cases hs with
  | increment hp => grind [NoZeroId, Phase.id?]
  | incrementAgain hp =>
      have hne := nextId_ne_zero_of_skipping hn ht hp
      grind [NoZeroId, Phase.id?]
  | insert hp => grind [NoZeroId, Phase.id?]
  | resolve id payload => grind [NoZeroId, Phase.id?]
  | clear => grind [NoZeroId, Phase.id?]
  | receive hp hrx => grind [NoZeroId, Phase.id?]
  | senderDropped hp hrx => grind [NoZeroId, Phase.id?]
  | timeout hp => grind [NoZeroId, Phase.id?]
  | cleanup hp => grind [NoZeroId, Phase.id?]

theorem noZeroId_of_run (h : system.Run (fun t _ => Timely t) .new s) : NoZeroId s := by
  refine h.invariant_with (J := Numbering) (fun _ => numbering_of_run) ?_ ?_
  · simp [NoZeroId, Requests.new, Request.fresh, Phase.id?]
  · exact fun _ _ _ hn hz ht hs => hz.step hn ht (step_cases hs)

/-! ## live ids are distinct -/

/-- Concurrently live requests have pairwise distinct ids. -/
def DistinctLive (s : Requests) : Prop :=
  ∀ r r' k, (s.request r).phase.Live → (s.request r').phase.Live →
    (s.request r).phase.id? = some k → (s.request r').phase.id? = some k → r = r'

/-- Two tickets of live requests are less than `2 ^ 32` apart, so equal residues
mean equal tickets. -/
theorem distinctLive_of_timely (hn : Numbering s) (ht : Timely s) : DistinctLive s := by
  intro r r' k hl hl' hk hk'
  have started {x : Nat} (hx : (s.request x).phase.Live) : (s.request x).phase ≠ .idle := by
    intro h; simp [h, Phase.Live] at hx
  refine hn.distinct r r' (started hl) (started hl') ?_
  have hres := hn.id r k hk
  have hres' := hn.id r' k hk'
  have hb := hn.started r (started hl)
  have hb' := hn.started r' (started hl')
  have hlt := ht r hl
  have hlt' := ht r' hl'
  omega

/-- Whoever still has a sender in the map, or may have one, is live. -/
theorem live_of_filed {p : Phase} (h : p.filed? = some k) : p.Live ∧ p.id? = some k := by
  cases p <;> simp_all [Phase.filed?, Phase.Live, Phase.id?]

/-- The entry under a live request's id is its own. -/
theorem DistinctLive.eq_of_pending (h : DistinctLive s) (hf : Filing s)
    (hl : (s.request r).phase.Live) (hk : (s.request r).phase.id? = some k)
    (hp : s.tracker.pending k = some r') : r' = r := by
  have hr' := live_of_filed (hf.owner k r' hp)
  exact h r' r k hr'.1 hl hr'.2 hk

/-! ## the cleanup and the end of the wait -/

/-- The cleanup of one request leaves the entries of all others as they are. -/
def CleanupLocal (s : Requests) : Prop :=
  ∀ r s', s.step (.cleanup r) = some s' →
    ∀ k r', r' ≠ r → s.tracker.pending k = some r' → s'.tracker.pending k = some r'

theorem cleanupLocal_of_distinct (h : DistinctLive s) (hf : Filing s) : CleanupLocal s := by
  intro r s' hs k r' hne hp
  cases step_cases hs with
  | @cleanup _ id err hph =>
      have hk : k ≠ id := by
        rintro rfl
        exact hne (h.eq_of_pending hf (by simp [hph, Phase.Live]) (by simp [hph, Phase.id?]) hp)
      rw [tracker_cleanup, RequestTracker.pending_remove, if_neg hk, hp]

/-- At the moment a `wait_for` returns, no entry with its id is in the map. -/
def GoneOnReturn (s : Requests) : Prop :=
  ∀ a s' r k result, s.step a = some s' → (s.request r).phase.Live →
    (s'.request r).phase = .returned k result → s'.tracker.pending k = none

theorem goneOnReturn_of_distinct (h : DistinctLive s) (hf : Filing s) : GoneOnReturn s := by
  intro a s' x k result hs hl hret
  cases step_cases hs with
  | @receive r n id v hp hrx =>
      obtain rfl : x = r := by grind [Phase.Live]
      obtain rfl : id = k := by grind
      have hown : s.tracker.pending id ≠ some x := by
        rw [Ne, ← hf.held x id (by simp [hp, Phase.filed?]), hrx]; simp
      rw [tracker_update]
      cases hpend : s.tracker.pending id with
      | none => rfl
      | some y =>
          have := h.eq_of_pending hf hl (by simp [hp, Phase.id?]) hpend
          exact absurd (this ▸ hpend) hown
  | @cleanup r id err hp =>
      obtain rfl : x = r := by grind [Phase.Live]
      obtain rfl : id = k := by grind
      simp [RequestTracker.pending_remove]
  | increment hp => grind [Phase.Live]
  | incrementAgain hp => grind [Phase.Live]
  | insert hp => grind [Phase.Live]
  | resolve id payload => grind [Phase.Live]
  | clear => grind [Phase.Live]
  | senderDropped hp hrx => grind [Phase.Live]
  | timeout hp => grind [Phase.Live]

/-! ## the correlation theorem -/

/-- `wait_for` returns `Ok(v)` only for the payload of the first `resolve` call
made with the request's id after its insert. -/
def FirstAnswer (s : Requests) : Prop :=
  ∀ r k v, (s.request r).phase = .returned k (.ok v) → (s.request r).answers.head? = some v

/-- Every `resolve` call reaches at most one waiter. -/
def OneWaiter (s : Requests) : Prop :=
  ∀ r r' n v v', (s.request r).rx = .sent n v → (s.request r').rx = .sent n v' → r = r'

/-- **Correlation**: in every run in which fewer than `2 ^ 32 - 1` increments
fall into the lifetime of any one request, ids are never 0 and distinct among
live requests, answers go to the request they were made for, and the cleanup
of a request removes its own entry and no other. -/
theorem correlation (h : system.Run (fun t _ => Timely t) .new s) (ht : Timely s) :
    NoZeroId s ∧ DistinctLive s ∧ FirstAnswer s ∧ OneWaiter s ∧ CleanupLocal s ∧
      GoneOnReturn s := by
  have hf := filing_of_run h
  have ha := answering_of_run h
  have hd := distinctLive_of_timely (numbering_of_run h) ht
  refine ⟨noZeroId_of_run h, hd, ?_, ha.once, cleanupLocal_of_distinct hd hf,
    goneOnReturn_of_distinct hd hf⟩
  intro r k v hp
  obtain ⟨n, hrx⟩ := ha.result r k v hp
  exact ha.first r n v hrx

/-- Two requests, the second answered first, the first one timing out. -/
theorem correlation_two_requests :
    ∃ s, system.execIf (fun t _ => t.increments < 2 ^ 32 - 1) .new
        [.increment 0, .increment 1, .insert 1, .insert 0, .resolve 2 .null, .timeout 0,
          .receive 1, .cleanup 0] = some s ∧
      (s.request 1).phase = .returned 2 (.ok .null) ∧
      NoZeroId s ∧ DistinctLive s ∧ FirstAnswer s ∧ OneWaiter s ∧ CleanupLocal s ∧
      GoneOnReturn s := by
  obtain ⟨s, hs, hp, hlt⟩ : ∃ s, system.execIf (fun t _ => t.increments < 2 ^ 32 - 1) .new
      [.increment 0, .increment 1, .insert 1, .insert 0, .resolve 2 .null, .timeout 0,
        .receive 1, .cleanup 0] = some s ∧
      (s.request 1).phase = .returned 2 (.ok .null) ∧ s.increments < 2 ^ 32 - 1 :=
    ⟨_, rfl, rfl, by decide⟩
  refine ⟨s, hs, hp, correlation (run_of_execIf _ ?_ hs) (timely_of_lt hlt)⟩
  intro x a hx
  exact timely_of_lt (by simpa using hx)

end Oxicast.Requests
