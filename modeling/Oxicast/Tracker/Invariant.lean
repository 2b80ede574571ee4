import Oxicast.Tracker

/-!
# Oxicast.Tracker.Invariant

What holds of the tracker and its requests in every reachable state, whatever
the interleaving and however often the counter has wrapped:

* `Numbering` — the counter is the number of increments modulo `2 ^ 32`, and
  every id is the residue of its request's ticket, with all tickets distinct;
* `Filing` — a sender in the map belongs to a request that waits under that
  very id, and a waiting request has lost its sender exactly when its channel
  is no longer empty;
* `Answering` — the payload in a request's channel is the first one a
  `resolve` call carried for its id after its insert, and no two channels hold
  the payload of the same call.
-/

namespace Oxicast.Requests

variable {s s' : Requests} {r x : Nat} {id k : UInt32} {a : TrackerAct}

/-! ## what each operation changes -/

section Fields

variable (s : Requests) (r x : Nat) (id : UInt32) (f : Request → Request) (o : Option Nat)
  (payload : Json)

@[simp, grind =] theorem tracker_update : (s.update r f).tracker = s.tracker := rfl
@[simp, grind =] theorem increments_update : (s.update r f).increments = s.increments := rfl

@[grind =] theorem request_update :
    (s.update r f).request x = if x = r then f (s.request r) else s.request x := by
  simp [update, Function.update_apply]

@[simp, grind =] theorem increments_dropSender : (s.dropSender o).increments = s.increments := by
  cases o <;> rfl
@[simp, grind =] theorem resolves_dropSender : (s.dropSender o).resolves = s.resolves := by
  cases o <;> rfl

/-- Dropping a sender closes its channel and touches nothing else. -/
@[grind =] theorem request_dropSender :
    (s.dropSender o).request x =
      { s.request x with
        rx := if o = some x then (s.request x).rx.dropTx else (s.request x).rx } := by
  cases o with
  | none => simp [dropSender]
  | some p =>
      simp only [dropSender, request_update, Option.some.injEq]
      by_cases hx : x = p
      · simp [hx]
      · simp [hx, Ne.symm hx]

@[simp, grind =] theorem tracker_noteAnswer : (s.noteAnswer id payload).tracker = s.tracker := rfl

@[grind =] theorem request_noteAnswer :
    (s.noteAnswer id payload).request x =
      { s.request x with
        answers := if (s.request x).phase.inserted? = some id
          then (s.request x).answers ++ [payload] else (s.request x).answers } := by
  simp only [noteAnswer]; split <;> rfl

@[simp, grind =] theorem increments_resolve :
    (s.resolve id payload).2.increments = s.increments := by
  unfold resolve; split <;> rfl
@[simp, grind =] theorem resolves_resolve : (s.resolve id payload).2.resolves = s.resolves + 1 := by
  unfold resolve; split <;> rfl
@[simp, grind =] theorem counter_resolve :
    (s.resolve id payload).2.tracker.counter = s.tracker.counter := by
  unfold resolve; split <;> simp

@[grind =] theorem pending_resolve :
    (s.resolve id payload).2.tracker.pending k = if k = id then none else s.tracker.pending k := by
  unfold resolve
  split
  · split <;> simp_all
  · simp [RequestTracker.pending_remove]

/-- `resolve` hands its payload to the request whose sender is filed under the
id, and to nobody else. -/
@[grind =] theorem request_resolve :
    (s.resolve id payload).2.request x =
      { s.request x with
        rx := if s.tracker.pending id = some x then .sent s.resolves payload else (s.request x).rx
        answers := if (s.request x).phase.inserted? = some id
          then (s.request x).answers ++ [payload] else (s.request x).answers } := by
  unfold resolve
  split
  · simp_all [request_noteAnswer]
  next p hp =>
    simp only [request_update, hp, Option.some.injEq]
    by_cases hx : x = p
    · subst hx; simp [request_noteAnswer]
    · simp [hx, Ne.symm hx, request_noteAnswer]

@[simp, grind =] theorem resolves_clear : s.clear.resolves = s.resolves := rfl
@[simp, grind =] theorem tracker_clear : s.clear.tracker = s.tracker.clear := rfl

@[grind =] theorem request_clear :
    s.clear.request x =
      { s.request x with
        rx := if s.Holds x then (s.request x).rx.dropTx else (s.request x).rx } := by
  simp only [clear]; split <;> rfl

@[grind =] theorem request_beginRegister :
    (s.beginRegister r).request x =
      if x = r then
        { s.request r with
          phase := if s.tracker.nextId = 0 then .skippingZero else .allocated s.tracker.nextId
          born := s.increments + 1
          ticket := s.increments + 1 }
      else s.request x := by
  simp only [beginRegister, request_update]

@[grind =] theorem request_skipZero :
    (s.skipZero r).request x =
      if x = r then
        { s.request r with phase := .allocated s.tracker.nextId, ticket := s.increments + 1 }
      else s.request x := by
  simp only [skipZero, request_update]

@[simp, grind =] theorem tracker_insert : (s.insert r id).tracker = s.tracker.insert id r := rfl
@[simp, grind =] theorem increments_insert : (s.insert r id).increments = s.increments :=
  increments_dropSender s _
@[simp, grind =] theorem resolves_insert : (s.insert r id).resolves = s.resolves :=
  resolves_dropSender s _

@[grind =] theorem request_insert :
    (s.insert r id).request x =
      { s.request x with
        phase := if x = r then .registered id else (s.request x).phase
        rx := if s.tracker.pending id = some x then (s.request x).rx.dropTx
          else (s.request x).rx } := by
  have h : (s.insert r id).request x = if x = r then
      { (s.dropSender (s.tracker.pending id)).request r with phase := .registered id }
      else (s.dropSender (s.tracker.pending id)).request x := by
    simp only [insert, request_update]
  rw [h, request_dropSender, request_dropSender]
  split <;> simp_all

@[simp, grind =] theorem tracker_cleanup (err : Error) :
    (s.cleanup r id err).tracker = s.tracker.remove id := rfl
@[simp, grind =] theorem increments_cleanup (err : Error) :
    (s.cleanup r id err).increments = s.increments := increments_dropSender s _
@[simp, grind =] theorem resolves_cleanup (err : Error) :
    (s.cleanup r id err).resolves = s.resolves := resolves_dropSender s _

@[grind =] theorem request_cleanup (err : Error) :
    (s.cleanup r id err).request x =
      { s.request x with
        phase := if x = r then .returned id (.error err) else (s.request x).phase
        rx := if s.tracker.pending id = some x then (s.request x).rx.dropTx
          else (s.request x).rx } := by
  have h : (s.cleanup r id err).request x = if x = r then
      { (s.dropSender (s.tracker.pending id)).request r with phase := .returned id (.error err) }
      else (s.dropSender (s.tracker.pending id)).request x := by
    simp only [cleanup, request_update]
  rw [h, request_dropSender, request_dropSender]
  split <;> simp_all

end Fields

/-- What one step can do, with the phase it starts from. -/
inductive Step (s : Requests) : TrackerAct → Requests → Prop
  | increment {r : Nat} (h : (s.request r).phase = .idle) :
      Step s (.increment r) (s.beginRegister r)
  | incrementAgain {r : Nat} (h : (s.request r).phase = .skippingZero) :
      Step s (.incrementAgain r) (s.skipZero r)
  | insert {r : Nat} {id : UInt32} (h : (s.request r).phase = .allocated id) :
      Step s (.insert r) (s.insert r id)
  | resolve (id : UInt32) (payload : Json) : Step s (.resolve id payload) (s.resolve id payload).2
  | clear : Step s .clear s.clear
  | receive {r n : Nat} {id : UInt32} {v : Json} (h : (s.request r).phase = .registered id)
      (hrx : (s.request r).rx = .sent n v) :
      Step s (.receive r) (s.update r fun q => { q with phase := .returned id (.ok v) })
  | senderDropped {r : Nat} {id : UInt32} (h : (s.request r).phase = .registered id)
      (hrx : (s.request r).rx = .closed) :
      Step s (.senderDropped r) (s.update r fun q => { q with phase := .cleanup id .disconnected })
  | timeout {r : Nat} {id : UInt32} (h : (s.request r).phase = .registered id) :
      Step s (.timeout r) (s.update r fun q => { q with phase := .cleanup id .timeout })
  | cleanup {r : Nat} {id : UInt32} {err : Error} (h : (s.request r).phase = .cleanup id err) :
      Step s (.cleanup r) (s.cleanup r id err)

/-- The step function does what `Step` says. -/
theorem step_cases (h : s.step a = some s') : Step s a s' := by
  cases a with
  | increment r =>
      simp only [step] at h; split at h
      next hp => cases h; exact .increment hp
      next => contradiction
  | incrementAgain r =>
      simp only [step] at h; split at h
      next hp => cases h; exact .incrementAgain hp
      next => contradiction
  | insert r =>
      simp only [step] at h; split at h
      next id hp => cases h; exact .insert hp
      next => contradiction
  | resolve id payload => cases h; exact .resolve id payload
  | clear => cases h; exact .clear
  | receive r =>
      simp only [step] at h; split at h
      next id n v hp hrx => cases h; exact .receive hp hrx
      next => contradiction
  | senderDropped r =>
      simp only [step] at h; split at h
      next id hp hrx => cases h; exact .senderDropped hp hrx
      next => contradiction
  | timeout r =>
      simp only [step] at h; split at h
      next id hp => cases h; exact .timeout hp
      next => contradiction
  | cleanup r =>
      simp only [step] at h; split at h
      next id err hp => cases h; exact .cleanup hp
      next => contradiction

/-- What `Step` says can be done. -/
theorem Step.enabled (h : Step s a s') : s.step a = some s' := by
  cases h <;> simp [step, *]

/-- A step moves its own request at most. -/
theorem Step.phase_of_ne (h : Step s a s') (hr : a.request? ≠ some x) :
    (s'.request x).phase = (s.request x).phase := by
  cases h with
  | resolve id payload => rw [request_resolve]
  | clear => rw [request_clear]
  | _ =>
      have hne := Ne.symm (Option.some_inj.ne.1 hr)
      grind

/-- Only a `resolve` call puts a payload into a channel. -/
theorem sent_of_step {n : Nat} {v : Json} (hs : Step s a s')
    (ha : ∀ id payload, a ≠ .resolve id payload) (h : (s'.request r).rx = .sent n v) :
    (s.request r).rx = .sent n v := by
  cases hs with
  | resolve id payload => exact absurd rfl (ha id payload)
  | _ => grind

/-! ## steps that move a phase -/

/-- A request has moved on; map and channels are as they were. -/
structure Rephased (s s' : Requests) : Prop where
  pending : s'.tracker.pending = s.tracker.pending
  resolves : s'.resolves = s.resolves
  rx : ∀ r, (s'.request r).rx = (s.request r).rx
  answers : ∀ r, (s'.request r).answers = (s.request r).answers
  filed : ∀ r, (s'.request r).phase.filed? = (s.request r).phase.filed? ∨
    (s'.request r).phase.filed? = none ∧ (s.request r).rx ≠ .empty
  inserted : ∀ r, (s'.request r).phase.inserted? = none → (s.request r).phase.inserted? = none
  returned : ∀ r k v, (s'.request r).phase = .returned k (.ok v) →
    (s.request r).phase = .returned k (.ok v) ∨ ∃ n, (s.request r).rx = .sent n v

theorem Rephased.filed_of (h : Rephased s s') (hf : (s'.request r).phase.filed? = some k) :
    (s.request r).phase.filed? = some k := by
  rcases h.filed r with heq | ⟨hnone, -⟩
  · rw [← heq, hf]
  · rw [hnone] at hf; contradiction

/-- One request gets a new phase, whatever becomes of its numbers and the counter. -/
theorem rephased_update {tracker : RequestTracker} {n : Nat} {q : Request}
    (hpending : tracker.pending = s.tracker.pending) (hrx : q.rx = (s.request r).rx)
    (hanswers : q.answers = (s.request r).answers)
    (hfiled : q.phase.filed? = (s.request r).phase.filed? ∨
      q.phase.filed? = none ∧ (s.request r).rx ≠ .empty)
    (hinserted : q.phase.inserted? = none → (s.request r).phase.inserted? = none)
    (hreturned : ∀ k v, q.phase = .returned k (.ok v) → ∃ n, (s.request r).rx = .sent n v) :
    Rephased s ({ s with tracker, increments := n }.update r fun _ => q) := by
  refine ⟨hpending, rfl, fun x => ?_, fun x => ?_, fun x => ?_, fun x => ?_, fun x => ?_⟩ <;>
    rw [request_update] <;> split
  next hx => rw [hx]; exact hrx
  next => rfl
  next hx => rw [hx]; exact hanswers
  next => rfl
  next hx => rw [hx]; exact hfiled
  next => exact .inl rfl
  next hx => rw [hx]; exact hinserted
  next => exact id
  next hx => rw [hx]; exact fun k v hp => .inr (hreturned k v hp)
  next => exact fun _ _ => .inl

theorem rephased_increment (hp : (s.request r).phase = .idle) : Rephased s (s.beginRegister r) := by
  refine rephased_update rfl rfl rfl (.inl ?_) (fun _ => ?_) fun k v => ?_
  · rw [hp]; split <;> rfl
  · rw [hp]; rfl
  · split <;> nofun

theorem rephased_incrementAgain (hp : (s.request r).phase = .skippingZero) :
    Rephased s (s.skipZero r) :=
  rephased_update rfl rfl rfl (.inl (by rw [hp]; rfl)) (fun _ => by rw [hp]; rfl) nofun

theorem rephased_receive {n : Nat} {v : Json} (hrx : (s.request r).rx = .sent n v) :
    Rephased s (s.update r fun q => { q with phase := .returned id (.ok v) }) := by
  refine rephased_update rfl rfl rfl (.inr ⟨rfl, ?_⟩) nofun fun k w hp => ?_
  · rw [hrx]; nofun
  · cases hp
    exact ⟨n, hrx⟩

/-- A request that stops waiting. -/
theorem rephased_cleanup (hp : (s.request r).phase = .registered id) (err : Error) :
    Rephased s (s.update r fun q => { q with phase := .cleanup id err }) :=
  rephased_update rfl rfl rfl (.inl (by rw [hp]; rfl)) nofun nofun

/-! ## filing -/

/-- The senders in the map are those of the requests that still wait. -/
structure Filing (s : Requests) : Prop where
  owner : ∀ k r, s.tracker.pending k = some r → (s.request r).phase.filed? = some k
  held : ∀ r k, (s.request r).phase.filed? = some k →
    ((s.request r).rx = .empty ↔ s.tracker.pending k = some r)
  quiet : ∀ r, (s.request r).phase.inserted? = none →
    (s.request r).rx = .empty ∧ (s.request r).answers = []

theorem filing_new : Filing .new := by
  constructor <;> simp [Requests.new, RequestTracker.new, Request.fresh, Phase.filed?]

theorem Filing.rephase (h : Filing s) (hm : Rephased s s') : Filing s' := by
  refine ⟨fun k r hr => ?_, fun r k hf => ?_, fun r hnone => ?_⟩
  · rw [hm.pending] at hr
    have hf := h.owner k r hr
    rcases hm.filed r with heq | ⟨-, hrx⟩
    · rw [heq, hf]
    · exact absurd ((h.held r k hf).2 hr) hrx
  · rw [hm.rx, hm.pending]
    exact h.held r k (hm.filed_of hf)
  · rw [hm.rx, hm.answers]
    exact h.quiet r (hm.inserted r hnone)

theorem Filing.step (h : Filing s) (hs : Step s a s') : Filing s' := by
  cases hs with
  | increment hp => exact h.rephase (rephased_increment hp)
  | incrementAgain hp => exact h.rephase (rephased_incrementAgain hp)
  | receive hp hrx => exact h.rephase (rephased_receive hrx)
  | senderDropped hp hrx => exact h.rephase (rephased_cleanup hp _)
  | timeout hp => exact h.rephase (rephased_cleanup hp _)
  | insert hp =>
      obtain ⟨owner, held, quiet⟩ := h
      constructor <;> grind [Phase.filed?, Phase.inserted?]
  | resolve id payload =>
      obtain ⟨owner, held, quiet⟩ := h
      constructor <;> grind [Phase.filed?, Phase.inserted?]
  | clear =>
      obtain ⟨owner, held, quiet⟩ := h
      constructor <;> grind [Phase.filed?, Phase.inserted?, Holds]
  | cleanup hp =>
      obtain ⟨owner, held, quiet⟩ := h
      constructor <;> grind [Phase.filed?, Phase.inserted?]

/-! ## answering -/

/-- What the channels hold, and of which `resolve` call. -/
structure Answering (s : Requests) : Prop where
  unanswered : ∀ r k, (s.request r).phase.filed? = some k → (s.request r).rx = .empty →
    (s.request r).answers = []
  first : ∀ r n v, (s.request r).rx = .sent n v → (s.request r).answers.head? = some v
  counted : ∀ r n v, (s.request r).rx = .sent n v → n < s.resolves
  once : ∀ r r' n v v', (s.request r).rx = .sent n v → (s.request r').rx = .sent n v' → r = r'
  result : ∀ r k v, (s.request r).phase = .returned k (.ok v) →
    ∃ n, (s.request r).rx = .sent n v

theorem answering_new : Answering .new := by
  constructor <;> simp [Requests.new, Request.fresh, Phase.filed?]

theorem Answering.rephase (h : Answering s) (hm : Rephased s s') : Answering s' := by
  refine ⟨fun r k hf hrx => ?_, fun r n v hrx => ?_, fun r n v hrx => ?_,
    fun r r' n v v' hrx hrx' => ?_, fun r k v hp => ?_⟩
  · rw [hm.rx] at hrx
    rw [hm.answers]
    exact h.unanswered r k (hm.filed_of hf) hrx
  · rw [hm.rx] at hrx
    rw [hm.answers]
    exact h.first r n v hrx
  · rw [hm.rx] at hrx
    rw [hm.resolves]
    exact h.counted r n v hrx
  · rw [hm.rx] at hrx hrx'
    exact h.once r r' n v v' hrx hrx'
  · rw [hm.rx]
    rcases hm.returned r k v hp with hp | hrx
    · exact h.result r k v hp
    · exact hrx

theorem Answering.step (h : Answering s) (hf : Filing s) (hs : Step s a s') : Answering s' := by
  cases hs with
  | increment hp => exact h.rephase (rephased_increment hp)
  | incrementAgain hp => exact h.rephase (rephased_incrementAgain hp)
  | receive hp hrx => exact h.rephase (rephased_receive hrx)
  | senderDropped hp hrx => exact h.rephase (rephased_cleanup hp _)
  | timeout hp => exact h.rephase (rephased_cleanup hp _)
  | insert hp =>
      obtain ⟨unanswered, first, counted, once, result⟩ := h
      obtain ⟨owner, held, quiet⟩ := hf
      constructor <;> grind [Phase.filed?, Phase.inserted?]
  | resolve id payload =>
      obtain ⟨unanswered, first, counted, once, result⟩ := h
      obtain ⟨owner, held, quiet⟩ := hf
      constructor <;> grind [Phase.filed?, Phase.inserted?]
  | clear =>
      obtain ⟨unanswered, first, counted, once, result⟩ := h
      constructor <;> grind [Phase.filed?, Holds]
  | cleanup hp =>
      obtain ⟨unanswered, first, counted, once, result⟩ := h
      constructor <;> grind [Phase.filed?]

/-! ## numbering -/

/-- Ids are residues of tickets, and tickets are never given out twice. -/
structure Numbering (s : Requests) : Prop where
  counter : s.tracker.counter.toNat = s.increments % 2 ^ 32
  started : ∀ r, (s.request r).phase ≠ .idle →
    (s.request r).born ≤ (s.request r).ticket ∧ (s.request r).ticket ≤ s.increments
  skipping : ∀ r, (s.request r).phase = .skippingZero → (s.request r).born % 2 ^ 32 = 0
  id : ∀ r k, (s.request r).phase.id? = some k → k.toNat = (s.request r).ticket % 2 ^ 32
  distinct : ∀ r r', (s.request r).phase ≠ .idle → (s.request r').phase ≠ .idle →
    (s.request r).ticket = (s.request r').ticket → r = r'

theorem numbering_new : Numbering .new := by
  constructor <;> simp [Requests.new, RequestTracker.new, Request.fresh, Phase.id?]

/-- The id an increment hands out is the residue of the new count. -/
theorem Numbering.toNat_nextId (h : Numbering s) :
    s.tracker.nextId.toNat = (s.increments + 1) % 2 ^ 32 := by
  have hc := h.counter
  rw [RequestTracker.nextId, UInt32.toNat_add, hc]
  simp [Nat.add_mod]

/-- Nobody gets a number: each request keeps its phase, or its id. -/
theorem Numbering.keep (h : Numbering s) (hcounter : s'.tracker.counter = s.tracker.counter)
    (hincrements : s'.increments = s.increments)
    (hborn : ∀ x, (s'.request x).born = (s.request x).born)
    (hticket : ∀ x, (s'.request x).ticket = (s.request x).ticket)
    (hphase : ∀ x, (s'.request x).phase = (s.request x).phase ∨
      ∃ k, (s.request x).phase.id? = some k ∧ (s'.request x).phase.id? = some k) :
    Numbering s' := by
  have hstarted (x : Nat) (hx : (s'.request x).phase ≠ .idle) : (s.request x).phase ≠ .idle := by
    rcases hphase x with heq | ⟨k, hk, -⟩
    · rwa [heq] at hx
    · intro hidle; simp [hidle, Phase.id?] at hk
  refine ⟨by rw [hcounter, hincrements]; exact h.counter, fun r hr => ?_, fun r hr => ?_,
    fun r k hk => ?_, fun r r' hr hr' heq => ?_⟩
  · rw [hborn, hticket, hincrements]
    exact h.started r (hstarted r hr)
  · rw [hborn]
    rcases hphase r with heq | ⟨k, -, hk⟩
    · exact h.skipping r (heq ▸ hr)
    · simp [hr, Phase.id?] at hk
  · rw [hticket]
    rcases hphase r with heq | ⟨j, hj, hj'⟩
    · exact h.id r k (heq ▸ hk)
    · exact h.id r k (hj.trans (hj'.symm.trans hk))
  · rw [hticket, hticket] at heq
    exact h.distinct r r' (hstarted r hr) (hstarted r' hr') heq

/-- A request gets the next number. -/
theorem Numbering.number {q : Request} (h : Numbering s) (hticket : q.ticket = s.increments + 1)
    (hborn : q.born ≤ q.ticket) (hskip : q.phase = .skippingZero → q.born % 2 ^ 32 = 0)
    (hid : ∀ k, q.phase.id? = some k → k = s.tracker.nextId) :
    Numbering ({ s with tracker := s.tracker.increment, increments := s.increments + 1 }.update r
      fun _ => q) := by
  have hnext := h.toNat_nextId
  -- nobody has the new ticket yet
  have hfresh (x : Nat) (hx : (s.request x).phase ≠ .idle) : (s.request x).ticket ≠ q.ticket := by
    have hle := (h.started x hx).2
    omega
  constructor
  case counter => simpa [RequestTracker.nextId] using hnext
  all_goals simp only [request_update, increments_update]
  case started =>
    intro x hx
    split at hx
    next heq =>
      rw [if_pos heq]
      omega
    next hne =>
      rw [if_neg hne]
      have hle := h.started x hx
      omega
  case skipping =>
    intro x hx
    split at hx
    next heq => rw [if_pos heq]; exact hskip hx
    next hne => rw [if_neg hne]; exact h.skipping x hx
  case id =>
    intro x k hk
    split at hk
    next heq => rw [if_pos heq, hid k hk, hticket, hnext]
    next hne => rw [if_neg hne]; exact h.id x k hk
  case distinct =>
    intro x y hx hy
    split at hx <;> split at hy
    next hxr hyr => rw [hxr, hyr]; exact fun _ => rfl
    next hxr hyr => rw [if_pos hxr, if_neg hyr]; exact fun heq => absurd heq.symm (hfresh y hy)
    next hxr hyr => rw [if_neg hxr, if_pos hyr]; exact fun heq => absurd heq (hfresh x hx)
    next hxr hyr => rw [if_neg hxr, if_neg hyr]; exact h.distinct x y hx hy

/-- A request that has its id goes on with it. -/
theorem Numbering.update {p : Phase} (h : Numbering s) (hid : (s.request r).phase.id? = some k)
    (hid' : p.id? = some k) : Numbering (s.update r fun q => { q with phase := p }) := by
  refine h.keep rfl rfl (fun x => ?_) (fun x => ?_) (fun x => ?_) <;> rw [request_update] <;> split
  next hx => rw [hx]
  next => rfl
  next hx => rw [hx]
  next => rfl
  next hx => rw [hx]; exact .inr ⟨k, hid, hid'⟩
  next => exact .inl rfl

theorem Numbering.step (h : Numbering s) (hs : Step s a s') : Numbering s' := by
  cases hs with
  | @increment r hp =>
      refine h.number rfl (Nat.le_refl _) (fun hskip => ?_) fun k hk => ?_
      · simp only at hskip
        split at hskip
        next hzero =>
          have hnext := h.toNat_nextId
          rw [hzero] at hnext
          exact hnext.symm
        next => contradiction
      · simp only at hk
        split at hk
        next => contradiction
        next => exact (Option.some.inj hk).symm
  | @incrementAgain r hp =>
      refine h.number rfl ?_ nofun fun k hk => (Option.some.inj hk).symm
      have hle := h.started r (by simp [hp])
      simp only
      omega
  | @insert r id hp =>
      refine h.keep rfl (increments_insert s r id) (fun x => ?_) (fun x => ?_) fun x => ?_ <;>
        rw [request_insert]
      split
      next hx => rw [hx, hp]; exact .inr ⟨id, rfl, rfl⟩
      next => exact .inl rfl
  | resolve id payload =>
      refine h.keep (counter_resolve s id payload) (increments_resolve s id payload) (fun x => ?_)
        (fun x => ?_) fun x => ?_ <;> rw [request_resolve]
      exact .inl rfl
  | clear =>
      refine h.keep rfl rfl (fun x => ?_) (fun x => ?_) fun x => ?_ <;> rw [request_clear]
      exact .inl rfl
  | receive hp hrx => exact h.update (by rw [hp]; rfl) rfl
  | senderDropped hp hrx => exact h.update (by rw [hp]; rfl) rfl
  | timeout hp => exact h.update (by rw [hp]; rfl) rfl
  | @cleanup r id err hp =>
      refine h.keep rfl (increments_cleanup s r id err) (fun x => ?_) (fun x => ?_) fun x => ?_ <;>
        rw [request_cleanup]
      split
      next hx => rw [hx, hp]; exact .inr ⟨id, rfl, rfl⟩
      next => exact .inl rfl

end Oxicast.Requests
