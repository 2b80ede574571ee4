import Oxicast.Transition
import Oxicast.Types
import Mathlib.Logic.Function.Basic

/-!
# Oxicast.Tracker

Request-response correlation: `RequestTracker` and the calls that run on it.

`RequestTracker` is the shared data: the `u32` counter and the map of pending
oneshot senders.  The sender that request `r` put into the map is written `r`.

`Requests` adds the calls in flight.  Each request is one `register` followed
by one `wait_for`; a step is what happens between two points where another
task may run, so the counter increment, the map insert, the end of the wait
and its cleanup are separate actions, freely interleaved with `resolve` and
`clear`:

```
idle ─increment─▸ allocated ─insert─▸ registered ─receive────────────▸ returned (Ok v)
  └──(id = 0)──▸ skippingZero ─┘          └─dropped/timeout─▸ cleanup ─▸ returned (Err e)
```

A caller that drops its future is a request that takes no further step.
-/

namespace Oxicast

/-- `RequestTracker`: the id counter and the pending map. -/
structure RequestTracker where
  counter : UInt32
  pending : UInt32 → Option Nat

namespace RequestTracker

/-- `RequestTracker::new`. -/
def new : RequestTracker := ⟨0, fun _ => none⟩

/-- The id one increment hands out: `fetch_add(1).wrapping_add(1)`. -/
def nextId (t : RequestTracker) : UInt32 := t.counter + 1

/-- `counter.fetch_add(1)`. -/
def increment (t : RequestTracker) : RequestTracker := { t with counter := t.counter + 1 }

/-- `pending.insert(id, tx)`. -/
def insert (t : RequestTracker) (id : UInt32) (tx : Nat) : RequestTracker :=
  { t with pending := Function.update t.pending id (some tx) }

/-- `pending.remove(&id)`. -/
def remove (t : RequestTracker) (id : UInt32) : RequestTracker :=
  { t with pending := Function.update t.pending id none }

/-- `pending.clear()`. -/
def clear (t : RequestTracker) : RequestTracker := { t with pending := fun _ => none }

@[simp, grind =] theorem counter_increment (t : RequestTracker) :
    t.increment.counter = t.counter + 1 := rfl
@[simp, grind =] theorem counter_remove (t : RequestTracker) (id : UInt32) :
    (t.remove id).counter = t.counter := rfl
@[simp, grind =] theorem pending_clear (t : RequestTracker) (k : UInt32) :
    t.clear.pending k = none := rfl

@[grind =] theorem pending_insert (t : RequestTracker) (id k : UInt32) (tx : Nat) :
    (t.insert id tx).pending k = if k = id then some tx else t.pending k := by
  simp [insert, Function.update_apply]

@[grind =] theorem pending_remove (t : RequestTracker) (id k : UInt32) :
    (t.remove id).pending k = if k = id then none else t.pending k := by
  simp [remove, Function.update_apply]

end RequestTracker

/-! ## calls in flight -/

/-- The receiving end of a request's oneshot channel.  `sent n v`: the `n`-th
`resolve` call put the payload `v` in; `closed`: the sender was dropped. -/
inductive Oneshot where
  | empty
  | sent (call : Nat) (payload : Json)
  | closed

/-- The channel after its sender is dropped: a payload already sent stays. -/
def Oneshot.dropTx : Oneshot → Oneshot
  | .empty => .closed
  | rx => rx

@[simp, grind .] theorem Oneshot.dropTx_ne_empty (rx : Oneshot) : rx.dropTx ≠ .empty := by
  cases rx <;> simp [dropTx]

@[simp, grind =] theorem Oneshot.dropTx_eq_sent (rx : Oneshot) (n : Nat) (v : Json) :
    rx.dropTx = .sent n v ↔ rx = .sent n v := by
  cases rx <;> simp [dropTx]

/-- Where a request stands, from `register` to the end of `wait_for`. -/
inductive Phase where
  | idle
  /-- the first increment gave 0, the second one is to come -/
  | skippingZero
  /-- `register` waits for the map's lock to insert -/
  | allocated (id : UInt32)
  /-- inserted; the message is being sent or `wait_for` is waiting -/
  | registered (id : UInt32)
  /-- `wait_for` waits for the map's lock to remove its entry -/
  | cleanup (id : UInt32) (err : Error)
  | returned (id : UInt32) (result : Except Error Json)

namespace Phase

/-- The id the request has been given. -/
def id? : Phase → Option UInt32
  | .idle | .skippingZero => none
  | .allocated id | .registered id | .cleanup id _ | .returned id _ => some id

/-- The id under which the request has inserted its sender. -/
def inserted? : Phase → Option UInt32
  | .idle | .skippingZero | .allocated _ => none
  | .registered id | .cleanup id _ | .returned id _ => some id

/-- The id under which the request may still have a sender in the map. -/
def filed? : Phase → Option UInt32
  | .registered id | .cleanup id _ => some id
  | _ => none

/-- A request is live from its first increment until its `wait_for` returns. -/
def Live : Phase → Prop
  | .idle | .returned _ _ => False
  | _ => True

/-- A filed sender was inserted under the same id. -/
@[grind →] theorem inserted?_of_filed? {p : Phase} {id : UInt32} (h : p.filed? = some id) :
    p.inserted? = some id := by
  cases p <;> simp_all [filed?, inserted?]

end Phase

/-- One request.  `born`, `ticket` and `answers` are history variables no step
reads: the number of increments when the request started and when it got its
id, and the payloads of all `resolve` calls made with its id since its insert. -/
structure Request where
  phase : Phase
  rx : Oneshot
  born : Nat
  ticket : Nat
  answers : List Json

/-- A request nobody has started. -/
def Request.fresh : Request := ⟨.idle, .empty, 0, 0, []⟩

/-- The tracker together with all requests.  `increments` and `resolves` count
the increments and the `resolve` calls so far. -/
structure Requests where
  tracker : RequestTracker
  request : Nat → Request
  increments : Nat
  resolves : Nat

namespace Requests

/-- No request yet. -/
def new : Requests := ⟨.new, fun _ => .fresh, 0, 0⟩

/-- Change one request. -/
def update (s : Requests) (r : Nat) (f : Request → Request) : Requests :=
  { s with request := Function.update s.request r (f (s.request r)) }

/-- Drop a oneshot sender that is taken out of the map or replaced in it. -/
def dropSender (s : Requests) : Option Nat → Requests
  | none => s
  | some r => s.update r fun q => { q with rx := q.rx.dropTx }

/-- `register`, first increment. -/
def beginRegister (s : Requests) (r : Nat) : Requests :=
  let id := s.tracker.nextId
  { s with tracker := s.tracker.increment, increments := s.increments + 1 }.update r fun q =>
    { q with
      phase := if id = 0 then .skippingZero else .allocated id
      born := s.increments + 1
      ticket := s.increments + 1 }

/-- `register`, second increment: the first one gave 0. -/
def skipZero (s : Requests) (r : Nat) : Requests :=
  { s with tracker := s.tracker.increment, increments := s.increments + 1 }.update r fun q =>
    { q with phase := .allocated s.tracker.nextId, ticket := s.increments + 1 }

/-- `register`, the insert; a sender already filed under the id is dropped. -/
def insert (s : Requests) (r : Nat) (id : UInt32) : Requests :=
  let s' := s.dropSender (s.tracker.pending id)
  { s' with tracker := s.tracker.insert id r }.update r fun q => { q with phase := .registered id }

/-- Note a `resolve` call in the history of the requests it is addressed to. -/
def noteAnswer (s : Requests) (id : UInt32) (payload : Json) : Requests :=
  { s with
    resolves := s.resolves + 1
    request := fun r =>
      let q := s.request r
      if q.phase.inserted? = some id then { q with answers := q.answers ++ [payload] } else q }

/-- `resolve`: take the sender out of the map and send the payload.  The result
is `true` when there was one. -/
def resolve (s : Requests) (id : UInt32) (payload : Json) : Bool × Requests :=
  match s.tracker.pending id with
  | none => (false, s.noteAnswer id payload)
  | some r => (true, ({ s.noteAnswer id payload with tracker := s.tracker.remove id }).update r
      fun q => { q with rx := .sent s.resolves payload })

/-- The request's sender is in the map. -/
def Holds (s : Requests) (r : Nat) : Prop :=
  ∃ id, (s.request r).phase.inserted? = some id ∧ s.tracker.pending id = some r

instance (s : Requests) (r : Nat) : Decidable (s.Holds r) :=
  match h : (s.request r).phase.inserted? with
  | none => isFalse (by simp [Holds, h])
  | some id => decidable_of_iff (s.tracker.pending id = some r) (by simp [Holds, h])

/-- `clear`: every pending sender is dropped. -/
def clear (s : Requests) : Requests :=
  { s with
    tracker := s.tracker.clear
    request := fun r =>
      let q := s.request r
      if s.Holds r then { q with rx := q.rx.dropTx } else q }

/-- `wait_for`, after a dropped sender or a timeout: remove the entry, if any. -/
def cleanup (s : Requests) (r : Nat) (id : UInt32) (err : Error) : Requests :=
  let s' := s.dropSender (s.tracker.pending id)
  { s' with tracker := s.tracker.remove id }.update r fun q =>
    { q with phase := .returned id (.error err) }

end Requests

/-- What can happen next; `r` is the request that takes the step. -/
inductive TrackerAct where
  | increment (r : Nat)
  | incrementAgain (r : Nat)
  | insert (r : Nat)
  | resolve (id : UInt32) (payload : Json)
  | clear
  | receive (r : Nat)
  | senderDropped (r : Nat)
  | timeout (r : Nat)
  | cleanup (r : Nat)

/-- The request a step belongs to. -/
def TrackerAct.request? : TrackerAct → Option Nat
  | .increment r | .incrementAgain r | .insert r | .receive r | .senderDropped r | .timeout r
  | .cleanup r => some r
  | .resolve _ _ | .clear => none

namespace Requests

/-- One step of any of the calls.  A timeout may win against a payload that
arrives at the same moment, so it is enabled whatever the channel holds. -/
def step (s : Requests) : TrackerAct → Option Requests
  | .increment r =>
      match (s.request r).phase with
      | .idle => some (s.beginRegister r)
      | _ => none
  | .incrementAgain r =>
      match (s.request r).phase with
      | .skippingZero => some (s.skipZero r)
      | _ => none
  | .insert r =>
      match (s.request r).phase with
      | .allocated id => some (s.insert r id)
      | _ => none
  | .resolve id payload => some (s.resolve id payload).2
  | .clear => some s.clear
  | .receive r =>
      match (s.request r).phase, (s.request r).rx with
      | .registered id, .sent _ v =>
          some (s.update r fun q => { q with phase := .returned id (.ok v) })
      | _, _ => none
  | .senderDropped r =>
      match (s.request r).phase, (s.request r).rx with
      | .registered id, .closed =>
          some (s.update r fun q => { q with phase := .cleanup id .disconnected })
      | _, _ => none
  | .timeout r =>
      match (s.request r).phase with
      | .registered id => some (s.update r fun q => { q with phase := .cleanup id .timeout })
      | _ => none
  | .cleanup r =>
      match (s.request r).phase with
      | .cleanup id err => some (s.cleanup r id err)
      | _ => none

/-- All interleavings of `register`, `resolve`, `wait_for` and `clear`. -/
def system : TransitionSystem Requests TrackerAct := ⟨.new, step⟩

end Requests

end Oxicast
