import Mathlib.Data.List.Basic

/-!
# Oxicast.Channels

The asynchronous channels the client is built on, as values:

* `Watch` — a single overwritable cell that keeps the latest value and a
  version number; a receiver remembers the version it has last seen;
* `Mpsc` — a bounded queue with a non-blocking `trySend` that drops the item
  when the buffer is full, and a `recv` that reports the end of the stream
  once the buffer is empty and no sender is left;
* `Backlog` — a bounded queue whose senders wait for room, first come first
  served.
-/

namespace Oxicast

variable {α : Type*}

/-! ## watch channel -/

/-- A watch channel: the latest value and the number of sends so far. -/
structure Watch (α : Type*) where
  value : α
  version : Nat

namespace Watch

/-- Overwrite the value; every send is a new version. -/
def send (w : Watch α) (a : α) : Watch α := ⟨a, w.version + 1⟩

/-- `changed()` is ready: the receiver has not seen the current version. -/
def Changed (w : Watch α) (seen : Nat) : Prop := w.version ≠ seen

instance (w : Watch α) (seen : Nat) : Decidable (w.Changed seen) :=
  inferInstanceAs (Decidable (w.version ≠ seen))

@[simp, grind =] theorem value_send (w : Watch α) (a : α) : (w.send a).value = a := rfl

@[simp, grind =] theorem version_send (w : Watch α) (a : α) :
    (w.send a).version = w.version + 1 := rfl

end Watch

/-! ## bounded queue -/

/-- What one poll of `recv` reports. -/
inductive Recv (α : Type*) where
  | item (a : α)
  | closed
  | pending
  deriving DecidableEq

/-- A bounded multi-producer, single-consumer queue. -/
structure Mpsc (α : Type*) where
  buffer : List α
  capacity : Nat

namespace Mpsc

/-- `try_send`: append the item, or drop it when the buffer is full. -/
def trySend (q : Mpsc α) (a : α) : Mpsc α :=
  if q.buffer.length < q.capacity then { q with buffer := q.buffer ++ [a] } else q

/-- One poll of `recv`; `senders` tells whether a sender is left. -/
def recv (q : Mpsc α) (senders : Bool) : Recv α × Mpsc α :=
  match q.buffer with
  | a :: rest => (.item a, { q with buffer := rest })
  | [] => (if senders then .pending else .closed, q)

/-- The results of `n` successive polls with the senders unchanged. -/
def polls (q : Mpsc α) (senders : Bool) : Nat → List (Recv α)
  | 0 => []
  | n + 1 => (q.recv senders).1 :: (q.recv senders).2.polls senders n

/-- Without a sender the queue drains its buffer and then reports its end. -/
theorem polls_drain (q : Mpsc α) :
    q.polls false (q.buffer.length + 1) = q.buffer.map .item ++ [.closed] := by
  obtain ⟨buffer, capacity⟩ := q
  induction buffer with
  | nil => rfl
  | cons a rest ih => simpa [polls, recv] using ih

end Mpsc

/-! ## bounded queue with waiting senders -/

/-- A bounded queue and the senders `ω` that wait for room in it, each with its
item.  Nobody waits while there is room. -/
structure Backlog (capacity : Nat) (α ω : Type*) where
  buffer : List α
  waiting : List (ω × α)
  bounded : buffer.length ≤ capacity
  full : waiting ≠ [] → buffer.length = capacity

namespace Backlog

variable {capacity : Nat} {ω : Type*}

def empty : Backlog capacity α ω := ⟨[], [], Nat.zero_le _, fun h => absurd rfl h⟩

/-- There is room for one more item. -/
def Room (q : Backlog capacity α ω) : Prop := q.buffer.length < capacity

instance (q : Backlog capacity α ω) : Decidable q.Room :=
  inferInstanceAs (Decidable (q.buffer.length < capacity))

theorem Room.nobody_waits {q : Backlog capacity α ω} (h : q.Room) : q.waiting = [] := by
  by_contra hw
  have hfull := q.full hw
  have hroom : q.buffer.length < capacity := h
  omega

/-- `send`: append the item, or wait behind those who wait already. -/
def send (q : Backlog capacity α ω) (who : ω) (a : α) : Backlog capacity α ω :=
  if h : q.Room then
    { q with
      buffer := q.buffer ++ [a]
      bounded := by rw [List.length_append]; exact h
      full := fun hw => absurd h.nobody_waits hw }
  else
    { q with
      waiting := q.waiting ++ [(who, a)]
      full := fun _ => Nat.le_antisymm q.bounded (Nat.le_of_not_lt h) }

/-- `recv`: the first item, and the sender whose item takes the place it leaves. -/
def recv (q : Backlog capacity α ω) : Option (α × Option ω × Backlog capacity α ω) :=
  match hb : q.buffer, hw : q.waiting with
  | [], _ => none
  | a :: rest, [] =>
      some (a, none,
        { q with
          buffer := rest
          bounded := Nat.le_of_succ_le (by simpa [hb] using q.bounded)
          full := fun h => absurd hw h })
  | a :: rest, (who, b) :: others =>
      some (a, some who,
        { buffer := rest ++ [b]
          waiting := others
          bounded := by simpa [hb] using q.bounded
          full := fun _ => by simpa [hb] using q.full (by simp [hw]) })

/-- A sender gives up. -/
def forget [DecidableEq ω] (q : Backlog capacity α ω) (who : ω) : Backlog capacity α ω :=
  { q with
    waiting := q.waiting.filter (·.1 ≠ who)
    full := fun h => q.full fun hnil => h (by simp [hnil]) }

theorem waiting_send_of_full {q : Backlog capacity α ω} (h : ¬ q.Room) (who : ω) (a : α) :
    (q.send who a).waiting = q.waiting ++ [(who, a)] := by
  simp [send, h]

/-- Whoever waits goes on waiting when another one sends. -/
theorem mem_waiting_send {q : Backlog capacity α ω} {x : ω × α} (h : x ∈ q.waiting) (who : ω)
    (a : α) :
    x ∈ (q.send who a).waiting := by
  unfold send
  split
  next => exact h
  next => exact List.mem_append_left _ h

/-- Of those who wait only the resumed one stops waiting. -/
theorem mem_waiting_recv {q q' : Backlog capacity α ω} {a : α} {resumed : Option ω} {x : ω × α}
    (hr : q.recv = some (a, resumed, q')) (h : x ∈ q.waiting) :
    resumed = some x.1 ∨ x ∈ q'.waiting := by
  unfold recv at hr
  split at hr
  next => contradiction
  next hw =>
    rw [hw] at h
    contradiction
  next rest who b others hb hw =>
    obtain ⟨-, rfl, rfl⟩ := by simpa using hr
    rw [hw] at h
    rcases List.mem_cons.1 h with rfl | h
    · exact .inl rfl
    · exact .inr h

theorem mem_waiting_forget [DecidableEq ω] {q : Backlog capacity α ω} {x : ω × α} {who : ω}
    (h : x ∈ q.waiting) (hne : x.1 ≠ who) : x ∈ (q.forget who).waiting := by
  simp [forget, h, hne]

/-- With room an item gets its place at once. -/
theorem send_of_room {q : Backlog capacity α ω} (h : q.Room) (who : ω) (a : α) :
    (q.send who a).buffer = q.buffer ++ [a] ∧ (q.send who a).waiting = [] := by
  simp [send, h, h.nobody_waits]

theorem buffer_send_of_full {q : Backlog capacity α ω} (h : ¬ q.Room) (who : ω) (a : α) :
    (q.send who a).buffer = q.buffer := by
  simp [send, h]

/-- The first item goes, and the first of those who wait gets a place. -/
theorem recv_eq {q q' : Backlog capacity α ω} {a : α} {resumed : Option ω}
    (hr : q.recv = some (a, resumed, q')) :
    ∃ rest, q.buffer = a :: rest ∧ q'.buffer = rest ++ q.waiting.head?.toList.map (·.2) ∧
      q'.waiting = q.waiting.tail := by
  unfold recv at hr
  split at hr
  next => contradiction
  next rest hb hw =>
    obtain ⟨rfl, -, rfl⟩ := by simpa using hr
    exact ⟨rest, hb, by simp [hw], by simp [hw]⟩
  next rest who b others hb hw =>
    obtain ⟨rfl, -, rfl⟩ := by simpa using hr
    exact ⟨rest, hb, by simp [hw], by simp [hw]⟩

/-- The sender that goes on is the first of those who wait. -/
theorem resumed_eq {q q' : Backlog capacity α ω} {a : α} {resumed : Option ω}
    (hr : q.recv = some (a, resumed, q')) : resumed = q.waiting.head?.map (·.1) := by
  unfold recv at hr
  split at hr
  next => contradiction
  next rest hb hw =>
    obtain ⟨-, rfl, -⟩ := by simpa using hr
    rw [hw]
    rfl
  next rest who b others hb hw =>
    obtain ⟨-, rfl, -⟩ := by simpa using hr
    rw [hw]
    rfl

theorem buffer_of_recv_none {q : Backlog capacity α ω} (hr : q.recv = none) : q.buffer = [] := by
  unfold recv at hr
  split at hr
  next hb => exact hb
  next => contradiction
  next => contradiction

/-- Nobody waits for an empty queue. -/
theorem waiting_of_empty {q : Backlog capacity α ω} (hpos : 0 < capacity) (h : q.buffer = []) :
    q.waiting = [] := by
  have hroom : q.Room := by rw [Room, h]; exact hpos
  exact hroom.nobody_waits

end Backlog

/-! ## places -/

section Places

variable {p q : α → Bool} {k : Nat} {l m : List α}

/-- The place of the `k`-th item of a kind is not changed by what follows, -/
theorem findIdxNth_append (h : k < l.countP p) : (l ++ m).findIdxNth p k = l.findIdxNth p k := by
  induction l generalizing k with
  | nil => simp at h
  | cons a l ih =>
      rw [List.countP_cons] at h
      rw [List.cons_append]
      cases ha : p a with
      | true =>
          rw [ha, if_pos rfl] at h
          rw [List.findIdxNth_cons_of_pos ha, List.findIdxNth_cons_of_pos ha]
          split
          · rfl
          · rw [ih (by omega)]
      | false =>
          rw [ha, if_neg (by simp)] at h
          rw [List.findIdxNth_cons_of_neg ha, List.findIdxNth_cons_of_neg ha, ih h]

/-- is behind what has too few of the kind, -/
theorem length_le_findIdxNth (h : l.countP p ≤ k) : l.length ≤ (l ++ m).findIdxNth p k := by
  induction l generalizing k with
  | nil => exact Nat.zero_le _
  | cons a l ih =>
      rw [List.countP_cons] at h
      rw [List.cons_append, List.length_cons]
      cases ha : p a with
      | true =>
          rw [ha, if_pos rfl] at h
          rw [List.findIdxNth_cons_of_pos ha, if_neg (by omega)]
          exact Nat.succ_le_succ (ih (by omega))
      | false =>
          rw [ha, if_neg (by simp)] at h
          rw [List.findIdxNth_cons_of_neg ha]
          exact Nat.succ_le_succ (ih h)

theorem findIdxNth_cons_mono {a : α} (h : ∀ k, l.findIdxNth p k ≤ m.findIdxNth p k) :
    (a :: l).findIdxNth p k ≤ (a :: m).findIdxNth p k := by
  rw [List.findIdxNth_cons, List.findIdxNth_cons]
  split_ifs
  · exact Nat.le_refl _
  · exact Nat.succ_le_succ (h 0)
  · exact Nat.succ_le_succ (h (k - 1))
  · exact Nat.succ_le_succ (h k)

/-- and comes closer when others leave. -/
theorem findIdxNth_filter_le (h : ∀ a, p a = true → q a = true) :
    (l ++ m.filter q).findIdxNth p k ≤ (l ++ m).findIdxNth p k := by
  induction l generalizing k with
  | nil =>
      rw [List.nil_append, List.nil_append]
      induction m generalizing k with
      | nil => exact Nat.le_refl _
      | cons a m ih =>
          rw [List.filter_cons]
          split
          next => exact findIdxNth_cons_mono fun k => ih
          next hq =>
            have ha : p a = false := Bool.eq_false_iff.2 fun hp => hq (h a hp)
            rw [List.findIdxNth_cons_of_neg ha]
            exact Nat.le_succ_of_le ih
  | cons a l ih => exact findIdxNth_cons_mono fun k => ih

end Places
end Oxicast
