import Oxicast.Discovery
import Oxicast.Scan

/-!
# Oxicast.Discovery.Report

Which services a discovery reports.

The loop keeps the events whose address it has not seen (`reported`), a device
list should have one device for each service instance (`instances`).  The two
agree exactly when every instance with an address is the first to show some
address and new addresses come up in the order of the instances
(`OneAddressEach`): one address each, nobody else's.
-/

namespace Oxicast

variable {deliveries : List Delivery} {events : List ServiceInfo} {info : ServiceInfo}

/-! ## what the loop reports -/

/-- The services resolved before the deadline and the end of the browser. -/
def resolvedIn : List Delivery → List ServiceInfo
  | [] => []
  | .resolved info :: rest => info :: resolvedIn rest
  | .other :: rest => resolvedIn rest
  | .timeout :: rest => resolvedIn rest
  | .disconnected :: _ => []

/-- The events a device is made of: those that show a new address. -/
def reported (events : List ServiceInfo) : List ServiceInfo := firsts ServiceInfo.address events

/-- The device an event is reported as. -/
def ServiceInfo.found (info : ServiceInfo) : Option DeviceInfo := info.address.map info.device

/-- The loop has been through the events `pre`. -/
structure Scanned (pre : List ServiceInfo) (found : Found) : Prop where
  seen : ∀ ip, ip ∈ found.seen ↔ ∃ e ∈ pre, e.address = some ip
  devices : found.devices = (reported pre).filterMap ServiceInfo.found

theorem Scanned.skip {pre : List ServiceInfo} {found : Found} (h : Scanned pre found)
    (hold : ∀ ip, info.address = some ip → ip ∈ found.seen) : Scanned (pre ++ [info]) found := by
  have hnew : ¬ New ServiceInfo.address pre info := by
    rintro ⟨ip, hip, hpre⟩
    obtain ⟨e, he, hkey⟩ := (h.seen ip).1 (hold ip hip)
    exact hpre e he hkey
  constructor
  · intro ip
    rw [h.seen]
    constructor
    · rintro ⟨e, he, hip⟩
      exact ⟨e, List.mem_append_left _ he, hip⟩
    · rintro ⟨e, he, hip⟩
      rcases List.mem_append.1 he with he | he
      · exact ⟨e, he, hip⟩
      · obtain rfl := List.mem_singleton.1 he
        exact (h.seen ip).1 (hold ip hip)
  · rw [h.devices, reported, reported, firsts_snoc_of_not_new hnew]

theorem Scanned.report {pre : List ServiceInfo} {found : Found} {ip : Ipv4Addr}
    (h : Scanned pre found)
    (hip : info.address = some ip) (hnew : ip ∉ found.seen) :
    Scanned (pre ++ [info]) ⟨ip :: found.seen, found.devices ++ [info.device ip]⟩ := by
  have hkey : New ServiceInfo.address pre info :=
    ⟨ip, hip, fun e he heq => hnew ((h.seen ip).2 ⟨e, he, heq⟩)⟩
  constructor
  · intro other
    rw [List.mem_cons, h.seen]
    constructor
    · rintro (rfl | ⟨e, he, heq⟩)
      · exact ⟨info, by simp, hip⟩
      · exact ⟨e, List.mem_append_left _ he, heq⟩
    · rintro ⟨e, he, heq⟩
      rcases List.mem_append.1 he with he | he
      · exact .inr ⟨e, he, heq⟩
      · obtain rfl := List.mem_singleton.1 he
        rw [hip] at heq
        exact .inl (Option.some.inj heq).symm
  · simp [h.devices, reported, firsts_snoc_of_new hkey, List.filterMap_append,
      ServiceInfo.found, hip]

/-- The loop goes through everything that is resolved. -/
theorem Scanned.scan {pre : List ServiceInfo} {found : Found} (h : Scanned pre found) :
    Scanned (pre ++ resolvedIn deliveries) (scan found deliveries) := by
  induction deliveries generalizing pre found with
  | nil => simpa [resolvedIn, Oxicast.scan] using h
  | cons delivery rest ih =>
      cases delivery with
      | other | timeout => exact ih h
      | disconnected => simpa [resolvedIn, Oxicast.scan] using h
      | resolved info =>
          rw [resolvedIn, ← List.singleton_append, ← List.append_assoc, Oxicast.scan]
          cases hip : info.address with
          | none => exact ih (h.skip fun ip hsome => by simp [hip] at hsome)
          | some ip =>
              simp only
              split
              · next hseen =>
                refine ih (h.skip fun other hsome => ?_)
                obtain rfl := Option.some.inj (hip.symm.trans hsome)
                exact hseen
              · next hnew => exact ih (h.report hip hnew)

theorem discoverBlocking_eq (deliveries : List Delivery) :
    discoverBlocking deliveries =
      (reported (resolvedIn deliveries)).filterMap ServiceInfo.found := by
  have hstart : Scanned [] ⟨[], []⟩ := ⟨by simp, rfl⟩
  exact hstart.scan.devices

/-! ## the stream -/

namespace Streaming

open TransitionSystem

variable {s s' : Streaming} {a : StreamAct}

/-- The device the task is sending. -/
def pending (s : Streaming) : List DeviceInfo :=
  match s.pc with
  | .sending device => [device]
  | _ => []

/-- What the task is still to go through. -/
def left (s : Streaming) : List Delivery := if s.pc = .ended then [] else s.deliveries

/-- What the stream has come to, and will. -/
def total (s : Streaming) : List DeviceInfo :=
  (scan ⟨s.seen, s.received ++ s.buffer ++ s.pending⟩ s.left).devices

inductive Step (s : Streaming) : StreamAct → Streaming → Prop
  | poll (hpc : s.pc = .polling) : Step s .poll s.poll
  | send {device : DeviceInfo} (hpc : s.pc = .sending device) (hopen : s.dropped = false)
      (hroom : s.buffer.length < streamCapacity) :
      Step s .send { s with buffer := s.buffer ++ [device], pc := .polling }
  | sendFailed {device : DeviceInfo} (hpc : s.pc = .sending device) (hdropped : s.dropped = true) :
      Step s .sendFailed { s with pc := .ended }
  | recv {device : DeviceInfo} {rest : List DeviceInfo} (hbuffer : s.buffer = device :: rest)
      (hopen : s.dropped = false) :
      Step s .recv { s with buffer := rest, received := s.received ++ [device] }
  | drop (hopen : s.dropped = false) : Step s .drop { s with dropped := true, buffer := [] }

theorem step_cases (h : s.step a = some s') : Step s a s' := by
  cases a with
  | poll =>
      simp only [step] at h
      split at h
      next hpc => cases h; exact .poll hpc
      next => contradiction
  | send =>
      simp only [step] at h
      split at h
      next device hpc => obtain ⟨⟨hopen, hroom⟩, rfl⟩ := of_if h; exact .send hpc hopen hroom
      next => contradiction
  | sendFailed =>
      simp only [step] at h
      split at h
      next device hpc => obtain ⟨hdropped, rfl⟩ := of_if h; exact .sendFailed hpc hdropped
      next => contradiction
  | recv =>
      simp only [step] at h
      split at h
      next device rest hbuffer =>
        split at h
        next => contradiction
        next hopen => cases h; exact .recv hbuffer (by simpa using hopen)
      next => contradiction
  | drop =>
      simp only [step] at h
      split at h
      next => contradiction
      next hopen => cases h; exact .drop (by simpa using hopen)

theorem Step.enabled (h : Step s a s') : s.step a = some s' := by
  cases h with
  | poll hpc => simp [step, hpc]
  | send hpc hopen hroom => simp [step, hpc, hopen, hroom]
  | sendFailed hpc hdropped => simp [step, hpc, hdropped]
  | recv hbuffer hopen => simp [step, hbuffer, hopen]
  | drop hopen => simp [step, hopen]

/-- A round of the loop is a round of the blocking scan. -/
theorem total_poll (hpc : s.pc = .polling) : s.poll.total = s.total := by
  unfold poll
  split
  next hd => simp [total, left, pending, hpc, hd, scan]
  next info rest hd =>
    split
    next hip => simp [total, left, pending, hpc, hd, scan, hip]
    next ip hip =>
      split
      next hseen => simp [total, left, pending, hpc, hd, scan, hip, hseen]
      next hnew => simp [total, left, pending, hpc, hd, scan, hip, hnew]
  next rest hd => simp [total, left, pending, hpc, hd, scan]
  next rest hd => simp [total, left, pending, hpc, hd, scan]
  next rest hd => simp [total, left, pending, hpc, hd, scan]

theorem dropped_poll (s : Streaming) : s.poll.dropped = s.dropped := by
  unfold poll
  repeat' split
  all_goals rfl

/-- The consumer keeps its stream, and what the stream comes to stays. -/
structure Conserves (devices : List DeviceInfo) (s : Streaming) : Prop where
  opened : s.dropped = false
  conserved : s.total = devices

theorem Conserves.step {devices : List DeviceInfo} (h : Conserves devices s) (hkeep : a ≠ .drop)
    (hs : Step s a s') : Conserves devices s' := by
  cases hs with
  | poll hpc => exact ⟨(dropped_poll s).trans h.opened, (total_poll hpc).trans h.conserved⟩
  | @send device hpc hopen hroom =>
      refine ⟨hopen, ?_⟩
      rw [← h.conserved]
      simp [total, pending, left, hpc]
  | sendFailed hpc hdropped =>
      rw [h.opened] at hdropped
      contradiction
  | @recv device rest hbuffer hopen =>
      refine ⟨hopen, ?_⟩
      rw [← h.conserved]
      simp [total, pending, left, hbuffer]
  | drop => contradiction

theorem conserves_of_run (h : (system deliveries).Run Keeps (start deliveries) s) :
    Conserves (discoverBlocking deliveries) s :=
  h.invariant (I := Conserves (discoverBlocking deliveries)) ⟨rfl, rfl⟩
    fun _ _ _ hi hkeep hs => hi.step hkeep (step_cases hs)

/-- What is received in the end is everything. -/
theorem Conserves.received {devices : List DeviceInfo} (h : Conserves devices s)
    (hfin : s.Finished) :
    s.received = devices := by
  obtain ⟨hpc, hbuffer⟩ := hfin
  rw [← h.conserved]
  simp [total, pending, left, hpc, hbuffer, scan]

/-- What is left to do. -/
def weight (s : Streaming) : Nat :=
  4 * s.deliveries.length + (match s.pc with | .ended => 0 | .polling => 1 | .sending _ => 3) +
    s.buffer.length

theorem weight_poll (hpc : s.pc = .polling) : s.poll.weight < s.weight := by
  unfold poll
  split
  next hd => simp [weight, hpc, hd]
  next info rest hd =>
    split
    next hip => simp [weight, hpc, hd]
    next ip hip =>
      split
      next hseen => simp [weight, hpc, hd]
      next hnew => simp [weight, hpc, hd]; omega
  next rest hd => simp [weight, hpc, hd]
  next rest hd => simp [weight, hpc, hd]
  next rest hd => simp [weight, hpc, hd]

theorem weight_step (hopen : s.dropped = false) (hkeep : a ≠ .drop) (hs : Step s a s') :
    s'.weight < s.weight := by
  cases hs with
  | poll hpc => exact weight_poll hpc
  | send hpc hopen hroom => simp [weight, hpc]; omega
  | sendFailed hpc hdropped =>
      rw [hopen] at hdropped
      contradiction
  | recv hbuffer hopen => simp [weight, hbuffer]
  | drop => contradiction

/-- While the stream is not finished, the task or the consumer can go on. -/
theorem goes_on (hopen : s.dropped = false) (hnot : ¬ s.Finished) :
    ∃ a s', a ≠ .drop ∧ Step s a s' := by
  cases hbuffer : s.buffer with
  | cons device rest => exact ⟨.recv, _, by decide, .recv hbuffer hopen⟩
  | nil =>
      cases hpc : s.pc with
      | polling => exact ⟨.poll, _, by decide, .poll hpc⟩
      | sending device =>
          exact ⟨.send, _, by decide, .send hpc hopen (by simp [hbuffer, streamCapacity])⟩
      | ended => exact absurd ⟨hpc, hbuffer⟩ hnot

/-- A consumer that keeps receiving comes to the end of its stream. -/
theorem finishes (h : (system deliveries).Run Keeps (start deliveries) s) :
    ∃ y, (system deliveries).Run Keeps s y ∧ y.Finished := by
  induction hw : s.weight using Nat.strong_induction_on generalizing s with
  | _ n ih =>
      by_cases hfin : s.Finished
      · exact ⟨s, .refl, hfin⟩
      · have hopen := (conserves_of_run h).opened
        obtain ⟨a, s', hkeep, hs⟩ := goes_on hopen hfin
        have hlt := weight_step hopen hkeep hs
        have hfirst : (system deliveries).Run Keeps s s' := .tail .refl hkeep hs.enabled
        obtain ⟨y, hrun, hy⟩ := ih s'.weight (hw ▸ hlt) (h.trans hfirst) rfl
        exact ⟨y, hfirst.trans hrun, hy⟩

end Streaming

/-! ## one device for each instance -/

/-- When an instance is first resolved: its position among the events. -/
def resolvedAt (events : List ServiceInfo) (name : String) : Nat :=
  (events.map ServiceInfo.fullname).idxOf name

/-- The instances with an address, in the order in which they are first resolved. -/
def instances (events : List ServiceInfo) : List String :=
  ((firsts (some ∘ ServiceInfo.fullname) events).map ServiceInfo.fullname).filter fun name =>
    events.any fun e => e.fullname = name ∧ e.address.isSome

/-- Each instance with an address is the first to show some address, and of two
events that show a new one the earlier is of an instance resolved earlier: no
instance shows two addresses that nobody has shown before. -/
structure OneAddressEach (events : List ServiceInfo) : Prop where
  each : ∀ e ∈ events, e.address.isSome →
    ∃ pre e' post, events = pre ++ e' :: post ∧ e'.fullname = e.fullname ∧
      New ServiceInfo.address pre e'
  ordered : ∀ pre e mid e' post, events = pre ++ e :: mid ++ e' :: post →
    New ServiceInfo.address pre e → New ServiceInfo.address (pre ++ e :: mid) e' →
    resolvedAt events e.fullname < resolvedAt events e'.fullname

theorem mem_instances_iff {name : String} :
    name ∈ instances events ↔ ∃ e ∈ events, e.fullname = name ∧ e.address.isSome := by
  simp only [instances, List.mem_filter, List.any_eq_true, decide_eq_true_eq, List.mem_map]
  constructor
  · rintro ⟨-, h⟩
    exact h
  · rintro ⟨e, he, hname, haddr⟩
    refine ⟨?_, e, he, hname, haddr⟩
    obtain ⟨x, hx, hkey⟩ : ∃ x ∈ firsts (some ∘ ServiceInfo.fullname) events,
        some x.fullname = some e.fullname := exists_firsts he rfl
    exact ⟨x, hx, (Option.some.inj hkey).trans hname⟩

theorem pairwise_instances (events : List ServiceInfo) :
    (instances events).Pairwise fun a b => resolvedAt events a < resolvedAt events b := by
  refine List.Pairwise.filter _ (List.pairwise_map.2 (pairwise_firsts_iff.2 ?_))
  rintro pre b post rfl ⟨name, hname, hpre⟩ a ha
  obtain rfl := Option.some.inj hname
  have hin : a.fullname ∈ pre.map ServiceInfo.fullname :=
    List.mem_map.2 ⟨a, firsts_subset pre a ha, rfl⟩
  have hout : b.fullname ∉ pre.map ServiceInfo.fullname := by
    rintro hmem
    obtain ⟨x, hx, hkey⟩ := List.mem_map.1 hmem
    exact hpre x hx (congrArg some hkey)
  unfold resolvedAt
  rw [List.map_append, List.idxOf_append_of_mem hin, List.idxOf_append_of_notMem hout]
  exact Nat.lt_of_lt_of_le (List.idxOf_lt_length_of_mem hin) (Nat.le_add_right _ _)

theorem mem_reported_iff : info ∈ reported events ↔
    ∃ pre post, events = pre ++ info :: post ∧ New ServiceInfo.address pre info := mem_firsts_iff

theorem names_reported_iff :
    (reported events).map ServiceInfo.fullname = instances events ↔ OneAddressEach events := by
  constructor
  · intro h
    constructor
    · intro e he haddr
      have hmem : e.fullname ∈ (reported events).map ServiceInfo.fullname := by
        rw [h]
        exact mem_instances_iff.2 ⟨e, he, rfl, haddr⟩
      obtain ⟨e', he', hname⟩ := List.mem_map.1 hmem
      obtain ⟨pre, post, hsplit, hnew⟩ := mem_reported_iff.1 he'
      exact ⟨pre, e', post, hsplit, hname, hnew⟩
    · intro pre e mid e' post hsplit hnew hnew'
      have hpairwise := pairwise_instances events
      rw [← h] at hpairwise
      exact pairwise_firsts_iff.1 (List.pairwise_map.1 hpairwise) _ e' post hsplit hnew' e
        (mem_firsts_iff.2 ⟨pre, mid, rfl, hnew⟩)
  · intro h
    have hpairwise : ((reported events).map ServiceInfo.fullname).Pairwise
        fun a b => resolvedAt events a < resolvedAt events b := by
      refine List.pairwise_map.2 (pairwise_firsts_iff.2 fun pre b post hsplit hnew a ha => ?_)
      obtain ⟨front, mid, rfl, hnew'⟩ := mem_firsts_iff.1 ha
      exact h.ordered front a mid b post hsplit hnew' hnew
    refine hpairwise.eq_of_mem_iff (pairwise_instances events) fun name => ?_
    rw [mem_instances_iff, List.mem_map]
    constructor
    · rintro ⟨e, he, hname⟩
      obtain ⟨pre, post, rfl, ip, hip, -⟩ := mem_reported_iff.1 he
      exact ⟨e, by simp, hname, by simp [hip]⟩
    · rintro ⟨e, he, rfl, haddr⟩
      obtain ⟨pre, e', post, hsplit, hname, hnew⟩ := h.each e he haddr
      exact ⟨e', mem_reported_iff.2 ⟨pre, post, hsplit, hnew⟩, hname⟩

/-- **Discovery**: both ways of discovering give one device for each event that
shows a new address, and these are one for each instance, in the order of their
first resolution, exactly when every instance shows one address that is its own. -/
theorem reports_each_instance_iff (deliveries : List Delivery) :
    discoverBlocking deliveries = (reported (resolvedIn deliveries)).filterMap ServiceInfo.found ∧
    (∀ s, (Streaming.system deliveries).Run Streaming.Keeps (.start deliveries) s →
      (∃ y, (Streaming.system deliveries).Run Streaming.Keeps s y ∧ y.Finished) ∧
      (s.Finished → s.received = discoverBlocking deliveries)) ∧
    ((reported (resolvedIn deliveries)).map ServiceInfo.fullname =
      instances (resolvedIn deliveries) ↔
      OneAddressEach (resolvedIn deliveries)) :=
  ⟨discoverBlocking_eq deliveries,
    fun _ hrun => ⟨Streaming.finishes hrun, (Streaming.conserves_of_run hrun).received⟩,
    names_reported_iff⟩

/-! ## a speaker group -/

/-- A service with its name as the only property. -/
def service (name : String) (port : UInt16) (addresses : List Ipv4Addr) : ServiceInfo where
  fullname := name ++ "._googlecast._tcp.local."
  port
  addressesV4 := addresses
  propertyValStr key := if key = "fn" then some name else none

/-- A speaker and the group it leads, on one host. -/
def speakerGroup : List Delivery :=
  [.resolved (service "Kitchen" 8009 [0xC0A80102]),
    .resolved (service "Downstairs" 32187 [0xC0A80102])]

/-- The group is not reported: its address has been seen. -/
theorem group_not_reported :
    discoverBlocking speakerGroup = [⟨"Kitchen", 0xC0A80102, 8009, none, none⟩] ∧
    ¬ ∀ deliveries, (discoverBlocking deliveries).length =
      (instances (resolvedIn deliveries)).length := by
  refine ⟨rfl, fun h => ?_⟩
  have hlength := h speakerGroup
  revert hlength
  decide

end Oxicast
