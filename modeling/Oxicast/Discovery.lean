import Oxicast.Transition
import Mathlib.Data.List.Basic

/-!
# Oxicast.Discovery

mDNS discovery: `discover_devices`, which collects the devices into a list, and
`discover`, which streams them through a channel of 32 slots.

The two contain the same loop.  What `receiver.recv_timeout` gives before the
deadline, call by call, is a list of deliveries.  The stream is a system of two
parties, the blocking task that runs the loop and the consumer that receives.
-/

namespace Oxicast

abbrev Ipv4Addr := UInt32

/-- A discovered Cast device. -/
structure DeviceInfo where
  name : String
  ip : Ipv4Addr
  port : UInt16
  model : Option String
  uuid : Option String
  deriving DecidableEq

/-- A resolved service.  `addressesV4` is its set of IPv4 addresses in the order
in which this event's set is iterated. -/
structure ServiceInfo where
  fullname : String
  port : UInt16
  addressesV4 : List Ipv4Addr
  propertyValStr : String → Option String

/-- `info.get_addresses_v4().iter().next()`. -/
def ServiceInfo.address (info : ServiceInfo) : Option Ipv4Addr := info.addressesV4.head?

/-- The device of a service at one of its addresses. -/
def ServiceInfo.device (info : ServiceInfo) (ip : Ipv4Addr) : DeviceInfo where
  name := (info.propertyValStr "fn").getD info.fullname
  ip
  port := info.port
  model := info.propertyValStr "md"
  uuid := info.propertyValStr "id"

/-- What `recv_timeout` gives. -/
inductive Delivery where
  | resolved (info : ServiceInfo)
  /-- another event of the browser -/
  | other
  | timeout
  | disconnected

/-! ## the blocking scan -/

/-- The seen addresses and the devices so far. -/
structure Found where
  seen : List Ipv4Addr
  devices : List DeviceInfo

/-- The loop of `discover_blocking`, to the deadline or the end of the browser. -/
def scan (found : Found) : List Delivery → Found
  | [] => found
  | .resolved info :: rest =>
      match info.address with
      | none => scan found rest
      | some ip =>
          if ip ∈ found.seen then scan found rest
          else scan ⟨ip :: found.seen, found.devices ++ [info.device ip]⟩ rest
  | .other :: rest => scan found rest
  | .timeout :: rest => scan found rest
  | .disconnected :: _ => found

/-- `discover_blocking`. -/
def discoverBlocking (deliveries : List Delivery) : List DeviceInfo :=
  (scan ⟨[], []⟩ deliveries).devices

/-! ## the stream -/

/-- The slots of the channel. -/
def streamCapacity : Nat := 32

/-- Where the blocking task of a stream stands. -/
inductive StreamPc where
  | polling
  /-- in `tx.blocking_send` -/
  | sending (device : DeviceInfo)
  /-- the loop is over and the sender dropped -/
  | ended
  deriving DecidableEq

/-- `discover`: the task with what is still to be delivered before the deadline,
the channel, and the consumer with what it has received. -/
structure Streaming where
  deliveries : List Delivery
  seen : List Ipv4Addr
  pc : StreamPc
  buffer : List DeviceInfo
  received : List DeviceInfo
  /-- the consumer has dropped its stream -/
  dropped : Bool

inductive StreamAct where
  | poll
  | send
  | sendFailed
  | recv
  | drop
  deriving DecidableEq

namespace Streaming

def start (deliveries : List Delivery) : Streaming where
  deliveries
  seen := []
  pc := .polling
  buffer := []
  received := []
  dropped := false

/-- One round of the loop of `discover_streaming`, up to the send. -/
def poll (s : Streaming) : Streaming :=
  match s.deliveries with
  | [] => { s with pc := .ended }
  | .resolved info :: rest =>
      match info.address with
      | none => { s with deliveries := rest }
      | some ip =>
          if ip ∈ s.seen then { s with deliveries := rest }
          else { s with deliveries := rest, seen := ip :: s.seen, pc := .sending (info.device ip) }
  | .other :: rest => { s with deliveries := rest }
  | .timeout :: rest => { s with deliveries := rest }
  | .disconnected :: _ => { s with pc := .ended }

/-- One step of the stream.  `blocking_send` waits for room, and fails when the
receiver is gone. -/
def step (s : Streaming) : StreamAct → Option Streaming
  | .poll =>
      match s.pc with
      | .polling => some s.poll
      | _ => none
  | .send =>
      match s.pc with
      | .sending device =>
          if s.dropped = false ∧ s.buffer.length < streamCapacity then
            some { s with buffer := s.buffer ++ [device], pc := .polling }
          else none
      | _ => none
  | .sendFailed =>
      match s.pc with
      | .sending _ => if s.dropped then some { s with pc := .ended } else none
      | _ => none
  | .recv =>
      match s.buffer with
      | device :: rest =>
          if s.dropped then none
          else some { s with buffer := rest, received := s.received ++ [device] }
      | [] => none
  | .drop => if s.dropped then none else some { s with dropped := true, buffer := [] }

/-- All interleavings of the task and the consumer. -/
def system (deliveries : List Delivery) : TransitionSystem Streaming StreamAct :=
  ⟨start deliveries, step⟩

/-- The consumer has been told the end: nothing is buffered and no sender left. -/
def Finished (s : Streaming) : Prop := s.pc = .ended ∧ s.buffer = []

/-- The consumer keeps its stream. -/
def Keeps (_ : Streaming) (a : StreamAct) : Prop := a ≠ .drop

end Streaming

end Oxicast
