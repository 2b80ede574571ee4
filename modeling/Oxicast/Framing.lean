import Oxicast.Channels
import Oxicast.Message
import Oxicast.Stream

/-!
# Oxicast.Framing

Wire-level framing: a 4-byte big-endian length followed by the encoded message.

`read_message` and `write_message` over byte lists, and the writer task's loop
over them.  Encoding and decoding a message is `prost`'s business and is a
parameter, and so is the message type.
-/

namespace Oxicast

/-- prost's `encode_to_vec` and `decode`, with the text of a `DecodeError`. -/
structure Prost (M : Type) where
  encode : M → List UInt8
  decode : List UInt8 → Except String M

/-! ## reading -/

/-- `read_exact` of `n` bytes.  A stream that is too short ends with an I/O error,
or else with the end of the file. -/
def readExact (ending : Option String) (what : String) (n : Nat) (s : List UInt8) :
    Except Error (List UInt8 × List UInt8) :=
  if n ≤ s.length then .ok (s.take n, s.drop n)
  else match ending with
    | none => .error .disconnected
    | some e => .error (.framing s!"{what}: {e}")

/-! ## writing -/

/-- Why a write fails. -/
inductive IoError where
  | brokenPipe
  | other (text : String)
  deriving DecidableEq

def IoError.text : IoError → String
  | .brokenPipe => "broken pipe"
  | .other text => text

/-- The write half: what the peer has been sent, and, unless the socket accepts
every write, how many bytes it still takes before it fails. -/
structure Socket where
  sent : List UInt8
  breaks : Option (Nat × IoError)

namespace Socket

/-- A new socket that accepts every write. -/
def accepting : Socket := ⟨[], none⟩

/-- `write_all`: a socket that fails has taken a part of the bytes. -/
def writeAll (s : Socket) (bytes : List UInt8) : Except IoError Unit × Socket :=
  match s.breaks with
  | none => (.ok (), { s with sent := s.sent ++ bytes })
  | some (room, e) =>
      if bytes.length ≤ room then (.ok (), ⟨s.sent ++ bytes, some (room - bytes.length, e)⟩)
      else (.error e, ⟨s.sent ++ bytes.take room, some (0, e)⟩)

/-- `flush`: what was accepted goes out, unless the socket has failed since. -/
def flush (s : Socket) : Except IoError Unit :=
  match s.breaks with
  | some (0, e) => .error e
  | _ => .ok ()

end Socket

namespace Prost

variable {M : Type} (prost : Prost M)

/-- Read one length-prefixed message. -/
def readMessage (ending : Option String) (s : List UInt8) : Except Error (M × List UInt8) :=
  match readExact ending "read length" 4 s with
  | .error e => .error e
  | .ok (lenBuf, s) =>
      let len := (fromBeBytes lenBuf).toNat
      if len = 0 then .error (.framing "zero-length message")
      else if 65536 < len then .error (.framing s!"message too large: {len} bytes (max 65536)")
      else match readExact ending "read payload" len s with
        | .error e => .error e
        | .ok (buf, s) => match prost.decode buf with
          | .ok msg => .ok (msg, s)
          | .error e => .error (.protobuf e)

/-- The length prefix and the payload. -/
def frame (msg : M) : List UInt8 :=
  let encoded := prost.encode msg
  toBeBytes (UInt32.ofNat encoded.length) ++ encoded

/-- Write a length-prefixed message; one that is too large is refused before
anything is written. -/
def writeMessage (socket : Socket) (msg : M) : Except Error Unit × Socket :=
  let size := (prost.encode msg).length
  if 65536 < size then
    (.error (.framing s!"outbound message too large: {size} bytes (max 65536)"), socket)
  else match socket.writeAll (prost.frame msg) with
    | (.error .brokenPipe, socket) => (.error .disconnected, socket)
    | (.error (.other text), socket) => (.error (.framing s!"write: {text}"), socket)
    | (.ok (), socket) => match socket.flush with
      | .ok () => (.ok (), socket)
      | .error e =>
          let text := e.text
          (.error (.framing s!"flush: {text}"), socket)

/-- Write one message after another, up to the first error. -/
def writeMessages (socket : Socket) : List M → Except Error Unit × Socket
  | [] => (.ok (), socket)
  | msg :: msgs =>
      match prost.writeMessage socket msg with
      | (.ok (), socket) => writeMessages socket msgs
      | (.error e, socket) => (.error e, socket)

end Prost

/-! ## the writer task -/

/-- What the writer task owns and shares. -/
structure Writer where
  socket : Socket
  alive : Bool
  connection : Watch ConnectionState

namespace Prost

variable {M : Type} (prost : Prost M)

/-- `writer_loop` over the messages it takes from its queue. -/
def writerLoop (w : Writer) : List M → Writer
  | [] => w
  | msg :: queue =>
      match prost.writeMessage w.socket msg with
      | (.ok (), socket) => writerLoop { w with socket } queue
      | (.error _, socket) =>
          { socket, alive := false, connection := w.connection.send .disconnected }

end Prost

end Oxicast
