import Oxicast.Framing
import Mathlib.Data.List.TakeWhile

/-!
# Oxicast.Framing.Codec

`read_message` against `write_message` and the writer loop.

A frame is read back in front of anything and is the end of the stream when it
is cut (`delimits_frame`), so the cut rule of `Oxicast.Stream` says what the
peer reads of any part of a written stream.  What the writer loop leaves on the
socket is always such a part (`sent_writerLoop_eq`).
-/

namespace Oxicast.Prost

variable {M : Type} {prost : Prost M} {msg : M} {ms queue : List M} {socket : Socket} {w : Writer}
  {ending : Option String} {what : String} {n : Nat} {s xs rest : List UInt8}

/-! ## reading -/

theorem readExact_append (h : xs.length = n) :
    readExact ending what n (xs ++ rest) = .ok (xs, rest) := by
  subst h
  simp [readExact]

theorem readExact_short (h : s.length < n) : readExact none what n s = .error .disconnected := by
  rw [readExact, if_neg (by omega)]

theorem length_of_readExact (h : readExact ending what n s = .ok (xs, rest)) :
    rest.length + n = s.length := by
  unfold readExact at h
  split at h
  next hn =>
    obtain ⟨-, rfl⟩ := Prod.mk.inj (Except.ok.inj h)
    rw [List.length_drop]
    omega
  next => cases ending <;> contradiction

/-- A message takes its length prefix off the stream at least. -/
theorem readMessage_consumes (h : prost.readMessage ending s = .ok (msg, rest)) :
    rest.length < s.length := by
  simp only [readMessage] at h
  split at h
  next => contradiction
  next lenBuf s' hlen =>
    have hfour := length_of_readExact hlen
    split_ifs at h
    split at h
    next => contradiction
    next buf s'' hbuf =>
      have hbody := length_of_readExact hbuf
      split at h
      next m hm =>
        obtain ⟨-, rfl⟩ := Prod.mk.inj (Except.ok.inj h)
        omega
      next => contradiction

/-- `read_message` as a reader. -/
def reader (prost : Prost M) (ending : Option String) : Reader UInt8 M Error where
  read := prost.readMessage ending
  consumes := readMessage_consumes

@[simp] theorem read_reader (prost : Prost M) (ending : Option String) (s : List UInt8) :
    (prost.reader ending).read s = prost.readMessage ending s := rfl

/-- `read_message` again and again on what is left of a stream, up to the first
error. -/
def readAll (prost : Prost M) (s : List UInt8) : List M × Error := (prost.reader none).all s

/-- What the framing relies on of a message: prost decodes what it encodes, and
never encodes it to nothing. -/
structure Encodes (prost : Prost M) (msg : M) : Prop where
  decode : prost.decode (prost.encode msg) = .ok msg
  nonempty : prost.encode msg ≠ []

theorem length_frame (prost : Prost M) (msg : M) :
    (prost.frame msg).length = 4 + (prost.encode msg).length := by
  simp [frame]

/-- A frame is read back in front of anything, and is the end of the stream when
it is cut. -/
theorem delimits_frame (h : prost.Encodes msg) (hsize : (prost.encode msg).length ≤ 65536) :
    (prost.reader none).Delimits prost.frame .disconnected msg := by
  have hpos : 0 < (prost.encode msg).length := List.length_pos_iff.2 h.nonempty
  have hlen : (fromBeBytes (toBeBytes (UInt32.ofNat (prost.encode msg).length))).toNat =
      (prost.encode msg).length := by
    rw [fromBeBytes_toBeBytes, UInt32.toNat_ofNat']
    exact Nat.mod_eq_of_lt (by omega)
  constructor
  · intro rest
    simp only [read_reader, readMessage, frame, List.append_assoc,
      readExact_append (length_toBeBytes _), hlen]
    rw [if_neg (by omega), if_neg (by omega), readExact_append rfl]
    simp only [h.decode]
  · intro n hn
    rw [length_frame] at hn
    simp only [read_reader, readMessage, frame, List.take_append, length_toBeBytes]
    by_cases hfour : n < 4
    · -- the cut falls into the length prefix
      rw [readExact_short (by simp; omega)]
    · -- the cut falls into the body
      rw [List.take_of_length_le (by simp; omega), readExact_append (length_toBeBytes _)]
      simp only [hlen]
      rw [if_neg (by omega), if_neg (by omega), readExact_short (by simp; omega)]

/-- Of a cut of the frames exactly the messages are read whose frames are whole. -/
theorem readAll_take (h : ∀ m ∈ ms, prost.Encodes m)
    (hsize : ∀ m ∈ ms, (prost.encode m).length ≤ 65536) (n : Nat) :
    prost.readAll ((ms.flatMap prost.frame).take n) =
      (Reader.within prost.frame ms n, .disconnected) := by
  refine (prost.reader none).all_take ?_ (fun m hm => delimits_frame (h m hm) (hsize m hm)) n
  rw [read_reader, readMessage, readExact_short (by simp)]

/-! ## writing -/

/-- An accepting socket takes the frame of a message that is not too large. -/
theorem writeMessage_of_fits (hs : socket.breaks = none) (h : (prost.encode msg).length ≤ 65536) :
    prost.writeMessage socket msg =
      (.ok (), { socket with sent := socket.sent ++ prost.frame msg }) := by
  simp only [writeMessage, if_neg (Nat.not_lt.2 h), Socket.writeAll, hs, Socket.flush]

/-- No socket is given anything of a message that is too large. -/
theorem writeMessage_of_oversized (h : 65536 < (prost.encode msg).length) :
    ∃ e, prost.writeMessage socket msg = (.error e, socket) := by
  simp only [writeMessage, if_pos h]
  exact ⟨_, rfl⟩

/-- Whatever becomes of a write, the socket has taken a part of the frame; all of
it when the write succeeds, and then the message is not too large. -/
theorem sent_writeMessage (prost : Prost M) (socket : Socket) (msg : M) :
    ∃ n, (prost.writeMessage socket msg).2.sent = socket.sent ++ (prost.frame msg).take n ∧
      ((prost.encode msg).length ≤ 65536 ∨ n = 0) ∧
      ((prost.writeMessage socket msg).1 = .ok () →
        (prost.frame msg).length ≤ n ∧ (prost.encode msg).length ≤ 65536) := by
  by_cases hsize : 65536 < (prost.encode msg).length
  · obtain ⟨e, he⟩ := @writeMessage_of_oversized M prost msg socket hsize
    exact ⟨0, by simp [he], .inr rfl, by simp [he]⟩
  have hfits : (prost.encode msg).length ≤ 65536 := by omega
  cases hb : socket.breaks with
  | none =>
      refine ⟨(prost.frame msg).length, ?_, .inl hfits, fun _ => ⟨Nat.le_refl _, hfits⟩⟩
      rw [writeMessage_of_fits hb hfits, List.take_length]
  | some b =>
      obtain ⟨room, e⟩ := b
      refine ⟨room, ?_, .inl hfits, ?_⟩
      · simp only [writeMessage, if_neg hsize, Socket.writeAll, hb]
        by_cases hroom : (prost.frame msg).length ≤ room
        · rw [if_pos hroom, List.take_of_length_le hroom]
          simp only
          split <;> rfl
        · rw [if_neg hroom]
          cases e <;> rfl
      · simp only [writeMessage, if_neg hsize, Socket.writeAll, hb]
        by_cases hroom : (prost.frame msg).length ≤ room
        · exact fun _ => ⟨hroom, hfits⟩
        · rw [if_neg hroom]
          cases e <;> simp

/-- `write_message` accepts every message of a list that has none too large. -/
theorem writeMessages_of_fits (hs : socket.breaks = none)
    (hsize : ∀ m ∈ ms, (prost.encode m).length ≤ 65536) :
    prost.writeMessages socket ms =
      (.ok (), { socket with sent := socket.sent ++ ms.flatMap prost.frame }) := by
  induction ms generalizing socket with
  | nil => simp [writeMessages]
  | cons m ms ih =>
      rw [writeMessages, writeMessage_of_fits hs (hsize m List.mem_cons_self)]
      have hrest := fun x hx => hsize x (List.mem_cons_of_mem m hx)
      rw [List.flatMap_cons, ← List.append_assoc]
      exact @ih { socket with sent := socket.sent ++ prost.frame m } hs hrest

/-! ## messages on the wire -/

/-- A base-128 varint of at most ten bytes. -/
def varint (n : Nat) : List UInt8 := go 10 n
where
  go : Nat → Nat → List UInt8
    | 0, _ => []
    | fuel + 1, n =>
        if n < 128 then [UInt8.ofNat n] else UInt8.ofNat (n % 128 + 128) :: go fuel (n / 128)

/-- A length-delimited field. -/
def textField (tag : UInt8) (s : String) : List UInt8 :=
  let bytes := s.toList.flatMap String.utf8EncodeChar
  tag :: varint bytes.length ++ bytes

/-- The protobuf bytes of a message that `build_message` builds: its protocol
version and its payload type are 0. -/
def wireBytes (msg : CastMessage) : List UInt8 :=
  [0x08, 0x00] ++ textField 0x12 msg.sourceId ++ textField 0x1a msg.destinationId ++
    textField 0x22 msg.ns ++ [0x28, 0x00] ++ (msg.payloadUtf8.map (textField 0x32)).getD []

/-- prost in a world with the given messages to decode. -/
def ofMessages (known : List CastMessage) : Prost CastMessage where
  encode := wireBytes
  decode bytes :=
    match known.find? (wireBytes · = bytes) with
    | some msg => .ok msg
    | none => .error "invalid tag value: 0"

/-- A PING and the text of a payload. -/
def pingMsg : CastMessage :=
  buildMessage Ns.nsHeartbeat Ns.senderId Ns.receiverId "\x7b\"type\":\"PING\"\x7d"

def textMsg (payload : String) : CastMessage :=
  buildMessage "urn:x-cast:com.example" Ns.senderId "web-1" payload

theorem encodes_ofMessages {known : List CastMessage} {msg : CastMessage}
    (h : known.find? (wireBytes · = wireBytes msg) = some msg) : (ofMessages known).Encodes msg :=
  ⟨by simp only [ofMessages, h], by simp [ofMessages, wireBytes]⟩

/-- A PING and a message that is cut. -/
def pingAndText : List CastMessage := [pingMsg, textMsg "hello"]

set_option maxRecDepth 2000 in
theorem encodes_pingAndText : ∀ m ∈ pingAndText, (ofMessages pingAndText).Encodes m := by
  simp only [pingAndText, List.forall_mem_cons]
  exact ⟨encodes_ofMessages (by decide), encodes_ofMessages (by decide), by simp⟩

/-! ## all that is written -/

/-- The messages the loop writes: those before the first that is too large. -/
def accepted (prost : Prost M) (queue : List M) : List M :=
  queue.takeWhile fun m => (prost.encode m).length ≤ 65536

/-- Of a stream that a socket breaks, the bytes it takes. -/
def taken (breaks : Option (Nat × IoError)) (bytes : List UInt8) : List UInt8 :=
  match breaks with
  | none => bytes
  | some (room, _) => bytes.take room

/-- The loop writes the frames of the messages it accepts, as far as the socket takes
them. -/
theorem sent_writerLoop_eq (prost : Prost M) (w : Writer) (queue : List M) :
    (prost.writerLoop w queue).socket.sent =
      w.socket.sent ++ taken w.socket.breaks ((prost.accepted queue).flatMap prost.frame) := by
  induction queue generalizing w with
  | nil =>
      cases hb : w.socket.breaks with
      | none => simp [writerLoop, accepted, taken]
      | some b => simp [writerLoop, accepted, taken]
  | cons m queue ih =>
      rw [writerLoop]
      by_cases hsize : 65536 < (prost.encode m).length
      · obtain ⟨e, he⟩ := @writeMessage_of_oversized M prost m w.socket hsize
        have hnone : prost.accepted (m :: queue) = [] :=
          List.takeWhile_cons_of_neg (by simpa using hsize)
        rw [he, hnone]
        cases hb : w.socket.breaks <;> simp [taken]
      have hcons : prost.accepted (m :: queue) = m :: prost.accepted queue :=
        List.takeWhile_cons_of_pos (by simpa using hsize)
      rw [hcons, List.flatMap_cons]
      cases hb : w.socket.breaks with
      | none =>
          rw [writeMessage_of_fits hb (Nat.not_lt.1 hsize)]
          refine (ih _).trans ?_
          simp [hb, taken]
      | some b =>
          obtain ⟨room, e⟩ := b
          simp only [writeMessage, if_neg hsize, Socket.writeAll, hb, taken]
          by_cases hroom : (prost.frame m).length ≤ room
          · rw [if_pos hroom, List.take_append, List.take_of_length_le hroom]
            cases hleft : room - (prost.frame m).length with
            | zero => simp [Socket.flush]
            | succ left =>
                refine (ih _).trans ?_
                simp [taken]
          · rw [if_neg hroom, List.take_append_of_le_length (by omega)]
            cases e <;> rfl

/-- **What the device reads**: of the stream of a writer loop, whatever the socket does
and wherever it is cut, exactly the messages whose frames are whole in front of the cut,
of those in front of the first that is too large; and then the end of the stream. -/
theorem writer_read_back (prost : Prost M) (w : Writer) (queue : List M) (hw : w.socket.sent = [])
    (hq : ∀ m ∈ queue, prost.Encodes m) (n : Nat) :
    prost.readAll ((prost.writerLoop w queue).socket.sent.take n) =
      (Reader.within prost.frame (prost.accepted queue)
        (w.socket.breaks.elim n fun b => min n b.1), .disconnected) := by
  have hmem (m : M) (hm : m ∈ prost.accepted queue) : m ∈ queue :=
    (List.takeWhile_sublist _).subset hm
  have hfits (m : M) (hm : m ∈ prost.accepted queue) : (prost.encode m).length ≤ 65536 := by
    simpa using List.mem_takeWhile_imp hm
  have hread := readAll_take (fun m hm => hq m (hmem m hm)) hfits
  rw [sent_writerLoop_eq, hw, List.nil_append]
  cases w.socket.breaks with
  | none => exact hread n
  | some b =>
      rw [taken, List.take_take, Option.elim_some]
      exact hread (min n b.1)

set_option maxRecDepth 2000 in
/-- The socket breaks in the second message. -/
theorem writer_read_back_broken :
    (ofMessages pingAndText).readAll (((ofMessages pingAndText).writerLoop
        ⟨⟨[], some (120, .brokenPipe)⟩, true, ⟨.connected, 0⟩⟩ pingAndText).socket.sent.take 200) =
      ([pingMsg], .disconnected) := by
  exact (writer_read_back _ _ _ rfl encodes_pingAndText 200).trans rfl

/-- **Framing is prefix-faithful**: `write_message` accepts every message that is
not too large, and of the stream cut at any byte exactly the messages are read
whose frames end at the cut or before it, and then `Disconnected`.  What is read
of a writer loop that ends at any byte is a prefix of its queue. -/
theorem prefix_faithful (prost : Prost M) (ms : List M) (h : ∀ m ∈ ms, prost.Encodes m)
    (hsize : ∀ m ∈ ms, (prost.encode m).length ≤ 65536) :
    (∃ socket, prost.writeMessages .accepting ms = (.ok (), socket) ∧
      ∀ n, ∃ k, prost.readAll (socket.sent.take n) = (ms.take k, .disconnected) ∧
        ∀ i < ms.length, i < k ↔ ((ms.take (i + 1)).flatMap prost.frame).length ≤ n) ∧
    ∀ w queue, w.socket.sent = [] → (∀ m ∈ queue, prost.Encodes m) → ∀ n, ∃ k,
      prost.readAll ((prost.writerLoop w queue).socket.sent.take n) =
        (queue.take k, .disconnected) := by
  constructor
  · refine ⟨_, writeMessages_of_fits rfl hsize, fun n => ?_⟩
    obtain ⟨k, hk, hend⟩ := Reader.within_eq_take prost.frame ms n
    exact ⟨k, by rw [← hk]; exact readAll_take h hsize n, hend⟩
  · intro w queue hw hq n
    obtain ⟨k, hk, -⟩ := Reader.within_eq_take prost.frame (prost.accepted queue)
      (w.socket.breaks.elim n fun b => min n b.1)
    have hfront : prost.accepted queue <+: queue := List.takeWhile_prefix _
    refine ⟨min k (prost.accepted queue).length, ?_⟩
    rw [writer_read_back prost w queue hw hq, hk, ← List.take_take,
      ← List.prefix_iff_eq_take.1 hfront]

set_option maxRecDepth 2000 in
/-- The cut falls into the second message. -/
theorem prefix_faithful_cut :
    ∃ socket, (ofMessages pingAndText).writeMessages .accepting pingAndText = (.ok (), socket) ∧
      (ofMessages pingAndText).readAll (socket.sent.take 120) = ([pingMsg], .disconnected) := by
  obtain ⟨⟨socket, hwrite, hread⟩, -⟩ := prefix_faithful (ofMessages pingAndText) pingAndText
    encodes_pingAndText (by decide)
  obtain ⟨k, hk, hend⟩ := hread 120
  have hfirst : 0 < k := (hend 0 (by decide)).2 (by decide)
  have hsecond : ¬ 1 < k := fun hlt => absurd ((hend 1 (by decide)).1 hlt) (by decide)
  obtain rfl : k = 1 := by omega
  exact ⟨socket, hwrite, hk⟩

/-! ## messages that are too large -/

/-- What a queue leaves behind when the messages that `write_message` refuses for
their size are passed over. -/
structure PassedOver (prost : Prost M) (w : Writer) (queue : List M) : Prop where
  sent : (prost.writerLoop w queue).socket.sent =
    w.socket.sent ++ (queue.filter fun m => (prost.encode m).length ≤ 65536).flatMap prost.frame
  alive : (prost.writerLoop w queue).alive = true
  connection : (prost.writerLoop w queue).connection = w.connection

/-- On an accepting socket the loop goes on as long as no message is too large. -/
theorem writerLoop_of_fits (hs : w.socket.breaks = none)
    (hsize : ∀ m ∈ queue, (prost.encode m).length ≤ 65536) :
    prost.writerLoop w queue =
      { w with
        socket := { w.socket with sent := w.socket.sent ++ queue.flatMap prost.frame } } := by
  induction queue generalizing w with
  | nil => simp [writerLoop]
  | cons m queue ih =>
      rw [writerLoop, writeMessage_of_fits hs (hsize m List.mem_cons_self)]
      have hrest := fun x hx => hsize x (List.mem_cons_of_mem m hx)
      rw [List.flatMap_cons, ← List.append_assoc]
      exact @ih { w with socket := { w.socket with sent := w.socket.sent ++ prost.frame m } }
        hs hrest

/-- One message that is too large and the writer is gone. -/
theorem dead_of_oversized (hs : w.socket.breaks = none) {m : M} (hm : m ∈ queue)
    (hsize : 65536 < (prost.encode m).length) : (prost.writerLoop w queue).alive = false := by
  induction queue generalizing w with
  | nil => contradiction
  | cons x queue ih =>
      rw [writerLoop]
      by_cases hx : 65536 < (prost.encode x).length
      · obtain ⟨e, he⟩ := @writeMessage_of_oversized M prost x w.socket hx
        rw [he]
      · rw [writeMessage_of_fits hs (by omega)]
        refine @ih
          { w with socket := { w.socket with sent := w.socket.sent ++ prost.frame x } } hs ?_
        rcases List.mem_cons.1 hm with rfl | hm
        · exact absurd hsize hx
        · exact hm

/-- **A refused message**: on a socket that accepts every write, a message that is
too large is passed over exactly when there is none. -/
theorem passedOver_iff (prost : Prost M) (w : Writer) (queue : List M) (hs : w.socket.breaks = none)
    (halive : w.alive = true) :
    PassedOver prost w queue ↔ ∀ m ∈ queue, (prost.encode m).length ≤ 65536 := by
  constructor
  · intro h m hm
    by_contra hsize
    have hdead := dead_of_oversized hs hm (Nat.lt_of_not_le hsize)
    exact Bool.noConfusion (hdead.symm.trans h.alive)
  · intro hsize
    have hloop := writerLoop_of_fits hs hsize
    have hall : queue.filter (fun m => (prost.encode m).length ≤ 65536) = queue :=
      List.filter_eq_self.2 fun m hm => decide_eq_true (hsize m hm)
    exact ⟨by rw [hloop, hall], by rw [hloop]; exact halive, by rw [hloop]⟩

/-- A writer that has just been spawned. -/
def newWriter : Writer := ⟨.accepting, true, ⟨.connected, 0⟩⟩

/-- Two messages of the usual size. -/
theorem passedOver_pingAndText : PassedOver (ofMessages pingAndText) newWriter pingAndText :=
  (passedOver_iff (ofMessages pingAndText) newWriter pingAndText rfl rfl).2 (by decide)

theorem payload_lt_wireBytes (ns source destination payload : String) :
    (payload.toList.flatMap String.utf8EncodeChar).length <
      (wireBytes (buildMessage ns source destination payload)).length := by
  simp only [wireBytes, buildMessage, Option.map_some, Option.getD_some, textField,
    List.length_append, List.length_cons, List.length_nil]
  omega

/-- A payload of `n` bytes. -/
def filler (n : Nat) : String := String.ofList (List.replicate n 'x')

theorem bytes_filler (n : Nat) : ((filler n).toList.flatMap String.utf8EncodeChar).length = n := by
  have hx : 'x'.utf8Size = 1 := rfl
  simp [filler, hx]

/-- A message of more than 70000 bytes. -/
def bigMsg : CastMessage := textMsg (filler 70000)

theorem size_bigMsg : 65536 < (wireBytes bigMsg).length := by
  have hlt := payload_lt_wireBytes "urn:x-cast:com.example" Ns.senderId "web-1" (filler 70000)
  rw [bytes_filler] at hlt
  exact Nat.lt_trans (by decide) hlt

/-- A custom payload of 70000 bytes takes the connection down, and the PING that
is queued behind it is never written. -/
theorem refused_message_kills :
    ¬ ∀ (prost : Prost CastMessage) (w : Writer) (queue : List CastMessage),
    w.socket.breaks = none → w.alive = true → PassedOver prost w queue := by
  intro h
  have hp := h (ofMessages [bigMsg, pingMsg]) newWriter [bigMsg, pingMsg] rfl rfl
  have hdead := @dead_of_oversized _ (ofMessages [bigMsg, pingMsg]) [bigMsg, pingMsg] newWriter rfl
    bigMsg List.mem_cons_self size_bigMsg
  exact Bool.noConfusion (hdead.symm.trans hp.alive)

end Oxicast.Prost
