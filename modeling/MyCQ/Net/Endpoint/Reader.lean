import MyCQ.Net.Endpoint
import MyCQ.Net.Frame

/-! What the reading side of a connection does with an arbitrary byte stream.

`Serving` describes a connection that reads frames: how much of the stream it
has taken, the frames it has recognised, the state of its receive buffer.
`ServerEnd` adds the handshake that a server runs first.
-/

set_option autoImplicit false

namespace MyCQ
open Octets (Endian)

namespace ConnectionInterface

structure SameReader (c d : ConnectionInterface) : Prop where
  owner : d.owner = c.owner
  tmpInputMsg : d.tmpInputMsg = c.tmpInputMsg
  handshakeOut : d.handshakeOut = c.handshakeOut
  handshakeCheck : d.handshakeCheck = c.handshakeCheck
  handshakeFlag : d.handshakeFlag = c.handshakeFlag
  connecting : d.socketConnection.connecting = c.socketConnection.connecting
  reads : d.socketConnection.reads = c.socketConnection.reads
  readsStarted : d.socketConnection.readsStarted = c.socketConnection.readsStarted
  received : d.socketConnection.received = c.socketConnection.received
  closed : c.socketConnection.isOpen = false → d.socketConnection.isOpen = false

theorem WritesOnly.sameReader {c d : ConnectionInterface} (only : WritesOnly c d) : SameReader c d := by
  obtain ⟨_, _, _, rfl⟩ := only
  exact ⟨rfl, rfl, rfl, rfl, rfl, rfl, rfl, rfl, rfl, fun closed => closed⟩

theorem SameReader.trans {c d e : ConnectionInterface} (first : SameReader c d) (second : SameReader d e) :
    SameReader c e where
  owner := second.owner.trans first.owner
  tmpInputMsg := second.tmpInputMsg.trans first.tmpInputMsg
  handshakeOut := second.handshakeOut.trans first.handshakeOut
  handshakeCheck := second.handshakeCheck.trans first.handshakeCheck
  handshakeFlag := second.handshakeFlag.trans first.handshakeFlag
  connecting := second.connecting.trans first.connecting
  reads := second.reads.trans first.reads
  readsStarted := second.readsStarted.trans first.readsStarted
  received := second.received.trans first.received
  closed := second.closed ∘ first.closed

theorem sameReader_sendData (c : ConnectionInterface) (msg : Message) : SameReader c (c.sendData msg) :=
  ⟨rfl, rfl, rfl, rfl, rfl, rfl, rfl, rfl, rfl, fun closed => closed⟩

theorem sameReader_close (c : ConnectionInterface) : SameReader c c.close :=
  ⟨rfl, rfl, rfl, rfl, rfl, rfl, rfl, rfl, rfl, fun _ => rfl⟩

theorem sameReader_posted (c : ConnectionInterface) (rest : List Message) (msg : Message) :
    SameReader c ({ c with posted := rest }.sendDataHandler msg) :=
  have unposted : SameReader c { c with posted := rest } :=
    ⟨rfl, rfl, rfl, rfl, rfl, rfl, rfl, rfl, rfl, fun closed => closed⟩
  unposted.trans (writesOnly_sendDataHandler _ _).sameReader

theorem sameReader_writeOk (c : ConnectionInterface) (op : WriteOp) (server : c.owner = .server) :
    SameReader c ((c.finishWrite op).onWrite op) := by
  apply (writesOnly_finishWrite c op).sameReader.trans
  cases op with
  | validationData word =>
    have owner : (c.finishWrite (.validationData word)).owner = .server := server
    simp only [onWrite, onSendValidationData, owner]
    exact (WritesOnly.refl _).sameReader
  | header header => exact (writesOnly_onWriteHeader _).sameReader
  | payload bytes => exact (writesOnly_popFront _).sameReader

end ConnectionInterface

namespace Endpoint
open ConnectionInterface

-- `base` is the handshake word that was read before the first header. The frames
-- are not stored anywhere: they are recovered from the bytes received.
inductive Serving (order : Endian) (base : List Byte) (p : Endpoint) : Prop where
  | idle (frames : List Frame) :
      p.conn.socketConnection.reads = [.header] →
      p.conn.socketConnection.received = base ++ frames.flatMap (Frame.bytes order) →
      p.conn.tmpInputMsg = Frame.buffer frames → p.enqueued = Frame.enqueued frames →
      Serving order base p
  | announced (frames : List Frame) (header : MessageHeader) : 0 < header.size.toNat →
      p.conn.socketConnection.reads = [.payload header.size.toNat] →
      p.conn.socketConnection.received =
        base ++ frames.flatMap (Frame.bytes order) ++ (header.bytes order).toList →
      p.conn.tmpInputMsg = ⟨header, (Frame.buffer frames).payload.resize header.size.toNat⟩ →
      p.enqueued = Frame.enqueued frames → Serving order base p
  | ended (frames : List Frame) (rest : List Byte) : Frame.Incomplete order rest →
      p.conn.socketConnection.reads = [] → p.conn.socketConnection.isOpen = false →
      p.conn.socketConnection.received = base ++ frames.flatMap (Frame.bytes order) ++ rest →
      p.enqueued = Frame.enqueued frames → Serving order base p

theorem Serving.congr {order : Endian} {base : List Byte} {c d : ConnectionInterface} {q : List Message}
    (same : SameReader c d) (serving : Serving order base ⟨c, q⟩) : Serving order base ⟨d, q⟩ := by
  cases serving with
  | idle frames reads received tmp enqueued =>
    exact .idle frames (same.reads.trans reads) (same.received.trans received)
      (same.tmpInputMsg.trans tmp) enqueued
  | announced frames header pos reads received tmp enqueued =>
    exact .announced frames header pos (same.reads.trans reads) (same.received.trans received)
      (same.tmpInputMsg.trans tmp) enqueued
  | ended frames rest cut reads closed received enqueued =>
    exact .ended frames rest cut (same.reads.trans reads) (same.closed closed)
      (same.received.trans received) enqueued

theorem Serving.reads_length {order : Endian} {base : List Byte} {p : Endpoint}
    (serving : Serving order base p) : p.conn.socketConnection.reads.length ≤ 1 := by
  cases serving with
  | idle _ reads => simp [reads]
  | announced _ _ _ reads => simp [reads]
  | ended _ _ _ reads => simp [reads]

theorem Serving.reads_frame {order : Endian} {base : List Byte} {p : Endpoint} (serving : Serving order base p) {op : ReadOp}
    (outstanding : op ∈ p.conn.socketConnection.reads) : op = .header ∨ ∃ size, op = .payload size := by
  cases serving with
  | idle _ reads => exact Or.inl (List.mem_singleton.mp (reads ▸ outstanding))
  | announced _ header _ reads => exact Or.inr ⟨_, List.mem_singleton.mp (reads ▸ outstanding)⟩
  | ended _ _ _ reads => simp [reads] at outstanding

/-- What has been received is a sequence of frames, all of them enqueued, and an incomplete rest. -/
theorem Serving.frames {order : Endian} {base : List Byte} {p : Endpoint} (serving : Serving order base p) :
    ∃ frames rest, p.conn.socketConnection.received = base ++ frames.flatMap (Frame.bytes order) ++ rest ∧
      Frame.Incomplete order rest ∧ p.enqueued = Frame.enqueued frames := by
  cases serving with
  | idle frames _ received _ enqueued =>
    exact ⟨frames, [], by rw [received, List.append_nil], Frame.incomplete_nil order, enqueued⟩
  | announced frames header pos _ received _ enqueued =>
    exact ⟨frames, _, received, Or.inr ⟨header, [], (List.append_nil _).symm, pos⟩, enqueued⟩
  | ended frames rest cut _ _ received enqueued => exact ⟨frames, rest, received, cut, enqueued⟩

theorem Serving.enqueued_of_received {order : Endian} {base : List Byte} {p : Endpoint} {frames : List Frame}
    (serving : Serving order base p)
    (received : p.conn.socketConnection.received = base ++ frames.flatMap (Frame.bytes order)) :
    p.enqueued = Frame.enqueued frames := by
  obtain ⟨parsed, rest, stream, incomplete, enqueued⟩ := serving.frames
  rw [received, List.append_assoc] at stream
  obtain ⟨rfl, _⟩ := Frame.parse_unique order frames parsed rest incomplete (List.append_cancel_left stream)
  exact enqueued

/-- Bytes that complete a header, or the payload announced by one, advance the parse. -/
theorem Serving.readOk {order : Endian} {base : List Byte} {p : Endpoint} (serving : Serving order base p)
    (op : ReadOp) (bytes : CArray Byte op.length) (outstanding : op ∈ p.conn.socketConnection.reads) :
    Serving order base
      ⟨((p.conn.finishRead op bytes.toList).onRead order op bytes).1,
        p.enqueued ++ ((p.conn.finishRead op bytes.toList).onRead order op bytes).2.toList⟩ := by
  cases serving with
  | idle frames reads received tmp enqueued =>
    rw [reads, List.mem_singleton] at outstanding
    subst outstanding
    let header := MessageHeader.ofBytes order bytes
    have octets : (header.bytes order).toList = bytes.toList :=
      congrArg CArray.toList (MessageHeader.bytes_ofBytes order bytes)
    -- A header either announces a payload or completes an empty frame.
    by_cases pos : 0 < header.size
    · have ran : (p.conn.finishRead .header bytes.toList).onRead order .header bytes =
          ({ p.conn.finishRead .header bytes.toList with
            tmpInputMsg := ⟨header, p.conn.tmpInputMsg.payload.resize header.size.toNat⟩ }.readPayload,
            none) := if_pos pos
      rw [ran]
      refine .announced frames header (header.size_pos_iff.mp pos) ?_ ?_ ?_ ?_
      · simp [readPayload, asyncRead, AsyncSocket.asyncRead, finishRead, AsyncSocket.finishRead, reads]
      · simp [readPayload, asyncRead, AsyncSocket.asyncRead, finishRead, AsyncSocket.finishRead,
          received, octets]
      · simp [readPayload, asyncRead, tmp]
      · simp [enqueued]
    · have zero : header.size.toNat = 0 := Nat.eq_zero_of_not_pos ((not_congr header.size_pos_iff).mp pos)
      let f : Frame := ⟨header, [], zero.symm⟩
      have ran : (p.conn.finishRead .header bytes.toList).onRead order .header bytes =
          { p.conn.finishRead .header bytes.toList with
            tmpInputMsg := f.into p.conn.tmpInputMsg }.addToIncomingMsgQueue := by
        have into : f.into p.conn.tmpInputMsg = { p.conn.tmpInputMsg with header := header } := by
          simp [Frame.into, Frame.size, f, zero]
        rw [into]
        exact if_neg pos
      rw [ran]
      refine .idle (frames ++ [f]) ?_ ?_ ?_ ?_
      · simp [addToIncomingMsgQueue, readHeader, asyncRead, AsyncSocket.asyncRead, finishRead,
          AsyncSocket.finishRead, reads]
      · simp [addToIncomingMsgQueue, readHeader, asyncRead, AsyncSocket.asyncRead, finishRead,
          AsyncSocket.finishRead, received, Frame.bytes, f, octets]
      · simp [addToIncomingMsgQueue, readHeader, asyncRead, tmp, Frame.buffer_concat]
      · simp [addToIncomingMsgQueue, enqueued, Frame.enqueued_concat, Frame.buffer_concat, tmp]
  | announced frames header pos reads received tmp enqueued =>
    rw [reads, List.mem_singleton] at outstanding
    subst outstanding
    let f : Frame := ⟨header, bytes.toList, bytes.length_eq⟩
    have into : f.into (Frame.buffer frames) =
        ⟨header, ((Frame.buffer frames).payload.resize header.size.toNat).memcpy 0 bytes.toList⟩ := by
      simp [Frame.into, Frame.size, f, pos]
    refine .idle (frames ++ [f]) ?_ ?_ ?_ ?_
    · simp [onRead, onReadPayload, addToIncomingMsgQueue, readHeader, asyncRead, AsyncSocket.asyncRead,
        finishRead, AsyncSocket.finishRead, reads]
    · simp [onRead, onReadPayload, addToIncomingMsgQueue, readHeader, asyncRead, AsyncSocket.asyncRead,
        finishRead, AsyncSocket.finishRead, received, Frame.bytes, f]
    · simp [onRead, onReadPayload, addToIncomingMsgQueue, readHeader, asyncRead, finishRead, tmp,
        Frame.buffer_concat, into]
    · simp [onRead, onReadPayload, addToIncomingMsgQueue, finishRead, enqueued, Frame.enqueued_concat,
        Frame.buffer_concat, tmp, into]
  | ended frames rest cut reads => simp [reads] at outstanding

theorem Serving.readFailed {order : Endian} {base : List Byte} {p : Endpoint}
    (serving : Serving order base p) (op : ReadOp) (bytes : List Byte)
    (outstanding : op ∈ p.conn.socketConnection.reads) (short : bytes.length < op.length) :
    Serving order base ⟨(p.conn.finishRead op bytes).close, p.enqueued⟩ := by
  cases serving with
  | idle frames reads received _ enqueued =>
    rw [reads, List.mem_singleton] at outstanding
    subst outstanding
    refine .ended frames bytes (Or.inl short) ?_ rfl ?_ enqueued
    · simp [close, AsyncSocket.close, finishRead, AsyncSocket.finishRead, reads]
    · simp [close, AsyncSocket.close, finishRead, AsyncSocket.finishRead, received]
  | announced frames header _ reads received _ enqueued =>
    rw [reads, List.mem_singleton] at outstanding
    subst outstanding
    refine .ended frames ((header.bytes order).toList ++ bytes) (Or.inr ⟨header, bytes, rfl, short⟩) ?_
      rfl ?_ enqueued
    · simp [close, AsyncSocket.close, finishRead, AsyncSocket.finishRead, reads]
    · simp [close, AsyncSocket.close, finishRead, AsyncSocket.finishRead, received]
  | ended frames rest cut reads => simp [reads] at outstanding

theorem exists_takeFrame {order : Endian} (p : Endpoint) (waiting : p.conn.socketConnection.reads = [.header]) (f : Frame) :
    ∃ q, Transition.Reachable (Endpoint.step order) p q ∧ q.conn.socketConnection.reads = [.header] ∧
      q.conn.socketConnection.received = p.conn.socketConnection.received ++ f.bytes order := by
  have first := @step_readOk_of_mem order p .header (f.header.bytes order)
    (waiting ▸ List.mem_singleton.mpr rfl)
  by_cases pos : 0 < f.header.size
  · let announced := { p.conn.finishRead .header (f.header.bytes order).toList with
      tmpInputMsg := ⟨f.header, p.conn.tmpInputMsg.payload.resize f.header.size.toNat⟩ }.readPayload
    have ran : (p.conn.finishRead .header (f.header.bytes order).toList).onRead order .header
        (f.header.bytes order) = (announced, none) := by
      simp [ConnectionInterface.onRead, onReadHeader, pos, announced, finishRead]
    rw [ran] at first
    have reads : announced.socketConnection.reads = [.payload f.header.size.toNat] := by
      simp [announced, readPayload, asyncRead, AsyncSocket.asyncRead, finishRead, AsyncSocket.finishRead,
        waiting]
    have second := @step_readOk_of_mem order ⟨announced, p.enqueued⟩ (.payload f.header.size.toNat)
      ⟨f.body, f.complete⟩ (reads ▸ List.mem_singleton.mpr rfl)
    refine ⟨_, (Transition.Run.next .start trivial first).next trivial (by simpa using second), ?_, ?_⟩
    · simp [ConnectionInterface.onRead, onReadPayload, addToIncomingMsgQueue, readHeader, asyncRead,
        AsyncSocket.asyncRead, finishRead, AsyncSocket.finishRead, reads]
    · simp [ConnectionInterface.onRead, onReadPayload, addToIncomingMsgQueue, readHeader, asyncRead,
        AsyncSocket.asyncRead, finishRead, AsyncSocket.finishRead, announced, readPayload, Frame.bytes]
  · have empty : f.body = [] := by
      apply List.eq_nil_of_length_eq_zero
      rw [f.complete]
      exact Nat.eq_zero_of_not_pos ((not_congr f.header.size_pos_iff).mp pos)
    refine ⟨_, .next .start trivial first, ?_, ?_⟩
    · simp [ConnectionInterface.onRead, onReadHeader, pos, addToIncomingMsgQueue, readHeader, asyncRead,
        AsyncSocket.asyncRead, finishRead, AsyncSocket.finishRead, waiting]
    · simp [ConnectionInterface.onRead, onReadHeader, pos, addToIncomingMsgQueue, readHeader, asyncRead,
        AsyncSocket.asyncRead, finishRead, AsyncSocket.finishRead, Frame.bytes, empty]

theorem exists_takeFrames {order : Endian} (p : Endpoint) (waiting : p.conn.socketConnection.reads = [.header])
    (frames : List Frame) :
    ∃ q, Transition.Reachable (Endpoint.step order) p q ∧ q.conn.socketConnection.reads = [.header] ∧
      q.conn.socketConnection.received =
        p.conn.socketConnection.received ++ frames.flatMap (Frame.bytes order) := by
  induction frames generalizing p with
  | nil => exact ⟨p, .start, waiting, (List.append_nil _).symm⟩
  | cons f rest ih =>
    obtain ⟨middle, run, ready, received⟩ := @exists_takeFrame order p waiting f
    obtain ⟨q, onward, done, total⟩ := ih middle ready
    exact ⟨q, run.trans onward, done, by rw [total, received, List.flatMap_cons, List.append_assoc]⟩

end Endpoint
end MyCQ
