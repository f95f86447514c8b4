import MyCQ.Net.Endpoint.Reader
import MyCQ.Net.Endpoint.Writer

/-! The client's end of a connection, from the call of `ConnectToServer`.

The client waits for the challenge, writes its answer, and reads frames once
the answer has been written. Handshake writes are tracked apart from frame
writes, which may be started at any time.
-/

set_option autoImplicit false

namespace MyCQ
open Octets (Endian)

namespace ConnectionInterface

/-- The client's connection as `Connect` leaves it, with the connect operation pending. -/
def connecting : ConnectionInterface := (create .client (.fresh false) 0).connectToServer

def handshakeWrites (c : ConnectionInterface) : List WriteOp :=
  c.socketConnection.writes.filter fun op => !op.isFrame

structure SameHandshake (c d : ConnectionInterface) : Prop extends SameReader c d where
  handshakeWrites : d.handshakeWrites = c.handshakeWrites

theorem SameHandshake.trans {c d e : ConnectionInterface} (first : SameHandshake c d)
    (second : SameHandshake d e) : SameHandshake c e :=
  ⟨first.toSameReader.trans second.toSameReader, second.handshakeWrites.trans first.handshakeWrites⟩

theorem sameHandshake_asyncWrite (c : ConnectionInterface) {op : WriteOp} (frame : op.isFrame = true) :
    SameHandshake c (c.asyncWrite op) :=
  ⟨(writesOnly_asyncWrite c op).sameReader, by
    simp [ConnectionInterface.handshakeWrites, asyncWrite, AsyncSocket.asyncWrite, frame]⟩

theorem sameHandshake_queue (c : ConnectionInterface) (queue : List Message) :
    SameHandshake c { c with outMsgQueue := queue } :=
  ⟨(writesOnly_queue c queue).sameReader, rfl⟩

theorem sameHandshake_writeHeader (c : ConnectionInterface) : SameHandshake c c.writeHeader := by
  unfold writeHeader
  split
  · exact sameHandshake_queue c c.outMsgQueue
  · exact sameHandshake_asyncWrite c rfl

theorem sameHandshake_popFront (c : ConnectionInterface) : SameHandshake c c.popFront := by
  simp only [popFront]
  split
  · exact sameHandshake_queue c _
  · exact (sameHandshake_queue c _).trans (sameHandshake_writeHeader _)

theorem sameHandshake_onWriteHeader (c : ConnectionInterface) : SameHandshake c c.onWriteHeader := by
  unfold onWriteHeader
  split
  · exact sameHandshake_queue c c.outMsgQueue
  · split
    · unfold writePayload
      split
      · exact sameHandshake_queue c c.outMsgQueue
      · exact sameHandshake_asyncWrite c rfl
    · exact sameHandshake_popFront c

theorem sameHandshake_sendDataHandler (c : ConnectionInterface) (msg : Message) :
    SameHandshake c (c.sendDataHandler msg) := by
  simp only [sendDataHandler]
  split
  · exact sameHandshake_queue c _
  · exact (sameHandshake_queue c _).trans (sameHandshake_writeHeader _)

theorem sameHandshake_posted (c : ConnectionInterface) (rest : List Message) (msg : Message) :
    SameHandshake c ({ c with posted := rest }.sendDataHandler msg) :=
  have unposted : SameHandshake c { c with posted := rest } :=
    ⟨⟨rfl, rfl, rfl, rfl, rfl, rfl, rfl, rfl, rfl, fun closed => closed⟩, rfl⟩
  unposted.trans (sameHandshake_sendDataHandler _ msg)

theorem sameHandshake_finishWrite (c : ConnectionInterface) {op : WriteOp} (frame : op.isFrame = true) :
    SameHandshake c (c.finishWrite op) where
  toSameReader := (writesOnly_finishWrite c op).sameReader
  handshakeWrites := by
    have absent : op ∉ c.handshakeWrites := by
      simp [ConnectionInterface.handshakeWrites, frame]
    exact List.erase_filter.symm.trans (List.erase_of_not_mem absent)

theorem handshakeWrites_sendValidationData (c : ConnectionInterface) :
    c.sendValidationData.handshakeWrites = c.handshakeWrites ++ [.validationData c.handshakeOut] := by
  simp only [handshakeWrites, sendValidationData, asyncWrite, AsyncSocket.asyncWrite, List.filter_append]
  rfl

theorem mem_handshakeWrites {c : ConnectionInterface} {word : UInt64}
    (outstanding : .validationData word ∈ c.socketConnection.writes) :
    .validationData word ∈ c.handshakeWrites :=
  List.mem_filter.mpr ⟨outstanding, rfl⟩

end ConnectionInterface

namespace Endpoint
open ConnectionInterface

-- Before frames are read, at most one of connecting, reading the challenge and
-- writing the answer is outstanding.
inductive ClientPhase (order : Endian) (p : Endpoint) : Prop where
  | connecting : p.conn.socketConnection.connecting = true → p.conn.socketConnection.reads = [] →
      p.conn.handshakeWrites = [] → p.conn.socketConnection.received = [] →
      p.conn.tmpInputMsg = Frame.buffer [] → p.enqueued = [] → ClientPhase order p
  | awaiting : p.conn.socketConnection.connecting = false →
      p.conn.socketConnection.reads = [.serverValidationRequest] → p.conn.handshakeWrites = [] →
      p.conn.socketConnection.received = [] → p.conn.tmpInputMsg = Frame.buffer [] → p.enqueued = [] →
      ClientPhase order p
  | answering (word : CArray Byte 8) : p.conn.socketConnection.connecting = false →
      p.conn.socketConnection.reads = [] →
      p.conn.handshakeWrites = [.validationData (encryptHandshakeData (word.toUInt64 order))] →
      p.conn.socketConnection.received = word.toList → p.conn.tmpInputMsg = Frame.buffer [] →
      p.enqueued = [] → ClientPhase order p
  | serving (word : CArray Byte 8) : p.conn.socketConnection.connecting = false →
      p.conn.handshakeWrites = [] → Serving order word.toList p → ClientPhase order p
  | failed : p.conn.socketConnection.connecting = false → p.conn.socketConnection.reads = [] →
      p.conn.handshakeWrites = [] → p.conn.socketConnection.received.length ≤ 8 → p.enqueued = [] →
      ClientPhase order p

structure ClientEnd (order : Endian) (p : Endpoint) : Prop where
  owner : p.conn.owner = .client
  phase : ClientPhase order p

variable {order : Endian}

theorem ClientPhase.congr {c d : ConnectionInterface} {q : List Message} (same : SameHandshake c d)
    (phase : ClientPhase order ⟨c, q⟩) : ClientPhase order ⟨d, q⟩ := by
  cases phase with
  | connecting connecting reads writes received tmp enqueued =>
    exact .connecting (same.connecting.trans connecting) (same.reads.trans reads)
      (same.handshakeWrites.trans writes) (same.received.trans received) (same.tmpInputMsg.trans tmp) enqueued
  | awaiting connecting reads writes received tmp enqueued =>
    exact .awaiting (same.connecting.trans connecting) (same.reads.trans reads)
      (same.handshakeWrites.trans writes) (same.received.trans received) (same.tmpInputMsg.trans tmp) enqueued
  | answering word connecting reads writes received tmp enqueued =>
    exact .answering word (same.connecting.trans connecting) (same.reads.trans reads)
      (same.handshakeWrites.trans writes) (same.received.trans received) (same.tmpInputMsg.trans tmp) enqueued
  | serving word connecting writes serving =>
    exact .serving word (same.connecting.trans connecting) (same.handshakeWrites.trans writes)
      (serving.congr same.toSameReader)
  | failed connecting reads writes short enqueued =>
    exact .failed (same.connecting.trans connecting) (same.reads.trans reads)
      (same.handshakeWrites.trans writes) (by rw [same.received]; exact short) enqueued

theorem ClientEnd.congr {c d : ConnectionInterface} {q : List Message} (same : SameHandshake c d)
    (client : ClientEnd order ⟨c, q⟩) : ClientEnd order ⟨d, q⟩ :=
  ⟨same.owner.trans client.owner, client.phase.congr same⟩

theorem clientEnd_connecting (order : Endian) : ClientEnd order ⟨.connecting, []⟩ :=
  ⟨rfl, .connecting rfl rfl rfl rfl rfl rfl⟩

theorem owner_onRead (c : ConnectionInterface) (op : ReadOp) (bytes : CArray Byte op.length) :
    (c.onRead order op bytes).1.owner = c.owner := by
  cases op with
  | serverValidationRequest => rfl
  | checkValidation =>
    simp only [ConnectionInterface.onRead, onReadAndCheckValidation]
    split <;> rfl
  | header =>
    simp only [ConnectionInterface.onRead, onReadHeader]
    split <;> rfl
  | payload size => rfl

theorem Serving.frame_onRead {base : List Byte} {p : Endpoint} (serving : Serving order base p) {op : ReadOp}
    (bytes : CArray Byte op.length) (outstanding : op ∈ p.conn.socketConnection.reads) :
    ((p.conn.finishRead op bytes.toList).onRead order op bytes).1.socketConnection.connecting =
        p.conn.socketConnection.connecting ∧
      ((p.conn.finishRead op bytes.toList).onRead order op bytes).1.handshakeWrites =
        p.conn.handshakeWrites := by
  rcases serving.reads_frame outstanding with rfl | ⟨size, rfl⟩
  · simp only [ConnectionInterface.onRead, onReadHeader]
    split <;> exact ⟨rfl, rfl⟩
  · exact ⟨rfl, rfl⟩

theorem ClientEnd.readOk {p : Endpoint} (client : ClientEnd order p) (op : ReadOp)
    (bytes : CArray Byte op.length) (outstanding : op ∈ p.conn.socketConnection.reads) :
    ClientEnd order
      ⟨((p.conn.finishRead op bytes.toList).onRead order op bytes).1,
        p.enqueued ++ ((p.conn.finishRead op bytes.toList).onRead order op bytes).2.toList⟩ := by
  obtain ⟨owner, phase⟩ := client
  refine ⟨(owner_onRead _ op bytes).trans owner, ?_⟩
  cases phase with
  | connecting _ reads => simp [reads] at outstanding
  | awaiting connecting reads writes received tmp enqueued =>
    rw [reads, List.mem_singleton] at outstanding
    subst outstanding
    refine .answering bytes connecting ?_ ?_ ?_ tmp ?_
    · simp [ConnectionInterface.onRead, onReadServerValidationRequest, sendValidationData, asyncWrite,
        AsyncSocket.asyncWrite, finishRead, AsyncSocket.finishRead, reads]
    · apply (handshakeWrites_sendValidationData _).trans
      exact congrArg (· ++ [_]) writes
    · simp [ConnectionInterface.onRead, onReadServerValidationRequest, sendValidationData, asyncWrite,
        AsyncSocket.asyncWrite, finishRead, AsyncSocket.finishRead, received]
    · simp [ConnectionInterface.onRead, enqueued]
  | answering _ _ reads => simp [reads] at outstanding
  | serving word connecting writes serving =>
    have frame := serving.frame_onRead bytes outstanding
    exact .serving word (frame.1.trans connecting) (frame.2.trans writes) (serving.readOk op bytes outstanding)
  | failed _ reads => simp [reads] at outstanding

theorem ClientEnd.readFailed {p : Endpoint} (client : ClientEnd order p) (op : ReadOp) (bytes : List Byte)
    (outstanding : op ∈ p.conn.socketConnection.reads) (short : bytes.length < op.length) :
    ClientEnd order ⟨(p.conn.finishRead op bytes).close, p.enqueued⟩ := by
  obtain ⟨owner, phase⟩ := client
  refine ⟨owner, ?_⟩
  cases phase with
  | connecting _ reads => simp [reads] at outstanding
  | awaiting connecting reads writes received tmp enqueued =>
    rw [reads, List.mem_singleton] at outstanding
    subst outstanding
    refine .failed connecting ?_ writes ?_ enqueued
    · simp [close, AsyncSocket.close, finishRead, AsyncSocket.finishRead, reads]
    · have few : bytes.length < 8 := short
      simp only [close, AsyncSocket.close, finishRead, AsyncSocket.finishRead, received, List.nil_append]
      omega
  | answering _ _ reads => simp [reads] at outstanding
  | serving word connecting writes serving =>
    exact .serving word connecting writes (serving.readFailed op bytes outstanding short)
  | failed _ reads => simp [reads] at outstanding

theorem ClientEnd.handshakeWritten {p : Endpoint} (client : ClientEnd order p) {word : UInt64}
    (outstanding : .validationData word ∈ p.conn.socketConnection.writes) :
    ∃ challenge : CArray Byte 8, word = encryptHandshakeData (challenge.toUInt64 order) ∧
      p.conn.socketConnection.connecting = false ∧ p.conn.socketConnection.reads = [] ∧
      (p.conn.finishWrite (.validationData word)).handshakeWrites = [] ∧
      p.conn.socketConnection.received = challenge.toList ∧ p.conn.tmpInputMsg = Frame.buffer [] ∧
      p.enqueued = [] := by
  have inFlight := mem_handshakeWrites outstanding
  cases client.phase with
  | connecting _ _ writes => simp [writes] at inFlight
  | awaiting _ _ writes => simp [writes] at inFlight
  | answering challenge connecting reads writes received tmp enqueued =>
    rw [writes, List.mem_singleton] at inFlight
    have erased : (p.conn.finishWrite (.validationData word)).handshakeWrites =
        p.conn.handshakeWrites.erase (.validationData word) := List.erase_filter.symm
    rw [writes, inFlight, List.erase_cons_head] at erased
    refine ⟨challenge, WriteOp.validationData.inj inFlight, connecting, reads, ?_, received, tmp, enqueued⟩
    rw [inFlight]
    exact erased
  | serving _ _ writes => simp [writes] at inFlight
  | failed _ _ writes => simp [writes] at inFlight

theorem ClientEnd.step {p q : Endpoint} {a : Action} (client : ClientEnd order p)
    (taken : p.step order a = some q) : ClientEnd order q := by
  cases step_cases taken with
  | sendData msg => exact client.congr ⟨sameReader_sendData p.conn msg, rfl⟩
  | posted msg rest => exact client.congr (sameHandshake_posted p.conn rest msg)
  | readOk op bytes outstanding => exact client.readOk op bytes outstanding
  | readFailed op bytes outstanding short => exact client.readFailed op bytes outstanding short
  | writeOk op outstanding =>
    cases op with
    | validationData word =>
      obtain ⟨challenge, _, connecting, reads, writes, received, tmp, enqueued⟩ :=
        client.handshakeWritten outstanding
      have owner : (p.conn.finishWrite (.validationData word)).owner = .client := client.owner
      simp only [onWrite, onSendValidationData, owner]
      refine ⟨owner, .serving challenge connecting writes (.idle [] ?_ ?_ tmp enqueued)⟩
      · simp [readHeader, asyncRead, AsyncSocket.asyncRead, finishWrite, AsyncSocket.finishWrite, reads]
      · simp [readHeader, asyncRead, AsyncSocket.asyncRead, finishWrite, AsyncSocket.finishWrite, received]
    | header announced =>
      exact client.congr ((sameHandshake_finishWrite p.conn rfl).trans (sameHandshake_onWriteHeader _))
    | payload bytes =>
      exact client.congr ((sameHandshake_finishWrite p.conn rfl).trans (sameHandshake_popFront _))
  | writeFailed op outstanding =>
    cases op with
    | validationData word =>
      obtain ⟨challenge, _, connecting, reads, writes, received, tmp, enqueued⟩ :=
        client.handshakeWritten outstanding
      refine ⟨client.owner, .failed connecting reads writes (Nat.le_of_eq ?_) enqueued⟩
      exact (congrArg List.length received).trans challenge.length_eq
    | header announced =>
      exact client.congr ((sameHandshake_finishWrite p.conn rfl).trans ⟨sameReader_close _, rfl⟩)
    | payload bytes =>
      exact client.congr ((sameHandshake_finishWrite p.conn rfl).trans ⟨sameReader_close _, rfl⟩)
  | connected pending =>
    refine ⟨client.owner, ?_⟩
    cases client.phase with
    | connecting _ reads writes received tmp enqueued =>
      refine .awaiting rfl ?_ writes received tmp enqueued
      simp [readServerValidationRequest, asyncRead, AsyncSocket.asyncRead, AsyncSocket.finishConnect, reads]
    | awaiting connecting => simp [connecting] at pending
    | answering _ connecting => simp [connecting] at pending
    | serving _ connecting => simp [connecting] at pending
    | failed connecting => simp [connecting] at pending
  | connectFailed pending =>
    refine ⟨client.owner, ?_⟩
    cases client.phase with
    | connecting _ reads writes received tmp enqueued =>
      refine .failed rfl reads writes ?_ enqueued
      exact Nat.le_trans (Nat.le_of_eq (congrArg List.length received)) (Nat.zero_le 8)
    | awaiting connecting => simp [connecting] at pending
    | answering _ connecting => simp [connecting] at pending
    | serving _ connecting => simp [connecting] at pending
    | failed connecting => simp [connecting] at pending

/-- The client's end of a connection over all runs. -/
theorem clientEnd_of_reachable {p : Endpoint}
    (run : Transition.Reachable (Endpoint.step order) ⟨.connecting, []⟩ p) : ClientEnd order p :=
  run.invariant (clientEnd_connecting order) fun _ _ _ client _ taken => client.step taken

inductive ReceivedFromServer (order : Endian) (history : List Frame) (p : Endpoint) : Prop where
  | intro (word : CArray Byte 8) : Transition.Reachable (Endpoint.step order) ⟨.connecting, []⟩ p →
      p.conn.socketConnection.received = word.toList ++ history.flatMap (Frame.bytes order) →
      ReceivedFromServer order history p

theorem ReceivedFromServer.enqueued {history : List Frame} {p : Endpoint}
    (received : ReceivedFromServer order history p) : p.enqueued = Frame.enqueued history := by
  obtain ⟨word, run, stream⟩ := received
  have lengths := congrArg List.length stream
  rw [List.length_append, word.length_eq] at lengths
  have silent : (history.flatMap (Frame.bytes order)).length = 0 → Frame.enqueued history = [] := by
    intro zero
    rw [Frame.flatMap_bytes_eq_nil order history (List.eq_nil_of_length_eq_zero zero)]
    rfl
  cases (clientEnd_of_reachable run).phase with
  | connecting _ _ _ nothing =>
    rw [nothing, List.length_nil] at lengths
    omega
  | awaiting _ _ _ nothing =>
    rw [nothing, List.length_nil] at lengths
    omega
  | answering challenge _ _ _ first _ enqueued =>
    rw [first, challenge.length_eq] at lengths
    rw [enqueued, silent (by omega)]
  | serving challenge _ _ serving =>
    obtain ⟨parsed, rest, cut, _, _⟩ := serving.frames
    rw [stream, List.append_assoc] at cut
    have same : word.toList = challenge.toList :=
      List.append_inj_left cut (word.length_eq.trans challenge.length_eq.symm)
    exact serving.enqueued_of_received (same ▸ stream)
  | failed _ _ _ short enqueued => rw [enqueued, silent (by omega)]

theorem exists_receivedFromServer (order : Endian) (history : List Frame) :
    ∃ p, ReceivedFromServer order history p := by
  let word := CArray.ofUInt64 order 0
  let awaiting := { connecting with
    socketConnection := connecting.socketConnection.finishConnect }.readServerValidationRequest
  have connected : (Endpoint.mk connecting []).step order (.handler .connected) = some ⟨awaiting, []⟩ := rfl
  have asked := @step_readOk_of_mem order ⟨awaiting, []⟩ .serverValidationRequest word
    (List.mem_singleton.mpr rfl)
  let answering := (awaiting.finishRead .serverValidationRequest word.toList).onReadServerValidationRequest
    order word
  let serving := (answering.finishWrite (.validationData answering.handshakeOut)).readHeader
  have written := @step_writeOk_of_mem order ⟨answering, []⟩ (.validationData answering.handshakeOut)
    (List.mem_singleton.mpr rfl)
  have begun : Transition.Reachable (Endpoint.step order) ⟨.connecting, []⟩ ⟨serving, []⟩ :=
    ((Transition.Run.next .start trivial connected).next trivial asked).next trivial written
  obtain ⟨p, run, _, received⟩ := @exists_takeFrames order ⟨serving, []⟩ rfl history
  exact ⟨p, word, begun.trans run, received⟩

end Endpoint
end MyCQ
