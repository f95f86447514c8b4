import MyCQ.Net.Endpoint

/-! The sending side of a connection: one frame write at a time, in order.

Whether the writer is active is never stored; it is inferred from the outgoing
queue. `Sending` relates the queue, the outstanding frame write and the log of
started writes. The handshake writes are not frames and are left out of it.
-/

set_option autoImplicit false

namespace MyCQ
open Octets (Endian)

namespace WriteOp

def isFrame : WriteOp → Bool
  | .validationData _ => false
  | .header _ | .payload _ => true

end WriteOp

def Message.frameOps (msg : Message) : List WriteOp :=
  .header msg.header :: if 0 < msg.payload.size then [.payload msg.payload.transmitted] else []

namespace ConnectionInterface

def frameWrites (c : ConnectionInterface) : List WriteOp := c.socketConnection.writes.filter WriteOp.isFrame

def framesStarted (c : ConnectionInterface) : List WriteOp :=
  c.socketConnection.writesStarted.filter WriteOp.isFrame

structure SameWriter (c d : ConnectionInterface) : Prop where
  outMsgQueue : d.outMsgQueue = c.outMsgQueue
  posted : d.posted = c.posted
  sendDataCalls : d.sendDataCalls = c.sendDataCalls
  frameWrites : d.frameWrites = c.frameWrites
  framesStarted : d.framesStarted = c.framesStarted
  closed : c.socketConnection.isOpen = false → d.socketConnection.isOpen = false

theorem SameWriter.trans {c d e : ConnectionInterface} (first : SameWriter c d) (second : SameWriter d e) :
    SameWriter c e where
  outMsgQueue := second.outMsgQueue.trans first.outMsgQueue
  posted := second.posted.trans first.posted
  sendDataCalls := second.sendDataCalls.trans first.sendDataCalls
  frameWrites := second.frameWrites.trans first.frameWrites
  framesStarted := second.framesStarted.trans first.framesStarted
  closed := second.closed ∘ first.closed

theorem sameWriter_asyncRead (c : ConnectionInterface) (op : ReadOp) : SameWriter c (c.asyncRead op) :=
  ⟨rfl, rfl, rfl, rfl, rfl, fun closed => closed⟩

theorem sameWriter_finishRead (c : ConnectionInterface) (op : ReadOp) (bytes : List Byte) :
    SameWriter c (c.finishRead op bytes) :=
  ⟨rfl, rfl, rfl, rfl, rfl, fun closed => closed⟩

theorem sameWriter_close (c : ConnectionInterface) : SameWriter c c.close :=
  ⟨rfl, rfl, rfl, rfl, rfl, fun _ => rfl⟩

theorem sameWriter_finishConnect (c : ConnectionInterface) :
    SameWriter c { c with socketConnection := c.socketConnection.finishConnect } :=
  ⟨rfl, rfl, rfl, rfl, rfl, fun closed => closed⟩

theorem sameWriter_finishHandshake (c : ConnectionInterface) (word : UInt64) :
    SameWriter c (c.finishWrite (.validationData word)) where
  outMsgQueue := rfl
  posted := rfl
  sendDataCalls := rfl
  frameWrites := by
    have absent : WriteOp.validationData word ∉ c.frameWrites := by
      simp [ConnectionInterface.frameWrites, WriteOp.isFrame]
    exact List.erase_filter.symm.trans (List.erase_of_not_mem absent)
  framesStarted := rfl
  closed := fun closed => closed

theorem sameWriter_sendValidationData (c : ConnectionInterface) : SameWriter c c.sendValidationData where
  outMsgQueue := rfl
  posted := rfl
  sendDataCalls := rfl
  frameWrites := by
    simp [ConnectionInterface.frameWrites, sendValidationData, asyncWrite, AsyncSocket.asyncWrite,
      WriteOp.isFrame]
  framesStarted := by
    simp [ConnectionInterface.framesStarted, sendValidationData, asyncWrite, AsyncSocket.asyncWrite,
      WriteOp.isFrame]
  closed := fun closed => closed

theorem sameWriter_onRead (order : Endian) (c : ConnectionInterface) (op : ReadOp)
    (bytes : CArray Byte op.length) : SameWriter c (c.onRead order op bytes).1 := by
  cases op with
  | serverValidationRequest =>
    have stored : SameWriter c { c with
        handshakeIn := bytes.toUInt64 order
        handshakeOut := encryptHandshakeData (bytes.toUInt64 order) } :=
      ⟨rfl, rfl, rfl, rfl, rfl, fun closed => closed⟩
    exact stored.trans (sameWriter_sendValidationData _)
  | checkValidation =>
    simp only [onRead, onReadAndCheckValidation]
    split <;> exact ⟨rfl, rfl, rfl, rfl, rfl, fun closed => by first | exact closed | rfl⟩
  | header =>
    simp only [onRead, onReadHeader]
    split <;> exact ⟨rfl, rfl, rfl, rfl, rfl, fun closed => closed⟩
  | payload size => exact ⟨rfl, rfl, rfl, rfl, rfl, fun closed => closed⟩

theorem sameWriter_onSendValidationData (c : ConnectionInterface) : SameWriter c c.onSendValidationData := by
  unfold onSendValidationData
  split
  · exact sameWriter_asyncRead c _
  · exact ⟨rfl, rfl, rfl, rfl, rfl, fun closed => closed⟩

theorem frameWrites_asyncWrite (c : ConnectionInterface) {op : WriteOp} (frame : op.isFrame = true) :
    (c.asyncWrite op).frameWrites = c.frameWrites ++ [op] := by
  simp [frameWrites, asyncWrite, AsyncSocket.asyncWrite, frame]

theorem framesStarted_asyncWrite (c : ConnectionInterface) {op : WriteOp} (frame : op.isFrame = true) :
    (c.asyncWrite op).framesStarted = c.framesStarted ++ [op] := by
  simp [framesStarted, asyncWrite, AsyncSocket.asyncWrite, frame]

theorem frameWrites_finishWrite (c : ConnectionInterface) (op : WriteOp) :
    (c.finishWrite op).frameWrites = c.frameWrites.erase op :=
  List.erase_filter.symm

theorem mem_frameWrites {c : ConnectionInterface} {op : WriteOp} (outstanding : op ∈ c.socketConnection.writes)
    (frame : op.isFrame = true) : op ∈ c.frameWrites :=
  List.mem_filter.mpr ⟨outstanding, frame⟩

-- The queue is empty exactly when no frame write is outstanding, until a write
-- fails. The front element is dropped only after its last write has completed.
inductive Sending (c : ConnectionInterface) (done : List Message) : Prop where
  | quiet : c.outMsgQueue = [] → c.frameWrites = [] →
      c.framesStarted = done.flatMap Message.frameOps → Sending c done
  | header (msg : Message) (rest : List Message) : c.outMsgQueue = msg :: rest →
      c.frameWrites = [.header msg.header] →
      c.framesStarted = done.flatMap Message.frameOps ++ [.header msg.header] → Sending c done
  | payload (msg : Message) (rest : List Message) : c.outMsgQueue = msg :: rest → 0 < msg.payload.size →
      c.frameWrites = [.payload msg.payload.transmitted] →
      c.framesStarted = done.flatMap Message.frameOps ++ msg.frameOps → Sending c done
  | failed (msg : Message) (rest : List Message) (begun : List WriteOp) : c.outMsgQueue = msg :: rest →
      c.frameWrites = [] → c.socketConnection.isOpen = false → begun ≠ [] → begun <+: msg.frameOps →
      c.framesStarted = done.flatMap Message.frameOps ++ begun → Sending c done

/-- The writer invariant: nothing that was passed to `sendData` is lost, and the frame writes are
those of the messages in that order. -/
def WriterInvariant (c : ConnectionInterface) : Prop :=
  ∃ done, c.sendDataCalls = done ++ c.outMsgQueue ++ c.posted ∧ Sending c done

theorem Sending.congr {c d : ConnectionInterface} {done : List Message} (same : SameWriter c d)
    (sending : Sending c done) : Sending d done := by
  cases sending with
  | quiet queue writes started =>
    exact .quiet (same.outMsgQueue.trans queue) (same.frameWrites.trans writes)
      (same.framesStarted.trans started)
  | header msg rest queue writes started =>
    exact .header msg rest (same.outMsgQueue.trans queue) (same.frameWrites.trans writes)
      (same.framesStarted.trans started)
  | payload msg rest queue pos writes started =>
    exact .payload msg rest (same.outMsgQueue.trans queue) pos (same.frameWrites.trans writes)
      (same.framesStarted.trans started)
  | failed msg rest begun queue writes closed ne sub started =>
    exact .failed msg rest begun (same.outMsgQueue.trans queue) (same.frameWrites.trans writes)
      (same.closed closed) ne sub (same.framesStarted.trans started)

theorem WriterInvariant.congr {c d : ConnectionInterface} (same : SameWriter c d) (inv : WriterInvariant c) :
    WriterInvariant d := by
  obtain ⟨done, calls, sending⟩ := inv
  exact ⟨done, by rw [same.sendDataCalls, same.outMsgQueue, same.posted, calls], sending.congr same⟩

theorem WriterInvariant.sendData {c : ConnectionInterface} (inv : WriterInvariant c) (msg : Message) :
    WriterInvariant (c.sendData msg) := by
  obtain ⟨done, calls, sending⟩ := inv
  refine ⟨done, ?_, ?_⟩
  · simp [ConnectionInterface.sendData, calls]
  · cases sending with
    | quiet queue writes started => exact .quiet queue writes started
    | header m rest queue writes started => exact .header m rest queue writes started
    | payload m rest queue pos writes started => exact .payload m rest queue pos writes started
    | failed m rest begun queue writes closed ne sub started =>
      exact .failed m rest begun queue writes closed ne sub started

/-- Start the next frame: what both `popFront` and `sendDataHandler` do once nothing is in flight. -/
theorem sending_writeHeader {c : ConnectionInterface} {done : List Message} (writes : c.frameWrites = [])
    (started : c.framesStarted = done.flatMap Message.frameOps) (msg : Message) (rest : List Message)
    (queue : c.outMsgQueue = msg :: rest) : Sending c.writeHeader done := by
  have ran : c.writeHeader = c.asyncWrite (.header msg.header) := by simp [writeHeader, queue]
  rw [ran]
  refine .header msg rest queue ?_ ?_
  · rw [frameWrites_asyncWrite c rfl, writes, List.nil_append]
  · rw [framesStarted_asyncWrite c rfl, started]

/-- A message that is added to a busy queue starts nothing. -/
theorem sendDataHandler_busy {c : ConnectionInterface} (busy : c.outMsgQueue ≠ []) (msg : Message) :
    c.sendDataHandler msg = { c with outMsgQueue := c.outMsgQueue ++ [msg] } := by
  simp [sendDataHandler, busy]

theorem sendDataHandler_idle {c : ConnectionInterface} (idle : c.outMsgQueue = []) (msg : Message) :
    c.sendDataHandler msg = { c with outMsgQueue := [msg] }.writeHeader := by
  simp [sendDataHandler, idle]

theorem WriterInvariant.posted {c : ConnectionInterface} (inv : WriterInvariant c) (msg : Message)
    (rest : List Message) (waiting : c.posted = msg :: rest) :
    WriterInvariant ({ c with posted := rest }.sendDataHandler msg) := by
  obtain ⟨done, calls, sending⟩ := inv
  -- The message moves from the posted handlers to the end of the queue.
  have moved : c.sendDataCalls = done ++ (c.outMsgQueue ++ [msg]) ++ rest := by
    rw [calls, waiting]
    simp
  have longer : ∀ m tail, c.outMsgQueue = m :: tail → c.outMsgQueue ++ [msg] = m :: (tail ++ [msg]) := by
    intro m tail queue
    rw [queue]
    rfl
  by_cases idle : c.outMsgQueue = []
  · have alone : { c with posted := rest }.outMsgQueue = [] := idle
    rw [sendDataHandler_idle alone]
    refine ⟨done, ?_, ?_⟩
    · rw [idle, List.nil_append] at moved
      exact moved
    · cases sending with
      | quiet _ writes started => exact sending_writeHeader writes started msg [] rfl
      | header m tail queue => exact absurd (queue.symm.trans idle) (List.cons_ne_nil _ _)
      | payload m tail queue => exact absurd (queue.symm.trans idle) (List.cons_ne_nil _ _)
      | failed m tail begun queue => exact absurd (queue.symm.trans idle) (List.cons_ne_nil _ _)
  -- A queue that is not empty starts nothing, so nothing follows a failure.
  · have busy : { c with posted := rest }.outMsgQueue ≠ [] := idle
    rw [sendDataHandler_busy busy]
    refine ⟨done, moved, ?_⟩
    cases sending with
    | quiet queue => exact absurd queue idle
    | header m tail queue writes started => exact .header m (tail ++ [msg]) (longer m tail queue) writes started
    | payload m tail queue pos writes started =>
      exact .payload m (tail ++ [msg]) (longer m tail queue) pos writes started
    | failed m tail begun queue writes closed ne sub started =>
      exact .failed m (tail ++ [msg]) begun (longer m tail queue) writes closed ne sub started

theorem writerInvariant_popFront {c : ConnectionInterface} {done rest : List Message} {msg : Message}
    (calls : c.sendDataCalls = done ++ c.outMsgQueue ++ c.posted) (queue : c.outMsgQueue = msg :: rest)
    (writes : c.frameWrites = []) (started : c.framesStarted = done.flatMap Message.frameOps ++ msg.frameOps) :
    WriterInvariant c.popFront := by
  have complete : c.framesStarted = (done ++ [msg]).flatMap Message.frameOps := by
    simpa using started
  cases rest with
  | nil =>
    have ran : c.popFront = { c with outMsgQueue := [] } := by simp [popFront, queue]
    rw [ran]
    exact ⟨done ++ [msg], by simp [calls, queue], .quiet rfl writes complete⟩
  | cons next rest =>
    have ran : c.popFront = { c with outMsgQueue := next :: rest }.writeHeader := by
      simp [popFront, queue]
    rw [ran]
    refine ⟨done ++ [msg], ?_, sending_writeHeader writes complete next rest rfl⟩
    simp [writeHeader, asyncWrite, calls, queue]

theorem WriterInvariant.writeOk {c : ConnectionInterface} (inv : WriterInvariant c) (op : WriteOp)
    (outstanding : op ∈ c.socketConnection.writes) : WriterInvariant ((c.finishWrite op).onWrite op) := by
  cases op with
  | validationData word =>
    exact inv.congr ((sameWriter_finishHandshake c word).trans (sameWriter_onSendValidationData _))
  | header announced =>
    obtain ⟨done, calls, sending⟩ := inv
    have inFlight := mem_frameWrites outstanding rfl
    have erased := frameWrites_finishWrite c (.header announced)
    cases sending with
    | quiet _ writes => simp [writes] at inFlight
    | header msg rest queue writes started =>
      rw [writes, List.mem_singleton] at inFlight
      rw [writes, inFlight, List.erase_cons_head] at erased
      rw [inFlight]
      by_cases pos : 0 < msg.payload.size
      · have ran : (c.finishWrite (.header msg.header)).onWrite (.header msg.header) =
            (c.finishWrite (.header msg.header)).asyncWrite (.payload msg.payload.transmitted) := by
          simp [onWrite, onWriteHeader, writePayload, finishWrite, queue, pos]
        rw [ran]
        refine ⟨done, calls, .payload msg rest queue pos ?_ ?_⟩
        · rw [frameWrites_asyncWrite _ rfl, erased, List.nil_append]
        · rw [framesStarted_asyncWrite _ rfl]
          have same : (c.finishWrite (.header msg.header)).framesStarted = c.framesStarted := rfl
          simp [same, started, Message.frameOps, pos]
      · have ran : (c.finishWrite (.header msg.header)).onWrite (.header msg.header) =
            (c.finishWrite (.header msg.header)).popFront := by
          simp [onWrite, onWriteHeader, finishWrite, queue, pos]
        rw [ran]
        refine writerInvariant_popFront calls queue erased ?_
        have same : (c.finishWrite (.header msg.header)).framesStarted = c.framesStarted := rfl
        simp [same, started, Message.frameOps, pos]
    | payload _ _ _ _ writes => simp [writes] at inFlight
    | failed _ _ _ _ writes => simp [writes] at inFlight
  | payload bytes =>
    obtain ⟨done, calls, sending⟩ := inv
    have inFlight := mem_frameWrites outstanding rfl
    have erased := frameWrites_finishWrite c (.payload bytes)
    cases sending with
    | quiet _ writes => simp [writes] at inFlight
    | header _ _ _ writes => simp [writes] at inFlight
    | payload msg rest queue pos writes started =>
      rw [writes, List.mem_singleton] at inFlight
      rw [writes, inFlight, List.erase_cons_head] at erased
      rw [inFlight]
      exact writerInvariant_popFront calls queue erased started
    | failed _ _ _ _ writes => simp [writes] at inFlight

theorem WriterInvariant.writeFailed {c : ConnectionInterface} (inv : WriterInvariant c) (op : WriteOp)
    (outstanding : op ∈ c.socketConnection.writes) : WriterInvariant (c.finishWrite op).close := by
  by_cases frame : op.isFrame = true
  · obtain ⟨done, calls, sending⟩ := inv
    have inFlight := mem_frameWrites outstanding frame
    have erased : (c.finishWrite op).close.frameWrites = c.frameWrites.erase op :=
      frameWrites_finishWrite c op
    cases sending with
    | quiet _ writes => simp [writes] at inFlight
    | header msg rest queue writes started =>
      rw [writes, List.mem_singleton] at inFlight
      rw [writes, inFlight, List.erase_cons_head] at erased
      refine ⟨done, calls, .failed msg rest [.header msg.header] queue ?_ rfl (by simp) ?_ started⟩
      · rw [inFlight]
        exact erased
      · simp [Message.frameOps]
    | payload msg rest queue pos writes started =>
      rw [writes, List.mem_singleton] at inFlight
      rw [writes, inFlight, List.erase_cons_head] at erased
      refine ⟨done, calls, .failed msg rest msg.frameOps queue ?_ rfl ?_ (List.prefix_refl _) started⟩
      · rw [inFlight]
        exact erased
      · simp [Message.frameOps]
    | failed _ _ _ _ writes => simp [writes] at inFlight
  · cases op with
    | validationData word => exact inv.congr ((sameWriter_finishHandshake c word).trans (sameWriter_close _))
    | header _ => exact absurd rfl frame
    | payload _ => exact absurd rfl frame

end ConnectionInterface

namespace Endpoint
open ConnectionInterface

theorem sendDataCalls_handler {order : Endian} {p q : Endpoint} {h : Handler}
    (taken : p.step order (.handler h) = some q) : q.conn.sendDataCalls = p.conn.sendDataCalls := by
  cases step_cases taken with
  | posted msg rest =>
    obtain ⟨_, _, _, same⟩ := writesOnly_sendDataHandler { p.conn with posted := rest } msg
    rw [same]
    rfl
  | readOk op bytes =>
    exact ((sameWriter_finishRead _ op _).trans (sameWriter_onRead order _ op bytes)).sendDataCalls
  | readFailed => rfl
  | writeOk op =>
    cases op with
    | validationData word =>
      exact ((sameWriter_finishHandshake _ word).trans (sameWriter_onSendValidationData _)).sendDataCalls
    | header announced =>
      obtain ⟨_, _, _, same⟩ := writesOnly_onWriteHeader (p.conn.finishWrite (.header announced))
      simp only [ConnectionInterface.onWrite, same]
      rfl
    | payload bytes =>
      obtain ⟨_, _, _, same⟩ := writesOnly_popFront (p.conn.finishWrite (.payload bytes))
      simp only [ConnectionInterface.onWrite, ConnectionInterface.onWritePayload, same]
      rfl
  | writeFailed => rfl
  | connected => rfl
  | connectFailed => rfl

/-- Every action keeps the writer invariant, in either role and in any phase of the handshake. -/
theorem writerInvariant_step {order : Endian} {p q : Endpoint} {a : Action}
    (inv : WriterInvariant p.conn) (taken : p.step order a = some q) : WriterInvariant q.conn := by
  cases step_cases taken with
  | sendData msg => exact inv.sendData msg
  | posted msg rest waiting => exact inv.posted msg rest waiting
  | readOk op bytes =>
    exact inv.congr ((sameWriter_finishRead _ op _).trans (sameWriter_onRead order _ op bytes))
  | readFailed op bytes => exact inv.congr ((sameWriter_finishRead _ op bytes).trans (sameWriter_close _))
  | writeOk op outstanding => exact inv.writeOk op outstanding
  | writeFailed op outstanding => exact inv.writeFailed op outstanding
  | connected => exact inv.congr ((sameWriter_finishConnect p.conn).trans (sameWriter_asyncRead _ _))
  | connectFailed => exact inv.congr (sameWriter_finishConnect p.conn)

theorem writerInvariant_run {order : Endian} {p q : Endpoint} (inv : WriterInvariant p.conn)
    (run : Transition.Reachable (step order) p q) : WriterInvariant q.conn :=
  run.invariant inv fun _ _ _ inv _ taken => writerInvariant_step inv taken

end Endpoint
end MyCQ
