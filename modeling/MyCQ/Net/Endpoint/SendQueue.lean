import MyCQ.Net.Endpoint.Client
import MyCQ.Net.Endpoint.Framing

/-! How the writes of a connection are serialised.

The writes of frames are serialised by the outgoing queue: at any time at most
one of them is outstanding, and nothing follows a failure. The writes of the
handshake do not consult the queue, and the queue does not consult them.
-/

set_option autoImplicit false

namespace MyCQ
open Octets (Endian)

def Message.wire (order : Endian) (msg : Message) : List Byte :=
  (msg.header.bytes order).toList ++ msg.payload.transmitted

theorem Message.frameOps_bytes (order : Endian) (msg : Message) :
    msg.frameOps.flatMap (WriteOp.bytes order) = msg.wire order := by
  unfold frameOps wire
  by_cases pos : 0 < msg.payload.size
  · simp [WriteOp.bytes, pos]
  · have none : msg.payload.transmitted = [] :=
      List.eq_nil_of_length_eq_zero (msg.payload.length_transmitted.trans (Nat.eq_zero_of_not_pos pos))
    simp [WriteOp.bytes, pos, none]

theorem Message.flatMap_frameOps_bytes (order : Endian) (msgs : List Message) :
    (msgs.flatMap frameOps).flatMap (WriteOp.bytes order) = msgs.flatMap (wire order) := by
  simp only [List.flatMap_assoc, frameOps_bytes]

namespace ConnectionInterface

def frameBytes (order : Endian) (c : ConnectionInterface) : List Byte :=
  c.framesStarted.flatMap (WriteOp.bytes order)

/-- Every message passed to `sendData` has been started as a whole, is in the queue, or is still posted; of those in
the queue the front has been begun, and no other. -/
def Accounted (c : ConnectionInterface) : Prop :=
  ∃ done begun, c.sendDataCalls = done ++ c.outMsgQueue ++ c.posted ∧
    c.framesStarted = done.flatMap Message.frameOps ++ begun ∧
    begun <+: (c.outMsgQueue.take 1).flatMap Message.frameOps ∧ (begun = [] ↔ c.outMsgQueue = [])

/-- Until a write fails, the queue is busy exactly when one frame write is outstanding, and then for its
front. -/
def WritesFront (c : ConnectionInterface) : Prop :=
  (c.outMsgQueue ≠ [] ↔ ∃ op, c.frameWrites = [op]) ∧
    ∀ op ∈ c.frameWrites, ∃ msg rest, c.outMsgQueue = msg :: rest ∧ op ∈ msg.frameOps

/-- The queue waits for a write that will never complete. -/
def Stalled (c : ConnectionInterface) : Prop := c.outMsgQueue ≠ [] ∧ c.frameWrites = []

/-- The log of frame writes is a prefix of what the messages require. -/
theorem WriterInvariant.frameBytes {c : ConnectionInterface} (inv : WriterInvariant c) (order : Endian) :
    c.frameBytes order <+: c.sendDataCalls.flatMap (Message.wire order) := by
  obtain ⟨done, calls, ⟨rest, started⟩, _⟩ := inv.started
  rw [calls, List.flatMap_append, ← Message.flatMap_frameOps_bytes, started, List.flatMap_append, List.append_assoc]
  exact List.prefix_append _ _

theorem WriterInvariant.accounted {c : ConnectionInterface} (inv : WriterInvariant c) : c.Accounted := by
  obtain ⟨done, calls, sending⟩ := inv
  cases sending with
  | quiet queue _ started =>
    exact ⟨done, [], calls, by rw [started, List.append_nil], List.nil_prefix, by simp [queue]⟩
  | header msg rest queue _ started =>
    refine ⟨done, [.header msg.header], calls, started, ?_, by simp [queue]⟩
    rw [queue]
    simp [Message.frameOps]
  | payload msg rest queue _ _ started =>
    refine ⟨done, msg.frameOps, calls, started, ?_, by simp [queue, Message.frameOps]⟩
    rw [queue]
    simp
  | failed msg rest begun queue _ _ some sub started =>
    refine ⟨done, begun, calls, started, ?_, by simp [queue, some]⟩
    rw [queue]
    simpa using sub

theorem WriterInvariant.writesFront {c : ConnectionInterface} (inv : WriterInvariant c) (live : ¬ Stalled c) :
    WritesFront c := by
  obtain ⟨done, _, sending⟩ := inv
  cases sending with
  | quiet queue writes _ => exact ⟨by simp [queue, writes], by simp [writes]⟩
  | header msg rest queue writes _ =>
    refine ⟨by simp [queue, writes], fun op member => ⟨msg, rest, queue, ?_⟩⟩
    rw [writes, List.mem_singleton] at member
    simp [member, Message.frameOps]
  | payload msg rest queue pos writes _ =>
    refine ⟨by simp [queue, writes], fun op member => ⟨msg, rest, queue, ?_⟩⟩
    rw [writes, List.mem_singleton] at member
    simp [member, Message.frameOps, pos]
  | failed msg rest _ queue writes => exact absurd ⟨by simp [queue], writes⟩ live

theorem SameWriter.stalled {c d : ConnectionInterface} (same : SameWriter c d) : Stalled d ↔ Stalled c := by
  rw [Stalled, Stalled, same.outMsgQueue, same.frameWrites]

theorem not_stalled_asyncWrite (c : ConnectionInterface) {op : WriteOp} (frame : op.isFrame = true) :
    ¬ Stalled (c.asyncWrite op) := by
  rintro ⟨_, writes⟩
  rw [frameWrites_asyncWrite c frame] at writes
  exact List.append_ne_nil_of_right_ne_nil _ (List.cons_ne_nil op []) writes

theorem not_stalled_writeHeader (c : ConnectionInterface) : ¬ Stalled c.writeHeader := by
  unfold writeHeader
  split
  · next empty => exact fun stalled => stalled.1 empty
  · exact not_stalled_asyncWrite c rfl

theorem not_stalled_popFront (c : ConnectionInterface) : ¬ Stalled c.popFront := by
  simp only [popFront]
  split
  · next empty => exact fun stalled => stalled.1 (List.isEmpty_iff.mp empty)
  · exact not_stalled_writeHeader _

theorem not_stalled_onWriteHeader (c : ConnectionInterface) : ¬ Stalled c.onWriteHeader := by
  unfold onWriteHeader
  split
  · next empty => exact fun stalled => stalled.1 empty
  · split
    · unfold writePayload
      split
      · next empty => exact fun stalled => stalled.1 empty
      · exact not_stalled_asyncWrite c rfl
    · exact not_stalled_popFront c

theorem length_writes_writeHeader (c : ConnectionInterface) :
    c.writeHeader.socketConnection.writes.length ≤ c.socketConnection.writes.length + 1 := by
  unfold writeHeader
  split
  · exact Nat.le_succ _
  · simp [asyncWrite, AsyncSocket.asyncWrite]

theorem length_writes_popFront (c : ConnectionInterface) :
    c.popFront.socketConnection.writes.length ≤ c.socketConnection.writes.length + 1 := by
  simp only [popFront]
  split
  · exact Nat.le_succ _
  · exact length_writes_writeHeader { c with outMsgQueue := c.outMsgQueue.tail }

theorem length_writes_onWrite (c : ConnectionInterface) (op : WriteOp) :
    (c.onWrite op).socketConnection.writes.length ≤ c.socketConnection.writes.length + 1 := by
  cases op with
  | validationData word =>
    simp only [onWrite, onSendValidationData]
    split <;> exact Nat.le_succ _
  | header announced =>
    simp only [onWrite, onWriteHeader]
    split
    · exact Nat.le_succ _
    · split
      · unfold writePayload
        split
        · exact Nat.le_succ _
        · simp [asyncWrite, AsyncSocket.asyncWrite]
      · exact length_writes_popFront c
  | payload bytes => exact length_writes_popFront c

theorem writes_onRead (order : Endian) (c : ConnectionInterface) {op : ReadOp} (bytes : CArray Byte op.length)
    (frame : op ≠ .serverValidationRequest) :
    (c.onRead order op bytes).1.socketConnection.writes = c.socketConnection.writes := by
  cases op with
  | serverValidationRequest => exact absurd rfl frame
  | checkValidation =>
    simp only [onRead, onReadAndCheckValidation]
    split <;> rfl
  | header =>
    simp only [onRead, onReadHeader]
    split <;> rfl
  | payload size => rfl

end ConnectionInterface

namespace Endpoint
open ConnectionInterface

/-- The states in which the connections of the programs begin: that of the server when it is accepted,
that of the client when it starts to connect. -/
inductive Begins : Endpoint → Prop where
  | accepted (challenge : UInt64) (uId : UInt32) : Begins ⟨.accepted challenge uId, []⟩
  | connecting : Begins ⟨.connecting, []⟩

variable {order : Endian} {start p q r : Endpoint} {a : Action}

theorem Begins.writerInvariant (begins : Begins start) : WriterInvariant start.conn := by
  cases begins with
  | accepted => exact ⟨[], rfl, .quiet rfl rfl rfl⟩
  | connecting => exact ⟨[], rfl, .quiet rfl rfl rfl⟩

theorem Begins.not_stalled (begins : Begins start) : ¬ Stalled start.conn := by
  cases begins with
  | accepted => exact fun stalled => stalled.1 rfl
  | connecting => exact fun stalled => stalled.1 rfl

def NoWriteFails (_ : Endpoint) : Action → Prop
  | .handler (.writeFailed op) => op.isFrame = false
  | _ => True

inductive WriterStep (p : Endpoint) : Action → ConnectionInterface → Prop where
  | sendData (msg : Message) : WriterStep p (.sendData msg) (p.conn.sendData msg)
  | apart (a : Action) (conn : ConnectionInterface) : SameWriter p.conn conn → WriterStep p a conn
  | posted (msg : Message) (rest : List Message) : p.conn.posted = msg :: rest →
      WriterStep p (.handler .posted) ({ p.conn with posted := rest }.sendDataHandler msg)
  | written (op : WriteOp) : op.isFrame = true → op ∈ p.conn.socketConnection.writes →
      WriterStep p (.handler (.writeOk op)) ((p.conn.finishWrite op).onWrite op)
  | failed (op : WriteOp) : op.isFrame = true → op ∈ p.conn.socketConnection.writes →
      WriterStep p (.handler (.writeFailed op)) (p.conn.finishWrite op).close

theorem writerStep (taken : p.step order a = some q) : WriterStep p a q.conn := by
  cases step_cases taken with
  | sendData msg => exact .sendData msg
  | posted msg rest waiting => exact .posted msg rest waiting
  | readOk op bytes =>
    exact .apart _ _ ((sameWriter_finishRead _ op _).trans (sameWriter_onRead order _ op bytes))
  | readFailed op bytes => exact .apart _ _ ((sameWriter_finishRead _ op bytes).trans (sameWriter_close _))
  | writeOk op outstanding =>
    cases op with
    | validationData word =>
      exact .apart _ _ ((sameWriter_finishHandshake _ word).trans (sameWriter_onSendValidationData _))
    | header announced => exact .written _ rfl outstanding
    | payload bytes => exact .written _ rfl outstanding
  | writeFailed op outstanding =>
    cases op with
    | validationData word =>
      exact .apart _ _ ((sameWriter_finishHandshake _ word).trans (sameWriter_close _))
    | header announced => exact .failed _ rfl outstanding
    | payload bytes => exact .failed _ rfl outstanding
  | connected => exact .apart _ _ ((sameWriter_finishConnect _).trans (sameWriter_asyncRead _ _))
  | connectFailed => exact .apart _ _ (sameWriter_finishConnect _)

theorem not_stalled_step (live : ¬ Stalled p.conn) (guard : NoWriteFails p a)
    (taken : p.step order a = some q) : ¬ Stalled q.conn := by
  have moved := writerStep taken
  generalize q.conn = conn at moved
  cases moved with
  | sendData msg => exact live
  | apart _ _ same => exact (not_congr same.stalled).mpr live
  | posted msg rest =>
    by_cases idle : { p.conn with posted := rest }.outMsgQueue = []
    · rw [sendDataHandler_idle idle]
      exact not_stalled_writeHeader _
    · rw [sendDataHandler_busy idle]
      exact fun stalled => live ⟨idle, stalled.2⟩
  | written op frame =>
    cases op with
    | validationData word => cases frame
    | header announced => exact not_stalled_onWriteHeader _
    | payload bytes => exact not_stalled_popFront _
  | failed op frame =>
    rw [NoWriteFails, frame] at guard
    cases guard

theorem stalled_step (stalled : Stalled p.conn) (taken : p.step order a = some q) :
    Stalled q.conn ∧ q.conn.framesStarted = p.conn.framesStarted := by
  have inFlight : ∀ op : WriteOp, op.isFrame = true → op ∉ p.conn.socketConnection.writes := by
    intro op frame outstanding
    have member := mem_frameWrites outstanding frame
    rw [stalled.2] at member
    cases member
  have moved := writerStep taken
  generalize q.conn = conn at moved
  cases moved with
  | sendData msg => exact ⟨stalled, rfl⟩
  | apart _ _ same => exact ⟨same.stalled.mpr stalled, same.framesStarted⟩
  | posted msg rest =>
    have busy : { p.conn with posted := rest }.outMsgQueue ≠ [] := stalled.1
    rw [sendDataHandler_busy busy]
    exact ⟨⟨List.append_ne_nil_of_left_ne_nil stalled.1 _, stalled.2⟩, rfl⟩
  | written op frame outstanding => exact absurd outstanding (inFlight op frame)
  | failed op frame outstanding => exact absurd outstanding (inFlight op frame)

theorem stalled_run (stalled : Stalled p.conn) (run : Transition.Reachable (step order) p q) :
    Stalled q.conn ∧ q.conn.framesStarted = p.conn.framesStarted := by
  induction run with
  | start => exact ⟨stalled, rfl⟩
  | next _ _ taken ih =>
    obtain ⟨still, same⟩ := stalled_step ih.1 taken
    exact ⟨still, same.trans ih.2⟩

/-- A failed frame write leaves its message at the front of the queue. -/
theorem stalled_of_failed (inv : WriterInvariant p.conn) {op : WriteOp} (frame : op.isFrame = true)
    (taken : p.step order (.handler (.writeFailed op)) = some q) :
    Stalled q.conn ∧ q.conn.framesStarted = p.conn.framesStarted := by
  cases step_cases taken with
  | writeFailed _ outstanding =>
    have inFlight := mem_frameWrites outstanding frame
    have erased : (p.conn.finishWrite op).close.frameWrites = p.conn.frameWrites.erase op :=
      frameWrites_finishWrite p.conn op
    obtain ⟨done, _, sending⟩ := inv
    refine ⟨⟨?_, ?_⟩, rfl⟩
    · cases sending with
      | quiet _ writes => simp [writes] at inFlight
      | header msg rest queue => exact fun none => List.cons_ne_nil _ _ (queue.symm.trans none)
      | payload msg rest queue => exact fun none => List.cons_ne_nil _ _ (queue.symm.trans none)
      | failed msg rest _ queue => exact fun none => List.cons_ne_nil _ _ (queue.symm.trans none)
    · rw [erased]
      cases sending with
      | quiet _ writes => simp [writes] at inFlight
      | header msg rest _ writes =>
        rw [writes] at inFlight ⊢
        rw [List.mem_singleton.mp inFlight, List.erase_cons_head]
      | payload msg rest _ _ writes =>
        rw [writes] at inFlight ⊢
        rw [List.mem_singleton.mp inFlight, List.erase_cons_head]
      | failed _ _ _ _ writes => simp [writes] at inFlight

structure SendQueueDiscipline (order : Endian) (start : Endpoint) : Prop where
  accounted : ∀ p, Transition.Reachable (step order) start p → p.conn.Accounted
  inOrder : ∀ p, Transition.Reachable (step order) start p →
    p.conn.frameBytes order <+: p.conn.sendDataCalls.flatMap (Message.wire order)
  writesFront : ∀ p, Transition.Run (step order) NoWriteFails start p → WritesFront p.conn
  stops : ∀ p q r op, Transition.Reachable (step order) start p → op.isFrame = true →
    p.step order (.handler (.writeFailed op)) = some q → Transition.Reachable (step order) q r →
    r.conn.framesStarted = p.conn.framesStarted

theorem send_queue_discipline (begins : Begins start) : SendQueueDiscipline order start where
  accounted p run := (writerInvariant_run begins.writerInvariant run).accounted
  inOrder p run := (writerInvariant_run begins.writerInvariant run).frameBytes order
  writesFront p run := by
    have live : ¬ Stalled p.conn := run.invariant begins.not_stalled fun _ _ _ live guard taken =>
      not_stalled_step live guard taken
    exact (writerInvariant_run begins.writerInvariant run.reachable).writesFront live
  stops p q r op before frame failed after := by
    have inv := writerInvariant_run begins.writerInvariant before
    obtain ⟨stalled, started⟩ := stalled_of_failed inv frame failed
    exact (stalled_run stalled after).2.trans started

theorem send_queue_discipline_accepted : SendQueueDiscipline .little ⟨.accepted 7 0, []⟩ :=
  send_queue_discipline (.accepted 7 0)

/-- The handlers that start a write without regard to the other kind of writes do so only while none is
outstanding: a message posted to an idle queue, and the arrival of the challenge at a client. -/
def StartsAlone (p : Endpoint) : Action → Prop
  | .handler .posted => p.conn.outMsgQueue = [] → p.conn.socketConnection.writes = []
  | .handler (.readOk .serverValidationRequest _) => p.conn.socketConnection.writes = []
  | _ => True

def OneWrite (p : Endpoint) : Prop := p.conn.socketConnection.writes.length ≤ 1

theorem OneWrite.step (one : OneWrite p) (alone : StartsAlone p a) (taken : p.step order a = some q) :
    OneWrite q := by
  cases step_cases taken with
  | sendData msg => exact one
  | posted msg rest =>
    by_cases idle : { p.conn with posted := rest }.outMsgQueue = []
    · have none : p.conn.socketConnection.writes = [] := alone idle
      have started := length_writes_writeHeader { p.conn with posted := rest, outMsgQueue := [msg] }
      rw [OneWrite, sendDataHandler_idle idle]
      simpa [none] using started
    · rw [OneWrite, sendDataHandler_busy idle]
      exact one
  | readOk op bytes =>
    by_cases frame : op = .serverValidationRequest
    · subst frame
      have none : p.conn.socketConnection.writes = [] := alone
      simp [OneWrite, ConnectionInterface.onRead, onReadServerValidationRequest, sendValidationData, asyncWrite,
        AsyncSocket.asyncWrite, finishRead, AsyncSocket.finishRead, none]
    · rw [OneWrite, writes_onRead order (p.conn.finishRead op bytes.toList) bytes frame]
      exact one
  | readFailed => exact one
  | writeOk op outstanding =>
    -- The write that completes was the only one.
    have none : (p.conn.finishWrite op).socketConnection.writes.length = 0 := by
      have erased := List.length_erase_of_mem outstanding
      have bound : p.conn.socketConnection.writes.length ≤ 1 := one
      have same : (p.conn.finishWrite op).socketConnection.writes = p.conn.socketConnection.writes.erase op := rfl
      rw [same, erased]
      omega
    have next := length_writes_onWrite (p.conn.finishWrite op) op
    rw [none] at next
    exact next
  | writeFailed op => exact Nat.le_trans List.length_erase_le one
  | connected => exact one
  | connectFailed => exact one

/-- One write at a time, in every state of a run whose writes start alone. -/
theorem one_write_at_a_time (begins : Begins start) (run : Transition.Run (step order) StartsAlone start p) :
    OneWrite p := by
  have initial : OneWrite start := by
    cases begins with
    | accepted => exact Nat.le_refl 1
    | connecting => exact Nat.zero_le 1
  exact run.invariant initial fun _ _ _ one alone taken => one.step alone taken

def answerWritten : List Action :=
  [.handler .connected, .handler (.readOk .serverValidationRequest (CArray.ofUInt64 .little 7).toList),
    .handler (.writeOk (.validationData (encryptHandshakeData 7))), .sendData (.ofId 1), .handler .posted]

theorem answerWritten_meets :
    Transition.Meets (step .little) StartsAlone ⟨.connecting, []⟩ answerWritten := by
  refine ⟨trivial, fun _ first => ⟨?_, fun _ second => ⟨trivial, fun _ third => ⟨trivial, fun _ fourth =>
    ⟨fun _ => ?_, fun _ _ => trivial⟩⟩⟩⟩⟩
  · cases first
    rfl
  · cases first
    cases second
    cases third
    cases fourth
    rfl

theorem answerWritten_enabled :
    (Transition.perform (step .little) ⟨.connecting, []⟩ answerWritten).isSome = true := by
  decide +kernel

theorem one_write_at_a_time_answerWritten :
    OneWrite ((Transition.perform (step .little) ⟨.connecting, []⟩ answerWritten).get answerWritten_enabled) :=
  one_write_at_a_time .connecting (.of_perform answerWritten _ answerWritten_meets (Option.some_get _).symm)

def acceptedAndGreeted : List Action := [.sendData (.ofId 4), .handler .posted]

theorem acceptedAndGreeted_enabled :
    (Transition.perform (step .little) ⟨.accepted 7 0, []⟩ acceptedAndGreeted).isSome = true := by
  decide

theorem greeting_written_beside_challenge :
    ∃ p, Transition.Reachable (step .little) ⟨.accepted 7 0, []⟩ p ∧ ¬ OneWrite p := by
  refine ⟨_, .of_isSome acceptedAndGreeted _ acceptedAndGreeted_enabled, fun one => ?_⟩
  have two : 1 < ((Transition.perform (step .little) ⟨.accepted 7 0, []⟩ acceptedAndGreeted).get
      acceptedAndGreeted_enabled).conn.socketConnection.writes.length := by decide
  exact absurd one (Nat.not_le.mpr two)

end Endpoint
end MyCQ
