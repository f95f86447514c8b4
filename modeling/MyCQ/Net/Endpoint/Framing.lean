import MyCQ.Net.Endpoint.Validation
import MyCQ.Net.Endpoint.Writer

/-! The bytes a connection writes, as frames.

A message whose header announces the size of its payload is written as one
frame. `aligned` checks a log of frame writes the way the peer reads them.
-/

set_option autoImplicit false

namespace MyCQ
open Octets (Endian)

def Message.Agrees (msg : Message) : Prop := msg.header.size.toNat = msg.payload.size

theorem Message.agrees_ofId (id : UInt32) : (Message.ofId id).Agrees := rfl

theorem Message.agrees_push (msg : Message) (data : List Byte)
    (bound : msg.payload.size + data.length < 2 ^ 32) : (msg.push data).Agrees := by
  simp only [Agrees, push_header_size, push_payload_size, UInt32.toNat_ofNat']
  exact Nat.mod_eq_of_lt bound

namespace Frame

def ops (f : Frame) : List WriteOp :=
  .header f.header :: if 0 < f.size then [.payload f.body] else []

theorem ops_bytes (order : Endian) (f : Frame) : f.ops.flatMap (WriteOp.bytes order) = f.bytes order := by
  unfold ops bytes
  split
  · simp [WriteOp.bytes]
  · next empty =>
    have none : f.body = [] := List.eq_nil_of_length_eq_zero (f.complete.trans (Nat.eq_zero_of_not_pos empty))
    simp [WriteOp.bytes, none]

theorem flatMap_ops_bytes (order : Endian) (frames : List Frame) :
    (frames.flatMap ops).flatMap (WriteOp.bytes order) = frames.flatMap (bytes order) := by
  simp only [List.flatMap_assoc, ops_bytes]

def ofMessages (msgs : List Message) (agree : ∀ msg ∈ msgs, msg.Agrees) : List Frame :=
  msgs.pmap Frame.ofMessage agree

theorem ops_ofMessage (msg : Message) (agree : msg.Agrees) : (ofMessage msg agree).ops = msg.frameOps := by
  have size : (ofMessage msg agree).size = msg.payload.size := agree
  simp only [ops, Message.frameOps, size]
  rfl

theorem ops_ofMessages (msgs : List Message) (agree : ∀ msg ∈ msgs, msg.Agrees) :
    (ofMessages msgs agree).flatMap ops = msgs.flatMap Message.frameOps := by
  induction msgs with
  | nil => rfl
  | cons msg rest ih =>
    have first : msg.Agrees := agree msg List.mem_cons_self
    have others : ∀ m ∈ rest, m.Agrees := fun m member => agree m (List.mem_cons_of_mem msg member)
    have cut : ofMessages (msg :: rest) agree = ofMessage msg first :: ofMessages rest others := rfl
    rw [cut, List.flatMap_cons, List.flatMap_cons, ops_ofMessage, ih others]

end Frame

-- A peer cannot resynchronise: after a header it takes as many bytes as announced,
-- whatever they are.
def alignedFrom : Option Nat → List WriteOp → Bool
  | _, [] => true
  | none, .header header :: rest =>
    alignedFrom (if header.size = 0 then none else some header.size.toNat) rest
  | some size, .payload bytes :: rest => bytes.length == size && alignedFrom none rest
  | _, _ :: _ => false

/-- Each header is followed by exactly the payload it announces, unless it is the last write. -/
def aligned (ops : List WriteOp) : Bool := alignedFrom none ops

theorem alignedFrom_ops (f : Frame) (rest : List WriteOp) :
    alignedFrom none (f.ops ++ rest) = alignedFrom none rest := by
  have size : f.header.size.toNat = f.size := rfl
  by_cases empty : f.size = 0
  · have zero : f.header.size = 0 := UInt32.toNat_inj.mp empty
    simp [Frame.ops, empty, alignedFrom, zero]
  · have nonzero : ¬ f.header.size = 0 := fun zero => empty (size.symm.trans (congrArg UInt32.toNat zero))
    simp [Frame.ops, Nat.pos_of_ne_zero empty, alignedFrom, nonzero, f.complete]

theorem aligned_frames (frames : List Frame) : aligned (frames.flatMap Frame.ops) = true := by
  induction frames with
  | nil => rfl
  | cons f rest ih => rw [List.flatMap_cons, aligned, alignedFrom_ops]; exact ih

theorem alignedFrom_append (expected : Option Nat) (front rest : List WriteOp)
    (whole : alignedFrom expected (front ++ rest) = true) : alignedFrom expected front = true := by
  induction front generalizing expected with
  | nil => cases expected <;> rfl
  | cons op tail ih =>
    cases expected <;> cases op <;> simp only [List.cons_append, alignedFrom] at whole ⊢
    · exact absurd whole (by decide)
    · exact ih _ whole
    · exact absurd whole (by decide)
    · exact absurd whole (by decide)
    · exact absurd whole (by decide)
    · rw [Bool.and_eq_true] at whole ⊢
      exact ⟨whole.1, ih _ whole.2⟩

namespace ConnectionInterface

theorem WriterInvariant.started {c : ConnectionInterface} (inv : WriterInvariant c) :
    ∃ done, c.sendDataCalls = done ++ c.outMsgQueue ++ c.posted ∧
      (∃ rest, (done ++ c.outMsgQueue).flatMap Message.frameOps = c.framesStarted ++ rest) ∧
      (c.outMsgQueue = [] → c.framesStarted = done.flatMap Message.frameOps) := by
  obtain ⟨done, calls, sending⟩ := inv
  refine ⟨done, calls, ?_⟩
  cases sending with
  | quiet queue _ started =>
    exact ⟨⟨[], by rw [queue, started, List.append_nil, List.append_nil]⟩, fun _ => started⟩
  | header msg rest queue _ started =>
    refine ⟨⟨msg.frameOps.tail ++ rest.flatMap Message.frameOps, ?_⟩, fun none => by simp [none] at queue⟩
    rw [queue, started]
    simp [Message.frameOps]
  | payload msg rest queue _ _ started =>
    refine ⟨⟨rest.flatMap Message.frameOps, ?_⟩, fun none => by simp [none] at queue⟩
    rw [queue, started]
    simp
  | failed msg rest begun queue _ _ _ sub started =>
    obtain ⟨remaining, whole⟩ := sub
    refine ⟨⟨remaining ++ rest.flatMap Message.frameOps, ?_⟩, fun none => by simp [none] at queue⟩
    rw [queue, started]
    simp [← whole]

def StartsFrames (c d : ConnectionInterface) : Prop :=
  ∃ more, d.socketConnection.writesStarted = c.socketConnection.writesStarted ++ more ∧
    ∀ op ∈ more, op.isFrame = true

theorem StartsFrames.of_eq {c d : ConnectionInterface}
    (same : d.socketConnection.writesStarted = c.socketConnection.writesStarted) : StartsFrames c d :=
  ⟨[], by rw [same, List.append_nil], fun _ none => absurd none List.not_mem_nil⟩

theorem startsFrames_asyncWrite (c : ConnectionInterface) {op : WriteOp} (frame : op.isFrame = true) :
    StartsFrames c (c.asyncWrite op) :=
  ⟨[op], rfl, fun _ member => List.mem_singleton.mp member ▸ frame⟩

theorem startsFrames_writeHeader (c : ConnectionInterface) : StartsFrames c c.writeHeader := by
  unfold writeHeader
  split
  · exact .of_eq rfl
  · exact startsFrames_asyncWrite c rfl

theorem startsFrames_popFront (c : ConnectionInterface) : StartsFrames c c.popFront := by
  simp only [popFront]
  split
  · exact .of_eq rfl
  · exact startsFrames_writeHeader { c with outMsgQueue := c.outMsgQueue.tail }

theorem startsFrames_onWriteHeader (c : ConnectionInterface) : StartsFrames c c.onWriteHeader := by
  unfold onWriteHeader
  split
  · exact .of_eq rfl
  · split
    · unfold writePayload
      split
      · exact .of_eq rfl
      · exact startsFrames_asyncWrite c rfl
    · exact startsFrames_popFront c

theorem startsFrames_sendDataHandler (c : ConnectionInterface) (msg : Message) :
    StartsFrames c (c.sendDataHandler msg) := by
  simp only [sendDataHandler]
  split
  · exact .of_eq rfl
  · exact startsFrames_writeHeader { c with outMsgQueue := c.outMsgQueue ++ [msg] }

theorem startsFrames_onRead (order : Endian) (c : ConnectionInterface) (op : ReadOp) (bytes : CArray Byte op.length)
    (frame : op ≠ .serverValidationRequest) : StartsFrames c (c.onRead order op bytes).1 := by
  apply StartsFrames.of_eq
  cases op with
  | serverValidationRequest => exact absurd rfl frame
  | checkValidation =>
    simp only [onRead, onReadAndCheckValidation]
    split <;> rfl
  | header =>
    simp only [onRead, onReadHeader]
    split <;> rfl
  | payload size => rfl

theorem startsFrames_onWrite (c : ConnectionInterface) (op : WriteOp) : StartsFrames c (c.onWrite op) := by
  cases op with
  | validationData word =>
    simp only [onWrite, onSendValidationData]
    split <;> exact .of_eq rfl
  | header announced => exact startsFrames_onWriteHeader c
  | payload bytes => exact startsFrames_popFront c

end ConnectionInterface

namespace Endpoint
open ConnectionInterface

variable {order : Endian} {challenge : UInt64}

/-- After the handshake word a server starts only frame writes. -/
theorem startsFrames_step {p q : Endpoint} {a : Action} (server : ServerEnd order challenge p)
    (taken : p.step order a = some q) : StartsFrames p.conn q.conn := by
  cases step_cases taken with
  | sendData msg => exact .of_eq rfl
  | posted msg rest => exact startsFrames_sendDataHandler { p.conn with posted := rest } msg
  | readOk op bytes outstanding =>
    exact startsFrames_onRead order (p.conn.finishRead op bytes.toList) op bytes (server.inbound.reads_ne outstanding)
  | readFailed => exact .of_eq rfl
  | writeOk op => exact startsFrames_onWrite (p.conn.finishWrite op) op
  | writeFailed => exact .of_eq rfl
  | connected => exact .of_eq rfl
  | connectFailed => exact .of_eq rfl

def ChallengeFirst (challenge : UInt64) (p : Endpoint) : Prop :=
  ∃ frames, p.conn.socketConnection.writesStarted = .validationData challenge :: frames ∧
    ∀ op ∈ frames, op.isFrame = true

theorem ChallengeFirst.step {p q : Endpoint} {a : Action} (first : ChallengeFirst challenge p)
    (server : ServerEnd order challenge p) (taken : p.step order a = some q) : ChallengeFirst challenge q := by
  obtain ⟨frames, started, frame⟩ := first
  obtain ⟨more, appended, also⟩ := startsFrames_step server taken
  refine ⟨frames ++ more, by rw [appended, started, List.cons_append], fun op member => ?_⟩
  rcases List.mem_append.mp member with old | new
  · exact frame op old
  · exact also op new

/-- A server writes its challenge first, and then frames. -/
theorem writesStarted_of_reachable {uId : UInt32} {p : Endpoint}
    (run : Transition.Reachable (Endpoint.step order) ⟨.accepted challenge uId, []⟩ p) :
    p.conn.socketConnection.writesStarted = .validationData challenge :: p.conn.framesStarted := by
  have initial : ChallengeFirst challenge ⟨.accepted challenge uId, []⟩ :=
    ⟨[], rfl, fun _ none => absurd none List.not_mem_nil⟩
  obtain ⟨frames, started, frame⟩ := run.invariant_of_reached initial fun _ _ _ before first _ taken =>
    first.step (serverEnd_of_reachable before) taken
  rw [ConnectionInterface.framesStarted, started, List.filter_cons_of_neg Bool.false_ne_true,
    List.filter_eq_self.mpr frame]

end Endpoint

/-- The output of a server connection: the challenge, then writes in which every header is followed
by its payload; whenever the queue is empty these are whole frames. -/
structure WellFramed (order : Endian) (challenge : UInt64) (c : ConnectionInterface) : Prop where
  challenge : c.socketConnection.writesStarted = .validationData challenge :: c.framesStarted
  aligned : aligned c.framesStarted = true
  whole : c.outMsgQueue = [] → ∃ frames : List Frame,
    c.framesStarted.flatMap (WriteOp.bytes order) = frames.flatMap (Frame.bytes order)

theorem wellFramed_of_agrees {order : Endian} {challenge : UInt64} {uId : UInt32} {p : Endpoint}
    (run : Transition.Reachable (Endpoint.step order) ⟨.accepted challenge uId, []⟩ p)
    (agrees : ∀ msg ∈ p.conn.sendDataCalls, msg.Agrees) : WellFramed order challenge p.conn := by
  have initial : (ConnectionInterface.accepted challenge uId).WriterInvariant := ⟨[], rfl, .quiet rfl rfl rfl⟩
  obtain ⟨done, calls, ⟨rest, started⟩, quiet⟩ := (Endpoint.writerInvariant_run initial run).started
  have called : ∀ msg ∈ done ++ p.conn.outMsgQueue, msg.Agrees := by
    intro msg member
    apply agrees msg
    rw [calls]
    exact List.mem_append_left _ member
  refine ⟨Endpoint.writesStarted_of_reachable run, ?_, fun empty => ?_⟩
  · have all := aligned_frames (Frame.ofMessages _ called)
    rw [Frame.ops_ofMessages, started] at all
    exact alignedFrom_append none _ _ all
  · have finished : ∀ msg ∈ done, msg.Agrees := fun msg member => called msg (List.mem_append_left _ member)
    refine ⟨Frame.ofMessages done finished, ?_⟩
    rw [quiet empty, ← Frame.ops_ofMessages done finished, Frame.flatMap_ops_bytes]

end MyCQ
