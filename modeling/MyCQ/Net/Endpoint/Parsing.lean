import MyCQ.Net.Endpoint.Validation

/-! The frames that a validated connection makes of the stream of bytes behind its answer.

`Frame.parse` is the reference: it sees the whole stream at once, and it knows
neither reads nor a receive buffer. The connection takes the stream one read at
a time, and the stream may end or fail in any of them.
-/

set_option autoImplicit false

namespace MyCQ
open Octets (Endian)

namespace Frame

def takeFrame (order : Endian) (stream : List Byte) : Option (Frame × List Byte) :=
  if headed : 8 ≤ stream.length then
    let header := MessageHeader.ofBytes order ⟨stream.take 8, List.length_take_of_le headed⟩
    let rest := stream.drop 8
    if announced : header.size.toNat ≤ rest.length then
      some (⟨header, rest.take header.size.toNat, List.length_take_of_le announced⟩,
        rest.drop header.size.toNat)
    else none
  else none

-- Every frame takes at least eight bytes, so a stream has fewer frames than bytes.
def parseFrom (order : Endian) : Nat → List Byte → List Frame
  | 0, _ => []
  | fuel + 1, stream =>
    match takeFrame order stream with
    | none => []
    | some (f, rest) => f :: parseFrom order fuel rest

/-- The reference parser: take an 8-byte header and as many bytes as it announces, until too few are
left. -/
def parse (order : Endian) (stream : List Byte) : List Frame := parseFrom order stream.length stream

def content (f : Frame) : MessageHeader × List Byte := (f.header, f.body)

theorem takeFrame_bytes_append (order : Endian) (f : Frame) (rest : List Byte) :
    takeFrame order (f.bytes order ++ rest) = some (f, rest) := by
  obtain ⟨header, body, complete⟩ := f
  have length := (header.bytes order).length_eq
  have split : Frame.bytes order ⟨header, body, complete⟩ ++ rest = (header.bytes order).toList ++ (body ++ rest) :=
    List.append_assoc _ _ _
  have headed : 8 ≤ ((header.bytes order).toList ++ (body ++ rest)).length := by
    rw [List.length_append, length]
    exact Nat.le_add_right 8 _
  have head : ((header.bytes order).toList ++ (body ++ rest)).take 8 = (header.bytes order).toList :=
    List.take_left' length
  have tail : ((header.bytes order).toList ++ (body ++ rest)).drop 8 = body ++ rest := List.drop_left' length
  have announced : header.size.toNat ≤ (body ++ rest).length := by
    rw [List.length_append, complete]
    exact Nat.le_add_right _ _
  have octets : (⟨(header.bytes order).toList, length⟩ : CArray Byte 8) = header.bytes order := rfl
  rw [split]
  unfold takeFrame
  simp only [headed, head, tail, octets, MessageHeader.ofBytes_bytes, announced, dite_true,
    List.take_left' complete, List.drop_left' complete]

theorem takeFrame_incomplete (order : Endian) {rest : List Byte} (incomplete : Incomplete order rest) :
    takeFrame order rest = none := by
  rcases incomplete with short | ⟨header, tail, rfl, short⟩
  · exact dif_neg (Nat.not_le.mpr short)
  · have length := (header.bytes order).length_eq
    have head : ((header.bytes order).toList ++ tail).take 8 = (header.bytes order).toList :=
      List.take_left' length
    have behind : ((header.bytes order).toList ++ tail).drop 8 = tail := List.drop_left' length
    have octets : (⟨(header.bytes order).toList, length⟩ : CArray Byte 8) = header.bytes order := rfl
    have unannounced : ¬ header.size.toNat ≤ tail.length := Nat.not_le.mpr short
    unfold takeFrame
    simp only [head, behind, octets, MessageHeader.ofBytes_bytes, unannounced, dite_false, dite_eq_ite,
      ite_self]

theorem parseFrom_flatMap (order : Endian) (frames : List Frame) {rest : List Byte}
    (incomplete : Incomplete order rest) (fuel : Nat) (enough : frames.length ≤ fuel) :
    parseFrom order fuel (frames.flatMap (bytes order) ++ rest) = frames := by
  induction frames generalizing fuel with
  | nil =>
    cases fuel with
    | zero => rfl
    | succ fuel =>
      rw [List.flatMap_nil, List.nil_append, parseFrom, takeFrame_incomplete order incomplete]
  | cons f frames ih =>
    cases fuel with
    | zero => cases enough
    | succ fuel =>
      rw [List.flatMap_cons, List.append_assoc, parseFrom, takeFrame_bytes_append]
      exact congrArg (f :: ·) (ih fuel (Nat.le_of_succ_le_succ enough))

theorem length_le_flatMap (order : Endian) (frames : List Frame) :
    frames.length ≤ (frames.flatMap (bytes order)).length := by
  induction frames with
  | nil => exact Nat.le_refl 0
  | cons f frames ih =>
    rw [List.flatMap_cons, List.length_append, length_bytes, List.length_cons]
    omega

/-- The reference parser recovers frames from their bytes and drops an incomplete rest. -/
theorem parse_flatMap (order : Endian) (frames : List Frame) {rest : List Byte}
    (incomplete : Incomplete order rest) : parse order (frames.flatMap (bytes order) ++ rest) = frames := by
  apply parseFrom_flatMap order frames incomplete
  rw [List.length_append]
  exact Nat.le_trans (length_le_flatMap order frames) (Nat.le_add_right _ _)

theorem takeFrame_some {order : Endian} {stream rest : List Byte} {f : Frame}
    (found : takeFrame order stream = some (f, rest)) : stream = f.bytes order ++ rest := by
  unfold takeFrame at found
  split at found
  · next headed =>
    dsimp only at found
    split at found
    · next announced =>
      obtain ⟨rfl, rfl⟩ := Prod.mk.inj (Option.some.inj found)
      rw [bytes, MessageHeader.bytes_ofBytes, List.append_assoc, List.take_append_drop,
        List.take_append_drop]
    · cases found
  · cases found

theorem takeFrame_none {order : Endian} {stream : List Byte} (found : takeFrame order stream = none) :
    Incomplete order stream := by
  unfold takeFrame at found
  split at found
  · next headed =>
    dsimp only at found
    split at found
    · cases found
    · next unannounced =>
      refine Or.inr ⟨_, stream.drop 8, ?_, Nat.lt_of_not_le unannounced⟩
      rw [MessageHeader.bytes_ofBytes, List.take_append_drop]
  · next short => exact Or.inl (Nat.lt_of_not_le short)

theorem exists_split (order : Endian) (stream : List Byte) :
    ∃ (frames : List Frame) (rest : List Byte),
      stream = frames.flatMap (bytes order) ++ rest ∧ Incomplete order rest := by
  suffices general : ∀ length, ∀ stream : List Byte, stream.length ≤ length →
      ∃ (frames : List Frame) (rest : List Byte),
        stream = frames.flatMap (bytes order) ++ rest ∧ Incomplete order rest from
    general _ stream (Nat.le_refl _)
  intro length
  induction length with
  | zero =>
    intro stream short
    exact ⟨[], stream, rfl, Or.inl (by omega)⟩
  | succ length ih =>
    intro stream bound
    cases found : takeFrame order stream with
    | none => exact ⟨[], stream, rfl, takeFrame_none found⟩
    | some taken =>
      obtain ⟨f, behind⟩ := taken
      have split := takeFrame_some found
      have shorter : behind.length ≤ length := by
        have lengths := congrArg List.length split
        rw [List.length_append, length_bytes] at lengths
        omega
      obtain ⟨frames, rest, same, incomplete⟩ := ih behind shorter
      exact ⟨f :: frames, rest, by rw [split, same, List.flatMap_cons, List.append_assoc], incomplete⟩

end Frame

def Message.content (msg : Message) : MessageHeader × List Byte :=
  (msg.header, msg.payload.storage.take msg.header.size.toNat)

theorem Frame.content_into (f : Frame) (buffer : Message) : (f.into buffer).content = f.content := by
  have complete : f.body.length = f.size := f.complete
  have visible : (f.into buffer).payload.storage.take f.size = f.body := by
    by_cases empty : f.size = 0
    · rw [empty, List.take_zero]
      exact (List.eq_nil_of_length_eq_zero (complete.trans empty)).symm
    · have fits : 4 * 0 + f.body.length ≤ (buffer.payload.resize f.size).storage.length := by
        rw [Payload.length_eq, Payload.size_resize]
        omega
      simp only [Frame.into, Nat.pos_of_ne_zero empty, if_true, Payload.memcpy]
      rw [Buffer.overwrite_inside _ _ _ fits, Nat.mul_zero, List.take_zero, List.nil_append]
      exact List.take_left' complete
  exact Prod.ext rfl visible

theorem Frame.content_enqueued (frames : List Frame) :
    (Frame.enqueued frames).map Message.content = frames.map Frame.content := by
  suffices general : ∀ buffer : Message,
      (Frame.enqueuedFrom buffer frames).map Message.content = frames.map Frame.content from general _
  induction frames with
  | nil => exact fun _ => rfl
  | cons f rest ih =>
    intro buffer
    rw [Frame.enqueuedFrom, List.map_cons, List.map_cons, Frame.content_into, ih]

namespace Endpoint
open ConnectionInterface

variable {order : Endian} {challenge : UInt64} {stream : List Byte} {p q : Endpoint} {a : Action}

/-- A validated connection that has taken `stream` off its socket since the answer. -/
structure Validated (order : Endian) (stream : List Byte) (p : Endpoint) : Prop where
  accepted : ∃ challenge uId, Transition.Reachable (step order) ⟨.accepted challenge uId, []⟩ p
  handshakeFlag : p.conn.handshakeFlag = true
  received : ∃ answer : CArray Byte 8, p.conn.socketConnection.received = answer.toList ++ stream

structure Stopped (order : Endian) (p : Endpoint) : Prop where
  closed : p.conn.socketConnection.isOpen = false
  reads : p.conn.socketConnection.reads = []
  silent : ∀ q, Transition.Reachable (step order) p q → q.conn.socketConnection.isOpen = false ∧
    q.conn.socketConnection.readsStarted = p.conn.socketConnection.readsStarted ∧
    q.conn.socketConnection.received = p.conn.socketConnection.received ∧ q.enqueued = p.enqueued

theorem Validated.serverEnd (validated : Validated order stream p) : ∃ challenge, ServerEnd order challenge p := by
  obtain ⟨challenge, uId, run⟩ := validated.accepted
  exact ⟨challenge, serverEnd_of_reachable run⟩

theorem Validated.serving (validated : Validated order stream p) : ∃ answer : CArray Byte 8,
    p.conn.socketConnection.received = answer.toList ++ stream ∧ Serving order answer.toList p := by
  obtain ⟨challenge, server⟩ := validated.serverEnd
  have flag := validated.handshakeFlag
  obtain ⟨answer, received⟩ := validated.received
  cases server.inbound with
  | awaiting _ _ _ _ clear => simp [clear] at flag
  | serving first _ _ serving =>
    obtain ⟨frames, rest, split, _, _⟩ := serving.frames
    rw [received, List.append_assoc] at split
    have same : answer.toList = first.toList :=
      List.append_inj_left split (answer.length_eq.trans first.length_eq.symm)
    exact ⟨answer, received, same ▸ serving⟩
  | refused _ _ _ _ clear => simp [clear] at flag

theorem sameReader_step (server : ServerEnd order challenge p) (idle : p.conn.socketConnection.reads = [])
    (taken : p.step order a = some q) : SameReader p.conn q.conn ∧ q.enqueued = p.enqueued := by
  cases step_cases taken with
  | sendData msg => exact ⟨sameReader_sendData p.conn msg, rfl⟩
  | posted msg rest => exact ⟨sameReader_posted p.conn rest msg, rfl⟩
  | readOk op bytes outstanding => simp [idle] at outstanding
  | readFailed op bytes outstanding => simp [idle] at outstanding
  | writeOk op => exact ⟨sameReader_writeOk p.conn op server.constants.owner, rfl⟩
  | writeFailed op => exact ⟨(writesOnly_finishWrite p.conn op).sameReader.trans (sameReader_close _), rfl⟩
  | connected pending => simp [server.constants.connecting] at pending
  | connectFailed pending => simp [server.constants.connecting] at pending

theorem sameReader_run (server : ServerEnd order challenge p) (idle : p.conn.socketConnection.reads = [])
    (run : Transition.Reachable (step order) p q) :
    ServerEnd order challenge q ∧ SameReader p.conn q.conn ∧ q.enqueued = p.enqueued := by
  induction run with
  | start => exact ⟨server, (WritesOnly.refl _).sameReader, rfl⟩
  | next _ _ taken ih =>
    obtain ⟨middle, before, enqueued⟩ := ih
    obtain ⟨after, same⟩ := sameReader_step middle (before.reads.trans idle) taken
    exact ⟨middle.step taken, before.trans after, same.trans enqueued⟩

theorem ServerEnd.stopped (server : ServerEnd order challenge p) (idle : p.conn.socketConnection.reads = [])
    (closed : p.conn.socketConnection.isOpen = false) : Stopped order p where
  closed := closed
  reads := idle
  silent q run := by
    obtain ⟨_, same, enqueued⟩ := sameReader_run server idle run
    exact ⟨same.closed closed, same.readsStarted, same.received, enqueued⟩

theorem Validated.parsed (validated : Validated order stream p) :
    p.enqueued.map Message.content = (Frame.parse order stream).map Frame.content := by
  obtain ⟨answer, received, serving⟩ := validated.serving
  obtain ⟨frames, rest, split, incomplete, enqueued⟩ := serving.frames
  rw [received, List.append_assoc] at split
  rw [List.append_cancel_left split, Frame.parse_flatMap order frames incomplete, enqueued,
    Frame.content_enqueued]

theorem Validated.reading (validated : Validated order stream p) :
    (∃ op, p.conn.socketConnection.reads = [op]) ∨ Stopped order p := by
  obtain ⟨challenge, server⟩ := validated.serverEnd
  obtain ⟨answer, received, serving⟩ := validated.serving
  cases serving with
  | idle _ reads => exact Or.inl ⟨_, reads⟩
  | announced _ header _ reads => exact Or.inl ⟨_, reads⟩
  | ended _ _ _ reads closed => exact Or.inr (server.stopped reads closed)

theorem Validated.readFailed (validated : Validated order stream p) {op : ReadOp} {bytes : List Byte}
    (taken : p.step order (.handler (.readFailed op bytes)) = some q) :
    Validated order (stream ++ bytes) q ∧ Stopped order q ∧ q.enqueued = p.enqueued := by
  obtain ⟨challenge, uId, run⟩ := validated.accepted
  obtain ⟨answer, received⟩ := validated.received
  have after : Transition.Reachable (step order) ⟨.accepted challenge uId, []⟩ q := run.next trivial taken
  have server := serverEnd_of_reachable run
  have flag := validated.handshakeFlag
  cases step_cases taken with
  | readFailed _ _ outstanding =>
    refine ⟨⟨⟨challenge, uId, after⟩, flag, answer, ?_⟩, ?_, rfl⟩
    · exact (congrArg (· ++ bytes) received).trans (List.append_assoc _ _ _)
    · -- The failed read was the only one.
      have one := server.reads_length
      have none : (p.conn.socketConnection.reads.erase op).length = 0 := by
        rw [List.length_erase_of_mem outstanding]
        omega
      exact (serverEnd_of_reachable after).stopped (List.eq_nil_of_length_eq_zero none) rfl

theorem step_readFailed_of_mem (order : Endian) {op : ReadOp} {bytes : List Byte}
    (outstanding : op ∈ p.conn.socketConnection.reads) (short : bytes.length < op.length) :
    p.step order (.handler (.readFailed op bytes)) = some ⟨(p.conn.finishRead op bytes).close, p.enqueued⟩ := by
  simp [step, ConnectionInterface.runHandler, outstanding, short]

/-- A validated connection can be sent any frames. -/
theorem exists_validated (order : Endian) (frames : List Frame) :
    ∃ p, Validated order (frames.flatMap (Frame.bytes order)) p ∧ p.conn.socketConnection.reads = [.header] := by
  let answer := CArray.ofUInt64 order (encryptHandshakeData 0)
  have solved : answer.toUInt64 order = encryptHandshakeData 0 := CArray.toUInt64_ofUInt64 _ _
  have asked := @step_readOk_of_mem order ⟨.accepted 0 0, []⟩ .checkValidation answer
    (List.mem_singleton.mpr rfl)
  let serving := { (accepted 0 0).finishRead .checkValidation answer.toList with
    handshakeIn := answer.toUInt64 order, handshakeFlag := true }.readHeader
  have ran : ((accepted 0 0).finishRead .checkValidation answer.toList).onRead order .checkValidation answer =
      (serving, none) := congrArg (fun c => (c, none)) (if_pos solved)
  rw [ran] at asked
  obtain ⟨p, run, waiting, received⟩ := @exists_takeFrames order ⟨serving, []⟩ rfl frames
  have reached : Transition.Reachable (step order) ⟨.accepted 0 0, []⟩ p :=
    (Transition.Run.next .start trivial asked).trans run
  have flag : p.conn.handshakeFlag = true := by
    cases (serverEnd_of_reachable reached).inbound with
    | awaiting reads => simp [reads] at waiting
    | serving _ _ flag => exact flag
    | refused reads => simp [reads] at waiting
  exact ⟨p, ⟨⟨0, 0, reached⟩, flag, answer, received⟩, waiting⟩

theorem Validated.announce (validated : Validated order stream p)
    (waiting : p.conn.socketConnection.reads = [.header]) {header : MessageHeader} (pos : 0 < header.size) :
    ∃ q, Validated order (stream ++ (header.bytes order).toList) q ∧
      .payload header.size.toNat ∈ q.conn.socketConnection.reads := by
  obtain ⟨challenge, uId, run⟩ := validated.accepted
  obtain ⟨answer, received⟩ := validated.received
  have taken := @step_readOk_of_mem order p .header (header.bytes order) (waiting ▸ List.mem_singleton.mpr rfl)
  have ran : (p.conn.finishRead .header (header.bytes order).toList).onRead order .header (header.bytes order) =
      ({ p.conn.finishRead .header (header.bytes order).toList with
        tmpInputMsg := ⟨header, p.conn.tmpInputMsg.payload.resize header.size.toNat⟩ }.readPayload, none) := by
    simp [ConnectionInterface.onRead, onReadHeader, pos, finishRead]
  rw [ran] at taken
  refine ⟨_, ⟨⟨challenge, uId, run.next trivial taken⟩, validated.handshakeFlag, answer, ?_⟩, ?_⟩
  · exact (congrArg (· ++ (header.bytes order).toList) received).trans (List.append_assoc _ _ _)
  · exact List.mem_append_right _ (List.mem_singleton.mpr rfl)

theorem exists_stopped (order : Endian) (stream : List Byte) :
    ∃ p, Validated order stream p ∧ Stopped order p := by
  obtain ⟨frames, rest, rfl, incomplete⟩ := Frame.exists_split order stream
  obtain ⟨p, validated, waiting⟩ := exists_validated order frames
  -- The last read fails, with what is left of the stream.
  rcases incomplete with short | ⟨header, tail, rfl, short⟩
  · have taken := @step_readFailed_of_mem p order .header rest (waiting ▸ List.mem_singleton.mpr rfl) short
    obtain ⟨after, stopped, _⟩ := validated.readFailed taken
    exact ⟨_, after, stopped⟩
  · have pos : 0 < header.size := header.size_pos_iff.mpr (Nat.zero_lt_of_lt short)
    obtain ⟨q, announced, outstanding⟩ := validated.announce waiting pos
    obtain ⟨after, stopped, _⟩ := announced.readFailed (step_readFailed_of_mem order outstanding short)
    rw [List.append_assoc] at after
    exact ⟨_, after, stopped⟩

structure StreamParsing (order : Endian) : Prop where
  parsed : ∀ stream p, Validated order stream p →
    p.enqueued.map Message.content = (Frame.parse order stream).map Frame.content
  reading : ∀ stream p, Validated order stream p →
    (∃ op, p.conn.socketConnection.reads = [op]) ∨ Stopped order p
  ends : ∀ stream p op bytes q, Validated order stream p →
    p.step order (.handler (.readFailed op bytes)) = some q →
    Validated order (stream ++ bytes) q ∧ Stopped order q ∧ q.enqueued = p.enqueued
  total : ∀ stream, ∃ p, Validated order stream p ∧ Stopped order p

theorem stream_parsing (order : Endian) : StreamParsing order where
  parsed _ _ validated := validated.parsed
  reading _ _ validated := validated.reading
  ends _ _ _ _ _ validated failed := validated.readFailed failed
  total := exists_stopped order

end Endpoint
end MyCQ
