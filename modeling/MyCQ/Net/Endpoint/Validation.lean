import MyCQ.Net.Endpoint.Reader

/-! The server's end of a connection, from the moment it is accepted.

The server asks for eight bytes and compares them with its own solution of the
puzzle. Only the success branch starts to read frames.
-/

set_option autoImplicit false

namespace MyCQ
open Octets (Endian)

def ConnectionInterface.accepted (challenge : UInt64) (uId : UInt32) : ConnectionInterface :=
  (create .server (.fresh true) challenge).connectToClient uId

namespace Endpoint
open ConnectionInterface

def Answered (order : Endian) (challenge : UInt64) (received : List Byte) : Prop :=
  ∃ (answer : CArray Byte 8) (rest : List Byte), received = answer.toList ++ rest ∧
    answer.toUInt64 order = encryptHandshakeData challenge

-- The phases are told apart by the outstanding read. `refused` covers a wrong
-- answer as well as one that was cut off.
inductive Inbound (order : Endian) (challenge : UInt64) (p : Endpoint) : Prop where
  | awaiting : p.conn.socketConnection.reads = [.checkValidation] →
      p.conn.socketConnection.readsStarted = [.checkValidation] →
      p.conn.socketConnection.received = [] → p.conn.tmpInputMsg = Frame.buffer [] →
      p.conn.handshakeFlag = false → p.enqueued = [] → Inbound order challenge p
  | serving (answer : CArray Byte 8) : answer.toUInt64 order = encryptHandshakeData challenge →
      p.conn.handshakeFlag = true → Serving order answer.toList p → Inbound order challenge p
  | refused : p.conn.socketConnection.reads = [] →
      p.conn.socketConnection.readsStarted = [.checkValidation] →
      p.conn.socketConnection.isOpen = false → ¬ Answered order challenge p.conn.socketConnection.received →
      p.conn.handshakeFlag = false → p.enqueued = [] → Inbound order challenge p

structure ServerConstants (challenge : UInt64) (c : ConnectionInterface) : Prop where
  owner : c.owner = .server
  connecting : c.socketConnection.connecting = false
  handshakeOut : c.handshakeOut = challenge
  handshakeCheck : c.handshakeCheck = encryptHandshakeData challenge

structure ServerEnd (order : Endian) (challenge : UInt64) (p : Endpoint) : Prop where
  constants : ServerConstants challenge p.conn
  inbound : Inbound order challenge p

variable {order : Endian} {challenge : UInt64}

theorem Inbound.congr {c d : ConnectionInterface} {q : List Message} (same : SameReader c d)
    (inbound : Inbound order challenge ⟨c, q⟩) : Inbound order challenge ⟨d, q⟩ := by
  cases inbound with
  | awaiting reads started received tmp flag enqueued =>
    exact .awaiting (same.reads.trans reads) (same.readsStarted.trans started)
      (same.received.trans received) (same.tmpInputMsg.trans tmp) (same.handshakeFlag.trans flag) enqueued
  | serving answer solved flag serving =>
    exact .serving answer solved (same.handshakeFlag.trans flag) (serving.congr same)
  | refused reads started closed wrong flag enqueued =>
    exact .refused (same.reads.trans reads) (same.readsStarted.trans started) (same.closed closed)
      (by rw [same.received]; exact wrong) (same.handshakeFlag.trans flag) enqueued

theorem ServerConstants.congr {c d : ConnectionInterface} (same : SameReader c d)
    (server : ServerConstants challenge c) : ServerConstants challenge d where
  owner := same.owner.trans server.owner
  connecting := same.connecting.trans server.connecting
  handshakeOut := same.handshakeOut.trans server.handshakeOut
  handshakeCheck := same.handshakeCheck.trans server.handshakeCheck

theorem ServerEnd.congr {c d : ConnectionInterface} {q : List Message} (same : SameReader c d)
    (server : ServerEnd order challenge ⟨c, q⟩) : ServerEnd order challenge ⟨d, q⟩ :=
  ⟨server.constants.congr same, server.inbound.congr same⟩

theorem serverEnd_accepted (order : Endian) (challenge : UInt64) (uId : UInt32) :
    ServerEnd order challenge ⟨.accepted challenge uId, []⟩ :=
  ⟨⟨rfl, rfl, rfl, rfl⟩, .awaiting rfl rfl rfl rfl rfl rfl⟩

theorem ServerConstants.onRead {c : ConnectionInterface} (server : ServerConstants challenge c)
    (op : ReadOp) (bytes : CArray Byte op.length) (frame : op ≠ .serverValidationRequest) :
    ServerConstants challenge (c.onRead order op bytes).1 := by
  obtain ⟨owner, connecting, out, check⟩ := server
  cases op with
  | serverValidationRequest => exact absurd rfl frame
  | checkValidation =>
    simp only [ConnectionInterface.onRead, onReadAndCheckValidation]
    split <;> exact ⟨owner, connecting, out, check⟩
  | header =>
    simp only [ConnectionInterface.onRead, onReadHeader]
    split <;> exact ⟨owner, connecting, out, check⟩
  | payload size => exact ⟨owner, connecting, out, check⟩

theorem handshakeFlag_onReadHeader (c : ConnectionInterface) (bytes : CArray Byte 8) :
    (c.onReadHeader order bytes).1.handshakeFlag = c.handshakeFlag := by
  simp only [onReadHeader]
  split <;> rfl

theorem Inbound.reads_ne {p : Endpoint} (inbound : Inbound order challenge p) {op : ReadOp}
    (outstanding : op ∈ p.conn.socketConnection.reads) : op ≠ .serverValidationRequest := by
  rintro rfl
  cases inbound with
  | awaiting reads => simp [reads] at outstanding
  | serving _ _ _ serving => rcases serving.reads_frame outstanding with same | ⟨_, same⟩ <;> cases same
  | refused reads => simp [reads] at outstanding

theorem Answered.of_length {answer : CArray Byte 8} (answered : Answered order challenge answer.toList) :
    answer.toUInt64 order = encryptHandshakeData challenge := by
  obtain ⟨head, rest, same, solved⟩ := answered
  have none : rest = [] := by
    have lengths := congrArg List.length same
    rw [List.length_append, answer.length_eq, head.length_eq] at lengths
    exact List.eq_nil_of_length_eq_zero (by omega)
  rw [none, List.append_nil] at same
  rw [CArray.ext same, solved]

theorem Answered.length_le {received : List Byte} (answered : Answered order challenge received) :
    8 ≤ received.length := by
  obtain ⟨head, rest, same, _⟩ := answered
  rw [same, List.length_append, head.length_eq]
  omega

theorem Inbound.readAnswer {p : Endpoint} (constants : ServerConstants challenge p.conn)
    (reads : p.conn.socketConnection.reads = [.checkValidation])
    (started : p.conn.socketConnection.readsStarted = [.checkValidation])
    (received : p.conn.socketConnection.received = []) (tmp : p.conn.tmpInputMsg = Frame.buffer [])
    (flag : p.conn.handshakeFlag = false) (enqueued : p.enqueued = []) (bytes : CArray Byte 8) :
    Inbound order challenge
      ⟨(p.conn.finishRead .checkValidation bytes.toList).onReadAndCheckValidation order bytes, p.enqueued⟩ := by
  by_cases solved : bytes.toUInt64 order = p.conn.handshakeCheck
  · have ran : (p.conn.finishRead .checkValidation bytes.toList).onReadAndCheckValidation order bytes =
        { p.conn.finishRead .checkValidation bytes.toList with
          handshakeIn := bytes.toUInt64 order, handshakeFlag := true }.readHeader := if_pos solved
    rw [ran]
    refine .serving bytes (solved.trans constants.handshakeCheck) rfl (.idle [] ?_ ?_ tmp enqueued)
    · simp [readHeader, asyncRead, AsyncSocket.asyncRead, finishRead, AsyncSocket.finishRead, reads]
    · simp [readHeader, asyncRead, AsyncSocket.asyncRead, finishRead, AsyncSocket.finishRead, received]
  · have ran : (p.conn.finishRead .checkValidation bytes.toList).onReadAndCheckValidation order bytes =
        { p.conn.finishRead .checkValidation bytes.toList with handshakeIn := bytes.toUInt64 order }.close :=
      if_neg solved
    rw [ran]
    refine .refused ?_ started rfl ?_ flag enqueued
    · simp [close, AsyncSocket.close, finishRead, AsyncSocket.finishRead, reads]
    · have taken : { p.conn.finishRead .checkValidation bytes.toList with
          handshakeIn := bytes.toUInt64 order }.close.socketConnection.received = bytes.toList := by
        simp [close, AsyncSocket.close, finishRead, AsyncSocket.finishRead, received]
      rw [taken]
      intro answered
      exact solved (answered.of_length.trans constants.handshakeCheck.symm)

theorem ServerEnd.readOk {p : Endpoint} (server : ServerEnd order challenge p) (op : ReadOp)
    (bytes : CArray Byte op.length) (outstanding : op ∈ p.conn.socketConnection.reads) :
    ServerEnd order challenge
      ⟨((p.conn.finishRead op bytes.toList).onRead order op bytes).1,
        p.enqueued ++ ((p.conn.finishRead op bytes.toList).onRead order op bytes).2.toList⟩ := by
  obtain ⟨constants, inbound⟩ := server
  have finished : ServerConstants challenge (p.conn.finishRead op bytes.toList) :=
    ⟨constants.owner, constants.connecting, constants.handshakeOut, constants.handshakeCheck⟩
  refine ⟨finished.onRead op bytes (inbound.reads_ne outstanding), ?_⟩
  cases inbound with
  | awaiting reads started received tmp flag enqueued =>
    rw [reads, List.mem_singleton] at outstanding
    subst outstanding
    have answered := @Inbound.readAnswer order challenge p constants reads started received tmp flag
      enqueued bytes
    simpa [ConnectionInterface.onRead] using answered
  | serving answer solved flag serving =>
    have advanced := serving.readOk op bytes outstanding
    refine .serving answer solved ?_ advanced
    rcases serving.reads_frame outstanding with rfl | ⟨size, rfl⟩
    · exact (handshakeFlag_onReadHeader _ bytes).trans flag
    · exact flag
  | refused reads => simp [reads] at outstanding

theorem ServerEnd.readFailed {p : Endpoint} (server : ServerEnd order challenge p) (op : ReadOp)
    (bytes : List Byte) (outstanding : op ∈ p.conn.socketConnection.reads)
    (short : bytes.length < op.length) :
    ServerEnd order challenge ⟨(p.conn.finishRead op bytes).close, p.enqueued⟩ := by
  obtain ⟨constants, inbound⟩ := server
  refine ⟨⟨constants.owner, constants.connecting, constants.handshakeOut, constants.handshakeCheck⟩, ?_⟩
  cases inbound with
  | awaiting reads started received _ flag enqueued =>
    rw [reads, List.mem_singleton] at outstanding
    subst outstanding
    refine .refused ?_ started rfl ?_ flag enqueued
    · simp [close, AsyncSocket.close, finishRead, AsyncSocket.finishRead, reads]
    · have taken : (p.conn.finishRead .checkValidation bytes).close.socketConnection.received = bytes := by
        simp [close, AsyncSocket.close, finishRead, AsyncSocket.finishRead, received]
      rw [taken]
      intro answered
      exact absurd answered.length_le (Nat.not_le.mpr short)
  | serving answer solved flag serving =>
    exact .serving answer solved flag (serving.readFailed op bytes outstanding short)
  | refused reads => simp [reads] at outstanding

theorem ServerEnd.step {p q : Endpoint} {a : Action} (server : ServerEnd order challenge p)
    (taken : p.step order a = some q) : ServerEnd order challenge q := by
  cases step_cases taken with
  | sendData msg => exact server.congr (sameReader_sendData p.conn msg)
  | posted msg rest => exact server.congr (sameReader_posted p.conn rest msg)
  | readOk op bytes outstanding => exact server.readOk op bytes outstanding
  | readFailed op bytes outstanding short => exact server.readFailed op bytes outstanding short
  | writeOk op => exact server.congr (sameReader_writeOk p.conn op server.constants.owner)
  | writeFailed op =>
    exact server.congr ((writesOnly_finishWrite p.conn op).sameReader.trans (sameReader_close _))
  | connected pending => simp [server.constants.connecting] at pending
  | connectFailed pending => simp [server.constants.connecting] at pending

/-- The server's end of a connection over all runs. -/
theorem serverEnd_of_reachable {uId : UInt32} {p : Endpoint}
    (run : Transition.Reachable (step order) ⟨.accepted challenge uId, []⟩ p) :
    ServerEnd order challenge p :=
  run.invariant (serverEnd_accepted order challenge uId) fun _ _ _ server _ taken => server.step taken

theorem ServerEnd.answered_of_enqueued {p : Endpoint} (server : ServerEnd order challenge p)
    (pushed : p.enqueued ≠ []) :
    Answered order challenge p.conn.socketConnection.received ∧ p.conn.handshakeFlag = true := by
  cases server.inbound with
  | awaiting _ _ _ _ _ none => exact absurd none pushed
  | serving answer solved flag serving =>
    obtain ⟨frames, rest, received, _, _⟩ := serving.frames
    exact ⟨⟨answer, _, received.trans (List.append_assoc _ _ _), solved⟩, flag⟩
  | refused _ _ _ _ _ none => exact absurd none pushed

theorem ServerEnd.reads_length {p : Endpoint} (server : ServerEnd order challenge p) :
    p.conn.socketConnection.reads.length ≤ 1 := by
  cases server.inbound with
  | awaiting reads => simp [reads]
  | serving _ _ _ serving => exact serving.reads_length
  | refused reads => simp [reads]

/-- Once the handshake is over without a right answer, nothing is ever read again. -/
theorem ServerEnd.refused_of_wrong {p : Endpoint} (server : ServerEnd order challenge p)
    (decided : .checkValidation ∉ p.conn.socketConnection.reads)
    (wrong : ¬ Answered order challenge p.conn.socketConnection.received) :
    p.conn.socketConnection.isOpen = false ∧ p.conn.socketConnection.reads = [] ∧
      p.conn.socketConnection.readsStarted = [.checkValidation] ∧ p.enqueued = [] := by
  cases server.inbound with
  | awaiting reads => simp [reads] at decided
  | serving answer solved _ serving =>
    obtain ⟨frames, rest, received, _, _⟩ := serving.frames
    exact absurd ⟨answer, _, received.trans (List.append_assoc _ _ _), solved⟩ wrong
  | refused reads started closed _ _ enqueued => exact ⟨closed, reads, started, enqueued⟩

theorem handshakeFlag_handler {p q : Endpoint} {h : Handler} (taken : p.step order (.handler h) = some q)
    (flag : p.conn.handshakeFlag = true) : q.conn.handshakeFlag = true := by
  cases step_cases taken with
  | posted msg rest => exact (sameReader_posted p.conn rest msg).handshakeFlag.trans flag
  | readOk op bytes =>
    cases op with
    | serverValidationRequest => exact flag
    | checkValidation =>
      simp only [ConnectionInterface.onRead, onReadAndCheckValidation]
      split
      · rfl
      · exact flag
    | header => exact (handshakeFlag_onReadHeader _ bytes).trans flag
    | payload size => exact flag
  | readFailed => exact flag
  | writeOk op =>
    cases op with
    | validationData word =>
      simp only [ConnectionInterface.onWrite, onSendValidationData]
      split <;> exact flag
    | header announced => exact (writesOnly_onWriteHeader _).sameReader.handshakeFlag.trans flag
    | payload bytes => exact (writesOnly_popFront _).sameReader.handshakeFlag.trans flag
  | writeFailed => exact flag
  | connected => exact flag
  | connectFailed => exact flag

theorem checkAnswer {uId : UInt32} {p q : Endpoint} {answer : CArray Byte 8}
    (run : Transition.Reachable (Endpoint.step order) ⟨.accepted challenge uId, []⟩ p)
    (taken : p.step order (.handler (.readOk .checkValidation answer.toList)) = some q) :
    if answer.toUInt64 order = encryptHandshakeData challenge then
      q.conn.handshakeFlag = true ∧ q.conn.socketConnection.reads = [.header]
    else
      q.conn.handshakeFlag = false ∧ q.conn.socketConnection.reads = [] ∧
        q.conn.socketConnection.isOpen = false := by
  obtain ⟨constants, inbound⟩ := serverEnd_of_reachable run
  obtain ⟨outstanding, result⟩ := Option.ite_none_right_eq_some.mp
    ((step_readOk order p .checkValidation answer).symm.trans taken)
  cases result
  cases inbound with
  | awaiting reads started received tmp flag enqueued =>
    have check : (p.conn.finishRead .checkValidation answer.toList).handshakeCheck =
        encryptHandshakeData challenge := constants.handshakeCheck
    simp only [ConnectionInterface.onRead, onReadAndCheckValidation, check]
    split
    · refine ⟨rfl, ?_⟩
      simp [readHeader, asyncRead, AsyncSocket.asyncRead, finishRead, AsyncSocket.finishRead, reads]
    · refine ⟨flag, ?_, rfl⟩
      simp [close, AsyncSocket.close, finishRead, AsyncSocket.finishRead, reads]
  | serving _ _ _ serving =>
    rcases serving.reads_frame outstanding with other | ⟨_, other⟩ <;> cases other
  | refused reads => simp [reads] at outstanding

/-- An answer that validates a connection with the challenge `first` is rejected by every connection
with the challenge `second`. -/
def RejectsAnswersTo (order : Endian) (first second : UInt64) : Prop :=
  ∀ (uId vId : UInt32) (p q p' q' : Endpoint) (answer : CArray Byte 8),
    Transition.Reachable (Endpoint.step order) ⟨.accepted first uId, []⟩ p →
    Transition.Reachable (Endpoint.step order) ⟨.accepted second vId, []⟩ q →
    p.step order (.handler (.readOk .checkValidation answer.toList)) = some p' →
    q.step order (.handler (.readOk .checkValidation answer.toList)) = some q' →
    p'.conn.handshakeFlag = true →
    q'.conn.handshakeFlag = false ∧ q'.conn.socketConnection.isOpen = false

/-- Answers cannot be reused exactly between challenges whose difference the puzzle shows. -/
theorem answers_not_reusable_iff (order : Endian) (first second : UInt64) :
    (encryptHandshakeData first ≠ encryptHandshakeData second ∧ RejectsAnswersTo order first second) ↔
      Distinguishable first second := by
  refine ⟨fun holds => (encrypt_ne_iff first second).mp holds.1, fun apart => ?_⟩
  have different := (encrypt_ne_iff first second).mpr apart
  refine ⟨different, fun uId vId p q p' q' answer reached reached' taken taken' validated => ?_⟩
  have left := checkAnswer reached taken
  have right := checkAnswer reached' taken'
  by_cases solved : answer.toUInt64 order = encryptHandshakeData first
  · rw [if_neg (fun also => different (solved.symm.trans also))] at right
    exact ⟨right.1, right.2.2⟩
  · rw [if_neg solved, validated] at left
    cases left.1

/-- Challenges that differ in the lowest bit have one answer, and it validates connections with
either. -/
theorem answer_reused : (0 : UInt64) ≠ 1 ∧ encryptHandshakeData 0 = encryptHandshakeData 1 ∧
    ¬ RejectsAnswersTo .little 0 1 := by
  refine ⟨by decide, by decide, fun rejects => ?_⟩
  let answer := CArray.ofUInt64 .little (encryptHandshakeData 0)
  have solved : answer.toUInt64 .little = encryptHandshakeData 0 := CArray.toUInt64_ofUInt64 _ _
  have same : encryptHandshakeData 0 = encryptHandshakeData 1 := by decide
  have first := @checkAnswer .little 0 0 ⟨.accepted 0 0, []⟩ _ answer .start rfl
  have second := @checkAnswer .little 1 0 ⟨.accepted 1 0, []⟩ _ answer .start rfl
  rw [if_pos solved] at first
  rw [if_pos (solved.trans same)] at second
  have outcome := rejects 0 0 _ _ _ _ answer .start .start rfl rfl first.1
  rw [second.1] at outcome
  cases outcome.1

end Endpoint
end MyCQ
