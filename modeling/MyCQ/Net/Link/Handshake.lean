import MyCQ.Net.Link

/-! Whether an unmodified client passes the handshake.

The answer is written by the handshake's own chain of handlers, while a posted
send starts a write whenever the outgoing queue is empty. The handshake
completes in every run in which no send is handled before the answer.
-/

set_option autoImplicit false

namespace MyCQ
open Octets (Endian)
open ConnectionInterface (Handler WriterInvariant StartsFrames)

namespace Endpoint

variable {order : Endian}

inductive AnswerFirst (order : Endian) (p : Endpoint) : Prop where
  | silent : p.conn.socketConnection.received.length < 8 → p.conn.socketConnection.writesStarted = [] →
      p.conn.socketConnection.writes = [] → AnswerFirst order p
  | answered (word : CArray Byte 8) (frames : List WriteOp) :
      word.toList <+: p.conn.socketConnection.received →
      p.conn.socketConnection.writesStarted =
        .validationData (encryptHandshakeData (word.toUInt64 order)) :: frames →
      (∀ op ∈ frames, op.isFrame = true) → AnswerFirst order p

theorem AnswerFirst.extend {p q : Endpoint} {word : CArray Byte 8} {frames : List WriteOp}
    (received : word.toList <+: p.conn.socketConnection.received)
    (grown : p.conn.socketConnection.received <+: q.conn.socketConnection.received)
    (started : p.conn.socketConnection.writesStarted =
      .validationData (encryptHandshakeData (word.toUInt64 order)) :: frames)
    (frame : ∀ op ∈ frames, op.isFrame = true) (starts : StartsFrames p.conn q.conn) :
    AnswerFirst order q := by
  obtain ⟨more, appended, also⟩ := starts
  refine .answered word (frames ++ more) (received.trans grown) ?_ ?_
  · rw [appended, started, List.cons_append]
  · intro op member
    rcases List.mem_append.mp member with old | new
    · exact frame op old
    · exact also op new

def AnswerStarted (p : Endpoint) : Prop :=
  ∃ word, .validationData word ∈ p.conn.socketConnection.writesStarted

theorem startsFrames_client {p q : Endpoint} {a : Action} (client : ClientEnd order p)
    (taken : p.step order a = some q) :
    StartsFrames p.conn q.conn ∨ p.conn.socketConnection.received = [] := by
  cases step_cases taken with
  | sendData msg => exact Or.inl (.of_eq rfl)
  | posted msg rest =>
    exact Or.inl (ConnectionInterface.startsFrames_sendDataHandler { p.conn with posted := rest } msg)
  | readOk op bytes outstanding =>
    by_cases frame : op = .serverValidationRequest
    · -- The challenge is the first thing that a client reads.
      subst frame
      apply Or.inr
      cases client.phase with
      | awaiting _ _ _ received => exact received
      | connecting _ reads => simp [reads] at outstanding
      | answering _ _ reads => simp [reads] at outstanding
      | serving _ _ _ serving =>
        rcases serving.reads_frame outstanding with other | ⟨_, other⟩ <;> cases other
      | failed _ reads => simp [reads] at outstanding
    · exact Or.inl (ConnectionInterface.startsFrames_onRead order (p.conn.finishRead op bytes.toList) op bytes frame)
  | readFailed => exact Or.inl (.of_eq rfl)
  | writeOk op => exact Or.inl (ConnectionInterface.startsFrames_onWrite (p.conn.finishWrite op) op)
  | writeFailed => exact Or.inl (.of_eq rfl)
  | connected => exact Or.inl (.of_eq rfl)
  | connectFailed => exact Or.inl (.of_eq rfl)

theorem reads_of_short {p : Endpoint} (client : ClientEnd order p)
    (short : p.conn.socketConnection.received.length < 8) {op : ReadOp}
    (outstanding : op ∈ p.conn.socketConnection.reads) :
    op = .serverValidationRequest ∧ p.conn.socketConnection.received = [] := by
  cases client.phase with
  | connecting _ reads => simp [reads] at outstanding
  | awaiting _ reads _ received => exact ⟨List.mem_singleton.mp (reads ▸ outstanding), received⟩
  | answering _ _ reads => simp [reads] at outstanding
  | serving word _ _ serving =>
    obtain ⟨frames, rest, received, _⟩ := serving.frames
    rw [received, List.append_assoc, List.length_append, word.length_eq] at short
    omega
  | failed _ reads => simp [reads] at outstanding

/-- As long as nothing has been written, only the challenge or a posted send starts a write. -/
theorem silent_step {p q : Endpoint} {a : Action} (client : ClientEnd order p)
    (short : p.conn.socketConnection.received.length < 8)
    (started : p.conn.socketConnection.writesStarted = []) (writes : p.conn.socketConnection.writes = [])
    (other : a ≠ .handler .posted) (taken : p.step order a = some q) : AnswerFirst order q := by
  cases step_cases taken with
  | sendData msg => exact .silent short started writes
  | posted => exact absurd rfl other
  | readOk op bytes outstanding =>
    obtain ⟨rfl, received⟩ := reads_of_short client short outstanding
    refine .answered bytes [] ?_ ?_ fun _ none => absurd none List.not_mem_nil
    · exact ⟨[], (List.append_nil _).trans (congrArg (· ++ bytes.toList) received).symm⟩
    · exact congrArg (· ++ [_]) started
  | readFailed op bytes outstanding few =>
    obtain ⟨rfl, received⟩ := reads_of_short client short outstanding
    refine .silent ?_ started writes
    have taken : p.conn.socketConnection.received ++ bytes = bytes := by rw [received, List.nil_append]
    exact lt_of_eq_of_lt (congrArg List.length taken) few
  | writeOk op outstanding => simp [writes] at outstanding
  | writeFailed op outstanding => simp [writes] at outstanding
  | connected => exact .silent short started writes
  | connectFailed => exact .silent short started writes

/-- A client that handles sends only after its answer keeps writing the answer first. -/
theorem AnswerFirst.step {p q : Endpoint} {a : Action} (first : AnswerFirst order p)
    (client : ClientEnd order p) (guard : a = .handler .posted → AnswerStarted p)
    (taken : p.step order a = some q) : AnswerFirst order q := by
  cases first with
  | silent short started writes =>
    refine silent_step client short started writes (fun posted => ?_) taken
    obtain ⟨word, member⟩ := guard posted
    rw [started] at member
    cases member
  | answered word frames received started frame =>
    -- Later writes are appended, so the answer stays in front.
    have grown : p.conn.socketConnection.received <+: q.conn.socketConnection.received :=
      ⟨a.taken, (received_step taken).symm⟩
    rcases startsFrames_client client taken with starts | nothing
    · exact .extend received grown started frame starts
    · rw [nothing] at received
      have lengths := received.length_le
      rw [word.length_eq] at lengths
      cases lengths

theorem client_reads_ne {p : Endpoint} (client : ClientEnd order p) :
    .checkValidation ∉ p.conn.socketConnection.reads := by
  intro outstanding
  cases client.phase with
  | connecting _ reads => simp [reads] at outstanding
  | awaiting _ reads => simp [reads] at outstanding
  | answering _ _ reads => simp [reads] at outstanding
  | serving _ _ _ serving => rcases serving.reads_frame outstanding with other | ⟨_, other⟩ <;> cases other
  | failed _ reads => simp [reads] at outstanding

/-- The chain of handlers that connects, answers and reads has not been broken by a failure. -/
def Unbroken (p : Endpoint) : Prop :=
  p.conn.socketConnection.connecting = true ∨ p.conn.socketConnection.reads ≠ [] ∨
    p.conn.handshakeWrites ≠ []

theorem Unbroken.of_asyncRead (c : ConnectionInterface) (op : ReadOp) (enqueued : List Message) :
    Unbroken ⟨c.asyncRead op, enqueued⟩ :=
  Or.inr (Or.inl (by simp [ConnectionInterface.asyncRead, AsyncSocket.asyncRead]))

theorem Unbroken.congr {c d : ConnectionInterface} {enqueued : List Message}
    (same : ConnectionInterface.SameHandshake c d) (unbroken : Unbroken ⟨c, enqueued⟩) :
    Unbroken ⟨d, enqueued⟩ := by
  unfold Unbroken at unbroken ⊢
  rwa [same.connecting, same.reads, same.handshakeWrites]

theorem Unbroken.step {p q : Endpoint} {a : Action} (unbroken : Unbroken p) (client : ClientEnd order p)
    (lossless : ∀ op bytes, a ≠ .handler (.readFailed op bytes))
    (reliable : ∀ op, a ≠ .handler (.writeFailed op)) (connects : a ≠ .handler .connectFailed)
    (taken : p.step order a = some q) : Unbroken q := by
  cases step_cases taken with
  | sendData => exact unbroken
  | posted msg rest => exact unbroken.congr (ConnectionInterface.sameHandshake_posted p.conn rest msg)
  | readOk op bytes outstanding =>
    cases op with
    | serverValidationRequest =>
      have appended := ConnectionInterface.handshakeWrites_sendValidationData
        { p.conn.finishRead .serverValidationRequest bytes.toList with
          handshakeIn := bytes.toUInt64 order
          handshakeOut := encryptHandshakeData (bytes.toUInt64 order) }
      refine Or.inr (Or.inr fun none => ?_)
      exact List.cons_ne_nil _ _ (List.append_eq_nil_iff.mp (appended.symm.trans none)).2
    | checkValidation => exact absurd outstanding (client_reads_ne client)
    | header =>
      simp only [ConnectionInterface.onRead, ConnectionInterface.onReadHeader]
      split <;> exact .of_asyncRead _ _ _
    | payload size => exact .of_asyncRead _ _ _
  | readFailed op bytes => exact absurd rfl (lossless op bytes)
  | writeOk op =>
    cases op with
    | validationData word =>
      have owner : (p.conn.finishWrite (.validationData word)).owner = .client := client.owner
      simp only [ConnectionInterface.onWrite, ConnectionInterface.onSendValidationData, owner]
      exact .of_asyncRead _ _ _
    | header announced =>
      exact unbroken.congr ((ConnectionInterface.sameHandshake_finishWrite p.conn rfl).trans
        (ConnectionInterface.sameHandshake_onWriteHeader _))
    | payload bytes =>
      exact unbroken.congr ((ConnectionInterface.sameHandshake_finishWrite p.conn rfl).trans
        (ConnectionInterface.sameHandshake_popFront _))
  | writeFailed op => exact absurd rfl (reliable op)
  | connected => exact .of_asyncRead _ _ _
  | connectFailed => exact absurd rfl connects

end Endpoint

namespace Link
open Endpoint (ClientEnd ServerEnd ChallengeFirst AnswerFirst AnswerStarted Unbroken sent)

variable {order : Endian} {challenge : UInt64} {uId : UInt32} {link after : Link}

-- The condition is on the moment when the handler runs; `sendData` may have been
-- called earlier.
/-- No posted send of the client is handled before its answer has been started. -/
def AnswersFirst (link : Link) : Side × Endpoint.Action → Prop
  | (.client, .handler .posted) => AnswerStarted link.client
  | _ => True

structure Joined (order : Endian) (challenge : UInt64) (link : Link) : Prop where
  client : ClientEnd order link.client
  server : ServerEnd order challenge link.server
  challengeFirst : ChallengeFirst challenge link.server
  answerFirst : AnswerFirst order link.client
  unbroken : Unbroken link.client
  toClient : link.client.conn.socketConnection.received <+: link.server.sent order
  toServer : link.server.conn.socketConnection.received <+: link.client.sent order
  clientOpen : link.client.conn.socketConnection.isOpen = true
  serverOpen : link.server.conn.socketConnection.isOpen = true
  clientWriter : WriterInvariant link.client.conn
  serverWriter : WriterInvariant link.server.conn

theorem joined_start (order : Endian) (challenge : UInt64) (uId : UInt32) :
    Joined order challenge (start challenge uId) where
  client := Endpoint.clientEnd_connecting order
  server := Endpoint.serverEnd_accepted order challenge uId
  challengeFirst := ⟨[], rfl, fun _ none => absurd none List.not_mem_nil⟩
  answerFirst := .silent (Nat.zero_lt_succ 7) rfl rfl
  unbroken := Or.inl rfl
  toClient := List.nil_prefix
  toServer := List.nil_prefix
  clientOpen := rfl
  serverOpen := rfl
  clientWriter := ⟨[], rfl, .quiet rfl rfl rfl⟩
  serverWriter := ⟨[], rfl, .quiet rfl rfl rfl⟩

theorem challenge_prefix_sent {p : Endpoint} (first : ChallengeFirst challenge p) :
    (CArray.ofUInt64 order challenge).toList <+: p.sent order := by
  obtain ⟨frames, started, _⟩ := first
  rw [sent, started, List.flatMap_cons]
  exact List.prefix_append _ _

theorem eq_of_prefixes {first second : CArray Byte 8} {stream : List Byte}
    (left : first.toList <+: stream) (right : second.toList <+: stream) : first = second := by
  obtain ⟨_, left⟩ := left
  obtain ⟨_, right⟩ := right
  exact CArray.ext (List.append_inj_left (left.trans right.symm)
    (first.length_eq.trans second.length_eq.symm))

/-- Whatever the client has written begins with the right answer. -/
theorem Joined.answer (joined : Joined order challenge link) :
    link.client.sent order = [] ∨
      (CArray.ofUInt64 order (encryptHandshakeData challenge)).toList <+: link.client.sent order := by
  cases joined.answerFirst with
  | silent _ started => exact Or.inl (by rw [sent, started, List.flatMap_nil])
  | answered word frames received started =>
    have same := eq_of_prefixes (received.trans joined.toClient) (challenge_prefix_sent joined.challengeFirst)
    have value : word.toUInt64 order = challenge := by
      rw [same, CArray.toUInt64_ofUInt64]
    apply Or.inr
    rw [sent, started, List.flatMap_cons, value]
    exact List.prefix_append _ _

theorem isOpen_step {p q : Endpoint} {a : Endpoint.Action}
    (isOpen : p.conn.socketConnection.isOpen = true)
    (lossless : ∀ op bytes, a ≠ .handler (.readFailed op bytes))
    (reliable : ∀ op, a ≠ .handler (.writeFailed op))
    (accepted : ∀ bytes : CArray Byte 8, a = .handler (.readOk .checkValidation bytes.toList) →
      bytes.toUInt64 order = p.conn.handshakeCheck)
    (taken : p.step order a = some q) : q.conn.socketConnection.isOpen = true := by
  cases Endpoint.step_cases taken with
  | sendData => exact isOpen
  | posted msg rest =>
    obtain ⟨_, _, _, same⟩ := ConnectionInterface.writesOnly_sendDataHandler { p.conn with posted := rest } msg
    rw [same]
    exact isOpen
  | readOk op bytes =>
    cases op with
    | serverValidationRequest => exact isOpen
    | checkValidation =>
      have solved : bytes.toUInt64 order =
          (p.conn.finishRead .checkValidation bytes.toList).handshakeCheck := accepted bytes rfl
      simp only [ConnectionInterface.onRead, ConnectionInterface.onReadAndCheckValidation]
      split
      · exact isOpen
      · next wrong => exact absurd solved wrong
    | header =>
      simp only [ConnectionInterface.onRead, ConnectionInterface.onReadHeader]
      split <;> exact isOpen
    | payload size => exact isOpen
  | readFailed op bytes => exact absurd rfl (lossless op bytes)
  | writeOk op =>
    cases op with
    | validationData word =>
      simp only [ConnectionInterface.onWrite, ConnectionInterface.onSendValidationData]
      split <;> exact isOpen
    | header announced =>
      obtain ⟨_, _, _, same⟩ := ConnectionInterface.writesOnly_onWriteHeader
        (p.conn.finishWrite (.header announced))
      simp only [ConnectionInterface.onWrite, same]
      exact isOpen
    | payload bytes =>
      obtain ⟨_, _, _, same⟩ := ConnectionInterface.writesOnly_popFront (p.conn.finishWrite (.payload bytes))
      simp only [ConnectionInterface.onWrite, ConnectionInterface.onWritePayload, same]
      exact isOpen
  | writeFailed op => exact absurd rfl (reliable op)
  | connected => exact isOpen
  | connectFailed => exact isOpen

theorem received_allowed {side : Side} {a : Endpoint.Action} {q : Endpoint}
    (so_far : (link.get side).conn.socketConnection.received <+: (link.get side.other).sent order)
    (permitted : link.allowed order side a = true) (taken : (link.get side).step order a = some q) :
    q.conn.socketConnection.received <+: (link.get side.other).sent order := by
  rw [Endpoint.received_step taken]
  cases a with
  | sendData => exact (List.append_nil _).symm ▸ so_far
  | handler h =>
    cases h with
    | readOk op bytes => exact List.isPrefixOf_iff_prefix.mp permitted
    | readFailed => cases permitted
    | posted => exact (List.append_nil _).symm ▸ so_far
    | writeOk => exact (List.append_nil _).symm ▸ so_far
    | writeFailed => cases permitted
    | connected => exact (List.append_nil _).symm ▸ so_far
    | connectFailed => cases permitted

theorem isOpen_allowed {side : Side} {a : Endpoint.Action} {q : Endpoint}
    (isOpen : (link.get side).conn.socketConnection.isOpen = true)
    (permitted : link.allowed order side a = true)
    (accepted : ∀ bytes : CArray Byte 8, a = .handler (.readOk .checkValidation bytes.toList) →
      bytes.toUInt64 order = (link.get side).conn.handshakeCheck)
    (taken : (link.get side).step order a = some q) : q.conn.socketConnection.isOpen = true := by
  refine isOpen_step isOpen ?_ ?_ accepted taken
  · rintro op bytes rfl
    cases permitted
  · rintro op rfl
    cases permitted

theorem Joined.accepted (joined : Joined order challenge link) (bytes : CArray Byte 8)
    (outstanding : .checkValidation ∈ link.server.conn.socketConnection.reads)
    (next : link.server.conn.socketConnection.received ++ bytes.toList <+: link.client.sent order) :
    bytes.toUInt64 order = link.server.conn.handshakeCheck := by
  rw [joined.server.constants.handshakeCheck]
  cases joined.server.inbound with
  | awaiting _ _ received =>
    rw [received, List.nil_append] at next
    rcases joined.answer with silent | answer
    · rw [silent] at next
      have lengths := next.length_le
      rw [bytes.length_eq] at lengths
      cases lengths
    · rw [eq_of_prefixes next answer, CArray.toUInt64_ofUInt64]
  | serving _ _ _ serving => rcases serving.reads_frame outstanding with other | ⟨_, other⟩ <;> cases other
  | refused reads => simp [reads] at outstanding

theorem Joined.step (joined : Joined order challenge link) {a : Side × Endpoint.Action}
    (guard : AnswersFirst link a) (taken : link.step order a = some after) :
    Joined order challenge after := by
  obtain ⟨side, a⟩ := a
  obtain ⟨permitted, q, moved, rfl⟩ := step_eq_some taken
  cases side with
  | client =>
    refine ⟨joined.client.step moved, joined.server, joined.challengeFirst,
      joined.answerFirst.step joined.client ?_ moved, ?_,
      @received_allowed order link .client a q joined.toClient permitted moved,
      joined.toServer.trans (Endpoint.sent_step moved), ?_, joined.serverOpen,
      Endpoint.writerInvariant_step joined.clientWriter moved, joined.serverWriter⟩
    · rintro rfl
      exact guard
    · refine joined.unbroken.step joined.client ?_ ?_ ?_ moved
      · rintro op bytes rfl
        cases permitted
      · rintro op rfl
        cases permitted
      · rintro rfl
        cases permitted
    · refine @isOpen_allowed order link .client _ q joined.clientOpen permitted ?_ moved
      rintro bytes rfl
      have outstanding := (Option.ite_none_right_eq_some.mp
        ((Endpoint.step_readOk order link.client .checkValidation bytes).symm.trans moved)).1
      exact absurd outstanding (Endpoint.client_reads_ne joined.client)
  | server =>
    refine ⟨joined.client, joined.server.step moved, joined.challengeFirst.step joined.server moved,
      joined.answerFirst, joined.unbroken, joined.toClient.trans (Endpoint.sent_step moved),
      @received_allowed order link .server a q joined.toServer permitted moved, joined.clientOpen, ?_,
      joined.clientWriter, Endpoint.writerInvariant_step joined.serverWriter moved⟩
    refine @isOpen_allowed order link .server _ q joined.serverOpen permitted ?_ moved
    rintro bytes rfl
    have outstanding := (Option.ite_none_right_eq_some.mp
      ((Endpoint.step_readOk order link.server .checkValidation bytes).symm.trans moved)).1
    exact joined.accepted bytes outstanding (List.isPrefixOf_iff_prefix.mp permitted)

theorem joined_of_run (run : Transition.Run (Link.step order) AnswersFirst (start challenge uId) link) :
    Joined order challenge link :=
  run.invariant (joined_start order challenge uId) fun _ _ _ joined guard taken => joined.step guard taken

structure HandshakeCompletes (order : Endian) (challenge : UInt64) (link : Link) : Prop where
  answer : link.client.sent order = [] ∨
    (CArray.ofUInt64 order (encryptHandshakeData challenge)).toList <+: link.client.sent order
  accepted : .checkValidation ∈ link.server.conn.socketConnection.reads ∨
    link.server.conn.handshakeFlag = true

/-- The handshake completes in every run in which sends are handled after the answer. -/
theorem handshake_completes
    (run : Transition.Run (Link.step order) AnswersFirst (start challenge uId) link) :
    HandshakeCompletes order challenge link := by
  have joined := joined_of_run run
  refine ⟨joined.answer, ?_⟩
  cases joined.server.inbound with
  | awaiting reads => exact Or.inl (reads ▸ List.mem_singleton.mpr rfl)
  | serving _ _ flag => exact Or.inr flag
  | refused _ _ closed =>
    have isOpen := joined.serverOpen
    rw [closed] at isOpen
    cases isOpen

def patientRun : List (Side × Endpoint.Action) :=
  [(.client, .sendData (.ofId 1)), (.client, .handler .connected),
    (.client, .handler (.readOk .serverValidationRequest (CArray.ofUInt64 .little 7).toList)),
    (.client, .handler .posted),
    (.server, .handler (.readOk .checkValidation
      (CArray.ofUInt64 .little (encryptHandshakeData 7)).toList))]

theorem patientRun_meets :
    Transition.Meets (Link.step .little) AnswersFirst (start 7 0) patientRun := by
  refine ⟨trivial, fun _ first => ⟨trivial, fun _ second => ⟨trivial, fun _ third =>
    ⟨⟨encryptHandshakeData 7, ?_⟩, fun _ _ => ⟨trivial, fun _ _ => trivial⟩⟩⟩⟩⟩
  cases first
  cases second
  cases third
  exact List.mem_singleton.mpr rfl

theorem handshake_completes_patientRun :
    HandshakeCompletes .little 7 ((Transition.perform (Link.step .little) (start 7 0) patientRun).get
      (by decide)) :=
  handshake_completes (.of_perform patientRun _ patientRun_meets (Option.some_get _).symm)

def hastyRun : List (Side × Endpoint.Action) :=
  [(.client, .handler .connected), (.client, .sendData (.ofId 1)), (.client, .handler .posted),
    (.server, .handler (.readOk .checkValidation ((MessageHeader.mk 1 0).bytes .little).toList))]

theorem hastyRun_enabled :
    (Transition.perform (Link.step .little) (start 7 0) hastyRun).isSome = true := by decide

theorem hasty_send_fails_validation :
    ∃ link, Transition.Reachable (Link.step .little) (start 7 0) link ∧
      ¬ HandshakeCompletes .little 7 link := by
  refine ⟨_, .of_isSome hastyRun (start 7 0) hastyRun_enabled, fun completes => ?_⟩
  have rejected : .checkValidation ∉ ((Transition.perform (Link.step .little) (start 7 0) hastyRun).get
      hastyRun_enabled).server.conn.socketConnection.reads ∧
      ((Transition.perform (Link.step .little) (start 7 0) hastyRun).get
        hastyRun_enabled).server.conn.handshakeFlag = false := by
    decide
  rcases completes.accepted with outstanding | validated
  · exact rejected.1 outstanding
  · rw [rejected.2] at validated
    cases validated

end Link
end MyCQ
