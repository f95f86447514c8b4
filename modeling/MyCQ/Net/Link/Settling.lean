import MyCQ.Net.Link.Handshake

/-! The handlers of a link run to an end, and what has been transmitted then.

Each handler leaves less work: fewer sends, writes and handshake steps are
outstanding, or fewer bytes are unread. Once no handler can run, the frames of
all messages passed to `sendData` have been read at the other end.
-/

set_option autoImplicit false

namespace MyCQ
open Octets (Endian)
open ConnectionInterface (Handler WriterInvariant)

def ReadOp.work : ReadOp → Nat
  | .serverValidationRequest => 2
  | .checkValidation | .header | .payload _ => 0

def WriteOp.work : WriteOp → Nat
  | .header _ => 2
  | .validationData _ | .payload _ => 1

namespace ConnectionInterface

-- The weights are such that what a handler starts weighs less than what it
-- finishes: an entry of the queue outweighs its writes, a posted send its entry.
/-- A bound on the handlers that can run without further calls, frame reads apart. -/
def work (c : ConnectionInterface) : Nat :=
  3 * c.socketConnection.connecting.toNat + (c.socketConnection.reads.map ReadOp.work).sum +
    (c.socketConnection.writes.map WriteOp.work).sum + 3 * c.outMsgQueue.length + 6 * c.posted.length

theorem work_asyncRead (c : ConnectionInterface) (op : ReadOp) : (c.asyncRead op).work = c.work + op.work := by
  simp only [work, asyncRead, AsyncSocket.asyncRead, List.map_append, List.sum_append, List.map_singleton,
    List.sum_singleton]
  omega

theorem work_asyncWrite (c : ConnectionInterface) (op : WriteOp) :
    (c.asyncWrite op).work = c.work + op.work := by
  simp only [work, asyncWrite, AsyncSocket.asyncWrite, List.map_append, List.sum_append, List.map_singleton,
    List.sum_singleton]
  omega

theorem sum_erase {α : Type} [DecidableEq α] (weight : α → Nat) (ops : List α) (op : α) (member : op ∈ ops) :
    ((ops.erase op).map weight).sum + weight op = (ops.map weight).sum := by
  have swapped := ((List.perm_cons_erase member).map weight).sum_nat
  rw [List.map_cons, List.sum_cons] at swapped
  omega

theorem work_finishRead {c : ConnectionInterface} {op : ReadOp} (outstanding : op ∈ c.socketConnection.reads)
    (bytes : List Byte) : (c.finishRead op bytes).work + op.work = c.work := by
  have erased := sum_erase ReadOp.work _ op outstanding
  simp only [work, finishRead, AsyncSocket.finishRead]
  omega

theorem work_finishWrite {c : ConnectionInterface} {op : WriteOp}
    (outstanding : op ∈ c.socketConnection.writes) : (c.finishWrite op).work + op.work = c.work := by
  have erased := sum_erase WriteOp.work _ op outstanding
  simp only [work, finishWrite, AsyncSocket.finishWrite]
  omega

theorem work_writeHeader (c : ConnectionInterface) : c.writeHeader.work ≤ c.work + 2 := by
  unfold writeHeader
  split
  · exact Nat.le_add_right _ _
  · exact Nat.le_of_eq (work_asyncWrite c _)

theorem work_popFront (c : ConnectionInterface) : c.popFront.work ≤ c.work := by
  have dropped : { c with outMsgQueue := c.outMsgQueue.tail }.work + 3 * c.outMsgQueue.length =
      c.work + 3 * c.outMsgQueue.tail.length := by
    simp only [work]
    omega
  simp only [popFront]
  split
  · simp only [List.length_tail] at dropped
    omega
  · next more =>
    have written := work_writeHeader { c with outMsgQueue := c.outMsgQueue.tail }
    have nonempty : c.outMsgQueue.tail.length ≠ 0 := by
      intro zero
      rw [List.eq_nil_of_length_eq_zero zero] at more
      exact more rfl
    simp only [List.length_tail] at dropped nonempty
    omega

theorem work_onWriteHeader (c : ConnectionInterface) : c.onWriteHeader.work ≤ c.work + 1 := by
  unfold onWriteHeader
  split
  · exact Nat.le_add_right _ _
  · split
    · unfold writePayload
      split
      · exact Nat.le_add_right _ _
      · exact Nat.le_of_eq (work_asyncWrite c _)
    · exact Nat.le_add_right_of_le (work_popFront c)

theorem work_sendDataHandler (c : ConnectionInterface) (msg : Message) :
    (c.sendDataHandler msg).work ≤ c.work + 5 := by
  have queued : { c with outMsgQueue := c.outMsgQueue ++ [msg] }.work = c.work + 3 := by
    simp only [work, List.length_append, List.length_singleton]
    omega
  simp only [sendDataHandler]
  split
  · omega
  · have written := work_writeHeader { c with outMsgQueue := c.outMsgQueue ++ [msg] }
    omega

theorem work_onWrite (c : ConnectionInterface) (op : WriteOp) : (c.onWrite op).work < c.work + op.work := by
  cases op with
  | validationData word =>
    simp only [onWrite, onSendValidationData]
    split
    · exact Nat.lt_add_one_of_le (Nat.le_of_eq (work_asyncRead c .header))
    · exact Nat.lt_add_one _
  | header announced => exact Nat.lt_add_one_of_le (work_onWriteHeader c)
  | payload bytes => exact Nat.lt_add_one_of_le (work_popFront c)

end ConnectionInterface

namespace Endpoint

variable {order : Endian}

theorem work_handler {p q : Endpoint} {h : Handler} (reads : ∀ op ∈ p.conn.socketConnection.reads, 0 < op.length)
    (lossless : ∀ op bytes, h ≠ .readFailed op bytes) (reliable : ∀ op, h ≠ .writeFailed op)
    (taken : p.step order (.handler h) = some q) :
    q.conn.work < p.conn.work ∨ (q.conn.work = p.conn.work ∧ q.sent order = p.sent order ∧
      p.conn.socketConnection.received.length < q.conn.socketConnection.received.length) := by
  cases step_cases taken with
  | posted msg rest waiting =>
    have unposted : { p.conn with posted := rest }.work + 6 = p.conn.work := by
      simp only [ConnectionInterface.work, waiting, List.length_cons]
      omega
    have handled := ConnectionInterface.work_sendDataHandler { p.conn with posted := rest } msg
    exact Or.inl (Nat.lt_of_le_of_lt handled (by omega))
  | readOk op bytes outstanding =>
    have finished := ConnectionInterface.work_finishRead outstanding bytes.toList
    have longer : p.conn.socketConnection.received.length <
        (p.conn.socketConnection.received ++ bytes.toList).length := by
      rw [List.length_append, bytes.length_eq]
      exact Nat.lt_add_of_pos_right (reads op outstanding)
    cases op with
    | serverValidationRequest =>
      have written := ConnectionInterface.work_asyncWrite
        { p.conn.finishRead .serverValidationRequest bytes.toList with
          handshakeIn := bytes.toUInt64 order
          handshakeOut := encryptHandshakeData (bytes.toUInt64 order) }
        (.validationData (encryptHandshakeData (bytes.toUInt64 order)))
      refine Or.inl (Nat.lt_of_le_of_lt (Nat.le_of_eq written) ?_)
      exact Nat.lt_of_lt_of_eq (Nat.lt_add_one _) finished
    | checkValidation =>
      simp only [ConnectionInterface.onRead, ConnectionInterface.onReadAndCheckValidation]
      split
      · exact Or.inr ⟨(ConnectionInterface.work_asyncRead _ _).trans finished, rfl, longer⟩
      · exact Or.inr ⟨finished, rfl, longer⟩
    | header =>
      simp only [ConnectionInterface.onRead, ConnectionInterface.onReadHeader]
      split <;> exact Or.inr ⟨(ConnectionInterface.work_asyncRead _ _).trans finished, rfl, longer⟩
    | payload size => exact Or.inr ⟨(ConnectionInterface.work_asyncRead _ _).trans finished, rfl, longer⟩
  | readFailed op bytes => exact absurd rfl (lossless op bytes)
  | writeOk op outstanding =>
    have finished := ConnectionInterface.work_finishWrite outstanding
    have continued := ConnectionInterface.work_onWrite (p.conn.finishWrite op) op
    exact Or.inl (Nat.lt_of_lt_of_eq continued finished)
  | writeFailed op => exact absurd rfl (reliable op)
  | connected pending =>
    have finished : { p.conn with socketConnection := p.conn.socketConnection.finishConnect }.work + 3 =
        p.conn.work := by
      simp only [ConnectionInterface.work, AsyncSocket.finishConnect, pending, Bool.toNat_true, Bool.toNat_false]
      omega
    have started := ConnectionInterface.work_asyncRead
      { p.conn with socketConnection := p.conn.socketConnection.finishConnect } .serverValidationRequest
    refine Or.inl (Nat.lt_of_le_of_lt (Nat.le_of_eq started) ?_)
    exact Nat.lt_of_lt_of_eq (Nat.lt_add_one _) finished
  | connectFailed pending =>
    apply Or.inl
    simp only [ConnectionInterface.work, AsyncSocket.finishConnect, pending, Bool.toNat_true, Bool.toNat_false]
    omega

theorem Serving.length_pos {base : List Byte} {p : Endpoint} (serving : Serving order base p) {op : ReadOp}
    (outstanding : op ∈ p.conn.socketConnection.reads) : 0 < op.length := by
  cases serving with
  | idle _ reads =>
    rw [reads, List.mem_singleton] at outstanding
    subst outstanding
    exact Nat.zero_lt_succ 7
  | announced _ header pos reads =>
    rw [reads, List.mem_singleton] at outstanding
    subst outstanding
    exact pos
  | ended _ _ _ reads => simp [reads] at outstanding

theorem Serving.cut {base stream : List Byte} {p : Endpoint} (serving : Serving order base p)
    (isOpen : p.conn.socketConnection.isOpen = true) (received : p.conn.socketConnection.received <+: stream)
    (exhausted : ∀ op ∈ p.conn.socketConnection.reads, ∀ bytes : CArray Byte op.length,
      ¬ p.conn.socketConnection.received ++ bytes.toList <+: stream) :
    ∃ frames rest, stream = base ++ (frames.flatMap (Frame.bytes order) ++ rest) ∧
      Frame.Incomplete order rest ∧ p.enqueued = Frame.enqueued frames := by
  obtain ⟨unread, rfl⟩ := received
  have short : ∀ op ∈ p.conn.socketConnection.reads, unread.length < op.length := by
    intro op outstanding
    refine Nat.lt_of_not_le fun enough => ?_
    refine exhausted op outstanding ⟨unread.take op.length, by rw [List.length_take]; omega⟩ ?_
    exact (List.prefix_append_right_inj _).mpr (List.take_prefix _ _)
  cases serving with
  | idle frames reads received _ enqueued =>
    refine ⟨frames, unread, ?_, Or.inl (short .header (reads ▸ List.mem_singleton.mpr rfl)), enqueued⟩
    rw [received, List.append_assoc]
  | announced frames header pos reads received _ enqueued =>
    refine ⟨frames, (header.bytes order).toList ++ unread, ?_, Or.inr ⟨header, unread, rfl, ?_⟩, enqueued⟩
    · simp only [received, List.append_assoc]
    · exact short (.payload header.size.toNat) (reads ▸ List.mem_singleton.mpr rfl)
  | ended _ _ _ _ closed =>
    rw [closed] at isOpen
    cases isOpen

end Endpoint

namespace Link
open Endpoint (ClientEnd ServerEnd ChallengeFirst AnswerFirst AnswerStarted Serving sent)

variable {order : Endian} {challenge : UInt64} {uId : UInt32} {link after : Link}

@[simp] theorem get_set (link : Link) (side : Side) (p : Endpoint) : (link.set side p).get side = p := by
  cases side <;> rfl

@[simp] theorem get_set_other (link : Link) (side : Side) (p : Endpoint) :
    (link.set side p).get side.other = link.get side.other := by
  cases side <;> rfl

def Quiescent (order : Endian) (link : Link) : Prop :=
  ∀ side h, link.step order (side, .handler h) = none

def Handling (link : Link) (a : Side × Endpoint.Action) : Prop :=
  AnswersFirst link a ∧ ∃ h, a.2 = .handler h

def unread (order : Endian) (link : Link) (side : Side) : Nat :=
  ((link.get side.other).sent order).length - (link.get side).conn.socketConnection.received.length

def remaining (order : Endian) (link : Link) : Nat × Nat :=
  (link.client.conn.work + link.server.conn.work, link.unread order .client + link.unread order .server)

theorem Joined.received (joined : Joined order challenge link) (side : Side) :
    (link.get side).conn.socketConnection.received <+: (link.get side.other).sent order := by
  cases side with
  | client => exact joined.toClient
  | server => exact joined.toServer

theorem Joined.isOpen (joined : Joined order challenge link) (side : Side) :
    (link.get side).conn.socketConnection.isOpen = true := by
  cases side with
  | client => exact joined.clientOpen
  | server => exact joined.serverOpen

theorem Joined.writer (joined : Joined order challenge link) (side : Side) :
    WriterInvariant (link.get side).conn := by
  cases side with
  | client => exact joined.clientWriter
  | server => exact joined.serverWriter

theorem Joined.length_pos (joined : Joined order challenge link) {side : Side} {op : ReadOp}
    (outstanding : op ∈ (link.get side).conn.socketConnection.reads) : 0 < op.length := by
  cases side with
  | client =>
    cases joined.client.phase with
    | connecting _ reads => exact absurd (reads ▸ outstanding) List.not_mem_nil
    | awaiting _ reads =>
      obtain rfl : op = .serverValidationRequest := List.mem_singleton.mp (reads ▸ outstanding)
      exact Nat.zero_lt_succ 7
    | answering _ _ reads => exact absurd (reads ▸ outstanding) List.not_mem_nil
    | serving _ _ _ serving => exact serving.length_pos outstanding
    | failed _ reads => exact absurd (reads ▸ outstanding) List.not_mem_nil
  | server =>
    cases joined.server.inbound with
    | awaiting reads =>
      obtain rfl : op = .checkValidation := List.mem_singleton.mp (reads ▸ outstanding)
      exact Nat.zero_lt_succ 7
    | serving _ _ _ serving => exact serving.length_pos outstanding
    | refused reads => exact absurd (reads ▸ outstanding) List.not_mem_nil

/-- Each handler leaves less to do. -/
theorem remaining_step {a : Side × Endpoint.Action} (joined : Joined order challenge link)
    (handling : Handling link a) (taken : link.step order a = some after) :
    Joined order challenge after ∧
      Prod.Lex Nat.lt Nat.lt (after.remaining order) (link.remaining order) := by
  have joined' := joined.step handling.1 taken
  refine ⟨joined', ?_⟩
  obtain ⟨side, _⟩ := a
  obtain ⟨_, h, rfl⟩ := handling
  obtain ⟨permitted, q, moved, rfl⟩ := step_eq_some taken
  have lossless : ∀ op bytes, h ≠ .readFailed op bytes := by
    rintro op bytes rfl
    cases permitted
  have reliable : ∀ op, h ≠ .writeFailed op := by
    rintro op rfl
    cases permitted
  -- A handler that leaves the work as it is has read and not written, so that less
  -- is unread.
  have progress := Endpoint.work_handler (fun op => joined.length_pos) lossless reliable moved
  have bound := (joined'.received side).length_le
  rw [get_set, get_set_other] at bound
  cases side with
  | client =>
    rcases progress with less | ⟨same, silent, more⟩
    · exact Prod.Lex.left _ _ (Nat.add_lt_add_right less _)
    · have work : q.conn.work + link.server.conn.work = link.client.conn.work + link.server.conn.work :=
        congrArg (· + _) same
      have fewer := Nat.sub_lt_sub_left (Nat.lt_of_lt_of_le more bound) more
      simp only [remaining, unread, get, set, Side.other, silent, work]
      exact Prod.Lex.right _ (Nat.add_lt_add_right fewer _)
  | server =>
    rcases progress with less | ⟨same, silent, more⟩
    · exact Prod.Lex.left _ _ (Nat.add_lt_add_left less _)
    · have work : link.client.conn.work + q.conn.work = link.client.conn.work + link.server.conn.work :=
        congrArg (_ + ·) same
      have fewer := Nat.sub_lt_sub_left (Nat.lt_of_lt_of_le more bound) more
      simp only [remaining, unread, get, set, Side.other, silent, work]
      exact Prod.Lex.right _ (Nat.add_lt_add_left fewer _)

theorem step_of {side : Side} {a : Endpoint.Action} {q : Endpoint} (permitted : link.allowed order side a = true)
    (moved : (link.get side).step order a = some q) : link.step order (side, a) = some (link.set side q) := by
  simp only [step, permitted, moved, if_true, Option.map_some]

theorem step_readOk_of {side : Side} {op : ReadOp} (bytes : CArray Byte op.length)
    (outstanding : op ∈ (link.get side).conn.socketConnection.reads)
    (next : (link.get side).conn.socketConnection.received ++ bytes.toList <+: (link.get side.other).sent order) :
    ∃ after, link.step order (side, .handler (.readOk op bytes.toList)) = some after :=
  ⟨_, step_of (List.isPrefixOf_iff_prefix.mpr next) (Endpoint.step_readOk_of_mem order bytes outstanding)⟩

theorem exists_connects (joined : Joined order challenge link) (silent : ¬ AnswerStarted link.client) :
    ∃ h after, h ≠ .posted ∧ link.step order (.client, .handler h) = some after := by
  cases joined.answerFirst with
  | answered word frames _ started =>
    exact absurd ⟨_, started ▸ List.mem_cons_self⟩ silent
  | silent short =>
    cases joined.client.phase with
    | connecting pending =>
      have moved : ∃ q, link.client.step order (.handler .connected) = some q := by
        simp [Endpoint.step, ConnectionInterface.runHandler, pending]
      obtain ⟨q, moved⟩ := moved
      exact ⟨_, _, Handler.noConfusion, @step_of order link .client _ q rfl moved⟩
    | awaiting _ reads _ received =>
      have next : link.client.conn.socketConnection.received ++ (CArray.ofUInt64 order challenge).toList <+:
          link.server.sent order := by
        rw [received, List.nil_append]
        exact challenge_prefix_sent joined.challengeFirst
      obtain ⟨after, taken⟩ := @step_readOk_of order link .client .serverValidationRequest
        (CArray.ofUInt64 order challenge) (reads ▸ List.mem_singleton.mpr rfl) next
      exact ⟨_, after, Handler.noConfusion, taken⟩
    | answering word _ _ _ received =>
      rw [received, word.length_eq] at short
      exact absurd short (Nat.lt_irrefl 8)
    | serving word _ _ serving =>
      obtain ⟨frames, rest, received, _⟩ := serving.frames
      rw [received, List.append_assoc, List.length_append, word.length_eq] at short
      omega
    | failed connecting reads writes =>
      rcases joined.unbroken with pending | outstanding | unwritten
      · rw [connecting] at pending
        cases pending
      · exact absurd reads outstanding
      · exact absurd writes unwritten

/-- From any state in which the handshake goes as intended, the handlers reach an end. -/
theorem settles (joined : Joined order challenge link) :
    ∃ settled, Transition.Run (Link.step order) Handling link settled ∧ Joined order challenge settled ∧
      Quiescent order settled := by
  obtain ⟨settled, run, joined', stuck⟩ := @Transition.exists_stuck _ _ (Link.step order) Handling _ _
    (Prod.lex Nat.lt_wfRel Nat.lt_wfRel).wf (remaining order) (Joined order challenge)
    (fun _ _ _ joined handling taken => remaining_step joined handling taken) link joined
  refine ⟨settled, run, joined', fun side h => ?_⟩
  by_cases permitted : AnswersFirst settled (side, .handler h)
  · exact stuck _ ⟨permitted, h, rfl⟩
  -- Only a send posted before the answer is held back, and then the handshake can
  -- still go on.
  · have silent : ¬ AnswerStarted settled.client := by
      intro started
      apply permitted
      cases side <;> cases h <;> first | exact started | trivial
    obtain ⟨other, after, notPosted, taken⟩ := exists_connects joined' silent
    have handling : Handling settled (.client, .handler other) := by
      refine ⟨?_, other, rfl⟩
      cases other <;> first | exact absurd rfl notPosted | trivial
    rw [stuck _ handling] at taken
    cases taken

theorem Quiescent.posted (quiescent : Quiescent order link) (side : Side) : (link.get side).conn.posted = [] := by
  cases waiting : (link.get side).conn.posted with
  | nil => rfl
  | cons msg rest =>
    have moved : ∃ q, (link.get side).step order (.handler .posted) = some q := by
      simp [Endpoint.step, ConnectionInterface.runHandler, waiting]
    obtain ⟨q, moved⟩ := moved
    have taken := @step_of order link side (.handler .posted) q rfl moved
    rw [quiescent] at taken
    cases taken

theorem Quiescent.writes (quiescent : Quiescent order link) (side : Side) :
    (link.get side).conn.socketConnection.writes = [] := by
  refine List.eq_nil_iff_forall_not_mem.mpr fun op outstanding => ?_
  have taken := @step_of order link side (.handler (.writeOk op)) _ rfl
    (Endpoint.step_writeOk_of_mem order outstanding)
  rw [quiescent] at taken
  cases taken

theorem Quiescent.reads (quiescent : Quiescent order link) (side : Side) (op : ReadOp)
    (outstanding : op ∈ (link.get side).conn.socketConnection.reads) (bytes : CArray Byte op.length) :
    ¬ (link.get side).conn.socketConnection.received ++ bytes.toList <+: (link.get side.other).sent order := by
  intro next
  obtain ⟨after, taken⟩ := step_readOk_of bytes outstanding next
  rw [quiescent] at taken
  cases taken

theorem Quiescent.answered (quiescent : Quiescent order link) (joined : Joined order challenge link) :
    AnswerStarted link.client := by
  refine Classical.byContradiction fun silent => ?_
  obtain ⟨h, after, _, taken⟩ := exists_connects joined silent
  rw [quiescent] at taken
  cases taken

theorem Quiescent.serving (quiescent : Quiescent order link) (joined : Joined order challenge link) (side : Side) :
    ∃ word : CArray Byte 8, Serving order word.toList (link.get side) := by
  obtain ⟨answer, member⟩ := quiescent.answered joined
  cases joined.answerFirst with
  | silent _ started => exact absurd (started ▸ member) List.not_mem_nil
  | answered word frames received started =>
    cases side with
    | client =>
      have long := received.length_le
      rw [word.length_eq] at long
      cases joined.client.phase with
      | connecting _ _ _ nothing =>
        rw [nothing] at long
        cases long
      | awaiting _ _ _ nothing =>
        rw [nothing] at long
        cases long
      | answering _ _ _ unwritten =>
        have none : link.client.conn.handshakeWrites = [] := congrArg (List.filter _) (quiescent.writes .client)
        exact absurd (unwritten.symm.trans none) (List.cons_ne_nil _ _)
      | serving word _ _ serving => exact ⟨word, serving⟩
      | failed connecting reads writes =>
        rcases joined.unbroken with pending | outstanding | unwritten
        · rw [connecting] at pending
          cases pending
        · exact absurd reads outstanding
        · exact absurd writes unwritten
    | server =>
      cases joined.server.inbound with
      | awaiting reads _ nothing =>
        have next : link.server.conn.socketConnection.received ++
            (CArray.ofUInt64 order (encryptHandshakeData (word.toUInt64 order))).toList <+:
              link.client.sent order := by
          rw [nothing, List.nil_append, sent, started, List.flatMap_cons]
          exact List.prefix_append _ _
        exact absurd next (quiescent.reads .server .checkValidation (reads ▸ List.mem_singleton.mpr rfl) _)
      | serving answer _ _ serving => exact ⟨answer, serving⟩
      | refused _ _ closed =>
        have isOpen := joined.serverOpen
        rw [closed] at isOpen
        cases isOpen

theorem Quiescent.wordFirst (quiescent : Quiescent order link) (joined : Joined order challenge link) (side : Side) :
    ∃ word, (link.get side).conn.socketConnection.writesStarted =
      .validationData word :: (link.get side).conn.framesStarted := by
  have frames_of : ∀ (c : ConnectionInterface) word frames, (∀ op ∈ frames, op.isFrame = true) →
      c.socketConnection.writesStarted = .validationData word :: frames →
      c.socketConnection.writesStarted = .validationData word :: c.framesStarted := by
    intro c word frames frame started
    rw [ConnectionInterface.framesStarted, started, List.filter_cons_of_neg Bool.false_ne_true,
      List.filter_eq_self.mpr frame]
  cases side with
  | client =>
    obtain ⟨answer, member⟩ := quiescent.answered joined
    cases joined.answerFirst with
    | silent _ started => exact absurd (started ▸ member) List.not_mem_nil
    | answered word frames _ started frame => exact ⟨_, frames_of _ _ frames frame started⟩
  | server =>
    obtain ⟨frames, started, frame⟩ := joined.challengeFirst
    exact ⟨_, frames_of _ _ frames frame started⟩

theorem Quiescent.framesStarted (quiescent : Quiescent order link) (joined : Joined order challenge link)
    (side : Side) : (link.get side).conn.framesStarted =
      (link.get side).conn.sendDataCalls.flatMap Message.frameOps := by
  have none : (link.get side).conn.frameWrites = [] := by
    rw [ConnectionInterface.frameWrites, quiescent.writes side, List.filter_nil]
  obtain ⟨done, calls, sending⟩ := joined.writer side
  cases sending with
  | quiet queue _ started =>
    rw [quiescent.posted side, queue, List.append_nil, List.append_nil] at calls
    rw [started, calls]
  | header _ _ _ writes => exact absurd (writes.symm.trans none) (List.cons_ne_nil _ _)
  | payload _ _ _ _ writes => exact absurd (writes.symm.trans none) (List.cons_ne_nil _ _)
  | failed _ _ _ _ _ closed =>
    have isOpen := joined.isOpen side
    rw [closed] at isOpen
    cases isOpen

theorem Quiescent.sent (quiescent : Quiescent order link) (joined : Joined order challenge link) (side : Side)
    (agree : ∀ msg ∈ (link.get side).conn.sendDataCalls, msg.Agrees) :
    ∃ word : CArray Byte 8, (link.get side).sent order =
      word.toList ++ (Frame.ofMessages _ agree).flatMap (Frame.bytes order) := by
  obtain ⟨word, started⟩ := quiescent.wordFirst joined side
  refine ⟨CArray.ofUInt64 order word, ?_⟩
  rw [Endpoint.sent, started, List.flatMap_cons, quiescent.framesStarted joined side,
    ← Frame.ops_ofMessages _ agree, Frame.flatMap_ops_bytes]
  rfl

/-- At the end the frames of all messages sent at one side have been enqueued at the other. -/
theorem Quiescent.enqueued (quiescent : Quiescent order link) (joined : Joined order challenge link) (side : Side)
    (agree : ∀ msg ∈ (link.get side).conn.sendDataCalls, msg.Agrees) :
    (link.get side.other).enqueued = Frame.enqueued (Frame.ofMessages _ agree) := by
  have twice : side.other.other = side := by cases side <;> rfl
  obtain ⟨base, serving⟩ := quiescent.serving joined side.other
  obtain ⟨frames, rest, stream, incomplete, enqueued⟩ := serving.cut (joined.isOpen side.other)
    (joined.received side.other) (quiescent.reads side.other)
  obtain ⟨word, written⟩ := quiescent.sent joined side agree
  rw [twice, written] at stream
  obtain ⟨_, same⟩ := List.append_inj stream (word.length_eq.trans base.length_eq.symm)
  obtain ⟨rfl, _⟩ := Frame.parse_unique order _ frames rest incomplete same
  exact enqueued

end Link
end MyCQ
