import MyCQ.Foundation.Relay
import MyCQ.Net.Endpoint.SendQueue
import MyCQ.Net.Link.Handshake
import MyCQ.Net.Transfer

/-! What arrives at one end of a connection of what was passed to `sendData` at the other.

Any operation may fail here, and the client may write before it has received the
challenge. Messages arrive in the order of the calls, from the first one on, and
each as a whole; only how many arrive depends on the run.
-/

set_option autoImplicit false

namespace MyCQ
open Octets (Endian)
open ConnectionInterface (StartsFrames WriterInvariant)

/-- What was sent as `msg` is enqueued as `m`. -/
def Message.Arrives (msg m : Message) : Prop :=
  ∃ (agrees : msg.Agrees) (buffer : Message), m = msg.delivered agrees buffer

theorem Message.Arrives.header {msg m : Message} (arrives : msg.Arrives m) : m.header = msg.header := by
  obtain ⟨_, _, rfl⟩ := arrives
  rfl

theorem Message.Arrives.carries {n : Nat} {msg m : Message} {value : CArray Byte n} (arrives : msg.Arrives m)
    (carries : msg.Carries value) (positive : 0 < n) : m.Carries value := by
  obtain ⟨agrees, buffer, rfl⟩ := arrives
  exact carries.delivered agrees positive buffer

abbrev Arrived (msgs enqueued : List Message) : Prop := Relay.Follows (fun m msg => msg.Arrives m) enqueued msgs

namespace Frame

theorem prefix_of_bytes (order : Endian) {frames all : List Frame}
    (sub : frames.flatMap (bytes order) <+: all.flatMap (bytes order)) : frames <+: all := by
  induction frames generalizing all with
  | nil => exact List.nil_prefix
  | cons f rest ih =>
    obtain ⟨tail, split⟩ := sub
    cases all with
    | nil =>
      rw [List.flatMap_nil, List.append_eq_nil_iff] at split
      exact absurd (flatMap_bytes_eq_nil order _ split.1) (List.cons_ne_nil f rest)
    | cons g others =>
      rw [List.flatMap_cons, List.flatMap_cons, List.append_assoc] at split
      obtain ⟨rfl, below⟩ := bytes_append_inj order f g _ _ split
      exact List.cons_prefix_cons.mpr ⟨rfl, ih ⟨tail, below⟩⟩

theorem flatMap_bytes_ofMessages (order : Endian) (msgs : List Message) (agree : ∀ msg ∈ msgs, msg.Agrees) :
    (ofMessages msgs agree).flatMap (bytes order) = msgs.flatMap (Message.wire order) := by
  rw [← flatMap_ops_bytes, ops_ofMessages, Message.flatMap_frameOps_bytes]

theorem arrived_enqueuedFrom (buffer : Message) (msgs : List Message) (agree : ∀ msg ∈ msgs, msg.Agrees)
    {frames : List Frame} (sub : frames <+: ofMessages msgs agree) : Arrived msgs (enqueuedFrom buffer frames) := by
  induction frames generalizing buffer msgs with
  | nil => exact .nil _ msgs
  | cons f rest ih =>
    cases msgs with
    | nil => exact absurd (List.prefix_nil.mp sub) (List.cons_ne_nil f rest)
    | cons msg others =>
      have split : f :: rest <+: ofMessage msg (agree msg List.mem_cons_self) ::
          ofMessages others fun other member => agree other (List.mem_cons_of_mem msg member) := sub
      obtain ⟨rfl, below⟩ := List.cons_prefix_cons.mp split
      obtain ⟨front, before, related⟩ := ih _ others _ below
      exact ⟨msg :: front, List.cons_prefix_cons.mpr ⟨rfl, before⟩, .cons ⟨_, buffer, rfl⟩ related⟩

end Frame

theorem ConnectionInterface.WriterInvariant.head_framesStarted {c : ConnectionInterface} (inv : WriterInvariant c)
    {op : WriteOp} {rest : List WriteOp} (first : c.framesStarted = op :: rest) :
    ∃ msg ∈ c.sendDataCalls, op = .header msg.header := by
  obtain ⟨done, calls, ⟨more, started⟩, _⟩ := inv.started
  rw [first] at started
  cases begun : done ++ c.outMsgQueue with
  | nil =>
    rw [begun] at started
    cases started
  | cons msg others =>
    rw [begun, List.flatMap_cons, Message.frameOps, List.cons_append] at started
    refine ⟨msg, ?_, (List.cons.inj started).1.symm⟩
    rw [calls, begun]
    exact List.mem_cons_self

namespace Endpoint
open Link (eq_of_prefixes)

variable {order : Endian} {p q : Endpoint} {a : Action}

theorem Serving.arrived {base : List Byte} (serving : Serving order base p) {msgs : List Message}
    {stream : List Byte} (agree : ∀ msg ∈ msgs, msg.Agrees)
    (lossless : p.conn.socketConnection.received <+: base ++ stream)
    (framed : stream <+: msgs.flatMap (Message.wire order)) : Arrived msgs p.enqueued := by
  obtain ⟨frames, rest, received, _, enqueued⟩ := serving.frames
  rw [received, List.append_assoc, List.prefix_append_right_inj] at lossless
  rw [enqueued]
  have sub : frames.flatMap (Frame.bytes order) <+: msgs.flatMap (Message.wire order) :=
    ((List.prefix_append _ rest).trans lossless).trans framed
  rw [← Frame.flatMap_bytes_ofMessages order msgs agree] at sub
  exact Frame.arrived_enqueuedFrom (.ofId 0) msgs agree (Frame.prefix_of_bytes order sub)

theorem startsFrames_or_answers (taken : p.step order a = some q) :
    StartsFrames p.conn q.conn ∨ ∃ (bytes : CArray Byte 8) (word : UInt64),
      a = .handler (.readOk .serverValidationRequest bytes.toList) ∧
      q.conn.socketConnection.writesStarted = p.conn.socketConnection.writesStarted ++ [.validationData word] := by
  cases step_cases taken with
  | sendData => exact Or.inl (.of_eq rfl)
  | posted msg rest =>
    exact Or.inl (ConnectionInterface.startsFrames_sendDataHandler { p.conn with posted := rest } msg)
  | readOk op bytes =>
    by_cases frame : op = .serverValidationRequest
    · subst frame
      exact Or.inr ⟨bytes, _, rfl, rfl⟩
    · exact Or.inl (ConnectionInterface.startsFrames_onRead order (p.conn.finishRead op bytes.toList) op bytes frame)
  | readFailed => exact Or.inl (.of_eq rfl)
  | writeOk op => exact Or.inl (ConnectionInterface.startsFrames_onWrite (p.conn.finishWrite op) op)
  | writeFailed => exact Or.inl (.of_eq rfl)
  | connected => exact Or.inl (.of_eq rfl)
  | connectFailed => exact Or.inl (.of_eq rfl)

inductive AnswersOnce (p : Endpoint) : Prop where
  | silent : (∀ op ∈ p.conn.socketConnection.writesStarted, op.isFrame = true) → AnswersOnce p
  | answered (early : List WriteOp) (word : UInt64) (late : List WriteOp) :
      p.conn.socketConnection.received ≠ [] →
      p.conn.socketConnection.writesStarted = early ++ .validationData word :: late →
      (∀ op ∈ early ++ late, op.isFrame = true) → AnswersOnce p

theorem AnswersOnce.step (once : AnswersOnce p) (client : ClientEnd order p)
    (taken : p.step order a = some q) : AnswersOnce q := by
  rcases startsFrames_or_answers taken with ⟨more, appended, also⟩ | ⟨bytes, word, rfl, appended⟩
  · cases once with
    | silent frames =>
      refine .silent fun op member => ?_
      rw [appended] at member
      exact (List.mem_append.mp member).elim (frames op) (also op)
    | answered early word late received started frames =>
      refine .answered early word (late ++ more) ?_ ?_ fun op member => ?_
      · rw [received_step taken]
        exact List.append_ne_nil_of_left_ne_nil received _
      · rw [appended, started, List.append_assoc, List.cons_append]
      · rw [← List.append_assoc] at member
        exact (List.mem_append.mp member).elim (frames op) (also op)
  · have first : p.conn.socketConnection.received = [] := by
      refine (startsFrames_client client taken).resolve_left ?_
      rintro ⟨more, again, also⟩
      rw [appended, List.append_cancel_left_eq] at again
      cases also (.validationData word) (again ▸ List.mem_singleton.mpr rfl)
    cases once with
    | silent frames =>
      refine .answered p.conn.socketConnection.writesStarted word [] ?_ appended ?_
      · rw [received_step taken, first, List.nil_append]
        intro none
        have length := bytes.length_eq
        rw [show bytes.toList = [] from none] at length
        cases length
      · rwa [List.append_nil]
    | answered _ _ _ received => exact absurd first received

theorem answersOnce_of_reachable (run : Transition.Reachable (step order) ⟨.connecting, []⟩ p) : AnswersOnce p := by
  have initial : AnswersOnce ⟨.connecting, []⟩ := .silent fun _ none => absurd none List.not_mem_nil
  exact run.invariant_of_reached initial fun _ _ _ before once _ taken =>
    once.step (clientEnd_of_reachable before) taken

/-- A client has written nothing, or a frame first, or its answer and then frames. -/
theorem stream_of_client (run : Transition.Reachable (step order) ⟨.connecting, []⟩ p) :
    p.sent order = [] ∨ (∃ msg ∈ p.conn.sendDataCalls, (msg.header.bytes order).toList <+: p.sent order) ∨
      ∃ answer : CArray Byte 8, p.sent order = answer.toList ++ p.conn.frameBytes order := by
  have inv := writerInvariant_run Begins.connecting.writerInvariant run
  have frame_first : ∀ op rest, p.conn.framesStarted = op :: rest →
      (∃ more, p.conn.socketConnection.writesStarted = op :: more) →
      ∃ msg ∈ p.conn.sendDataCalls, (msg.header.bytes order).toList <+: p.sent order := by
    rintro op rest frames ⟨more, started⟩
    obtain ⟨msg, member, rfl⟩ := inv.head_framesStarted frames
    refine ⟨msg, member, ?_⟩
    rw [sent, started, List.flatMap_cons]
    exact List.prefix_append _ _
  cases answersOnce_of_reachable run with
  | silent frames =>
    have same : p.conn.framesStarted = p.conn.socketConnection.writesStarted := List.filter_eq_self.mpr frames
    cases started : p.conn.socketConnection.writesStarted with
    | nil => exact Or.inl (by rw [sent, started, List.flatMap_nil])
    | cons op rest => exact Or.inr (Or.inl (frame_first op rest (same.trans started) ⟨rest, started⟩))
  | answered early word late _ started frames =>
    have all : p.conn.framesStarted = early ++ late := by
      rw [ConnectionInterface.framesStarted, started, List.filter_append,
        List.filter_cons_of_neg Bool.false_ne_true, ← List.filter_append, List.filter_eq_self.mpr frames]
    cases early with
    | nil =>
      refine Or.inr (Or.inr ⟨CArray.ofUInt64 order word, ?_⟩)
      rw [ConnectionInterface.frameBytes, all, sent, started]
      rfl
    | cons op rest => exact Or.inr (Or.inl (frame_first op _ all ⟨_, started⟩))

theorem arrived_at_client {challenge : UInt64} {uId : UInt32}
    (server : Transition.Reachable (step order) ⟨.accepted challenge uId, []⟩ p)
    (client : Transition.Reachable (step order) ⟨.connecting, []⟩ q)
    (agree : ∀ msg ∈ p.conn.sendDataCalls, msg.Agrees)
    (lossless : q.conn.socketConnection.received <+: p.sent order) : Arrived p.conn.sendDataCalls q.enqueued := by
  have inv := writerInvariant_run (Begins.accepted challenge uId).writerInvariant server
  cases (clientEnd_of_reachable client).phase with
  | serving word _ _ serving =>
    have stream : p.sent order = (CArray.ofUInt64 order challenge).toList ++ p.conn.frameBytes order := by
      rw [sent, writesStarted_of_reachable server]
      rfl
    rw [stream] at lossless
    obtain ⟨frames, rest, received, _⟩ := serving.frames
    have same : word = CArray.ofUInt64 order challenge := by
      refine eq_of_prefixes ?_ (List.prefix_append _ (p.conn.frameBytes order))
      rw [received, List.append_assoc] at lossless
      exact (List.prefix_append _ _).trans lossless
    exact serving.arrived agree (same ▸ lossless) (inv.frameBytes order)
  | connecting _ _ _ _ _ none => exact none ▸ .nil _ _
  | awaiting _ _ _ _ _ none => exact none ▸ .nil _ _
  | answering _ _ _ _ _ _ none => exact none ▸ .nil _ _
  | failed _ _ _ _ none => exact none ▸ .nil _ _

/-- At the server, unless the header of a message can be taken for the right answer. -/
theorem arrived_at_server {challenge : UInt64} {uId : UInt32}
    (server : Transition.Reachable (step order) ⟨.accepted challenge uId, []⟩ p)
    (client : Transition.Reachable (step order) ⟨.connecting, []⟩ q)
    (agree : ∀ msg ∈ q.conn.sendDataCalls, msg.Agrees)
    (unmistakable : ∀ msg ∈ q.conn.sendDataCalls,
      (msg.header.bytes order).toUInt64 order ≠ encryptHandshakeData challenge)
    (lossless : p.conn.socketConnection.received <+: q.sent order) : Arrived q.conn.sendDataCalls p.enqueued := by
  have inv := writerInvariant_run Begins.connecting.writerInvariant client
  cases (serverEnd_of_reachable server).inbound with
  | serving answer right _ serving =>
    obtain ⟨frames, rest, received, _⟩ := serving.frames
    have begins : answer.toList <+: q.sent order := by
      rw [received, List.append_assoc] at lossless
      exact (List.prefix_append _ _).trans lossless
    rcases stream_of_client client with none | ⟨msg, member, first⟩ | ⟨word, stream⟩
    · have length := begins.length_le
      rw [none, answer.length_eq] at length
      cases length
    · exact absurd (eq_of_prefixes first begins ▸ right) (unmistakable msg member)
    · rw [stream] at begins lossless
      have same : answer = word := eq_of_prefixes begins (List.prefix_append _ _)
      exact serving.arrived agree (same ▸ lossless) (inv.frameBytes order)
  | awaiting _ _ _ _ _ none => exact none ▸ .nil _ _
  | refused _ _ _ _ _ none => exact none ▸ .nil _ _

/-- What either end `p` or `q` has enqueued are the first messages passed to `sendData` at the other. -/
structure ArrivesInOrder (p q : Endpoint) : Prop where
  toClient : Arrived p.conn.sendDataCalls q.enqueued
  toServer : Arrived q.conn.sendDataCalls p.enqueued

/-- In every run of the two ends, whatever fails and whenever, if each receives a beginning of the bytes that
the other has written. -/
theorem arrives_in_order {challenge : UInt64} {uId : UInt32}
    (server : Transition.Reachable (step order) ⟨.accepted challenge uId, []⟩ p)
    (client : Transition.Reachable (step order) ⟨.connecting, []⟩ q)
    (agreeServer : ∀ msg ∈ p.conn.sendDataCalls, msg.Agrees) (agreeClient : ∀ msg ∈ q.conn.sendDataCalls, msg.Agrees)
    (unmistakable : ∀ msg ∈ q.conn.sendDataCalls,
      (msg.header.bytes order).toUInt64 order ≠ encryptHandshakeData challenge)
    (toClient : q.conn.socketConnection.received <+: p.sent order)
    (toServer : p.conn.socketConnection.received <+: q.sent order) : ArrivesInOrder p q where
  toClient := arrived_at_client server client agreeServer toClient
  toServer := arrived_at_server server client agreeClient unmistakable toServer

def greetsThenFails : List Action :=
  [.sendData (.ofId 4), .handler .posted, .sendData (.ofId 0), .handler (.writeOk (.header ⟨4, 0⟩)),
    .handler .posted, .handler (.writeFailed (.header ⟨0, 0⟩))]

def receivesGreeting : List Action :=
  [.handler .connected, .handler (.readOk .serverValidationRequest (CArray.ofUInt64 .little 7).toList),
    .handler (.writeOk (.validationData (encryptHandshakeData 7))), .sendData (.ofId 0), .handler .posted,
    .handler (.readOk .header ((MessageHeader.mk 4 0).bytes .little).toList),
    .handler (.readFailed .header (((MessageHeader.mk 0 0).bytes .little).toList.take 4))]

theorem greetsThenFails_enabled :
    (Transition.perform (step .little) ⟨.accepted 7 0, []⟩ greetsThenFails).isSome = true := by decide

theorem receivesGreeting_enabled :
    (Transition.perform (step .little) ⟨.connecting, []⟩ receivesGreeting).isSome = true := by decide

theorem arrives_in_order_receivesGreeting : ∃ p q, ArrivesInOrder p q ∧ q.enqueued = [.ofId 4] := by
  refine ⟨_, _, @arrives_in_order .little
    ((Transition.perform (step .little) ⟨.accepted 7 0, []⟩ greetsThenFails).get greetsThenFails_enabled)
    ((Transition.perform (step .little) ⟨.connecting, []⟩ receivesGreeting).get receivesGreeting_enabled) 7 0
    (.of_isSome greetsThenFails _ greetsThenFails_enabled) (.of_isSome receivesGreeting _ receivesGreeting_enabled)
    ?_ ?_ (by decide) (by decide) (by decide), by decide⟩
  · have calls : ∀ msg ∈ ((Transition.perform (step .little) ⟨.accepted 7 0, []⟩ greetsThenFails).get
        greetsThenFails_enabled).conn.sendDataCalls, msg = .ofId 4 ∨ msg = .ofId 0 := by decide
    intro msg member
    rcases calls msg member with rfl | rfl
    · exact Message.agrees_ofId 4
    · exact Message.agrees_ofId 0
  · have calls : ∀ msg ∈ ((Transition.perform (step .little) ⟨.connecting, []⟩ receivesGreeting).get
        receivesGreeting_enabled).conn.sendDataCalls, msg = .ofId 0 := by decide
    intro msg member
    exact calls msg member ▸ Message.agrees_ofId 0

end Endpoint
end MyCQ
