import MyCQ.Foundation.Transition
import MyCQ.Net.Connection

/-! A connection as a transition system.

Its actions are the calls of `sendData` and the handlers that the io thread
runs, in any order. What holds of every reachable endpoint holds of every
connection of the server and of the client.
-/

set_option autoImplicit false

namespace MyCQ
open Octets (Endian)

namespace ConnectionInterface

def withWriter (c : ConnectionInterface) (queue : List Message) (writes started : List WriteOp) :
    ConnectionInterface :=
  { c with
    outMsgQueue := queue
    socketConnection := { c.socketConnection with writes := writes, writesStarted := started } }

def WritesOnly (c d : ConnectionInterface) : Prop :=
  ∃ queue writes started, d = c.withWriter queue writes started

theorem WritesOnly.refl (c : ConnectionInterface) : WritesOnly c c := ⟨_, _, _, rfl⟩

theorem WritesOnly.trans {c d e : ConnectionInterface} (first : WritesOnly c d)
    (second : WritesOnly d e) : WritesOnly c e := by
  obtain ⟨_, _, _, rfl⟩ := first
  obtain ⟨_, _, _, rfl⟩ := second
  exact ⟨_, _, _, rfl⟩

theorem WritesOnly.id {c d : ConnectionInterface} (only : WritesOnly c d) : d.id = c.id := by
  obtain ⟨_, _, _, rfl⟩ := only
  rfl

theorem WritesOnly.isConnected {c d : ConnectionInterface} (only : WritesOnly c d) :
    d.isConnected = c.isConnected := by
  obtain ⟨_, _, _, rfl⟩ := only
  rfl

theorem writesOnly_asyncWrite (c : ConnectionInterface) (op : WriteOp) : WritesOnly c (c.asyncWrite op) :=
  ⟨_, _, _, rfl⟩

theorem writesOnly_finishWrite (c : ConnectionInterface) (op : WriteOp) : WritesOnly c (c.finishWrite op) :=
  ⟨_, _, _, rfl⟩

theorem writesOnly_writeHeader (c : ConnectionInterface) : WritesOnly c c.writeHeader := by
  unfold writeHeader
  split
  · exact .refl c
  · exact writesOnly_asyncWrite c _

theorem writesOnly_writePayload (c : ConnectionInterface) : WritesOnly c c.writePayload := by
  unfold writePayload
  split
  · exact .refl c
  · exact writesOnly_asyncWrite c _

theorem writesOnly_queue (c : ConnectionInterface) (queue : List Message) :
    WritesOnly c { c with outMsgQueue := queue } := ⟨_, _, _, rfl⟩

theorem writesOnly_sendDataHandler (c : ConnectionInterface) (msg : Message) :
    WritesOnly c (c.sendDataHandler msg) := by
  simp only [sendDataHandler]
  split
  · exact writesOnly_queue c _
  · exact (writesOnly_queue c _).trans (writesOnly_writeHeader _)

theorem writesOnly_popFront (c : ConnectionInterface) : WritesOnly c c.popFront := by
  simp only [popFront]
  split
  · exact writesOnly_queue c _
  · exact (writesOnly_queue c _).trans (writesOnly_writeHeader _)

theorem writesOnly_onWriteHeader (c : ConnectionInterface) : WritesOnly c c.onWriteHeader := by
  unfold onWriteHeader
  split
  · exact .refl c
  · split
    · exact writesOnly_writePayload c
    · exact writesOnly_popFront c

end ConnectionInterface

structure Endpoint where
  conn : ConnectionInterface
  enqueued : List Message

namespace Endpoint
open ConnectionInterface (Handler)

inductive Action where
  | sendData (msg : Message)
  | handler (h : Handler)

def step (order : Endian) (p : Endpoint) : Action → Option Endpoint
  | .sendData msg => some { p with conn := p.conn.sendData msg }
  | .handler h => (p.conn.runHandler order h).map fun r => ⟨r.1, p.enqueued ++ r.2.toList⟩

theorem step_writeOk_of_mem (order : Endian) {p : Endpoint} {op : WriteOp}
    (outstanding : op ∈ p.conn.socketConnection.writes) :
    p.step order (.handler (.writeOk op)) = some ⟨(p.conn.finishWrite op).onWrite op, p.enqueued⟩ := by
  simp [step, ConnectionInterface.runHandler, outstanding]

theorem step_handler {order : Endian} {conn result : ConnectionInterface} {h : Handler} {out : Option Message}
    (ran : conn.runHandler order h = some (result, out)) (enqueued : List Message) :
    (Endpoint.mk conn enqueued).step order (.handler h) = some ⟨result, enqueued ++ out.toList⟩ := by
  simp only [step, ran, Option.map_some]

-- Invariants are proved from these cases; the step function is unfolded only in
-- `step_cases`.
inductive StepCases (order : Endian) (p : Endpoint) : Action → Endpoint → Prop where
  | sendData (msg : Message) : StepCases order p (.sendData msg) ⟨p.conn.sendData msg, p.enqueued⟩
  | posted (msg : Message) (rest : List Message) : p.conn.posted = msg :: rest →
      StepCases order p (.handler .posted)
        ⟨{ p.conn with posted := rest }.sendDataHandler msg, p.enqueued⟩
  | readOk (op : ReadOp) (bytes : CArray Byte op.length) : op ∈ p.conn.socketConnection.reads →
      StepCases order p (.handler (.readOk op bytes.toList))
        ⟨((p.conn.finishRead op bytes.toList).onRead order op bytes).1,
          p.enqueued ++ ((p.conn.finishRead op bytes.toList).onRead order op bytes).2.toList⟩
  | readFailed (op : ReadOp) (bytes : List Byte) : op ∈ p.conn.socketConnection.reads →
      bytes.length < op.length →
      StepCases order p (.handler (.readFailed op bytes)) ⟨(p.conn.finishRead op bytes).close, p.enqueued⟩
  | writeOk (op : WriteOp) : op ∈ p.conn.socketConnection.writes →
      StepCases order p (.handler (.writeOk op)) ⟨(p.conn.finishWrite op).onWrite op, p.enqueued⟩
  | writeFailed (op : WriteOp) : op ∈ p.conn.socketConnection.writes →
      StepCases order p (.handler (.writeFailed op)) ⟨(p.conn.finishWrite op).close, p.enqueued⟩
  | connected : p.conn.socketConnection.connecting = true →
      StepCases order p (.handler .connected)
        ⟨{ p.conn with socketConnection := p.conn.socketConnection.finishConnect }.readServerValidationRequest,
          p.enqueued⟩
  | connectFailed : p.conn.socketConnection.connecting = true →
      StepCases order p (.handler .connectFailed)
        ⟨{ p.conn with socketConnection := p.conn.socketConnection.finishConnect }, p.enqueued⟩

theorem step_readOk (order : Endian) (p : Endpoint) (op : ReadOp) (bytes : CArray Byte op.length) :
    p.step order (.handler (.readOk op bytes.toList)) =
      if op ∈ p.conn.socketConnection.reads then
        some ⟨((p.conn.finishRead op bytes.toList).onRead order op bytes).1,
          p.enqueued ++ ((p.conn.finishRead op bytes.toList).onRead order op bytes).2.toList⟩
      else none := by
  simp only [step, ConnectionInterface.runHandler, bytes.length_eq, dite_true]
  split <;> rfl

theorem step_readOk_of_mem (order : Endian) {p : Endpoint} {op : ReadOp} (bytes : CArray Byte op.length)
    (outstanding : op ∈ p.conn.socketConnection.reads) :
    p.step order (.handler (.readOk op bytes.toList)) =
      some ⟨((p.conn.finishRead op bytes.toList).onRead order op bytes).1,
        p.enqueued ++ ((p.conn.finishRead op bytes.toList).onRead order op bytes).2.toList⟩ :=
  (step_readOk order p op bytes).trans (if_pos outstanding)

theorem step_cases {order : Endian} {p q : Endpoint} {a : Action} (taken : p.step order a = some q) :
    StepCases order p a q := by
  cases a with
  | sendData msg =>
    cases taken
    exact .sendData msg
  | handler h =>
    obtain ⟨⟨conn, out⟩, ran, rfl⟩ := Option.map_eq_some_iff.mp taken
    cases h with
    | posted =>
      simp only [ConnectionInterface.runHandler] at ran
      split at ran
      · cases ran
      · next msg rest waiting =>
        cases ran
        simpa using StepCases.posted msg rest waiting
    | readOk op bytes =>
      simp only [ConnectionInterface.runHandler] at ran
      split at ran
      · next outstanding =>
        split at ran
        · next complete =>
          have taken : StepCases order p (.handler (.readOk op bytes)) _ :=
            .readOk op ⟨bytes, complete⟩ outstanding
          dsimp only at taken
          rwa [Option.some.inj ran] at taken
        · cases ran
      · cases ran
    | readFailed op bytes =>
      simp only [ConnectionInterface.runHandler, Option.ite_none_right_eq_some, Option.some.injEq,
        Prod.mk.injEq] at ran
      obtain ⟨⟨outstanding, short⟩, rfl, rfl⟩ := ran
      simpa using StepCases.readFailed op bytes outstanding short
    | writeOk op =>
      simp only [ConnectionInterface.runHandler, Option.ite_none_right_eq_some, Option.some.injEq,
        Prod.mk.injEq] at ran
      obtain ⟨outstanding, rfl, rfl⟩ := ran
      simpa using StepCases.writeOk op outstanding
    | writeFailed op =>
      simp only [ConnectionInterface.runHandler, Option.ite_none_right_eq_some, Option.some.injEq,
        Prod.mk.injEq] at ran
      obtain ⟨outstanding, rfl, rfl⟩ := ran
      simpa using StepCases.writeFailed op outstanding
    | connected =>
      simp only [ConnectionInterface.runHandler, Option.ite_none_right_eq_some, Option.some.injEq,
        Prod.mk.injEq] at ran
      obtain ⟨outstanding, rfl, rfl⟩ := ran
      simpa using StepCases.connected outstanding
    | connectFailed =>
      simp only [ConnectionInterface.runHandler, Option.ite_none_right_eq_some, Option.some.injEq,
        Prod.mk.injEq] at ran
      obtain ⟨outstanding, rfl, rfl⟩ := ran
      simpa using StepCases.connectFailed outstanding

theorem isOpen_handler {order : Endian} {p q : Endpoint} {h : Handler}
    (taken : p.step order (.handler h) = some q) (isOpen : q.conn.isConnected = true) :
    p.conn.isConnected = true := by
  cases step_cases taken with
  | posted msg rest =>
    have only := ConnectionInterface.writesOnly_sendDataHandler { p.conn with posted := rest } msg
    exact only.isConnected.symm.trans isOpen
  | readOk op bytes =>
    cases op with
    | serverValidationRequest => exact isOpen
    | checkValidation =>
      simp only [ConnectionInterface.onRead, ConnectionInterface.onReadAndCheckValidation] at isOpen
      split at isOpen
      · exact isOpen
      · cases isOpen
    | header =>
      simp only [ConnectionInterface.onRead, ConnectionInterface.onReadHeader] at isOpen
      split at isOpen <;> exact isOpen
    | payload size => exact isOpen
  | readFailed => cases isOpen
  | writeOk op =>
    cases op with
    | validationData word =>
      simp only [ConnectionInterface.onWrite, ConnectionInterface.onSendValidationData] at isOpen
      split at isOpen <;> exact isOpen
    | header announced =>
      have only := ConnectionInterface.writesOnly_onWriteHeader (p.conn.finishWrite (.header announced))
      exact only.isConnected.symm.trans isOpen
    | payload bytes =>
      have only := ConnectionInterface.writesOnly_popFront (p.conn.finishWrite (.payload bytes))
      exact only.isConnected.symm.trans isOpen
  | writeFailed => cases isOpen
  | connected => exact isOpen
  | connectFailed => exact isOpen

theorem id_handler {order : Endian} {p q : Endpoint} {h : Handler}
    (taken : p.step order (.handler h) = some q) : q.conn.id = p.conn.id := by
  cases step_cases taken with
  | posted msg rest => exact (ConnectionInterface.writesOnly_sendDataHandler { p.conn with posted := rest } msg).id
  | readOk op bytes =>
    cases op with
    | serverValidationRequest => rfl
    | checkValidation =>
      simp only [ConnectionInterface.onRead, ConnectionInterface.onReadAndCheckValidation]
      split <;> rfl
    | header =>
      simp only [ConnectionInterface.onRead, ConnectionInterface.onReadHeader]
      split <;> rfl
    | payload size => rfl
  | readFailed => rfl
  | writeOk op =>
    cases op with
    | validationData word =>
      simp only [ConnectionInterface.onWrite, ConnectionInterface.onSendValidationData]
      split <;> rfl
    | header announced => exact (ConnectionInterface.writesOnly_onWriteHeader _).id
    | payload bytes => exact (ConnectionInterface.writesOnly_popFront _).id
  | writeFailed => rfl
  | connected => rfl
  | connectFailed => rfl

end Endpoint
end MyCQ
