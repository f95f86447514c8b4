import MyCQ.Net.Endpoint.Client
import MyCQ.Net.Endpoint.Framing

/-! A client and a server joined by a lossless connection.

Each end receives the bytes that the other has started to write, in order. No
operation fails. The client's program may call `sendData` whenever its socket is
open, which it is before the connection is established.
-/

set_option autoImplicit false

namespace MyCQ
open Octets (Endian)
open ConnectionInterface (Handler WriterInvariant StartsFrames)

namespace Endpoint

def sent (order : Endian) (p : Endpoint) : List Byte :=
  p.conn.socketConnection.writesStarted.flatMap (WriteOp.bytes order)

variable {order : Endian}

theorem writesStarted_step {p q : Endpoint} {a : Action} (taken : p.step order a = some q) :
    p.conn.socketConnection.writesStarted <+: q.conn.socketConnection.writesStarted := by
  have of_starts : StartsFrames p.conn q.conn →
      p.conn.socketConnection.writesStarted <+: q.conn.socketConnection.writesStarted :=
    fun ⟨more, appended, _⟩ => ⟨more, appended.symm⟩
  cases step_cases taken with
  | sendData => exact List.prefix_refl _
  | posted msg rest =>
    exact of_starts (ConnectionInterface.startsFrames_sendDataHandler { p.conn with posted := rest } msg)
  | readOk op bytes =>
    by_cases frame : op = .serverValidationRequest
    · subst frame
      exact List.prefix_append _ _
    · exact of_starts (ConnectionInterface.startsFrames_onRead order (p.conn.finishRead op bytes.toList) op bytes frame)
  | readFailed => exact List.prefix_refl _
  | writeOk op => exact of_starts (ConnectionInterface.startsFrames_onWrite (p.conn.finishWrite op) op)
  | writeFailed => exact List.prefix_refl _
  | connected => exact List.prefix_refl _
  | connectFailed => exact List.prefix_refl _

theorem sent_step {p q : Endpoint} {a : Action} (taken : p.step order a = some q) :
    p.sent order <+: q.sent order := by
  obtain ⟨more, appended⟩ := writesStarted_step taken
  exact ⟨more.flatMap (WriteOp.bytes order), by rw [sent, sent, ← appended, List.flatMap_append]⟩

def Action.taken : Action → List Byte
  | .handler (.readOk _ bytes) | .handler (.readFailed _ bytes) => bytes
  | _ => []

theorem received_step {p q : Endpoint} {a : Action} (taken : p.step order a = some q) :
    q.conn.socketConnection.received = p.conn.socketConnection.received ++ a.taken := by
  have nothing : ∀ {c d : ConnectionInterface}, ConnectionInterface.SameReader c d →
      d.socketConnection.received = c.socketConnection.received ++ [] := by
    intro c d same
    rw [same.received, List.append_nil]
  cases step_cases taken with
  | sendData => exact (List.append_nil _).symm
  | posted msg rest => exact nothing (ConnectionInterface.sameReader_posted p.conn rest msg)
  | readOk op bytes =>
    cases op with
    | serverValidationRequest => rfl
    | checkValidation =>
      simp only [ConnectionInterface.onRead, ConnectionInterface.onReadAndCheckValidation]
      split <;> rfl
    | header =>
      simp only [ConnectionInterface.onRead, ConnectionInterface.onReadHeader]
      split <;> rfl
    | payload size => rfl
  | readFailed => rfl
  | writeOk op =>
    cases op with
    | validationData word =>
      simp only [ConnectionInterface.onWrite, ConnectionInterface.onSendValidationData]
      split <;> exact (List.append_nil _).symm
    | header announced =>
      exact nothing ((ConnectionInterface.writesOnly_finishWrite p.conn _).trans
        (ConnectionInterface.writesOnly_onWriteHeader _)).sameReader
    | payload bytes =>
      exact nothing ((ConnectionInterface.writesOnly_finishWrite p.conn _).trans
        (ConnectionInterface.writesOnly_popFront _)).sameReader
  | writeFailed => exact (List.append_nil _).symm
  | connected => exact (List.append_nil _).symm
  | connectFailed => exact (List.append_nil _).symm

end Endpoint

inductive Side where
  | client
  | server
  deriving DecidableEq, Repr

def Side.other : Side → Side
  | client => server
  | server => client

structure Link where
  client : Endpoint
  server : Endpoint

namespace Link
open Endpoint (ClientEnd ServerEnd ChallengeFirst sent)

def get (link : Link) : Side → Endpoint
  | .client => link.client
  | .server => link.server

def set (link : Link) : Side → Endpoint → Link
  | .client, p => { link with client := p }
  | .server, p => { link with server := p }

def start (challenge : UInt64) (uId : UInt32) : Link := ⟨⟨.connecting, []⟩, ⟨.accepted challenge uId, []⟩⟩

-- Bytes can be read as soon as the other end has started to write them. Writes
-- complete independently of that.
/-- What can happen on a connection without loss. -/
def allowed (order : Endian) (link : Link) (side : Side) : Endpoint.Action → Bool
  | .sendData _ => side = .server || link.client.conn.isConnected
  | .handler (.readOk _ bytes) =>
    ((link.get side).conn.socketConnection.received ++ bytes).isPrefixOf ((link.get side.other).sent order)
  | .handler .posted | .handler (.writeOk _) | .handler .connected => true
  | .handler (.readFailed _ _) | .handler (.writeFailed _) | .handler .connectFailed => false

def step (order : Endian) (link : Link) (a : Side × Endpoint.Action) : Option Link :=
  if link.allowed order a.1 a.2 then ((link.get a.1).step order a.2).map (link.set a.1) else none

theorem step_eq_some {order : Endian} {link after : Link} {side : Side} {a : Endpoint.Action}
    (taken : link.step order (side, a) = some after) :
    link.allowed order side a = true ∧
      ∃ q, (link.get side).step order a = some q ∧ after = link.set side q := by
  obtain ⟨permitted, result⟩ := Option.ite_none_right_eq_some.mp taken
  obtain ⟨q, moved, same⟩ := Option.map_eq_some_iff.mp result
  exact ⟨permitted, q, moved, same.symm⟩

end Link
end MyCQ
