import MyCQ.App.Client.Program.Connection
import MyCQ.App.System.Replies

/-! The whole chat: one server, clients that run the client program, and other peers.

A read at one end of a client's connection takes bytes that the other end has
written, in order. Any operation may fail, and the other peers may send
anything. The server program does nothing but accept and call `update`.
-/

set_option autoImplicit false

namespace MyCQ
open Octets (Endian)

namespace ClientProgram

def written (order : Endian) (s : ClientProgram) : List Byte :=
  match s.connectionModule with
  | none => []
  | some c => (Endpoint.mk c s.enqueued).sent order

def received (s : ClientProgram) : List Byte :=
  match s.connectionModule with
  | none => []
  | some c => c.socketConnection.received

def Action.taken : Action → List Byte
  | .handler h => (Endpoint.Action.handler h).taken
  | _ => []

end ClientProgram

def System.Action.taken (c : ConnRef) : Action → List Byte
  | .handler d h => if d = c then (Endpoint.Action.handler h).taken else []
  | _ => []

structure Network (ι : Type) where
  system : System
  program : ι → ClientProgram
  -- Who is at the other end of the accepted connections, in the order of acceptance; `none` is some other peer.
  peers : List (Option ι)

namespace Network

variable {ι : Type}

def start (idCounter : UInt32) (stdin : ι → List Byte) : Network ι :=
  ⟨.start idCounter, fun x => .start (stdin x) (some .connecting), []⟩

inductive Action (ι : Type) where
  | accept (clock : UInt64) (peer : Option ι)
  | server (a : System.Action)
  | client (x : ι) (a : ClientProgram.Action)

def peer (s : Network ι) (c : ConnRef) : Option ι := s.peers[c]?.join

/-- The server program sends nothing beside `update`, and reads what the client at the other end has written. -/
def serverActs (order : Endian) (s : Network ι) : System.Action → Bool
  | .accept _ | .sendMessageToAllClients _ _ | .sendMessageToClient _ _ => false
  | .handler c h =>
    match s.peer c with
    | none => true
    | some x => ((s.system.server.conn c).socketConnection.received ++
        (Endpoint.Action.handler h).taken).isPrefixOf ((s.program x).written order)
  | _ => true

variable [DecidableEq ι]

def toClient (order : Endian) (s : Network ι) (x : ι) : List Byte :=
  match s.peers.idxOf? (some x) with
  | none => []
  | some c => (s.system.endpoint c).sent order

def clientActs (order : Endian) (s : Network ι) (x : ι) (a : ClientProgram.Action) : Bool :=
  ((s.program x).received ++ a.taken).isPrefixOf (s.toClient order x)

def step (order : Endian) (s : Network ι) : Action ι → Option (Network ι)
  | .accept clock peer =>
    -- A client connects once.
    if peer.isSome ∧ peer ∈ s.peers then none
    else (s.system.step order (.accept clock)).map fun system => { s with system, peers := s.peers ++ [peer] }
  | .server a =>
    if s.serverActs order a then (s.system.step order a).map fun system => { s with system } else none
  | .client x a =>
    if s.clientActs order x a then
      ((s.program x).step order a).map fun program => { s with program := Function.update s.program x program }
    else none

inductive StepCases (order : Endian) (s : Network ι) : Action ι → Network ι → Prop where
  | accept (clock : UInt64) (peer : Option ι) (system : System) : (∀ x, peer = some x → some x ∉ s.peers) →
      s.system.step order (.accept clock) = some system →
      StepCases order s (.accept clock peer) { s with system, peers := s.peers ++ [peer] }
  | server (a : System.Action) (system : System) : s.serverActs order a = true →
      s.system.step order a = some system → StepCases order s (.server a) { s with system }
  | client (x : ι) (a : ClientProgram.Action) (program : ClientProgram) : s.clientActs order x a = true →
      (s.program x).step order a = some program →
      StepCases order s (.client x a) { s with program := Function.update s.program x program }

variable {order : Endian} {s t : Network ι} {a : Action ι}

theorem step_cases (taken : s.step order a = some t) : StepCases order s a t := by
  cases a with
  | accept clock peer =>
    obtain ⟨new, taken⟩ := Option.ite_none_left_eq_some.mp taken
    obtain ⟨system, ran, rfl⟩ := Option.map_eq_some_iff.mp taken
    exact .accept clock peer system (fun x same old => new ⟨same ▸ rfl, same ▸ old⟩) ran
  | server a =>
    obtain ⟨acts, taken⟩ := Option.ite_none_right_eq_some.mp taken
    obtain ⟨system, ran, rfl⟩ := Option.map_eq_some_iff.mp taken
    exact .server a system acts ran
  | client x a =>
    obtain ⟨acts, taken⟩ := Option.ite_none_right_eq_some.mp taken
    obtain ⟨program, ran, rfl⟩ := Option.map_eq_some_iff.mp taken
    exact .client x a program acts ran

end Network
end MyCQ
