import Mathlib.Logic.Function.Basic
import MyCQ.App.Payloads
import MyCQ.Net.Connection

/-! The chat server: the generic server with the virtual methods of `MyCQServer`.

Connection objects live in a heap and are referred to by `ConnRef`; a
`shared_ptr` is an optional reference. Dereferencing null, reading outside a
payload and writing outside an array are faults, after which there is no state.
-/

set_option autoImplicit false

namespace MyCQ
open Octets (Endian)

/-- Undefined behaviour of the source. -/
inductive Fault where
  | extraction
  | nullDereference
  | clientIdsOverflow
  | stringOverread
  | emptyQueue
  | useAfterFree
  deriving DecidableEq, Repr

abbrev ConnRef := Nat

structure OwnedMessage where
  remote : Option ConnRef
  msg : Message
  deriving DecidableEq, Repr

structure MyCQServer where
  conn : ConnRef → ConnectionInterface
  created : Nat
  connectionsQueue : List (Option ConnRef)
  inMsgQueue : List OwnedMessage
  idCounter : UInt32
  -- The calls of `onClientDisconnect`.
  disconnectCalls : List ConnRef

namespace MyCQServer

/-- A server before its first connection. The counter is never initialised. -/
def start (idCounter : UInt32) : MyCQServer := ⟨fun _ => default, 0, [], [], idCounter, []⟩

def deref (ptr : Option ConnRef) : Except Fault ConnRef :=
  match ptr with
  | none => .error .nullDereference
  | some c => .ok c

def setConn (s : MyCQServer) (c : ConnRef) (conn : ConnectionInterface) : MyCQServer :=
  { s with conn := Function.update s.conn c conn }

def sendData (s : MyCQServer) (c : ConnRef) (msg : Message) : MyCQServer :=
  s.setConn c ((s.conn c).sendData msg)

def getID (s : MyCQServer) (c : ConnRef) : UInt32 := (s.conn c).id

def isConnected (s : MyCQServer) (c : ConnRef) : Bool := (s.conn c).isConnected

def onClientConnect (s : MyCQServer) (c : ConnRef) : MyCQServer × Bool :=
  (s.sendData c (.ofId MyCQMessages.serverAccept.toUInt32), true)

def onClientDisconnect (s : MyCQServer) (ptr : Option ConnRef) : Except Fault MyCQServer := do
  let c ← deref ptr
  .ok { s with disconnectCalls := s.disconnectCalls ++ [c] }

-- The connection is listed before its handshake begins, and the hook may send to it.
/-- The success branch of the accept handler in `waitForClientConnection`. -/
def acceptConnection (s : MyCQServer) (clock : UInt64) : MyCQServer :=
  let c := s.created
  let s := { s.setConn c (.create .server (.fresh true) clock) with created := c + 1 }
  let (s, approved) := s.onClientConnect c
  if approved then
    let s := { s with connectionsQueue := s.connectionsQueue ++ [some c] }
    let s := s.setConn c ((s.conn c).connectToClient s.idCounter)
    { s with idCounter := s.idCounter + 1 }
  else s

-- The caller's pointer is reset before the list is searched for it, so the search
-- is for null entries.
def sendMessageToClient (s : MyCQServer) (clientConnection : Option ConnRef) (msg : Message) :
    Except Fault MyCQServer :=
  match clientConnection.filter s.isConnected with
  | some c => .ok (s.sendData c msg)
  | none => do
    let s ← s.onClientDisconnect clientConnection
    let clientConnection : Option ConnRef := none
    .ok { s with connectionsQueue := s.connectionsQueue.filter (· ≠ clientConnection) }

/-- The loop of `sendMessageToAllClients`: the server after it, the entries with the invalid ones
reset, and whether there were any. -/
def broadcastLoop (msg : Message) (ignoreClient : Option ConnRef) :
    List (Option ConnRef) → MyCQServer → Except Fault (MyCQServer × List (Option ConnRef) × Bool)
  | [], s => .ok (s, [], false)
  | connIt :: rest, s =>
    match connIt.filter s.isConnected with
    | some c => do
      let s := if connIt ≠ ignoreClient then s.sendData c msg else s
      let (s, entries, invalid) ← broadcastLoop msg ignoreClient rest s
      .ok (s, connIt :: entries, invalid)
    | none => do
      let s ← s.onClientDisconnect connIt
      let (s, entries, _) ← broadcastLoop msg ignoreClient rest s
      .ok (s, none :: entries, true)

def sendMessageToAllClients (s : MyCQServer) (msg : Message) (ignoreClient : Option ConnRef) :
    Except Fault MyCQServer := do
  let (s, entries, invalidClientExistFlag) ← broadcastLoop msg ignoreClient s.connectionsQueue s
  let s := { s with connectionsQueue := entries }
  if invalidClientExistFlag then
    .ok { s with connectionsQueue := s.connectionsQueue.filter (· ≠ none) }
  else .ok s

/-- `msg >> payload` for a structure of the given size. -/
def extract (msg : Message) (sizeof : Nat) : Except Fault (CArray Byte sizeof) :=
  match msg.pop sizeof with
  | none => .error .extraction
  | some (bytes, _) => .ok bytes

-- The loop runs over the list of connections and not over the array.
def fillClientIds (s : MyCQServer) (i : Nat) :
    List (Option ConnRef) → CArray UInt32 1000 → Except Fault (CArray UInt32 1000)
  | [], ids => .ok ids
  | entry :: rest, ids => do
    let c ← deref entry
    if i < 1000 then s.fillClientIds (i + 1) rest (ids.set i (s.getID c))
    else .error .clientIdsOverflow

-- Only the ID is compared; whether the socket is open does not matter here.
def notifyLoop (msg : Message) (receiverId : UInt32) :
    List (Option ConnRef) → MyCQServer → Except Fault MyCQServer
  | [], s => .ok s
  | it :: rest, s => do
    let c ← deref it
    if s.getID c = receiverId then notifyLoop msg receiverId rest (s.sendData c msg)
    else notifyLoop msg receiverId rest s

/-- `uninitialized` is the content of the memory in which the reply to `ListAllClients` is built; the
other two payloads are overwritten completely before they are used. -/
def onMessage (order : Endian) (uninitialized : ClientsListDescription) (s : MyCQServer)
    (client : Option ConnRef) (msgInput : Message) : Except Fault MyCQServer :=
  match MyCQMessages.ofUInt32 msgInput.header.id with
  | some .serverPing => do
    let c ← deref client
    .ok (s.sendData c msgInput)
  | some .messageAll => do
    let bytes ← extract msgInput MessageAllDescription.sizeof
    let payloadFromClient := MessageAllDescription.ofBytes order bytes
    let c ← deref client
    let payloadFromClient := { payloadFromClient with senderId := s.getID c }
    let msg := (Message.ofId MyCQMessages.messageAll.toUInt32).push (payloadFromClient.toBytes order).toList
    s.sendMessageToAllClients msg client
  | some .listAllClients => do
    let c ← deref client
    let ids ← s.fillClientIds 0 s.connectionsQueue uninitialized.clientIds
    let payloadMsg : ClientsListDescription :=
      ⟨UInt32.ofNat s.connectionsQueue.length, s.getID c, ids⟩
    let msgLC := (Message.ofId MyCQMessages.listAllClients.toUInt32).push (payloadMsg.toBytes order).toList
    .ok (s.sendData c msgLC)
  | some .notifyOneClient => do
    let bytes ← extract msgInput NotifyOneDescription.sizeof
    let receivedMsg := NotifyOneDescription.ofBytes order bytes
    let c ← deref client
    let receivedMsg := { receivedMsg with senderId := s.getID c }
    let msg := (Message.ofId MyCQMessages.notifyOneClient.toUInt32).push (receivedMsg.toBytes order).toList
    notifyLoop msg receivedMsg.receiverId s.connectionsQueue s
  | some .serverAccept | none => .ok s

end MyCQServer
end MyCQ
