import MyCQ.App.Server

/-! The chat client: what it does with the messages of the server.

`dispatch` is the switch in the client's main loop. Reading a character array
beyond its end and an identifier array beyond its bound are faults.
-/

set_option autoImplicit false

namespace MyCQ
open Octets (Endian)

namespace MyCQClient

inductive Display where
  | nothing
  | serverPing (requestTime : UInt64)
  | messageAll (senderId : UInt32) (text : List Byte)
  | listAllClients (ownId : UInt32) (others : List UInt32)
  | notifyOneClient (senderId : UInt32) (text : List Byte)
  deriving DecidableEq, Repr

-- A peer may send a field without a terminator; reading it goes on behind the field.
def cString {n : Nat} (field : CArray Byte n) : Except Fault (List Byte) :=
  if 0 ∈ field.toList then .ok (field.toList.takeWhile (· ≠ 0)) else .error .stringOverread

/-- The loop over `client_ids` from position `i` on, with `remaining` rounds to go. -/
def otherClients (ownId : UInt32) (ids : CArray UInt32 1000) : Nat → Nat → Except Fault (List UInt32)
  | _, 0 => .ok []
  | i, remaining + 1 =>
    match ids.toList[i]? with
    | none => .error .clientIdsOverflow
    | some id => do
      let others ← otherClients ownId ids (i + 1) remaining
      .ok (if id = ownId then others else id :: others)

def timePointSize : Nat := 8

def dispatch (order : Endian) (msg : Message) : Except Fault Display :=
  match MyCQMessages.ofUInt32 msg.header.id with
  | some .serverPing => do
    let bytes : CArray Byte 8 ← MyCQServer.extract msg timePointSize
    .ok (.serverPing (bytes.toUInt64 order))
  | some .messageAll => do
    let bytes ← MyCQServer.extract msg MessageAllDescription.sizeof
    let inputMsgAll := MessageAllDescription.ofBytes order bytes
    let text ← cString inputMsgAll.message
    .ok (.messageAll inputMsgAll.senderId text)
  | some .listAllClients => do
    let bytes ← MyCQServer.extract msg ClientsListDescription.sizeof
    let receivedPayload := ClientsListDescription.ofBytes order bytes
    let others ← otherClients receivedPayload.ownId receivedPayload.clientIds 0
      receivedPayload.numActiveIds.toNat
    .ok (.listAllClients receivedPayload.ownId others)
  | some .notifyOneClient => do
    let bytes ← MyCQServer.extract msg NotifyOneDescription.sizeof
    let receivedMsg := NotifyOneDescription.ofBytes order bytes
    let text ← cString receivedMsg.message
    .ok (.notifyOneClient receivedMsg.senderId text)
  | some .serverAccept | none => .ok .nothing

end MyCQClient
end MyCQ
