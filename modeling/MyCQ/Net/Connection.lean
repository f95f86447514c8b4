import MyCQ.Foundation.AsyncSocket
import MyCQ.Net.Handshake
import MyCQ.Net.Message

/-! One end of a connection, as both the server and the client use it.

Every function of the class is a function on its state; starting an operation
adds it to the outstanding ones, and `runHandler` is what the io thread does
when the completion handler of one of them runs.
-/

set_option autoImplicit false

namespace MyCQ
open Octets (Endian)

inductive Owner where
  | server
  | client
  deriving DecidableEq, Repr, Inhabited

inductive ReadOp where
  | serverValidationRequest
  | checkValidation
  | header
  | payload (size : Nat)
  deriving DecidableEq, Repr

def ReadOp.length : ReadOp → Nat
  | .serverValidationRequest | .checkValidation | .header => 8
  | .payload size => size

inductive WriteOp where
  | validationData (word : UInt64)
  | header (header : MessageHeader)
  | payload (bytes : List Byte)
  deriving DecidableEq, Repr

def WriteOp.bytes (order : Endian) : WriteOp → List Byte
  | .validationData word => (CArray.ofUInt64 order word).toList
  | .header announced => (announced.bytes order).toList
  | .payload octets => octets

structure ConnectionInterface where
  owner : Owner
  socketConnection : AsyncSocket ReadOp WriteOp
  outMsgQueue : List Message
  id : UInt32
  tmpInputMsg : Message
  handshakeOut : UInt64
  handshakeIn : UInt64
  handshakeCheck : UInt64
  handshakeFlag : Bool
  -- The handlers posted by `sendData` that have not run yet.
  posted : List Message
  -- Every message ever passed to `sendData`.
  sendDataCalls : List Message
  deriving Inhabited

namespace ConnectionInterface

/-- The constructor. A server draws the challenge from its clock; `handshake_in_` is written before
it is read, and its initial value is not modelled. -/
def create (parent : Owner) (socket : AsyncSocket ReadOp WriteOp) (clock : UInt64) :
    ConnectionInterface where
  owner := parent
  socketConnection := socket
  outMsgQueue := []
  id := 0
  tmpInputMsg := .ofId 0
  handshakeOut := match parent with | .server => clock | .client => 0
  handshakeIn := 0
  handshakeCheck := match parent with | .server => encryptHandshakeData clock | .client => 0
  handshakeFlag := false
  posted := []
  sendDataCalls := []

def asyncRead (c : ConnectionInterface) (op : ReadOp) : ConnectionInterface :=
  { c with socketConnection := c.socketConnection.asyncRead op }

def asyncWrite (c : ConnectionInterface) (op : WriteOp) : ConnectionInterface :=
  { c with socketConnection := c.socketConnection.asyncWrite op }

def close (c : ConnectionInterface) : ConnectionInterface :=
  { c with socketConnection := c.socketConnection.close }

def isConnected (c : ConnectionInterface) : Bool := c.socketConnection.isOpen

def sendData (c : ConnectionInterface) (msg : Message) : ConnectionInterface :=
  { c with
    posted := c.posted ++ [msg]
    sendDataCalls := c.sendDataCalls ++ [msg] }

def writeHeader (c : ConnectionInterface) : ConnectionInterface :=
  match c.outMsgQueue with
  | [] => c
  | msg :: _ => c.asyncWrite (.header msg.header)

/-- The buffer is given `payload.size()` as its number of bytes. -/
def writePayload (c : ConnectionInterface) : ConnectionInterface :=
  match c.outMsgQueue with
  | [] => c
  | msg :: _ => c.asyncWrite (.payload msg.payload.transmitted)

-- That a write is in progress is inferred from the queue; no flag records it.
def sendDataHandler (c : ConnectionInterface) (msg : Message) : ConnectionInterface :=
  let writingMsgFlag := !c.outMsgQueue.isEmpty
  let c := { c with outMsgQueue := c.outMsgQueue ++ [msg] }
  if writingMsgFlag then c else c.writeHeader

/-- The end of both write handlers: drop the message and go on with the next one. -/
def popFront (c : ConnectionInterface) : ConnectionInterface :=
  let c := { c with outMsgQueue := c.outMsgQueue.tail }
  if c.outMsgQueue.isEmpty then c else c.writeHeader

def onWriteHeader (c : ConnectionInterface) : ConnectionInterface :=
  match c.outMsgQueue with
  | [] => c
  | msg :: _ => if 0 < msg.payload.size then c.writePayload else c.popFront

def onWritePayload (c : ConnectionInterface) : ConnectionInterface := c.popFront

def readHeader (c : ConnectionInterface) : ConnectionInterface := c.asyncRead .header

def readPayload (c : ConnectionInterface) : ConnectionInterface :=
  c.asyncRead (.payload c.tmpInputMsg.payload.size)

/-- The second component is the message that is pushed to the shared incoming queue. -/
def addToIncomingMsgQueue (c : ConnectionInterface) : ConnectionInterface × Option Message :=
  (c.readHeader, some c.tmpInputMsg)

-- The payload is resized but not cleared, and an empty frame leaves it as it is.
def onReadHeader (order : Endian) (c : ConnectionInterface) (bytes : CArray Byte 8) :
    ConnectionInterface × Option Message :=
  let header := MessageHeader.ofBytes order bytes
  let c := { c with tmpInputMsg := { c.tmpInputMsg with header } }
  if 0 < header.size then
    let payload := c.tmpInputMsg.payload.resize header.size.toNat
    let c := { c with tmpInputMsg := { c.tmpInputMsg with payload } }
    (c.readPayload, none)
  else c.addToIncomingMsgQueue

def onReadPayload (c : ConnectionInterface) (bytes : List Byte) : ConnectionInterface × Option Message :=
  let payload := c.tmpInputMsg.payload.memcpy 0 bytes
  let c := { c with tmpInputMsg := { c.tmpInputMsg with payload } }
  c.addToIncomingMsgQueue

def sendValidationData (c : ConnectionInterface) : ConnectionInterface :=
  c.asyncWrite (.validationData c.handshakeOut)

-- The server has started its read together with the write of the challenge.
def onSendValidationData (c : ConnectionInterface) : ConnectionInterface :=
  match c.owner with
  | .client => c.readHeader
  | .server => c

def readServerValidationRequest (c : ConnectionInterface) : ConnectionInterface :=
  c.asyncRead .serverValidationRequest

def onReadServerValidationRequest (order : Endian) (c : ConnectionInterface) (bytes : CArray Byte 8) :
    ConnectionInterface :=
  let c := { c with handshakeIn := bytes.toUInt64 order }
  let c := { c with handshakeOut := encryptHandshakeData c.handshakeIn }
  c.sendValidationData

def readAndCheckValidation (c : ConnectionInterface) : ConnectionInterface := c.asyncRead .checkValidation

-- Only a right answer is followed by a read of frames; a wrong one closes the socket.
def onReadAndCheckValidation (order : Endian) (c : ConnectionInterface) (bytes : CArray Byte 8) :
    ConnectionInterface :=
  let c := { c with handshakeIn := bytes.toUInt64 order }
  if c.handshakeIn = c.handshakeCheck then { c with handshakeFlag := true }.readHeader else c.close

def connectToServer (c : ConnectionInterface) : ConnectionInterface :=
  match c.owner with
  | .client => { c with socketConnection := c.socketConnection.asyncConnect }
  | .server => c

def connectToClient (c : ConnectionInterface) (uId : UInt32) : ConnectionInterface :=
  match c.owner with
  | .server =>
    if c.socketConnection.isOpen then
      let c := { c with id := uId }
      c.sendValidationData.readAndCheckValidation
    else c
  | .client => c

/-- What the io thread can run for a connection: a posted `sendData` handler, or the completion
handler of an outstanding operation, with the bytes that a read took off the stream. -/
inductive Handler where
  | posted
  | readOk (op : ReadOp) (bytes : List Byte)
  | readFailed (op : ReadOp) (bytes : List Byte)
  | writeOk (op : WriteOp)
  | writeFailed (op : WriteOp)
  | connected
  | connectFailed
  deriving DecidableEq, Repr

def onRead (order : Endian) (c : ConnectionInterface) : (op : ReadOp) → CArray Byte op.length →
    ConnectionInterface × Option Message
  | .serverValidationRequest, bytes => (c.onReadServerValidationRequest order bytes, none)
  | .checkValidation, bytes => (c.onReadAndCheckValidation order bytes, none)
  | .header, bytes => c.onReadHeader order bytes
  | .payload _, bytes => c.onReadPayload bytes.toList

def onWrite (c : ConnectionInterface) : WriteOp → ConnectionInterface
  | .validationData _ => c.onSendValidationData
  | .header _ => c.onWriteHeader
  | .payload _ => c.onWritePayload

def finishRead (c : ConnectionInterface) (op : ReadOp) (bytes : List Byte) : ConnectionInterface :=
  { c with socketConnection := c.socketConnection.finishRead op bytes }

def finishWrite (c : ConnectionInterface) (op : WriteOp) : ConnectionInterface :=
  { c with socketConnection := c.socketConnection.finishWrite op }

def Handler.succeeds : Handler → Bool
  | .readFailed _ _ | .writeFailed _ | .connectFailed => false
  | .posted | .readOk _ _ | .writeOk _ | .connected => true

/-- Run one handler, if it is pending. A read succeeds with all the bytes it asked for and fails
with fewer; every error handler closes the socket. A success may also be reported after another
handler has closed the socket, since its handler may have been queued before. -/
def runHandler (order : Endian) (c : ConnectionInterface) :
    Handler → Option (ConnectionInterface × Option Message)
  | .posted =>
    match c.posted with
    | [] => none
    | msg :: rest => some ({ c with posted := rest }.sendDataHandler msg, none)
  | .readOk op bytes =>
    if op ∈ c.socketConnection.reads then
      if complete : bytes.length = op.length then
        some ((c.finishRead op bytes).onRead order op ⟨bytes, complete⟩)
      else none
    else none
  | .readFailed op bytes =>
    if op ∈ c.socketConnection.reads ∧ bytes.length < op.length then
      some ((c.finishRead op bytes).close, none)
    else none
  | .writeOk op =>
    if op ∈ c.socketConnection.writes then some ((c.finishWrite op).onWrite op, none) else none
  | .writeFailed op =>
    if op ∈ c.socketConnection.writes then some ((c.finishWrite op).close, none) else none
  | .connected =>
    if c.socketConnection.connecting then
      let c := { c with socketConnection := c.socketConnection.finishConnect }
      some (c.readServerValidationRequest, none)
    else none
  | .connectFailed =>
    if c.socketConnection.connecting then
      some ({ c with socketConnection := c.socketConnection.finishConnect }, none)
    else none

/-- Some handler that captured this connection has not run yet. -/
def Pending (c : ConnectionInterface) : Prop :=
  c.posted ≠ [] ∨ c.socketConnection.reads ≠ [] ∨ c.socketConnection.writes ≠ [] ∨
    c.socketConnection.connecting = true

instance (c : ConnectionInterface) : Decidable c.Pending := inferInstanceAs (Decidable (_ ∨ _))

end ConnectionInterface
end MyCQ
