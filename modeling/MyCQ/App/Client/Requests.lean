import MyCQ.App.Client
import MyCQ.Foundation.CString
import MyCQ.Foundation.Numeral

/-! The requests that the chat client builds from what its user types.

Payload structures are local variables without initialisers: `uninitialized` is
what their memory holds when a function begins. A line is a list of bytes as
`std::getline` leaves it, without the line feed.
-/

set_option autoImplicit false

namespace MyCQ
open Octets (Endian)

namespace MyCQClient

def isConnected (connectionModule : Option ConnectionInterface) : Bool :=
  connectionModule.any ConnectionInterface.isConnected

def send (connectionModule : Option ConnectionInterface) (msg : Message) : Option ConnectionInterface :=
  if isConnected connectionModule then connectionModule.map fun c => c.sendData msg else connectionModule

inductive Outcome where
  | returned (connectionModule : Option ConnectionInterface)
  | exited
  | thrown
  | overrun

def pingServer (order : Endian) (connectionModule : Option ConnectionInterface) (now : UInt64) : Outcome :=
  let msg := (Message.ofId MyCQMessages.serverPing.toUInt32).push (CArray.ofUInt64 order now).toList
  .returned (send connectionModule msg)

-- The length is compared with the size of the field, which has to hold the
-- terminating zero as well.
def messageAll (order : Endian) (uninitialized : MessageAllDescription)
    (connectionModule : Option ConnectionInterface) (inputStr : List Byte) : Outcome :=
  if 2048 < inputStr.length then .exited
  else
    match CString.strcpy uninitialized.message inputStr with
    | none => .overrun
    | some message =>
      let messagePayload := { uninitialized with message }
      let msg := (Message.ofId MyCQMessages.messageAll.toUInt32).push (messagePayload.toBytes order).toList
      .returned (send connectionModule msg)

def requestConnectedClientsList (connectionModule : Option ConnectionInterface) : Outcome :=
  .returned (send connectionModule (.ofId MyCQMessages.listAllClients.toUInt32))

/-- The identifier is narrowed to 32 bits, and the length of the message is not checked. -/
def notifyOne (order : Endian) (uninitialized : NotifyOneDescription)
    (connectionModule : Option ConnectionInterface) (receiverId writtenMsg : List Byte) : Outcome :=
  match Numeral.stoul receiverId with
  | none => .thrown
  | some id =>
    let payloadToSend := { uninitialized with receiverId := id.toUInt32 }
    match CString.strcpy payloadToSend.message writtenMsg with
    | none => .overrun
    | some message =>
      let payloadToSend := { payloadToSend with message }
      let msg := (Message.ofId MyCQMessages.notifyOneClient.toUInt32).push (payloadToSend.toBytes order).toList
      .returned (send connectionModule msg)

theorem send_connected {c : ConnectionInterface} (connected : c.isConnected = true) (msg : Message) :
    send (some c) msg = some (c.sendData msg) := if_pos connected

theorem send_disconnected {connectionModule : Option ConnectionInterface}
    (disconnected : isConnected connectionModule = false) (msg : Message) :
    send connectionModule msg = connectionModule := by
  simp [send, disconnected]

variable {order : Endian} {connectionModule : Option ConnectionInterface}

theorem messageAll_copied {uninitialized : MessageAllDescription} {inputStr : List Byte}
    {message : CArray Byte 2048} (accepted : inputStr.length ≤ 2048)
    (copied : CString.strcpy uninitialized.message inputStr = some message) :
    messageAll order uninitialized connectionModule inputStr =
      .returned (send connectionModule ((Message.ofId MyCQMessages.messageAll.toUInt32).push
        ({ uninitialized with message }.toBytes order).toList)) := by
  simp only [messageAll, Nat.not_lt.mpr accepted, if_false, copied]

theorem messageAll_overrun (uninitialized : MessageAllDescription) {inputStr : List Byte}
    (accepted : inputStr.length ≤ 2048) (long : 2048 ≤ (CString.text inputStr).length) :
    messageAll order uninitialized connectionModule inputStr = .overrun := by
  have overruns := (CString.strcpy_eq_none_iff uninitialized.message inputStr).mpr long
  simp only [messageAll, Nat.not_lt.mpr accepted, if_false, overruns]

theorem notifyOne_copied {uninitialized : NotifyOneDescription} {receiverId writtenMsg : List Byte} {id : UInt64}
    {message : CArray Byte 2048} (numeral : Numeral.stoul receiverId = some id)
    (copied : CString.strcpy uninitialized.message writtenMsg = some message) :
    notifyOne order uninitialized connectionModule receiverId writtenMsg =
      .returned (send connectionModule ((Message.ofId MyCQMessages.notifyOneClient.toUInt32).push
        ({ uninitialized with receiverId := id.toUInt32, message }.toBytes order).toList)) := by
  simp only [notifyOne, numeral, copied]

theorem strcpy_fits (field : CArray Byte 2048) {line : List Byte} (short : (CString.text line).length < 2048) :
    ∃ message, CString.strcpy field line = some message := by
  rw [← Option.ne_none_iff_exists']
  exact fun overruns => Nat.not_le_of_lt short ((CString.strcpy_eq_none_iff field line).mp overruns)

theorem messageAll_ne_overrun (uninitialized : MessageAllDescription) {inputStr : List Byte}
    (short : (CString.text inputStr).length < 2048) :
    messageAll order uninitialized connectionModule inputStr ≠ .overrun := by
  obtain ⟨message, copied⟩ := strcpy_fits uninitialized.message short
  intro overrun
  by_cases accepted : inputStr.length ≤ 2048
  · rw [messageAll_copied accepted copied] at overrun
    cases overrun
  · rw [messageAll, if_pos (Nat.lt_of_not_le accepted)] at overrun
    cases overrun

theorem notifyOne_overrun (uninitialized : NotifyOneDescription) {receiverId writtenMsg : List Byte} {id : UInt64}
    (numeral : Numeral.stoul receiverId = some id) (long : 2048 ≤ (CString.text writtenMsg).length) :
    notifyOne order uninitialized connectionModule receiverId writtenMsg = .overrun := by
  have overruns := (CString.strcpy_eq_none_iff uninitialized.message writtenMsg).mpr long
  simp only [notifyOne, numeral, overruns]

theorem notifyOne_ne_overrun (uninitialized : NotifyOneDescription) (receiverId : List Byte) {writtenMsg : List Byte}
    (short : (CString.text writtenMsg).length < 2048) :
    notifyOne order uninitialized connectionModule receiverId writtenMsg ≠ .overrun := by
  obtain ⟨message, copied⟩ := strcpy_fits uninitialized.message short
  intro overrun
  cases numeral : Numeral.stoul receiverId with
  | none =>
    simp only [notifyOne, numeral] at overrun
    cases overrun
  | some id =>
    rw [notifyOne_copied numeral copied] at overrun
    cases overrun

end MyCQClient
end MyCQ
