import MyCQ.Foundation.Buffer
import MyCQ.Net.Message

/-! The message identifiers and payload structures that the chat client and server share.

All fields are 32-bit words or character arrays of a length divisible by four,
so the structures have no padding.
-/

set_option autoImplicit false

namespace MyCQ
open Octets (Endian)

inductive MyCQMessages where
  | messageAll
  | listAllClients
  | serverPing
  | notifyOneClient
  | serverAccept
  deriving DecidableEq, Repr

namespace MyCQMessages

def toUInt32 : MyCQMessages → UInt32
  | messageAll => 0
  | listAllClients => 1
  | serverPing => 2
  | notifyOneClient => 3
  | serverAccept => 4

/-- The enumerator with the given value; a peer may send any 32-bit identifier. -/
def ofUInt32 (id : UInt32) : Option MyCQMessages :=
  if id = 0 then some messageAll
  else if id = 1 then some listAllClients
  else if id = 2 then some serverPing
  else if id = 3 then some notifyOneClient
  else if id = 4 then some serverAccept
  else none

theorem ofUInt32_toUInt32 (m : MyCQMessages) : ofUInt32 m.toUInt32 = some m := by
  cases m <;> rfl

end MyCQMessages

structure ClientsListDescription where
  numActiveIds : UInt32
  ownId : UInt32
  clientIds : CArray UInt32 1000
  deriving DecidableEq, Repr

structure MessageAllDescription where
  numberOfElements : UInt32
  message : CArray Byte 2048
  senderId : UInt32
  deriving DecidableEq, Repr

structure NotifyOneDescription where
  senderId : UInt32
  receiverId : UInt32
  message : CArray Byte 2048
  deriving DecidableEq, Repr

namespace ClientsListDescription

def sizeof : Nat := 4008

def toBytes (order : Endian) (d : ClientsListDescription) : CArray Byte sizeof :=
  (CArray.ofUInt32 order d.numActiveIds).append
    ((CArray.ofUInt32 order d.ownId).append (CArray.ofUInt32s order d.clientIds))

def ofBytes (order : Endian) (bytes : CArray Byte sizeof) : ClientsListDescription where
  numActiveIds := (bytes.slice 0 4 (by decide)).toUInt32 order
  ownId := (bytes.slice 4 4 (by decide)).toUInt32 order
  clientIds := (bytes.slice 8 4000 (by decide)).toUInt32s order

theorem ofBytes_toBytes (order : Endian) (d : ClientsListDescription) :
    ofBytes order (d.toBytes order) = d := by
  let ids := (CArray.ofUInt32 order d.ownId).append (CArray.ofUInt32s order d.clientIds)
  have first : (d.toBytes order).slice 0 4 (by decide) = CArray.ofUInt32 order d.numActiveIds :=
    CArray.slice_append_left _ ids _
  have second : (d.toBytes order).slice 4 4 (by decide) = CArray.ofUInt32 order d.ownId :=
    (CArray.slice_append_add _ ids 0 4 (by decide) (by decide)).trans (CArray.slice_append_left _ _ _)
  have third : (d.toBytes order).slice 8 4000 (by decide) = CArray.ofUInt32s order d.clientIds :=
    (CArray.slice_append_add _ ids 4 4000 (by decide) (by decide)).trans (CArray.slice_append_right _ _ _)
  simp only [ofBytes, first, second, third, CArray.toUInt32_ofUInt32, CArray.toUInt32s_ofUInt32s]

end ClientsListDescription

namespace MessageAllDescription

def sizeof : Nat := 2056

def toBytes (order : Endian) (d : MessageAllDescription) : CArray Byte sizeof :=
  (CArray.ofUInt32 order d.numberOfElements).append
    (d.message.append (CArray.ofUInt32 order d.senderId))

def ofBytes (order : Endian) (bytes : CArray Byte sizeof) : MessageAllDescription where
  numberOfElements := (bytes.slice 0 4 (by decide)).toUInt32 order
  message := bytes.slice 4 2048 (by decide)
  senderId := (bytes.slice 2052 4 (by decide)).toUInt32 order

theorem ofBytes_toBytes (order : Endian) (d : MessageAllDescription) :
    ofBytes order (d.toBytes order) = d := by
  let text := d.message.append (CArray.ofUInt32 order d.senderId)
  have first : (d.toBytes order).slice 0 4 (by decide) = CArray.ofUInt32 order d.numberOfElements :=
    CArray.slice_append_left _ text _
  have second : (d.toBytes order).slice 4 2048 (by decide) = d.message :=
    (CArray.slice_append_add _ text 0 2048 (by decide) (by decide)).trans (CArray.slice_append_left _ _ _)
  have third : (d.toBytes order).slice 2052 4 (by decide) = CArray.ofUInt32 order d.senderId :=
    (CArray.slice_append_add _ text 2048 4 (by decide) (by decide)).trans (CArray.slice_append_right _ _ _)
  simp only [ofBytes, first, second, third, CArray.toUInt32_ofUInt32]

/-- `offsetof(MessageAllDescription, sender_id)`. -/
def senderIdOffset : Nat := 2052

/-- Assigning `sender_id` overwrites its bytes and no others. -/
theorem toBytes_assign_senderId (order : Endian) (bytes : CArray Byte sizeof) (id : UInt32) :
    ({ ofBytes order bytes with senderId := id }.toBytes order).toList =
      Buffer.overwrite bytes.toList senderIdOffset (CArray.ofUInt32 order id).toList := by
  have length := bytes.length_eq
  have field := (CArray.ofUInt32 order id).length_eq
  have inside : senderIdOffset + (CArray.ofUInt32 order id).toList.length ≤ bytes.toList.length := by
    rw [length, field]
    decide
  have front : bytes.toList.take 4 ++ (bytes.toList.drop 4).take 2048 = bytes.toList.take senderIdOffset :=
    List.take_add.symm
  rw [Buffer.overwrite_inside _ _ _ inside, List.drop_eq_nil_of_le (by rw [length, field]; decide),
    List.append_nil, ← front, List.append_assoc]
  simp only [toBytes, ofBytes, CArray.ofUInt32_toUInt32, CArray.toList_append, CArray.slice, List.drop_zero]

end MessageAllDescription

namespace NotifyOneDescription

def sizeof : Nat := 2056

def toBytes (order : Endian) (d : NotifyOneDescription) : CArray Byte sizeof :=
  (CArray.ofUInt32 order d.senderId).append
    ((CArray.ofUInt32 order d.receiverId).append d.message)

def ofBytes (order : Endian) (bytes : CArray Byte sizeof) : NotifyOneDescription where
  senderId := (bytes.slice 0 4 (by decide)).toUInt32 order
  receiverId := (bytes.slice 4 4 (by decide)).toUInt32 order
  message := bytes.slice 8 2048 (by decide)

theorem ofBytes_toBytes (order : Endian) (d : NotifyOneDescription) :
    ofBytes order (d.toBytes order) = d := by
  let text := (CArray.ofUInt32 order d.receiverId).append d.message
  have first : (d.toBytes order).slice 0 4 (by decide) = CArray.ofUInt32 order d.senderId :=
    CArray.slice_append_left _ text _
  have second : (d.toBytes order).slice 4 4 (by decide) = CArray.ofUInt32 order d.receiverId :=
    (CArray.slice_append_add _ text 0 4 (by decide) (by decide)).trans (CArray.slice_append_left _ _ _)
  have third : (d.toBytes order).slice 8 2048 (by decide) = d.message :=
    (CArray.slice_append_add _ text 4 2048 (by decide) (by decide)).trans (CArray.slice_append_right _ _ _)
  simp only [ofBytes, first, second, third, CArray.toUInt32_ofUInt32]

/-- `offsetof(NotifyOneDescription, sender_id)`. -/
def senderIdOffset : Nat := 0

/-- Assigning `sender_id` overwrites its bytes and no others. -/
theorem toBytes_assign_senderId (order : Endian) (bytes : CArray Byte sizeof) (id : UInt32) :
    ({ ofBytes order bytes with senderId := id }.toBytes order).toList =
      Buffer.overwrite bytes.toList senderIdOffset (CArray.ofUInt32 order id).toList := by
  have length := bytes.length_eq
  have field := (CArray.ofUInt32 order id).length_eq
  have inside : senderIdOffset + (CArray.ofUInt32 order id).toList.length ≤ bytes.toList.length := by
    rw [length, field]
    decide
  have back : (bytes.toList.drop 4).take 4 ++ (bytes.toList.drop 8).take 2048 = bytes.toList.drop 4 := by
    have whole : (bytes.toList.drop 8).take 2048 = (bytes.toList.drop 4).drop 4 := by
      rw [List.take_of_length_le (by rw [List.length_drop, length]; decide), List.drop_drop]
    rw [whole, List.take_append_drop]
  rw [Buffer.overwrite_inside _ _ _ inside, field, senderIdOffset, List.take_zero, List.nil_append,
    Nat.zero_add, ← back]
  simp only [toBytes, ofBytes, CArray.ofUInt32_toUInt32, CArray.toList_append, CArray.slice]

end NotifyOneDescription
end MyCQ
