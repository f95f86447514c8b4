import MyCQ.Foundation.Buffer
import MyCQ.Foundation.CArray

/-! Messages: an 8-byte header and a payload vector used as a stack of values.

A value enters the payload as its object representation. The vector has
32-bit elements, and `operator<<` grows it by `sizeof` elements for a value of
`sizeof` bytes.
-/

set_option autoImplicit false

namespace MyCQ
open Octets (Endian)

abbrev Byte := UInt8

/-- `std::vector<uint32_t>` as the bytes it stores, four to an element. -/
structure Payload where
  size : Nat
  storage : List Byte
  length_eq : storage.length = 4 * size
  deriving DecidableEq, Repr

namespace Payload

def empty : Payload := ⟨0, [], rfl⟩

instance : Inhabited Payload := ⟨empty⟩

theorem ext {first second : Payload} (same : first.storage = second.storage) : first = second := by
  obtain ⟨size, storage, length⟩ := first
  obtain ⟨size', storage', length'⟩ := second
  cases same
  have : size = size' := by omega
  cases this
  rfl

def resize (payload : Payload) (size : Nat) : Payload :=
  ⟨size, Buffer.resize 0 payload.storage (4 * size), Buffer.length_resize _ _ _⟩

def memcpy (payload : Payload) (element : Nat) (data : List Byte) : Payload :=
  ⟨payload.size, Buffer.overwrite payload.storage (4 * element) data,
    (Buffer.length_overwrite _ _ _).trans payload.length_eq⟩

-- The vector has 32-bit elements, and its number of elements is passed on as a
-- number of bytes.
/-- The first `size()` bytes, which is what a buffer of `size()` bytes at `data()` covers. -/
def transmitted (payload : Payload) : List Byte := payload.storage.take payload.size

@[simp] theorem size_resize (payload : Payload) (size : Nat) : (payload.resize size).size = size := rfl

@[simp] theorem size_memcpy (payload : Payload) (element : Nat) (data : List Byte) :
    (payload.memcpy element data).size = payload.size := rfl

@[simp] theorem length_transmitted (payload : Payload) : payload.transmitted.length = payload.size := by
  simp only [transmitted, List.length_take, payload.length_eq]
  omega

end Payload

structure MessageHeader where
  id : UInt32
  size : UInt32
  deriving DecidableEq, Repr, Inhabited

namespace MessageHeader

def bytes (order : Endian) (header : MessageHeader) : CArray Byte 8 :=
  (CArray.ofUInt32 order header.id).append (CArray.ofUInt32 order header.size)

def ofBytes (order : Endian) (bytes : CArray Byte 8) : MessageHeader where
  id := (bytes.slice 0 4 (by decide)).toUInt32 order
  size := (bytes.slice 4 4 (by decide)).toUInt32 order

@[simp] theorem ofBytes_bytes (order : Endian) (header : MessageHeader) :
    ofBytes order (header.bytes order) = header := by
  simp only [ofBytes, bytes]
  rw [CArray.slice_append_left, CArray.slice_append_right, CArray.toUInt32_ofUInt32,
    CArray.toUInt32_ofUInt32]

@[simp] theorem bytes_ofBytes (order : Endian) (octets : CArray Byte 8) :
    (ofBytes order octets).bytes order = octets := by
  apply CArray.ext
  simp only [ofBytes, bytes, CArray.ofUInt32_toUInt32, CArray.toList_append]
  have rest : (octets.toList.drop 4).take 4 = octets.toList.drop 4 :=
    List.take_of_length_le (by simp [octets.length_eq])
  simp only [CArray.slice, List.drop_zero, rest, List.take_append_drop]

end MessageHeader

structure Message where
  header : MessageHeader
  payload : Payload
  deriving DecidableEq, Repr, Inhabited

namespace Message

theorem ext {first second : Message} (header : first.header = second.header)
    (payload : first.payload = second.payload) : first = second := by
  cases first
  cases second
  cases header
  cases payload
  rfl

def ofId (id : UInt32) : Message := ⟨⟨id, 0⟩, .empty⟩

def size (msg : Message) : Nat := msg.payload.size

/-- `operator<<`; `data` is the object representation of the value. -/
def push (msg : Message) (data : List Byte) : Message :=
  let currentSize := msg.payload.size
  let payload := (msg.payload.resize (currentSize + data.length)).memcpy currentSize data
  ⟨{ msg.header with size := UInt32.ofNat payload.size }, payload⟩

-- Nothing checks that the payload is large enough for the type.
/-- `payload.size() - sizeof(PayloadType)` in the 64-bit `size_t`. -/
def startIdxLastElement (size sizeof : Nat) : Nat := (2 ^ 64 + size - sizeof) % 2 ^ 64

/-- `operator>>`. The copied range has to lie inside the payload; otherwise the behaviour is
undefined and there is no result. -/
def pop (msg : Message) (sizeof : Nat) : Option (CArray Byte sizeof × Message) :=
  let start := startIdxLastElement msg.payload.size sizeof
  if inside : 4 * start + sizeof ≤ msg.payload.storage.length then
    let data : CArray Byte sizeof :=
      ⟨(msg.payload.storage.drop (4 * start)).take sizeof, by
        rw [List.length_take, List.length_drop]
        omega⟩
    let payload := msg.payload.resize start
    some (data, ⟨{ msg.header with size := UInt32.ofNat payload.size }, payload⟩)
  else none

@[simp] theorem push_payload_size (msg : Message) (data : List Byte) :
    (msg.push data).payload.size = msg.payload.size + data.length := rfl

@[simp] theorem push_header_id (msg : Message) (data : List Byte) :
    (msg.push data).header.id = msg.header.id := rfl

@[simp] theorem push_header_size (msg : Message) (data : List Byte) :
    (msg.push data).header.size = UInt32.ofNat (msg.payload.size + data.length) := rfl

/-- The value is stored behind the old payload, followed by three unused bytes for each of its
own. -/
theorem push_storage (msg : Message) (data : List Byte) :
    (msg.push data).payload.storage =
      msg.payload.storage ++ (data ++ List.replicate (3 * data.length) 0) := by
  have grown : Buffer.resize 0 msg.payload.storage (4 * (msg.payload.size + data.length)) =
      msg.payload.storage ++ (List.replicate data.length 0 ++ List.replicate (3 * data.length) 0) := by
    rw [Nat.mul_add, ← msg.payload.length_eq, Buffer.resize_grow,
      List.replicate_append_replicate]
    congr 2
    omega
  simp only [push, Payload.memcpy, Payload.resize, grown]
  rw [← msg.payload.length_eq, Buffer.overwrite_tail _ _ _ _ (by simp)]

theorem startIdx_of_le {size sizeof : Nat} (bound : size < 2 ^ 64) (fits : sizeof ≤ size) :
    startIdxLastElement size sizeof = size - sizeof := by
  unfold startIdxLastElement
  omega

/-- A value larger than the payload makes the start index wrap around. -/
theorem startIdx_wraps {size sizeof : Nat} (bound : sizeof < 2 ^ 64) (short : size < sizeof) :
    startIdxLastElement size sizeof = 2 ^ 64 - (sizeof - size) := by
  unfold startIdxLastElement
  omega

theorem pop_isSome_iff (msg : Message) (sizeof : Nat) (size : msg.payload.size < 2 ^ 64)
    (bound : sizeof < 2 ^ 64) : (msg.pop sizeof).isSome = true ↔ sizeof ≤ msg.payload.size := by
  have length := msg.payload.length_eq
  by_cases fits : sizeof ≤ msg.payload.size
  · have start := startIdx_of_le size fits
    have inside : 4 * (msg.payload.size - sizeof) + sizeof ≤ msg.payload.storage.length := by omega
    simp [pop, start, inside, fits]
  · have start := startIdx_wraps bound (Nat.lt_of_not_le fits)
    have outside : ¬ 4 * (2 ^ 64 - (sizeof - msg.payload.size)) + sizeof ≤
        msg.payload.storage.length := by omega
    simp only [pop, start, outside, fits, dite_false, Option.isSome_none, Bool.false_eq_true]

/-- Extraction returns the bytes at the start of the last block of elements and drops the block. -/
theorem pop_of_storage {msg : Message} {front data unused : List Byte} {start : Nat}
    (bound : msg.payload.size < 2 ^ 64)
    (split : msg.payload.storage = front ++ (data ++ unused)) (front_length : front.length = 4 * start)
    (unused_length : unused.length = 3 * data.length) :
    msg.pop data.length = some (⟨data, rfl⟩,
      ⟨⟨msg.header.id, UInt32.ofNat start⟩, ⟨start, front, front_length⟩⟩) := by
  have length := msg.payload.length_eq
  rw [split, List.length_append, List.length_append, front_length, unused_length] at length
  have begins : startIdxLastElement msg.payload.size data.length = start := by
    rw [startIdx_of_le bound (by omega)]
    omega
  have inside : 4 * start + data.length ≤ msg.payload.storage.length := by
    rw [msg.payload.length_eq]
    omega
  have value : (msg.payload.storage.drop (4 * start)).take data.length = data := by
    rw [split, ← front_length, List.drop_left, List.take_left]
  have remaining : msg.payload.resize start = ⟨start, front, front_length⟩ := by
    apply Payload.ext
    simp only [Payload.resize, split, ← front_length]
    exact Buffer.resize_shrink 0 front _
  simp only [pop, begins, inside, dite_true, remaining, Option.some.injEq, Prod.mk.injEq, and_true]
  exact CArray.ext value

/-- `>>` undoes `<<`. -/
theorem pop_push (msg : Message) (data : List Byte) (bound : msg.payload.size + data.length < 2 ^ 64) :
    (msg.push data).pop data.length =
      some (⟨data, rfl⟩, ⟨⟨msg.header.id, UInt32.ofNat msg.payload.size⟩, msg.payload⟩) := by
  have size : (msg.push data).payload.size < 2 ^ 64 := bound
  exact pop_of_storage size (push_storage msg data) msg.payload.length_eq (by simp)

end Message
end MyCQ
