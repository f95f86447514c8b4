import MyCQ.Net.Endpoint.Framing
import MyCQ.Net.Endpoint.Parsing

/-! Messages that carry a single value, on their way from one program to another.

All messages of the chat carry at most one value. Only a quarter of the payload
storage is transmitted, and behind it the receive buffer keeps what it held;
`Carries` looks at neither.
-/

set_option autoImplicit false

namespace MyCQ
open Octets (Endian)

variable {n : Nat} {msg : Message} {value : CArray Byte n}

/-- The payload is as large as one value of `n` bytes makes it, and begins with that value. -/
structure Message.Carries (msg : Message) (value : CArray Byte n) : Prop where
  size : msg.payload.size = n
  value : msg.payload.storage.take n = value.toList

def Message.delivered (msg : Message) (agrees : msg.Agrees) (buffer : Message) : Message :=
  (Frame.ofMessage msg agrees).into buffer

theorem Message.carries_push (id : UInt32) (value : CArray Byte n) :
    ((Message.ofId id).push value.toList).Carries value where
  size := by
    rw [push_payload_size, value.length_eq]
    exact Nat.zero_add n
  value := by
    have stored := push_storage (.ofId id) value.toList
    rw [stored]
    exact List.take_left' value.length_eq

theorem Message.agrees_push_value (id : UInt32) (value : CArray Byte n) (bound : n < 2 ^ 32) :
    ((Message.ofId id).push value.toList).Agrees := by
  apply Message.agrees_push
  rw [value.length_eq]
  exact Nat.lt_of_le_of_lt (Nat.le_of_eq (Nat.zero_add n)) bound

theorem Message.Carries.pop (carries : msg.Carries value) (bound : n < 2 ^ 64) :
    ∃ rest, msg.pop n = some (value, rest) := by
  have start : startIdxLastElement msg.payload.size n = 0 := by
    rw [carries.size, startIdx_of_le bound (Nat.le_refl n), Nat.sub_self]
  have inside : 4 * 0 + n ≤ msg.payload.storage.length := by
    rw [msg.payload.length_eq, carries.size]
    omega
  simp only [Message.pop, start, inside, dite_true, Option.some.injEq, Prod.mk.injEq, exists_and_left]
  constructor
  · apply CArray.ext
    exact carries.value
  · exact ⟨_, rfl⟩

theorem Message.Carries.inj {other : CArray Byte n} (left : msg.Carries value) (right : msg.Carries other) :
    value = other := CArray.ext (left.value.symm.trans right.value)

/-- What is transmitted of the payload is the value. -/
theorem Message.Carries.transmitted (carries : msg.Carries value) : msg.payload.transmitted = value.toList := by
  rw [Payload.transmitted, carries.size]
  exact carries.value

theorem Message.Carries.delivered (carries : msg.Carries value) (agrees : msg.Agrees) (positive : 0 < n)
    (buffer : Message) : (msg.delivered agrees buffer).Carries value where
  size := by
    have announced : (Frame.ofMessage msg agrees).size = n := agrees.trans carries.size
    rw [Message.delivered, Frame.into_size, announced]
    exact if_neg (Nat.ne_of_gt positive)
  value := by
    have announced : (Frame.ofMessage msg agrees).size = n := agrees.trans carries.size
    have body := congrArg Prod.snd (Frame.content_into (Frame.ofMessage msg agrees) buffer)
    have read : (msg.delivered agrees buffer).payload.storage.take (Frame.ofMessage msg agrees).size =
        msg.payload.transmitted := body
    rw [announced] at read
    exact read.trans carries.transmitted

end MyCQ
