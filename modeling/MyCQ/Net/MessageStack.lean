import MyCQ.Foundation.Stack
import MyCQ.Net.Contents

/-! The payload of a message as a stack.

`Message.step` performs `<<` and `>>` in any order. The payload holds the values
that have not been popped, one behind the other, on top of what it held at the
start; so it returns what a stack returns.
-/

set_option autoImplicit false

namespace MyCQ

structure MessageUse where
  msg : Message
  returned : List (List Byte)
  deriving DecidableEq, Repr

namespace MessageUse

def step (use : MessageUse) : StackOp (List Byte) → Option MessageUse
  | .push value => some { use with msg := use.msg.push value }
  | .pop sizeof => (use.msg.popBytes sizeof).map fun result => ⟨result.2, use.returned ++ [result.1]⟩

end MessageUse

theorem image_concat (values : List (List Byte)) (value : List Byte) :
    image (values ++ [value]) = image values ++ (value ++ List.replicate (3 * value.length) 0) := by
  rw [image, image, List.flatMap_append, List.flatMap_singleton]

theorem total_reverse (values : List (List Byte)) : total values.reverse = total values := by
  rw [total, total, List.map_reverse, List.sum_reverse]

theorem used_length (values : List (List Byte)) : Stack.used List.length values = total values := by
  induction values with
  | nil => rfl
  | cons value rest ih => rw [Stack.used, ih, total_cons]

/-- `msg` is `m` with the pending values on top; the first of them was pushed last. -/
structure Stacked (m : Message) (pending : List (List Byte)) (msg : Message) : Prop where
  id : msg.header.id = m.header.id
  size : msg.header.size = UInt32.ofNat msg.payload.size
  storage : msg.payload.storage = m.payload.storage ++ image pending.reverse
  bound : m.payload.size + total pending < 2 ^ 32

namespace Stacked

variable {m msg : Message} {pending : List (List Byte)} {value : List Byte}

theorem payload_size (stacked : Stacked m pending msg) : msg.payload.size = m.payload.size + total pending := by
  have length := congrArg List.length stacked.storage
  rw [List.length_append, length_image, total_reverse, msg.payload.length_eq, m.payload.length_eq] at length
  omega

theorem push (stacked : Stacked m pending msg) (fits : m.payload.size + total (value :: pending) < 2 ^ 32) :
    Stacked m (value :: pending) (msg.push value) where
  id := stacked.id
  size := rfl
  storage := by
    rw [Message.push_storage, stacked.storage, List.reverse_cons, image_concat, List.append_assoc]
  bound := fits

theorem pop (stacked : Stacked m (value :: pending) msg) :
    ∃ below, msg.popBytes value.length = some (value, below) ∧ Stacked m pending below := by
  have size := stacked.payload_size
  have bound := stacked.bound
  have storage := stacked.storage
  rw [List.reverse_cons, image_concat, ← List.append_assoc] at storage
  rw [total_cons] at size bound
  have front : (m.payload.storage ++ image pending.reverse).length = 4 * (m.payload.size + total pending) := by
    rw [List.length_append, length_image, total_reverse, m.payload.length_eq, Nat.mul_add]
  have popped := Message.popBytes_of_storage (by omega) rfl storage front List.length_replicate
  exact ⟨_, popped, stacked.id, rfl, rfl, by omega⟩

theorem eq_of_nil (stacked : Stacked m [] msg) (announced : m.header.size.toNat = m.payload.size) : msg = m := by
  have payload : msg.payload = m.payload := by
    apply Payload.ext
    rw [stacked.storage]
    exact List.append_nil _
  refine Message.ext ?_ payload
  have size : msg.header.size = m.header.size := by
    rw [stacked.size, payload, ← announced, UInt32.ofNat_toNat]
  cases original : m.header with
  | mk id announcedSize =>
    cases used : msg.header with
    | mk id' size' =>
      have sameId := stacked.id
      rw [original, used] at sameId size
      cases sameId
      cases size
      rfl

end Stacked

structure Matches (m : Message) (s : Stack (List Byte)) (use : MessageUse) : Prop where
  returned : use.returned = s.returned
  stacked : Stacked m s.pending use.msg

/-- Each step of a stack is matched by the message. -/
theorem Matches.step {m : Message} {s t : Stack (List Byte)} {use : MessageUse} {op : StackOp (List Byte)}
    (related : Matches m s use) (taken : s.step List.length (2 ^ 32 - m.payload.size) op = some t) :
    ∃ after, use.step op = some after ∧ Matches m t after := by
  obtain ⟨returned, stacked⟩ := related
  cases Stack.step_cases taken with
  | push value fits =>
    rw [used_length] at fits
    exact ⟨_, rfl, returned, stacked.push (by omega)⟩
  | pop value rest top =>
    rw [top] at stacked
    obtain ⟨below, popped, stacked⟩ := stacked.pop
    refine ⟨⟨below, use.returned ++ [value]⟩, ?_, congrArg (· ++ [value]) returned, stacked⟩
    rw [MessageUse.step, popped]
    rfl

structure BehavesAsStack (m : Message) (s : Stack (List Byte)) (use : MessageUse) : Prop where
  returned : use.returned = s.returned
  id : use.msg.header.id = m.header.id
  size : use.msg.header.size.toNat = use.msg.payload.size
  balanced : s.pending = [] → use.msg = m

def PerformsAsStack (m : Message) (ops : List (StackOp (List Byte))) : Prop :=
  ∀ front rest, ops = front ++ rest → ∃ t use,
    Transition.perform (Stack.step List.length (2 ^ 32 - m.payload.size)) .empty front = some t ∧
    Transition.perform MessageUse.step ⟨m, []⟩ front = some use ∧ BehavesAsStack m t use

/-- Any well nested sequence of operations that never brings the payload to `2 ^ 32` elements. -/
theorem payload_stack (m : Message) (announced : m.header.size.toNat = m.payload.size)
    (ops : List (StackOp (List Byte))) (s : Stack (List Byte))
    (nested : Transition.perform (Stack.step List.length (2 ^ 32 - m.payload.size)) .empty ops = some s) :
    PerformsAsStack m ops := by
  rintro front rest rfl
  rw [Transition.perform_append] at nested
  obtain ⟨t, done, _⟩ := Option.bind_eq_some_iff.mp nested
  have fits : m.payload.size < 2 ^ 32 := announced ▸ m.header.size.toNat_lt
  have start : Stacked m [] m :=
    ⟨rfl, by rw [← announced, UInt32.ofNat_toNat], (List.append_nil _).symm, fits⟩
  have initial : Matches m .empty ⟨m, []⟩ := ⟨rfl, start⟩
  obtain ⟨use, used, returned, stacked⟩ :=
    Transition.perform_simulates (fun _ _ _ _ related taken => related.step taken) initial front done
  refine ⟨t, use, done, used, returned, stacked.id, ?_, fun balanced => ?_⟩
  · rw [stacked.size, UInt32.toNat_ofNat_of_lt']
    rw [stacked.payload_size]
    exact stacked.bound
  · rw [balanced] at stacked
    exact stacked.eq_of_nil announced

def testSerialization : List (StackOp (List Byte)) :=
  [.push [0, 0, 176, 64], .push [1], .push [3, 0, 0, 0], .pop 4, .pop 1, .pop 4]

theorem payload_stack_testSerialization : PerformsAsStack (.ofId 0) testSerialization :=
  payload_stack (.ofId 0) rfl testSerialization ⟨[], [[3, 0, 0, 0], [1], [0, 0, 176, 64]]⟩ (by decide)

end MyCQ
