import Mathlib.Data.List.Induction
import MyCQ.Net.Endpoint.Framing

/-! The values in a message, and where their bytes lie in the payload.

A value of `n` bytes occupies `n` elements, that is `4 * n` bytes of storage,
and lies at their start. `popAll_iff` says when the values come out of a payload
again; `residue` then decides it for a payload that has been received.
-/

set_option autoImplicit false

namespace MyCQ
open Octets (Endian)

def total (values : List (List Byte)) : Nat := (values.map List.length).sum

-- `<<` resizes by the size of the value in elements of four bytes, and copies the
-- value to the first of them.
/-- Each byte of the values with its position in the storage; the first value starts at element
`start`. -/
def layout : Nat → List (List Byte) → List (Byte × Nat)
  | _, [] => []
  | start, value :: rest => value.zipIdx (4 * start) ++ layout (start + value.length) rest

/-- The storage that the values occupy: each value is followed by three unused bytes for each of its
own. -/
def image (values : List (List Byte)) : List Byte :=
  values.flatMap fun value => value ++ List.replicate (3 * value.length) 0

@[simp] theorem total_nil : total [] = 0 := rfl

@[simp] theorem total_cons (value : List Byte) (rest : List (List Byte)) :
    total (value :: rest) = value.length + total rest := rfl

@[simp] theorem total_append (front rest : List (List Byte)) :
    total (front ++ rest) = total front + total rest := by
  simp [total]

theorem length_image (values : List (List Byte)) : (image values).length = 4 * total values := by
  induction values with
  | nil => rfl
  | cons value rest ih =>
    rw [image] at ih
    rw [image, List.flatMap_cons, List.length_append, ih, total_cons, List.length_append, List.length_replicate]
    omega

theorem layout_concat (start : Nat) (values : List (List Byte)) (value : List Byte) :
    layout start (values ++ [value]) = layout start values ++ value.zipIdx (4 * (start + total values)) := by
  induction values generalizing start with
  | nil => simp [layout]
  | cons first rest ih =>
    rw [List.cons_append, layout, ih, layout, total_cons, List.append_assoc, Nat.add_assoc]

theorem layout_bound {start : Nat} {values : List (List Byte)} {x : Byte × Nat}
    (member : x ∈ layout start values) : x.2 < 4 * (start + total values) := by
  induction values generalizing start with
  | nil => cases member
  | cons value rest ih =>
    rw [total_cons]
    rcases List.mem_append.mp member with here | later
    · have bound := List.snd_lt_add_of_mem_zipIdx here
      omega
    · have bound := ih later
      omega

theorem block_eq_iff {front data unused value : List Byte} {start : Nat} (front_length : front.length = 4 * start)
    (length : data.length = value.length) :
    data = value ↔ ∀ x ∈ value.zipIdx (4 * start), (front ++ (data ++ unused)).getD x.2 0 = x.1 := by
  have shifted : ∀ j, j < value.length →
      (front ++ (data ++ unused)).getD (4 * start + j) 0 = data.getD j 0 := by
    intro j inside
    simp only [List.getD_eq_getElem?_getD, ← front_length]
    rw [List.getElem?_append_right (Nat.le_add_right _ _), Nat.add_sub_cancel_left,
      List.getElem?_append_left (length ▸ inside)]
  constructor
  · rintro same ⟨byte, position⟩ member
    obtain ⟨above, found⟩ := List.mem_zipIdx_iff_le_and_getElem?_sub.mp member
    obtain ⟨j, rfl⟩ := Nat.exists_eq_add_of_le above
    rw [Nat.add_sub_cancel_left] at found
    have inside : j < value.length := (List.getElem?_eq_some_iff.mp found).1
    rw [shifted j inside, same, List.getD_eq_getElem?_getD, found, Option.getD_some]
  · intro holds
    refine Buffer.ext_getD 0 data value length fun j inside => ?_
    rw [length] at inside
    have member : (value.getD j 0, 4 * start + j) ∈ value.zipIdx (4 * start) := by
      refine List.mem_zipIdx_iff_le_and_getElem?_sub.mpr ⟨Nat.le_add_right _ _, ?_⟩
      simp only [Nat.add_sub_cancel_left, List.getD_eq_getElem?_getD]
      rw [List.getElem?_eq_getElem inside, Option.getD_some]
    rw [← shifted j inside]
    exact holds _ member

namespace Message

def popBytes (msg : Message) (sizeof : Nat) : Option (List Byte × Message) :=
  (msg.pop sizeof).map fun result => (result.1.toList, result.2)

def popAll : Message → List Nat → Option (List (List Byte))
  | _, [] => some []
  | msg, sizeof :: rest =>
    (msg.popBytes sizeof).bind fun result => (popAll result.2 rest).map (result.1 :: ·)

def build (id : UInt32) (values : List (List Byte)) : Message := values.foldl push (.ofId id)

theorem popBytes_of_storage {msg : Message} {front data unused : List Byte} {start sizeof : Nat}
    (bound : msg.payload.size < 2 ^ 64) (length : data.length = sizeof)
    (split : msg.payload.storage = front ++ (data ++ unused)) (front_length : front.length = 4 * start)
    (unused_length : unused.length = 3 * data.length) :
    msg.popBytes sizeof =
      some (data, ⟨⟨msg.header.id, UInt32.ofNat start⟩, ⟨start, front, front_length⟩⟩) := by
  subst length
  rw [popBytes, pop_of_storage bound split front_length unused_length, Option.map_some]

/-- All values come out again exactly when the payload holds their bytes where they were put. -/
theorem popAll_iff (msg : Message) (values : List (List Byte)) (size : msg.payload.size = total values)
    (bound : total values < 2 ^ 64) :
    msg.popAll (values.map List.length).reverse = some values.reverse ↔
      ∀ x ∈ layout 0 values, msg.payload.storage.getD x.2 0 = x.1 := by
  induction values using List.reverseRecOn generalizing msg with
  | nil => simp [popAll, layout]
  | append_singleton values value ih =>
    have length := msg.payload.length_eq
    rw [total_append, total_cons, total_nil, Nat.add_zero] at size bound
    -- The value pushed last is popped first: split its elements off the storage.
    let front := msg.payload.storage.take (4 * total values)
    let data := (msg.payload.storage.drop (4 * total values)).take value.length
    let unused := (msg.payload.storage.drop (4 * total values)).drop value.length
    have front_length : front.length = 4 * total values := by
      simp only [front, List.length_take]
      omega
    have data_length : data.length = value.length := by
      simp only [data, List.length_take, List.length_drop]
      omega
    have unused_length : unused.length = 3 * data.length := by
      simp only [unused, data_length, List.length_drop]
      omega
    have split : msg.payload.storage = front ++ (data ++ unused) := by
      simp only [front, data, unused, List.take_append_drop]
    have popped := popBytes_of_storage (by omega) data_length split front_length unused_length
    have rest := ih ⟨⟨msg.header.id, UInt32.ofNat (total values)⟩, ⟨total values, front, front_length⟩⟩ rfl
      (by omega)
    have below : ∀ x ∈ layout 0 values, msg.payload.storage.getD x.2 0 = front.getD x.2 0 := by
      intro x member
      have inside := layout_bound member
      simp only [split, List.getD_eq_getElem?_getD]
      rw [List.getElem?_append_left (by omega)]
    have unfolded : msg.popAll ((values ++ [value]).map List.length).reverse =
        (popAll ⟨⟨msg.header.id, UInt32.ofNat (total values)⟩, ⟨total values, front, front_length⟩⟩
          (values.map List.length).reverse).map (data :: ·) := by
      rw [List.map_append, List.map_singleton, List.reverse_append, List.reverse_singleton,
        List.singleton_append, popAll, popped, Option.bind_some]
    rw [unfolded, List.reverse_append, List.reverse_singleton, List.singleton_append, layout_concat,
      List.forall_mem_append, Nat.zero_add]
    constructor
    · intro all
      obtain ⟨others, found, same⟩ := Option.map_eq_some_iff.mp all
      obtain ⟨first, tail⟩ := List.cons.inj same
      rw [tail] at found
      refine ⟨fun x member => (below x member).trans (rest.mp found x member), ?_⟩
      rw [split]
      exact (block_eq_iff front_length data_length).mp first
    · rintro ⟨earlier, last⟩
      rw [split] at last
      have first := (block_eq_iff front_length data_length).mpr last
      have found := rest.mpr fun x member => (below x member).symm.trans (earlier x member)
      rw [found, Option.map_some, first]

theorem build_concat (id : UInt32) (values : List (List Byte)) (value : List Byte) :
    build id (values ++ [value]) = (build id values).push value := by
  simp [build, List.foldl_append]

theorem build_size (id : UInt32) (values : List (List Byte)) :
    (build id values).payload.size = total values := by
  induction values using List.reverseRecOn with
  | nil => rfl
  | append_singleton values value ih => rw [build_concat, push_payload_size, ih, total_append]; rfl

theorem build_storage (id : UInt32) (values : List (List Byte)) :
    (build id values).payload.storage = image values := by
  induction values using List.reverseRecOn with
  | nil => rfl
  | append_singleton values value ih =>
    rw [build_concat, push_storage, ih, image, image, List.flatMap_append, List.flatMap_singleton]

theorem build_header (id : UInt32) (values : List (List Byte)) :
    (build id values).header = ⟨id, UInt32.ofNat (total values)⟩ := by
  induction values using List.reverseRecOn with
  | nil => rfl
  | append_singleton values value ih =>
    have parts : (build id (values ++ [value])).header =
        ⟨(build id values).header.id, UInt32.ofNat ((build id values).payload.size + value.length)⟩ := by
      rw [build_concat]
      rfl
    rw [parts, ih, build_size, total_append]
    rfl

/-- Without a transport in between, `>>` undoes `<<`. -/
theorem popAll_build (id : UInt32) (values : List (List Byte)) (bound : total values < 2 ^ 64) :
    (build id values).popAll (values.map List.length).reverse = some values.reverse := by
  induction values using List.reverseRecOn with
  | nil => rfl
  | append_singleton values value ih =>
    rw [total_append, total_cons, total_nil, Nat.add_zero] at bound
    have restored : (⟨⟨(build id values).header.id, UInt32.ofNat (build id values).payload.size⟩,
        (build id values).payload⟩ : Message) = build id values := by
      refine Message.ext ?_ rfl
      rw [build_header, build_size]
    have popped := pop_push (build id values) value (by rw [build_size]; exact bound)
    rw [restored] at popped
    rw [List.map_append, List.map_singleton, List.reverse_append, List.reverse_singleton,
      List.singleton_append, popAll, popBytes, build_concat, popped, Option.map_some, Option.bind_some,
      ih (by omega), List.reverse_append]
    rfl

end Message
end MyCQ
