/-! Buffers that are resized and partly overwritten.

Contents are compared position by position through `List.getD`, so that a
position outside a buffer reads as the fill value.
-/

set_option autoImplicit false

namespace Buffer

universe u
variable {α : Type u}

def resize (fill : α) (buffer : List α) (size : Nat) : List α :=
  buffer.take size ++ List.replicate (size - buffer.length) fill

def overwrite (buffer : List α) (offset : Nat) (data : List α) : List α :=
  (buffer.take offset ++ data ++ buffer.drop (offset + data.length)).take buffer.length

@[simp] theorem length_resize (fill : α) (buffer : List α) (size : Nat) :
    (resize fill buffer size).length = size := by
  simp only [resize, List.length_append, List.length_take, List.length_replicate]
  omega

@[simp] theorem length_overwrite (buffer : List α) (offset : Nat) (data : List α) :
    (overwrite buffer offset data).length = buffer.length := by
  simp only [overwrite, List.length_take, List.length_append, List.length_drop]
  omega

theorem resize_grow (fill : α) (buffer : List α) (more : Nat) :
    resize fill buffer (buffer.length + more) = buffer ++ List.replicate more fill := by
  simp [resize, List.take_of_length_le]

theorem resize_shrink (fill : α) (kept dropped : List α) :
    resize fill (kept ++ dropped) kept.length = kept := by
  simp [resize]

theorem overwrite_inside (buffer : List α) (offset : Nat) (data : List α)
    (inside : offset + data.length ≤ buffer.length) :
    overwrite buffer offset data =
      buffer.take offset ++ data ++ buffer.drop (offset + data.length) := by
  rw [overwrite, List.take_of_length_le]
  simp only [List.length_append, List.length_take, List.length_drop]
  omega

theorem overwrite_tail (kept old data rest : List α) (same : old.length = data.length) :
    overwrite (kept ++ (old ++ rest)) kept.length data = kept ++ (data ++ rest) := by
  rw [overwrite_inside _ _ _ (by simp only [List.length_append]; omega)]
  have skipped : (kept ++ (old ++ rest)).drop (kept.length + data.length) = rest := by
    rw [← same, ← List.append_assoc, ← List.length_append, List.drop_left]
  rw [skipped, List.take_left, List.append_assoc]

theorem getD_resize (fill : α) (buffer : List α) (size position : Nat) :
    (resize fill buffer size).getD position fill =
      if position < size then buffer.getD position fill else fill := by
  simp only [resize, List.getD_eq_getElem?_getD, List.getElem?_append, List.length_take,
    List.getElem?_take, List.getElem?_replicate]
  by_cases present : position < buffer.length
  · by_cases inside : position < size
    · simp [inside, present, show position < min size buffer.length by omega]
    · have first : ¬ position < min size buffer.length := by omega
      have second : ¬ position - min size buffer.length < size - buffer.length := by omega
      simp [inside, first, second]
  · have absent : buffer[position]? = none := List.getElem?_eq_none (Nat.le_of_not_lt present)
    have first : ¬ position < min size buffer.length := by omega
    simp only [first, absent, if_false, Option.getD_none, ite_self]
    split <;> rfl

theorem getD_overwrite (fill : α) (buffer : List α) (offset : Nat) (data : List α) (position : Nat)
    (inside : offset + data.length ≤ buffer.length) :
    (overwrite buffer offset data).getD position fill =
      if offset ≤ position ∧ position < offset + data.length then data.getD (position - offset) fill
      else buffer.getD position fill := by
  rw [overwrite_inside _ _ _ inside]
  simp only [List.getD_eq_getElem?_getD, List.getElem?_append, List.length_append, List.length_take,
    List.getElem?_take, List.getElem?_drop]
  have front : min offset buffer.length = offset := by omega
  rw [front]
  by_cases before : position < offset
  · simp [before, Nat.not_le.mpr before, show position < offset + data.length by omega]
  · by_cases within : position < offset + data.length
    · simp [before, within, Nat.le_of_not_lt before]
    · have target : offset + data.length + (position - (offset + data.length)) = position := by omega
      simp [within, target]

theorem ext_getD (fill : α) (first second : List α) (length : first.length = second.length)
    (same : ∀ position, position < first.length →
      first.getD position fill = second.getD position fill) : first = second := by
  apply List.ext_getElem length
  intro position left right
  have equal := same position left
  simpa [List.getD_eq_getElem?_getD, left, right] using equal

end Buffer
