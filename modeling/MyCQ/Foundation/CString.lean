import Mathlib.Data.List.TakeWhile
import MyCQ.Foundation.CArray

/-! Character strings that end at their first zero, and arrays that hold them.

Copying a string into an array also writes the zero behind it. When the array
is too short for both, the copy leaves the array and there is no result.
-/

set_option autoImplicit false

namespace CString

def text (characters : List UInt8) : List UInt8 := characters.takeWhile (· ≠ 0)

/-- `strcpy` of the string that `source` begins with; what lies behind the copied zero stays. -/
def strcpy {n : Nat} (field : CArray UInt8 n) (source : List UInt8) : Option (CArray UInt8 n) :=
  if inside : (text source).length + 1 ≤ n then
    some ⟨text source ++ 0 :: field.toList.drop ((text source).length + 1), by
      rw [List.length_append, List.length_cons, List.length_drop, field.length_eq]
      omega⟩
  else none

theorem zero_not_mem_text (characters : List UInt8) : 0 ∉ text characters := by
  intro member
  have kept := List.mem_takeWhile_imp member
  exact of_decide_eq_true kept rfl

theorem text_append_zero (front rest : List UInt8) (noZero : 0 ∉ front) : text (front ++ 0 :: rest) = front := by
  have kept : ∀ character ∈ front, decide (character ≠ 0) = true := by
    intro character member
    exact decide_eq_true fun zero => noZero (zero ▸ member)
  rw [text, List.takeWhile_append_of_pos kept, List.takeWhile_cons_of_neg (by simp), List.append_nil]

theorem text_of_not_mem (characters : List UInt8) (noZero : 0 ∉ characters) : text characters = characters := by
  apply List.takeWhile_eq_self_iff.mpr
  intro character member
  exact decide_eq_true fun zero => noZero (zero ▸ member)

theorem strcpy_isSome_iff {n : Nat} (field : CArray UInt8 n) (source : List UInt8) :
    (strcpy field source).isSome = true ↔ (text source).length < n := by
  unfold strcpy
  split
  · next inside => exact iff_of_true rfl inside
  · next outside => exact iff_of_false Bool.false_ne_true outside

theorem exists_strcpy {n : Nat} (field : CArray UInt8 n) {source : List UInt8} (fits : (text source).length < n) :
    ∃ copied, strcpy field source = some copied :=
  Option.isSome_iff_exists.mp ((strcpy_isSome_iff field source).mpr fits)

theorem strcpy_eq_none_iff {n : Nat} (field : CArray UInt8 n) (source : List UInt8) :
    strcpy field source = none ↔ n ≤ (text source).length := by
  rw [← Option.not_isSome_iff_eq_none, strcpy_isSome_iff]
  exact Nat.not_lt

theorem toList_strcpy {n : Nat} {field copied : CArray UInt8 n} {source : List UInt8}
    (done : strcpy field source = some copied) :
    copied.toList = text source ++ 0 :: field.toList.drop ((text source).length + 1) := by
  unfold strcpy at done
  split at done
  · cases done
    rfl
  · cases done

/-- What has been copied is read back. -/
theorem text_strcpy {n : Nat} {field copied : CArray UInt8 n} {source : List UInt8}
    (done : strcpy field source = some copied) : text copied.toList = text source := by
  rw [toList_strcpy done]
  exact text_append_zero _ _ (zero_not_mem_text source)

theorem zero_mem_strcpy {n : Nat} {field copied : CArray UInt8 n} {source : List UInt8}
    (done : strcpy field source = some copied) : 0 ∈ copied.toList := by
  rw [toList_strcpy done]
  exact List.mem_append_right _ List.mem_cons_self

end CString
