import MyCQ.Foundation.Octets

/-! Arrays of a static length, and the object representation of machine words. -/

set_option autoImplicit false

open Octets (Endian)

/-- `T[n]`: the length is part of the type. -/
structure CArray (α : Type) (n : Nat) where
  toList : List α
  length_eq : toList.length = n
  deriving DecidableEq, Repr

namespace CArray

variable {α : Type} {m n : Nat}

theorem ext {first second : CArray α n} (same : first.toList = second.toList) : first = second := by
  cases first
  cases second
  cases same
  rfl

def replicate (n : Nat) (value : α) : CArray α n := ⟨List.replicate n value, List.length_replicate⟩

def append (first : CArray α m) (second : CArray α n) : CArray α (m + n) :=
  ⟨first.toList ++ second.toList, by rw [List.length_append, first.length_eq, second.length_eq]⟩

def slice (array : CArray α n) (offset length : Nat) (inside : offset + length ≤ n) : CArray α length :=
  ⟨(array.toList.drop offset).take length, by
    rw [List.length_take, List.length_drop, array.length_eq]
    omega⟩

/-- `array[i] = value`; no effect outside the array, where the caller has to report the fault. -/
def set (array : CArray α n) (i : Nat) (value : α) : CArray α n :=
  ⟨array.toList.set i value, by rw [List.length_set, array.length_eq]⟩

@[simp] theorem toList_append (first : CArray α m) (second : CArray α n) :
    (first.append second).toList = first.toList ++ second.toList := rfl

theorem slice_append_left (first : CArray α m) (second : CArray α n) (inside : 0 + m ≤ m + n) :
    (first.append second).slice 0 m inside = first := by
  apply ext
  simp [slice, ← first.length_eq]

theorem slice_append_right (first : CArray α m) (second : CArray α n) (inside : m + n ≤ m + n) :
    (first.append second).slice m n inside = second := by
  apply ext
  simp [slice, ← first.length_eq, ← second.length_eq]

theorem slice_append_add (first : CArray α m) (second : CArray α n) (offset length : Nat)
    (inside : m + offset + length ≤ m + n) (rest : offset + length ≤ n) :
    (first.append second).slice (m + offset) length inside = second.slice offset length rest := by
  have behind : (first.append second).toList.drop (m + offset) = second.toList.drop offset := by
    have skipped : first.toList.length = m := first.length_eq
    rw [toList_append, List.drop_append, List.drop_eq_nil_of_le (by omega), skipped]
    simp
  apply ext
  simp only [slice, behind]

/-- An object of type `uint32_t` in memory. -/
def ofUInt32 (order : Endian) (word : UInt32) : CArray UInt8 4 :=
  ⟨Octets.write order 4 word.toNat, Octets.length_write order 4 word.toNat⟩

def toUInt32 (order : Endian) (octets : CArray UInt8 4) : UInt32 :=
  UInt32.ofNat (Octets.read order octets.toList)

def ofUInt64 (order : Endian) (word : UInt64) : CArray UInt8 8 :=
  ⟨Octets.write order 8 word.toNat, Octets.length_write order 8 word.toNat⟩

def toUInt64 (order : Endian) (octets : CArray UInt8 8) : UInt64 :=
  UInt64.ofNat (Octets.read order octets.toList)

@[simp] theorem toUInt32_ofUInt32 (order : Endian) (word : UInt32) :
    (ofUInt32 order word).toUInt32 order = word := by
  have bound := word.toNat_lt
  apply UInt32.toNat_inj.mp
  simp only [toUInt32, ofUInt32, Octets.read_write, UInt32.toNat_ofNat']
  omega

@[simp] theorem ofUInt32_toUInt32 (order : Endian) (octets : CArray UInt8 4) :
    ofUInt32 order (octets.toUInt32 order) = octets := by
  have bound := Octets.read_lt order octets.toList
  have whole := Octets.write_read order octets.toList
  rw [octets.length_eq] at bound whole
  apply ext
  have small : Octets.read order octets.toList % 2 ^ 32 = Octets.read order octets.toList := by omega
  simp only [ofUInt32, toUInt32, UInt32.toNat_ofNat', small, whole]

@[simp] theorem toUInt64_ofUInt64 (order : Endian) (word : UInt64) :
    (ofUInt64 order word).toUInt64 order = word := by
  have bound := word.toNat_lt
  apply UInt64.toNat_inj.mp
  simp only [toUInt64, ofUInt64, Octets.read_write, UInt64.toNat_ofNat']
  omega

def ofUInt32s (order : Endian) (words : CArray UInt32 n) : CArray UInt8 (4 * n) :=
  ⟨words.toList.flatMap fun word => (ofUInt32 order word).toList, by
    rw [List.length_flatMap]
    simp only [length_eq, List.map_const', List.sum_replicate_nat, words.length_eq]
    omega⟩

def readUInt32s (order : Endian) : Nat → List UInt8 → List UInt32
  | 0, _ => []
  | count + 1, octets =>
    UInt32.ofNat (Octets.read order (octets.take 4)) :: readUInt32s order count (octets.drop 4)

theorem length_readUInt32s (order : Endian) (count : Nat) (octets : List UInt8) :
    (readUInt32s order count octets).length = count := by
  induction count generalizing octets with
  | zero => rfl
  | succ count ih => simp only [readUInt32s, List.length_cons, ih]

def toUInt32s (order : Endian) (octets : CArray UInt8 (4 * n)) : CArray UInt32 n :=
  ⟨readUInt32s order n octets.toList, length_readUInt32s order n octets.toList⟩

theorem readUInt32s_flatMap (order : Endian) (words : List UInt32) :
    readUInt32s order words.length (words.flatMap fun word => (ofUInt32 order word).toList) = words := by
  induction words with
  | nil => rfl
  | cons word rest ih =>
    have head : ((ofUInt32 order word).toList ++ rest.flatMap fun w => (ofUInt32 order w).toList).take 4 =
        (ofUInt32 order word).toList := by
      rw [List.take_append_of_le_length (Nat.le_of_eq (length_eq _).symm),
        List.take_of_length_le (Nat.le_of_eq (length_eq _))]
    have tail : ((ofUInt32 order word).toList ++ rest.flatMap fun w => (ofUInt32 order w).toList).drop 4 =
        rest.flatMap fun w => (ofUInt32 order w).toList := List.drop_left' (length_eq _)
    have value : UInt32.ofNat (Octets.read order (ofUInt32 order word).toList) = word :=
      toUInt32_ofUInt32 order word
    simp only [List.length_cons, List.flatMap_cons, readUInt32s, head, tail, value, ih]

@[simp] theorem toUInt32s_ofUInt32s (order : Endian) (words : CArray UInt32 n) :
    (ofUInt32s order words).toUInt32s order = words := by
  apply ext
  have whole := readUInt32s_flatMap order words.toList
  rw [words.length_eq] at whole
  exact whole

end CArray
