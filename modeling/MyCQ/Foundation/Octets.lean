import Mathlib.Algebra.Ring.Nat

/-! Numbers of a fixed width in base 256, in either byte order. -/

set_option autoImplicit false

namespace Octets

def encode : Nat → Nat → List UInt8
  | 0, _ => []
  | width + 1, value => UInt8.ofNat (value % 256) :: encode width (value / 256)

def decode : List UInt8 → Nat
  | [] => 0
  | octet :: rest => octet.toNat + 256 * decode rest

@[simp] theorem length_encode (width value : Nat) : (encode width value).length = width := by
  induction width generalizing value with
  | zero => rfl
  | succ width ih => simp [encode, ih]

theorem decode_encode (width value : Nat) : decode (encode width value) = value % 256 ^ width := by
  induction width generalizing value with
  | zero => simp [encode, decode, Nat.mod_one]
  | succ width ih =>
    have low : (UInt8.ofNat (value % 256)).toNat = value % 256 := by
      simp [UInt8.toNat_ofNat']
    rw [encode, decode, ih, low, Nat.pow_succ', Nat.mod_mul]

theorem decode_lt (octets : List UInt8) : decode octets < 256 ^ octets.length := by
  induction octets with
  | nil => simp [decode]
  | cons octet rest ih =>
    have bound := octet.toNat_lt
    simp only [decode, List.length_cons, Nat.pow_succ']
    omega

theorem encode_decode (octets : List UInt8) : encode octets.length (decode octets) = octets := by
  induction octets with
  | nil => rfl
  | cons octet rest ih =>
    have bound := octet.toNat_lt
    have low : (octet.toNat + 256 * decode rest) % 256 = octet.toNat := by omega
    have high : (octet.toNat + 256 * decode rest) / 256 = decode rest := by omega
    simp only [List.length_cons, encode, decode, low, high, ih, UInt8.ofNat_toNat]

inductive Endian where
  | little
  | big
  deriving DecidableEq, Repr

/-- Arrange octets given least significant first; its own inverse. -/
def Endian.arrange : Endian → List UInt8 → List UInt8
  | .little, octets => octets
  | .big, octets => octets.reverse

@[simp] theorem Endian.length_arrange (order : Endian) (octets : List UInt8) :
    (order.arrange octets).length = octets.length := by
  cases order <;> simp [arrange]

@[simp] theorem Endian.arrange_arrange (order : Endian) (octets : List UInt8) :
    order.arrange (order.arrange octets) = octets := by
  cases order <;> simp [arrange]

def write (order : Endian) (width value : Nat) : List UInt8 := order.arrange (encode width value)

def read (order : Endian) (octets : List UInt8) : Nat := decode (order.arrange octets)

@[simp] theorem length_write (order : Endian) (width value : Nat) :
    (write order width value).length = width := by
  simp [write]

theorem read_write (order : Endian) (width value : Nat) :
    read order (write order width value) = value % 256 ^ width := by
  simp [read, write, decode_encode]

theorem read_lt (order : Endian) (octets : List UInt8) : read order octets < 256 ^ octets.length := by
  have bound := decode_lt (order.arrange octets)
  rwa [Endian.length_arrange] at bound

theorem write_read (order : Endian) (octets : List UInt8) :
    write order octets.length (read order octets) = octets := by
  have whole := encode_decode (order.arrange octets)
  rw [Endian.length_arrange] at whole
  rw [write, read, whole, Endian.arrange_arrange]

end Octets
