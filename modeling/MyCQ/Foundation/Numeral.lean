/-! Decimal numerals at the start of a line of text.

`stoul` is the conversion of the C++ library to a 64-bit `unsigned long`; where
it throws there is no result.
-/

set_option autoImplicit false

namespace Numeral

def isSpace (character : UInt8) : Bool := character == 32 || 9 ≤ character && character ≤ 13

def isDigit (character : UInt8) : Bool := 48 ≤ character && character ≤ 57

def splitSign : List UInt8 → Bool × List UInt8
  | 43 :: rest => (false, rest)
  | 45 :: rest => (true, rest)
  | characters => (false, characters)

def magnitude (digits : List UInt8) : Nat :=
  digits.foldl (fun value digit => 10 * value + (digit.toNat - 48)) 0

def scan (characters : List UInt8) : Bool × List UInt8 :=
  let (negative, rest) := splitSign (characters.dropWhile isSpace)
  (negative, rest.takeWhile isDigit)

-- The range is that of the digits; a sign in front negates the result in 64 bits.
/-- `std::stoul`: it throws when there is no digit or when the number is out of range. -/
def stoul (characters : List UInt8) : Option UInt64 :=
  let (negative, digits) := scan characters
  if digits.isEmpty then none
  else if UInt64.size ≤ magnitude digits then none
  else if negative then some (-UInt64.ofNat (magnitude digits))
  else some (UInt64.ofNat (magnitude digits))

def value (characters : List UInt8) : Int :=
  let (negative, digits) := scan characters
  if negative then -(magnitude digits) else magnitude digits

/-- Narrowed to 32 bits, the result is the number reduced modulo `2 ^ 32`, also when it is negative. -/
theorem toUInt32_stoul {characters : List UInt8} {id : UInt64} (parsed : stoul characters = some id) :
    (id.toUInt32.toNat : Int) = value characters % 4294967296 := by
  unfold stoul at parsed
  unfold value
  generalize scan characters = scanned at parsed ⊢
  obtain ⟨negative, digits⟩ := scanned
  dsimp only at parsed ⊢
  split at parsed
  · cases parsed
  · split at parsed
    · cases parsed
    · next inside =>
      have bound : magnitude digits < 18446744073709551616 := Nat.lt_of_not_le inside
      cases negative with
      | true =>
        cases parsed
        simp only [if_true, UInt64.toNat_toUInt32, UInt64.toNat_neg, UInt64.toNat_ofNat', UInt64.size]
        omega
      | false =>
        cases parsed
        simp only [Bool.false_eq_true, if_false, UInt64.toNat_toUInt32, UInt64.toNat_ofNat']
        omega

theorem toUInt32_stoul_eq_iff {characters : List UInt8} {id : UInt64} (parsed : stoul characters = some id) :
    (id.toUInt32.toNat : Int) = value characters ↔ 0 ≤ value characters ∧ value characters < UInt32.size := by
  rw [toUInt32_stoul parsed, UInt32.size]
  omega

example : stoul [32, 45, 49, 120] = some 18446744073709551615 := by decide

end Numeral
