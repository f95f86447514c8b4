import MyCQ.Foundation.ShiftFold

/-! The puzzle of the connection handshake. -/

set_option autoImplicit false

namespace MyCQ

def encryptHandshakeData (input : UInt64) : UInt64 :=
  let out := input ^^^ 0xDEADBEEDC0DECAFE
  let out := (out &&& 0xF0F0F0F0F0F0F0) >>> 4 ||| (out &&& 0xF0F0F0F0F0F0F0) <<< 4
  out ^^^ 0xC0DEFACE12345678

/-- The bits of a challenge that the masks keep: the high nibbles of its seven low bytes. -/
def maskedChallenge (input : UInt64) : BitVec 64 :=
  (input.toBitVec ^^^ 0xDEADBEEDC0DECAFE#64) &&& 0xF0F0F0F0F0F0F0#64

theorem encrypt_toBitVec (input : UInt64) :
    (encryptHandshakeData input).toBitVec =
      ShiftFold.fold 4 (maskedChallenge input) ^^^ 0xC0DEFACE12345678#64 := rfl

theorem mask_getLsbD (i : Nat) (isSet : (0xF0F0F0F0F0F0F0#64).getLsbD i = true) : 4 ≤ i ∧ i + 4 < 64 := by
  have bound := BitVec.lt_of_getLsbD isSet
  have table : ∀ j : Fin 64, (0xF0F0F0F0F0F0F0#64).getLsbD j = true → 4 ≤ j.val ∧ j.val + 4 < 64 := by
    decide
  exact table ⟨i, bound⟩ isSet

theorem maskedChallenge_headroom (input : UInt64) : ShiftFold.Headroom 4 (maskedChallenge input) := by
  intro i isSet
  simp only [maskedChallenge, BitVec.getLsbD_and, Bool.and_eq_true] at isSet
  exact mask_getLsbD i isSet.2

/-- The top bit of every answer is set: the masks clear it, and the last constant has it. -/
theorem le_encryptHandshakeData (input : UInt64) : 0x8000000000000000 ≤ (encryptHandshakeData input).toNat := by
  have cleared : (ShiftFold.fold 4 (maskedChallenge input)).getLsbD 63 = false := by
    refine Bool.eq_false_iff.mpr fun isSet => ?_
    rcases (ShiftFold.getLsbD_fold 4 _ 63).mp isSet with ⟨_, beyond | ⟨_, high⟩⟩
    · exact absurd (BitVec.lt_of_getLsbD beyond) (by decide)
    · simp only [maskedChallenge, BitVec.getLsbD_and, Bool.and_eq_true] at high
      cases high.2
  have top : (encryptHandshakeData input).toBitVec.msb = true := by
    rw [BitVec.msb_eq_getLsbD_last, encrypt_toBitVec, BitVec.getLsbD_xor, cleared]
    rfl
  have twice := BitVec.msb_eq_true_iff_two_mul_ge.mp top
  rw [UInt64.toNat_toBitVec] at twice
  omega

/-- Some kept bit of the two challenges differs, and in the challenge where it is clear the
positions eight below and eight above it are not both set. -/
def Distinguishable (first second : UInt64) : Prop :=
  ShiftFold.Exposes 4 (maskedChallenge first) (maskedChallenge second) ∨
    ShiftFold.Exposes 4 (maskedChallenge second) (maskedChallenge first)

theorem encrypt_ne_iff (first second : UInt64) :
    encryptHandshakeData first ≠ encryptHandshakeData second ↔ Distinguishable first second := by
  have same : encryptHandshakeData first = encryptHandshakeData second ↔
      ShiftFold.fold 4 (maskedChallenge first) = ShiftFold.fold 4 (maskedChallenge second) := by
    rw [← UInt64.toBitVec_inj, encrypt_toBitVec, encrypt_toBitVec, BitVec.xor_left_inj]
  exact (not_congr same).trans
    (ShiftFold.fold_ne_iff (maskedChallenge_headroom first) (maskedChallenge_headroom second))

end MyCQ
