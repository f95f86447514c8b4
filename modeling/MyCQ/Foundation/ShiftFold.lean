/-! Folding a bit vector by two opposite shifts.

`fold k x` overlays `x` shifted down and `x` shifted up by `k`. Bits at
distance `2 * k` land on each other, so a bit is visible in the result unless
both of its partners are set.
-/

set_option autoImplicit false

namespace ShiftFold

variable {w : Nat}

def fold (k : Nat) (x : BitVec w) : BitVec w := x >>> k ||| x <<< k

def Headroom (k : Nat) (x : BitVec w) : Prop := ∀ i, x.getLsbD i = true → k ≤ i ∧ i + k < w

/-- In `y`, position `i` lies between two set bits of distance `2 * k`. -/
def Shadowed (k : Nat) (y : BitVec w) (i : Nat) : Prop :=
  2 * k ≤ i ∧ y.getLsbD (i - 2 * k) = true ∧ y.getLsbD (i + 2 * k) = true

def Exposes (k : Nat) (x y : BitVec w) : Prop :=
  ∃ i, x.getLsbD i = true ∧ y.getLsbD i = false ∧ ¬ Shadowed k y i

theorem getLsbD_fold (k : Nat) (x : BitVec w) (j : Nat) :
    (fold k x).getLsbD j = true ↔
      j < w ∧ (x.getLsbD (j + k) = true ∨ k ≤ j ∧ x.getLsbD (j - k) = true) := by
  simp only [fold, BitVec.getLsbD_or, BitVec.getLsbD_ushiftRight, BitVec.getLsbD_shiftLeft,
    Bool.or_eq_true, Bool.and_eq_true, Bool.not_eq_true', decide_eq_true_eq, decide_eq_false_iff_not,
    Nat.add_comm k j, Nat.not_lt]
  constructor
  · rintro (low | ⟨⟨bound, above⟩, high⟩)
    · exact ⟨by have := BitVec.lt_of_getLsbD low; omega, Or.inl low⟩
    · exact ⟨bound, Or.inr ⟨above, high⟩⟩
  · rintro ⟨bound, low | ⟨above, high⟩⟩
    · exact Or.inl low
    · exact Or.inr ⟨⟨bound, above⟩, high⟩

theorem fold_ne_of_exposes {k : Nat} {x y : BitVec w} (room : Headroom k x)
    (exposed : Exposes k x y) : fold k x ≠ fold k y := by
  intro same
  obtain ⟨i, isSet, clear, unshadowed⟩ := exposed
  obtain ⟨above, below⟩ := room i isSet
  have down : (fold k y).getLsbD (i - k) = true := by
    rw [← same, getLsbD_fold]
    exact ⟨by omega, Or.inl (by rwa [Nat.sub_add_cancel above])⟩
  have up : (fold k y).getLsbD (i + k) = true := by
    rw [← same, getLsbD_fold]
    exact ⟨below, Or.inr ⟨Nat.le_add_left k i, by rwa [Nat.add_sub_cancel]⟩⟩
  rw [getLsbD_fold, Nat.sub_add_cancel above, clear] at down
  rw [getLsbD_fold, Nat.add_sub_cancel, clear] at up
  simp only [Bool.false_eq_true, false_or, and_false, or_false] at down up
  refine unshadowed ⟨by omega, ?_, ?_⟩
  · rw [show i - 2 * k = i - k - k by omega]
    exact down.2.2
  · rw [show i + 2 * k = i + k + k by omega]
    exact up.2

theorem fold_le_of_not_exposes {k : Nat} {x y : BitVec w} (hidden : ¬ Exposes k x y) (j : Nat)
    (shown : (fold k x).getLsbD j = true) : (fold k y).getLsbD j = true := by
  have covered : ∀ i, x.getLsbD i = true → y.getLsbD i = true ∨ Shadowed k y i := by
    intro i isSet
    by_cases same : y.getLsbD i = true
    · exact Or.inl same
    · by_cases shadow : Shadowed k y i
      · exact Or.inr shadow
      · exact absurd ⟨i, isSet, Bool.not_eq_true _ |>.mp same, shadow⟩ hidden
  rw [getLsbD_fold] at shown ⊢
  refine ⟨shown.1, ?_⟩
  rcases shown.2 with low | ⟨above, high⟩
  · rcases covered _ low with same | ⟨room, lower, _⟩
    · exact Or.inl same
    · exact Or.inr ⟨by omega, by rwa [show j + k - 2 * k = j - k by omega] at lower⟩
  · rcases covered _ high with same | ⟨_, _, upper⟩
    · exact Or.inr ⟨above, same⟩
    · exact Or.inl (by rwa [show j - k + 2 * k = j + k by omega] at upper)

/-- Exactly the exposed differences survive the fold. -/
theorem fold_ne_iff {k : Nat} {x y : BitVec w} (left : Headroom k x) (right : Headroom k y) :
    fold k x ≠ fold k y ↔ Exposes k x y ∨ Exposes k y x := by
  constructor
  · intro different
    by_cases first : Exposes k x y
    · exact Or.inl first
    · by_cases second : Exposes k y x
      · exact Or.inr second
      · refine absurd (BitVec.eq_of_getLsbD_eq fun j _ => ?_) different
        exact Bool.eq_iff_iff.mpr
          ⟨fold_le_of_not_exposes first j, fold_le_of_not_exposes second j⟩
  · rintro (exposed | exposed)
    · exact fold_ne_of_exposes left exposed
    · exact (fold_ne_of_exposes right exposed).symm

end ShiftFold
