import Mathlib.Logic.Relation
import Mathlib.Order.WellFounded

/-! Threads that wait for the holders of locks.

A thread waits for the thread that holds the lock it requests. Where every
thread requests only locks above all those it holds, each wait leads to a higher
request; so no chain of waiting threads is closed, and each one ends.
-/

set_option autoImplicit false

namespace LockOrder

universe u v
variable {ι : Type u} {κ : Type v} {requests : ι → Option κ} {holder : κ → Option ι}

def WaitsFor (requests : ι → Option κ) (holder : κ → Option ι) (i j : ι) : Prop :=
  ∃ lock, requests i = some lock ∧ holder lock = some j

def Ascending [LT κ] (requests : ι → Option κ) (holder : κ → Option ι) : Prop :=
  ∀ i held requested, holder held = some i → requests i = some requested → held < requested

/-- A thread that waits for nobody: it requests no lock or one that is free. -/
theorem not_waitsFor_iff {i : ι} :
    (∀ j, ¬ WaitsFor requests holder i j) ↔ ∀ lock, requests i = some lock → holder lock = none := by
  constructor
  · intro alone lock requested
    cases held : holder lock with
    | none => rfl
    | some j => exact absurd ⟨lock, requested, held⟩ (alone j)
  · rintro free j ⟨lock, requested, held⟩
    cases (free lock requested).symm.trans held

variable [Preorder κ] [WellFoundedGT κ]

theorem Ascending.acc (ascending : Ascending requests holder) (lock : κ) :
    ∀ i, requests i = some lock → Acc (fun j i => WaitsFor requests holder i j) i := by
  induction lock using WellFoundedGT.induction with
  | ind lock ih =>
    intro i requested
    constructor
    rintro j ⟨_, same, held⟩
    cases requested.symm.trans same
    -- The holder requests nothing, or a lock above the one it holds.
    cases next : requests j with
    | none =>
      constructor
      rintro k ⟨above, some, _⟩
      cases next.symm.trans some
    | some above => exact ih above (ascending j lock above held next) j next

/-- Chains of waiting threads are finite. -/
theorem Ascending.wellFounded (ascending : Ascending requests holder) :
    WellFounded fun j i => WaitsFor requests holder i j := by
  constructor
  intro i
  cases requested : requests i with
  | none =>
    constructor
    rintro j ⟨lock, some, _⟩
    cases requested.symm.trans some
  | some lock => exact ascending.acc lock i requested

theorem Ascending.acyclic (ascending : Ascending requests holder) (i : ι) :
    ¬ Relation.TransGen (WaitsFor requests holder) i i := by
  intro cycle
  exact ascending.wellFounded.transGen.irrefl.irrefl i (Relation.transGen_swap.mpr cycle)

theorem Ascending.exists_not_waitsFor (ascending : Ascending requests holder) {threads : Set ι}
    (nonempty : threads.Nonempty) : ∃ i ∈ threads, ∀ j ∈ threads, ¬ WaitsFor requests holder i j :=
  ascending.wellFounded.has_min threads nonempty

/-- A chain of waiting threads leads to one that waits for nobody. -/
theorem Ascending.exists_end (ascending : Ascending requests holder) (i : ι) :
    ∃ j, Relation.ReflTransGen (WaitsFor requests holder) i j ∧ ∀ k, ¬ WaitsFor requests holder j k := by
  induction i using ascending.wellFounded.induction with
  | _ i ih =>
    by_cases waits : ∃ j, WaitsFor requests holder i j
    · obtain ⟨j, waits⟩ := waits
      obtain ⟨last, chain, alone⟩ := ih j waits
      exact ⟨last, .head waits chain, alone⟩
    · exact ⟨i, .refl, not_exists.mp waits⟩

end LockOrder
