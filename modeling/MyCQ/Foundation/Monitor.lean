import Mathlib.Data.Finset.Insert
import Mathlib.Data.Finset.Erase
import Mathlib.Logic.Function.Basic

/-! Mutexes and condition variables, tied to the program counters of threads.

A mutex records its owner, a condition variable the threads suspended on it.
Both have to agree with where the threads are; each lemma says how one thread's
step keeps that agreement.
-/

set_option autoImplicit false

namespace Monitor

universe u v
variable {ι : Type u} {β : Type v} [DecidableEq ι]

def Owned (inside : β → Bool) (owner : Option ι) (threads : ι → β) : Prop :=
  ∀ i, inside (threads i) = true ↔ owner = some i

def Suspended (asleep : β → Bool) (waiting : Finset ι) (threads : ι → β) : Prop :=
  ∀ i, asleep (threads i) = true ↔ i ∈ waiting

variable {inside asleep : β → Bool} {owner : Option ι} {waiting : Finset ι} {threads : ι → β} {i : ι}
  {before after : β}

omit [DecidableEq ι] in
theorem Owned.unique {j : ι} (owned : Owned inside owner threads) (first : inside (threads i) = true)
    (second : inside (threads j) = true) : i = j :=
  Option.some.inj (((owned i).mp first).symm.trans ((owned j).mp second))

theorem Owned.keep (owned : Owned inside owner threads) (pc : threads i = before)
    (same : inside after = inside before) : Owned inside owner (Function.update threads i after) := by
  intro j
  by_cases moved : j = i
  · subst moved
    rw [Function.update_self, same, ← pc]
    exact owned j
  · rw [Function.update_of_ne moved]
    exact owned j

theorem Owned.acquire (owned : Owned inside owner threads) (free : owner = none)
    (entered : inside after = true) : Owned inside (some i) (Function.update threads i after) := by
  intro j
  by_cases moved : j = i
  · subst moved
    rw [Function.update_self]
    exact iff_of_true entered rfl
  · rw [Function.update_of_ne moved, owned j, free]
    exact iff_of_false (Option.some_ne_none j).symm fun same => moved (Option.some.inj same).symm

theorem Owned.release (owned : Owned inside owner threads) (pc : threads i = before)
    (held : inside before = true) (left : inside after = false) :
    Owned inside none (Function.update threads i after) := by
  rw [← pc] at held
  intro j
  by_cases moved : j = i
  · subst moved
    rw [Function.update_self, left]
    exact iff_of_false Bool.false_ne_true (Option.some_ne_none j).symm
  · rw [Function.update_of_ne moved]
    exact iff_of_false (fun also => moved (owned.unique also held)) (Option.some_ne_none j).symm

theorem Suspended.keep (suspended : Suspended asleep waiting threads) (pc : threads i = before)
    (same : asleep after = asleep before) : Suspended asleep waiting (Function.update threads i after) := by
  intro j
  by_cases moved : j = i
  · subst moved
    rw [Function.update_self, same, ← pc]
    exact suspended j
  · rw [Function.update_of_ne moved]
    exact suspended j

theorem Suspended.suspend (suspended : Suspended asleep waiting threads) (slept : asleep after = true) :
    Suspended asleep (insert i waiting) (Function.update threads i after) := by
  intro j
  by_cases moved : j = i
  · subst moved
    rw [Function.update_self]
    exact iff_of_true slept (Finset.mem_insert_self j waiting)
  · rw [Function.update_of_ne moved, suspended j, Finset.mem_insert]
    exact (or_iff_right moved).symm

theorem Suspended.wake (suspended : Suspended asleep waiting threads) (woke : asleep after = false) :
    Suspended asleep (waiting.erase i) (Function.update threads i after) := by
  intro j
  by_cases moved : j = i
  · subst moved
    rw [Function.update_self, woke]
    exact iff_of_false Bool.false_ne_true (Finset.notMem_erase j waiting)
  · rw [Function.update_of_ne moved, suspended j, Finset.mem_erase]
    exact (and_iff_right moved).symm

end Monitor
