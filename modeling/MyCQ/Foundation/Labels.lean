import Mathlib.Data.List.ReduceOption
import Mathlib.Data.List.Sort

/-! Sequences labelled from a counter.

Some elements of a sequence carry a number that was taken from a shared counter
when the element was added; the others carry none. Sequences that grow at their
ends then agree on the order of the numbers they have in common.
-/

set_option autoImplicit false

namespace Labels

structure Increasing (counter : Nat) (labels : List (Option Nat)) : Prop where
  ordered : labels.reduceOption.Pairwise (· < ·)
  below : ∀ i ∈ labels.reduceOption, i < counter

variable {counter more : Nat} {labels : List (Option Nat)}

theorem Increasing.nil (counter : Nat) : Increasing counter [] :=
  ⟨List.Pairwise.nil, fun _ none => absurd none List.not_mem_nil⟩

theorem Increasing.mono (increasing : Increasing counter labels) (le : counter ≤ more) : Increasing more labels :=
  ⟨increasing.ordered, fun i member => Nat.lt_of_lt_of_le (increasing.below i member) le⟩

theorem Increasing.unlabelled (increasing : Increasing counter labels) (count : Nat) :
    Increasing counter (labels ++ List.replicate count none) := by
  have same : (labels ++ List.replicate count none).reduceOption = labels.reduceOption := by
    rw [List.reduceOption_append, List.reduceOption_replicate_none, List.append_nil]
  constructor
  · rw [same]
    exact increasing.ordered
  · rw [same]
    exact increasing.below

theorem Increasing.next (increasing : Increasing counter labels) :
    Increasing (counter + 1) (labels ++ [some counter]) := by
  have added : (labels ++ [some counter]).reduceOption = labels.reduceOption ++ [counter] := by
    rw [List.reduceOption_append, List.reduceOption_singleton]
    rfl
  constructor
  · rw [added, List.pairwise_append]
    refine ⟨increasing.ordered, List.pairwise_singleton _ _, ?_⟩
    intro i member j last
    rw [List.mem_singleton.mp last]
    exact increasing.below i member
  · rw [added]
    intro i member
    rcases List.mem_append.mp member with old | last
    · exact Nat.lt_succ_of_lt (increasing.below i old)
    · exact List.mem_singleton.mp last ▸ Nat.lt_succ_self counter

theorem reduceOption_take (labels : List (Option Nat)) (count : Nat) :
    (labels.take count).reduceOption <+: labels.reduceOption := by
  have split := List.reduceOption_append (labels.take count) (labels.drop count)
  rw [List.take_append_drop] at split
  exact ⟨_, split.symm⟩

theorem Increasing.take (increasing : Increasing counter labels) (count : Nat) :
    (labels.take count).reduceOption.Pairwise (· < ·) :=
  increasing.ordered.sublist (reduceOption_take labels count).sublist

/-- Two increasing sequences have their common numbers in the same order. -/
theorem filter_mem_comm {first second : List Nat} (left : first.Pairwise (· < ·)) (right : second.Pairwise (· < ·)) :
    first.filter (· ∈ second) = second.filter (· ∈ first) := by
  apply List.Pairwise.eq_of_mem_iff (left.filter _) (right.filter _)
  intro i
  simp only [List.mem_filter, decide_eq_true_eq]
  exact And.comm

section
universe u
variable {α : Type u} {p : α → Bool} {l : List α} {a : α} {i j : Nat}

def rank (p : α → Bool) (l : List α) (i : Nat) : Nat := (l.take i).countP p

theorem take_succ_eq (found : l[i]? = some a) : l.take (i + 1) = l.take i ++ [a] := by
  rw [List.take_add_one, found]
  rfl

/-- The rank is the position among the elements with the property. -/
theorem getElem?_filter_rank (found : l[i]? = some a) (holds : p a = true) :
    (l.filter p)[rank p l i]? = some a := by
  have split : l = l.take i ++ a :: l.drop (i + 1) := by
    have whole := List.take_append_drop (i + 1) l
    rw [take_succ_eq found, List.append_assoc] at whole
    exact whole.symm
  have position : ((l.take i).filter p).length = rank p l i := List.countP_eq_length_filter.symm
  have kept := congrArg (List.filter p) split
  rw [List.filter_append, List.filter_cons_of_pos holds] at kept
  rw [kept, ← position, List.getElem?_append_right (Nat.le_refl _), Nat.sub_self]
  rfl

theorem rank_lt_rank (found : l[i]? = some a) (holds : p a = true) (before : i < j) : rank p l i < rank p l j := by
  have passed : rank p l (i + 1) = rank p l i + 1 := by
    rw [rank, take_succ_eq found, List.countP_append, List.countP_singleton, if_pos holds]
    rfl
  have kept : rank p l (i + 1) ≤ rank p l j := by
    apply List.Sublist.countP_le
    exact (List.take_prefix_take_left before).sublist
  rw [passed] at kept
  exact kept

end

end Labels
