import MyCQ.Foundation.Transition

/-! Stacks of values of different sizes, as the code that uses them sees them.

A pop names the size of the value that it expects, and that is the value pushed
last. The values that have been popped are recorded in their order.
-/

set_option autoImplicit false

universe u
variable {α : Type u}

inductive StackOp (α : Type u) where
  | push (value : α)
  | pop (size : Nat)
  deriving DecidableEq, Repr

structure Stack (α : Type u) where
  pending : List α
  returned : List α
  deriving DecidableEq, Repr

namespace Stack

def empty : Stack α := ⟨[], []⟩

def used (size : α → Nat) : List α → Nat
  | [] => 0
  | value :: rest => size value + used size rest

/-- One operation. The values have to take less than `room`, and a pop has to expect the size of the
value on top. -/
def step (size : α → Nat) (room : Nat) (s : Stack α) : StackOp α → Option (Stack α)
  | .push value => if used size (value :: s.pending) < room then some { s with pending := value :: s.pending } else none
  | .pop expected =>
    match s.pending with
    | [] => none
    | value :: rest => if size value = expected then some ⟨rest, s.returned ++ [value]⟩ else none

inductive StepCases (size : α → Nat) (room : Nat) (s : Stack α) : StackOp α → Stack α → Prop where
  | push (value : α) : used size (value :: s.pending) < room →
      StepCases size room s (.push value) { s with pending := value :: s.pending }
  | pop (value : α) (rest : List α) : s.pending = value :: rest →
      StepCases size room s (.pop (size value)) ⟨rest, s.returned ++ [value]⟩

theorem step_cases {size : α → Nat} {room : Nat} {s t : Stack α} {op : StackOp α}
    (taken : s.step size room op = some t) : StepCases size room s op t := by
  cases op with
  | push value =>
    obtain ⟨fits, same⟩ := Option.ite_none_right_eq_some.mp taken
    cases same
    exact .push value fits
  | pop expected =>
    simp only [step] at taken
    split at taken
    · cases taken
    · next value rest top =>
      obtain ⟨rfl, same⟩ := Option.ite_none_right_eq_some.mp taken
      cases same
      exact .pop value rest top

end Stack
