import Mathlib.Data.List.Nodup
import Mathlib.Logic.Function.Basic

/-! Linearizability of objects that several threads use at once.

A history lists the calls and the returns of all threads in the order in which
they happen. It is linearizable when the operations can be put into one sequence
that a sequential object performs with the same results, and in which no
operation stands before one that had returned when it was called.

`Points` is the invariant for objects whose operations take effect in one step
somewhere between call and return; it is kept by calls, effects and returns.
-/

set_option autoImplicit false

namespace Linearizability

universe u v w x
variable {ι : Type u} {C : Type v} {R : Type w} {S : Type x}

inductive Event (ι : Type u) (C : Type v) (R : Type w) where
  | call (thread : ι) (call : C)
  | ret (thread : ι) (result : R)
  deriving DecidableEq, Repr

def Event.thread : Event ι C R → ι
  | .call i _ | .ret i _ => i

structure Operation (ι : Type u) (C : Type v) (R : Type w) where
  position : Nat
  thread : ι
  call : C
  result : R
  deriving DecidableEq, Repr

structure Returns (history : List (Event ι C R)) (n m : Nat) (i : ι) (result : R) : Prop where
  behind : n < m
  event : history[m]? = some (.ret i result)
  first : ∀ k e, n < k → k < m → history[k]? = some e → e.thread ≠ i

inductive Performs (object : C → S → Option (S × R)) (start : S) : List (Operation ι C R) → S → Prop where
  | start : Performs object start [] start
  | next {ops : List (Operation ι C R)} {s t : S} {op : Operation ι C R} : Performs object start ops s →
      object op.call s = some (t, op.result) → Performs object start (ops ++ [op]) t

/-- The sequence explains the history. Operations that have not returned may be missing from it. -/
structure Linearizes (object : C → S → Option (S × R)) (start : S) (history : List (Event ι C R))
    (ops : List (Operation ι C R)) : Prop where
  called : ∀ op ∈ ops, history[op.position]? = some (.call op.thread op.call)
  distinct : (ops.map Operation.position).Nodup
  returned : ∀ n m i call result, history[n]? = some (.call i call) → Returns history n m i result →
    ⟨n, i, call, result⟩ ∈ ops
  sequential : ∃ final, Performs object start ops final
  realTime : ops.Pairwise fun first second => ∀ m result,
    Returns history second.position m second.thread result → first.position < m

def Linearizable (object : C → S → Option (S × R)) (start : S) (history : List (Event ι C R)) : Prop :=
  ∃ ops, Linearizes object start history ops

inductive Phase (C : Type v) (R : Type w) where
  | idle
  | pending (call : C)
  | done (call : C) (result : R)
  deriving DecidableEq, Repr

structure Latest (history : List (Event ι C R)) (i : ι) (call : C) (n : Nat) : Prop where
  event : history[n]? = some (.call i call)
  last : ∀ k e, n < k → history[k]? = some e → e.thread ≠ i

structure Pointed (object : C → S → Option (S × R)) (start : S) (history : List (Event ι C R))
    (phase : ι → Phase C R) (state : S) (ops : List (Operation ι C R)) : Prop where
  called : ∀ op ∈ ops, history[op.position]? = some (.call op.thread op.call)
  distinct : (ops.map Operation.position).Nodup
  returned : ∀ n m i call result, history[n]? = some (.call i call) → Returns history n m i result →
    ⟨n, i, call, result⟩ ∈ ops
  performs : Performs object start ops state
  realTime : ops.Pairwise fun first second => ∀ m result,
    Returns history second.position m second.thread result → first.position < m
  pending : ∀ i call, phase i = .pending call →
    ∃ n, Latest history i call n ∧ ∀ op ∈ ops, op.position ≠ n
  done : ∀ i call result, phase i = .done call result →
    ∃ n, Latest history i call n ∧ ⟨n, i, call, result⟩ ∈ ops

def Points (object : C → S → Option (S × R)) (start : S) (history : List (Event ι C R)) (phase : ι → Phase C R)
    (state : S) : Prop :=
  ∃ ops, Pointed object start history phase state ops

variable {object : C → S → Option (S × R)} {start state : S} {history : List (Event ι C R)}
  {phase : ι → Phase C R} {i : ι}

theorem points_start (start : S) : Points object start ([] : List (Event ι C R)) (fun _ => .idle) start :=
  ⟨[], nofun, .nil, nofun, .start, .nil, nofun, nofun⟩

theorem Points.linearizable (points : Points object start history phase state) :
    Linearizable object start history := by
  obtain ⟨ops, pointed⟩ := points
  exact ⟨ops, pointed.called, pointed.distinct, pointed.returned, ⟨state, pointed.performs⟩, pointed.realTime⟩

theorem getElem?_append_some {α : Type u} {front : List α} {n : Nat} {e : α} (rest : List α)
    (found : front[n]? = some e) : (front ++ rest)[n]? = some e := by
  rw [List.getElem?_append_left (List.getElem?_eq_some_iff.mp found).1]
  exact found

theorem getElem?_concat_cases {α : Type u} {front : List α} {last e : α} {n : Nat}
    (found : (front ++ [last])[n]? = some e) : front[n]? = some e ∨ n = front.length ∧ e = last := by
  rw [List.getElem?_append] at found
  split at found
  · exact Or.inl found
  · next behind =>
    rw [List.getElem?_singleton] at found
    split at found
    · cases found
      exact Or.inr ⟨by omega, rfl⟩
    · cases found

theorem Returns.of_concat {last : Event ι C R} {n m : Nat} {result : R}
    (returns : Returns (history ++ [last]) n m i result) (old : m < history.length) :
    Returns history n m i result where
  behind := returns.behind
  event := by
    have event := returns.event
    rwa [List.getElem?_append_left old] at event
  first k e after before found := returns.first k e after before (getElem?_append_some _ found)

theorem Latest.concat {call : C} {n : Nat} {last : Event ι C R} (latest : Latest history i call n)
    (other : last.thread ≠ i) : Latest (history ++ [last]) i call n where
  event := getElem?_append_some _ latest.event
  last k e after found := by
    rcases getElem?_concat_cases found with old | ⟨_, rfl⟩
    · exact latest.last k e after old
    · exact other

theorem Latest.not_returns {call : C} {n m : Nat} {result : R} (latest : Latest history i call n) :
    ¬ Returns history n m i result :=
  fun returns => latest.last m _ returns.behind returns.event rfl

theorem Points.call [DecidableEq ι] (points : Points object start history phase state) (i : ι) (call : C) :
    Points object start (history ++ [.call i call]) (Function.update phase i (.pending call)) state := by
  obtain ⟨ops, pointed⟩ := points
  have old : ∀ {n m j} {result : R}, Returns (history ++ [.call i call]) n m j result →
      Returns history n m j result := by
    intro n m j result returns
    rcases getElem?_concat_cases returns.event with found | ⟨_, other⟩
    · exact returns.of_concat (List.getElem?_eq_some_iff.mp found).1
    · cases other
  have fresh : ∀ op ∈ ops, op.position < history.length := fun op member =>
    (List.getElem?_eq_some_iff.mp (pointed.called op member)).1
  refine ⟨ops, ?_, pointed.distinct, ?_, pointed.performs, ?_, ?_, ?_⟩
  · exact fun op member => getElem?_append_some _ (pointed.called op member)
  · intro n m j made result event returns
    have before := old returns
    have position := (List.getElem?_eq_some_iff.mp before.event).1
    rw [List.getElem?_append_left (Nat.lt_trans before.behind position)] at event
    exact pointed.returned n m j made result event before
  · exact pointed.realTime.imp fun ordered m result returns => ordered m result (old returns)
  · intro j made waiting
    by_cases same : j = i
    · subst same
      rw [Function.update_self] at waiting
      cases waiting
      refine ⟨history.length, ⟨List.getElem?_concat_length, ?_⟩, fun op member => Nat.ne_of_lt (fresh op member)⟩
      intro k e after found
      have inside := (List.getElem?_eq_some_iff.mp found).1
      rw [List.length_append, List.length_singleton] at inside
      omega
    · rw [Function.update_of_ne same] at waiting
      obtain ⟨n, latest, unused⟩ := pointed.pending j made waiting
      exact ⟨n, latest.concat fun back => same back.symm, unused⟩
  · intro j made result finished
    have other : j ≠ i := by
      rintro rfl
      rw [Function.update_self] at finished
      cases finished
    rw [Function.update_of_ne other] at finished
    obtain ⟨n, latest, member⟩ := pointed.done j made result finished
    exact ⟨n, latest.concat fun back => other back.symm, member⟩

/-- A pending operation takes effect. -/
theorem Points.effect [DecidableEq ι] {call : C} {next : S} {result : R}
    (points : Points object start history phase state) (waiting : phase i = .pending call)
    (performed : object call state = some (next, result)) :
    Points object start history (Function.update phase i (.done call result)) next := by
  obtain ⟨ops, pointed⟩ := points
  obtain ⟨n, latest, unused⟩ := pointed.pending i call waiting
  refine ⟨ops ++ [⟨n, i, call, result⟩], ?_, ?_, ?_, pointed.performs.next performed, ?_, ?_, ?_⟩
  · intro op member
    rcases List.mem_append.mp member with old | new
    · exact pointed.called op old
    · cases List.mem_singleton.mp new
      exact latest.event
  · rw [List.map_append, List.map_singleton, ← List.concat_eq_append]
    refine List.Nodup.concat ?_ pointed.distinct
    intro used
    obtain ⟨op, member, same⟩ := List.mem_map.mp used
    exact unused op member same
  · intro n m j made value event returns
    exact List.mem_append_left _ (pointed.returned n m j made value event returns)
  · refine List.pairwise_append.mpr ⟨pointed.realTime, List.pairwise_singleton _ _, ?_⟩
    intro first _ second new m value returns
    cases List.mem_singleton.mp new
    exact absurd returns latest.not_returns
  · intro j made unfinished
    have other : j ≠ i := by
      rintro rfl
      rw [Function.update_self] at unfinished
      cases unfinished
    rw [Function.update_of_ne other] at unfinished
    obtain ⟨k, callEvent, free⟩ := pointed.pending j made unfinished
    refine ⟨k, callEvent, fun op member => ?_⟩
    rcases List.mem_append.mp member with old | new
    · exact free op old
    · cases List.mem_singleton.mp new
      rintro rfl
      cases callEvent.event.symm.trans latest.event
      exact other rfl
  · intro j made value finished
    by_cases same : j = i
    · subst same
      rw [Function.update_self] at finished
      cases finished
      exact ⟨n, latest, List.mem_append_right _ (List.mem_singleton_self _)⟩
    · rw [Function.update_of_ne same] at finished
      obtain ⟨k, callEvent, member⟩ := pointed.done j made value finished
      exact ⟨k, callEvent, List.mem_append_left _ member⟩

/-- An operation that has taken effect returns its result. -/
theorem Points.ret [DecidableEq ι] {call : C} {result : R} (points : Points object start history phase state)
    (finished : phase i = .done call result) :
    Points object start (history ++ [.ret i result]) (Function.update phase i .idle) state := by
  obtain ⟨ops, pointed⟩ := points
  obtain ⟨n, latest, member⟩ := pointed.done i call result finished
  refine ⟨ops, ?_, pointed.distinct, ?_, pointed.performs, ?_, ?_, ?_⟩
  · exact fun op member => getElem?_append_some _ (pointed.called op member)
  · intro k m j made value event returns
    rcases getElem?_concat_cases event with earlier | ⟨_, other⟩
    · rcases getElem?_concat_cases returns.event with found | ⟨rfl, same⟩
      · have before := returns.of_concat (List.getElem?_eq_some_iff.mp found).1
        exact pointed.returned k m j made value earlier before
      · -- The new return belongs to the latest call of its thread.
        cases same
        have position : k = n := by
          rcases Nat.lt_trichotomy k n with before | same | after
          · have inside := (List.getElem?_eq_some_iff.mp latest.event).1
            exact absurd rfl (returns.first n _ before inside (getElem?_append_some _ latest.event))
          · exact same
          · exact absurd rfl (latest.last k _ after earlier)
        subst position
        cases latest.event.symm.trans earlier
        exact member
    · cases other
  · refine pointed.realTime.imp_of_mem ?_
    intro first second firstMember _ ordered m value returns
    rcases getElem?_concat_cases returns.event with found | ⟨rfl, _⟩
    · exact ordered m value (returns.of_concat (List.getElem?_eq_some_iff.mp found).1)
    · exact (List.getElem?_eq_some_iff.mp (pointed.called first firstMember)).1
  · intro j made waiting
    have other : j ≠ i := by
      rintro rfl
      rw [Function.update_self] at waiting
      cases waiting
    rw [Function.update_of_ne other] at waiting
    obtain ⟨k, callEvent, unused⟩ := pointed.pending j made waiting
    exact ⟨k, callEvent.concat fun back => other back.symm, unused⟩
  · intro j made value ended
    have other : j ≠ i := by
      rintro rfl
      rw [Function.update_self] at ended
      cases ended
    rw [Function.update_of_ne other] at ended
    obtain ⟨k, callEvent, entry⟩ := pointed.done j made value ended
    exact ⟨k, callEvent.concat fun back => other back.symm, entry⟩

end Linearizability
