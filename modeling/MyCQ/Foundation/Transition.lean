/-! Runs of an executable transition system.

A system is a partial step function: `none` means that the action is not
enabled. A run may carry a guard, a condition on the state before a step and on
the action taken there.
-/

set_option autoImplicit false

namespace Transition

universe u v w
variable {S : Type u} {A : Type v} {step : S → A → Option S}

def perform (step : S → A → Option S) : S → List A → Option S
  | s, [] => some s
  | s, a :: rest => (step s a).bind fun t => perform step t rest

theorem perform_append (first second : List A) (s : S) :
    perform step s (first ++ second) = (perform step s first).bind fun t => perform step t second := by
  induction first generalizing s with
  | nil => rfl
  | cons a rest ih =>
    rw [List.cons_append, perform, perform, Option.bind_assoc]
    congr 1
    funext t
    exact ih t

/-- What one system can do, another that matches each of its steps can do as well. -/
theorem perform_simulates {T : Type w} {other : T → A → Option T} {Related : S → T → Prop}
    (matched : ∀ s t a s', Related s t → step s a = some s' → ∃ t', other t a = some t' ∧ Related s' t')
    {s s' : S} {t : T} (related : Related s t) (actions : List A) (done : perform step s actions = some s') :
    ∃ t', perform other t actions = some t' ∧ Related s' t' := by
  induction actions generalizing s t with
  | nil =>
    cases done
    exact ⟨t, rfl, related⟩
  | cons a rest ih =>
    obtain ⟨middle, taken, done⟩ := Option.bind_eq_some_iff.mp done
    obtain ⟨middle', taken', related⟩ := matched s t a middle related taken
    obtain ⟨t', done', related⟩ := ih related done
    exact ⟨t', by rw [perform, taken', Option.bind_some, done'], related⟩

-- The guard belongs to the run and not to the step function, so that one system
-- can be studied under several assumptions about its environment.
/-- The states reached from `start` by runs whose steps all meet `guard`. -/
inductive Run (step : S → A → Option S) (guard : S → A → Prop) (start : S) : S → Prop where
  | start : Run step guard start start
  | next {s t : S} {a : A} : Run step guard start s → guard s a → step s a = some t →
      Run step guard start t

abbrev Reachable (step : S → A → Option S) (start : S) : S → Prop :=
  Run step (fun _ _ => True) start

variable {guard weaker : S → A → Prop} {start s t : S}

theorem Run.mono (run : Run step guard start s) (sub : ∀ s a, guard s a → weaker s a) :
    Run step weaker start s := by
  induction run with
  | start => exact .start
  | next _ met taken ih => exact .next ih (sub _ _ met) taken

theorem Run.reachable (run : Run step guard start s) : Reachable step start s :=
  run.mono fun _ _ _ => trivial

theorem Run.trans (first : Run step guard start s) (second : Run step guard s t) :
    Run step guard start t := by
  induction second with
  | start => exact first
  | next _ met taken ih => exact .next ih met taken

/-- What holds at the start and is kept by every guarded step holds throughout. -/
theorem Run.invariant {P : S → Prop} (run : Run step guard start s) (initial : P start)
    (kept : ∀ s a t, P s → guard s a → step s a = some t → P t) : P s := by
  induction run with
  | start => exact initial
  | next _ met taken ih => exact kept _ _ _ ih met taken

/-- As `Run.invariant`, for a property whose preservation needs facts about reached states. -/
theorem Run.invariant_of_reached {P : S → Prop} (run : Run step guard start s) (initial : P start)
    (kept : ∀ s a t, Run step guard start s → P s → guard s a → step s a = some t → P t) : P s := by
  induction run with
  | start => exact initial
  | next before met taken ih => exact kept _ _ _ before ih met taken

def Meets (step : S → A → Option S) (guard : S → A → Prop) : S → List A → Prop
  | _, [] => True
  | s, a :: rest => guard s a ∧ ∀ t, step s a = some t → Meets step guard t rest

instance decidableMeets [∀ s a, Decidable (guard s a)] :
    (actions : List A) → (s : S) → Decidable (Meets step guard s actions)
  | [], _ => isTrue trivial
  | a :: rest, s =>
    match taken : step s a with
    | none => decidable_of_iff (guard s a) ⟨fun met => ⟨met, fun _ other => by cases taken.symm.trans other⟩, And.left⟩
    | some t =>
      have := decidableMeets rest t
      decidable_of_iff (guard s a ∧ Meets step guard t rest)
        ⟨fun met => ⟨met.1, fun _ other => by cases taken.symm.trans other; exact met.2⟩,
          fun met => ⟨met.1, met.2 t taken⟩⟩

theorem Meets.of_forall (actions : List A) (met : ∀ s, ∀ a ∈ actions, guard s a) (s : S) :
    Meets step guard s actions := by
  induction actions generalizing s with
  | nil => trivial
  | cons a rest ih =>
    exact ⟨met s a List.mem_cons_self, fun t _ => ih (fun s b member => met s b (List.mem_cons_of_mem a member)) t⟩

theorem Run.of_perform (actions : List A) (start : S) (met : Meets step guard start actions)
    (done : perform step start actions = some t) : Run step guard start t := by
  induction actions generalizing start with
  | nil =>
    cases done
    exact .start
  | cons a rest ih =>
    obtain ⟨middle, taken, done⟩ := Option.bind_eq_some_iff.mp done
    exact (Run.next .start met.1 taken).trans (ih middle (met.2 middle taken) done)

theorem Reachable.of_perform (actions : List A) (start : S)
    (done : perform step start actions = some t) : Reachable step start t :=
  Run.of_perform actions start (.of_forall actions (fun _ _ _ => trivial) start) done

theorem Reachable.of_isSome (actions : List A) (start : S)
    (enabled : (perform step start actions).isSome = true) :
    Reachable step start ((perform step start actions).get enabled) :=
  .of_perform actions start (Option.some_get enabled).symm

inductive Trace {E : Type w} (step : S → A → Option S) (observe : S → A → S → List E) (start : S) :
    List E → S → Prop where
  | start : Trace step observe start [] start
  | next {seen : List E} {s t : S} {a : A} : Trace step observe start seen s → step s a = some t →
      Trace step observe start (seen ++ observe s a t) t

/-- What holds at the start of what is seen, and is kept by every step, holds of every trace. -/
theorem Trace.invariant {E : Type w} {observe : S → A → S → List E} {P : List E → S → Prop} {seen : List E}
    (trace : Trace step observe start seen s) (initial : P [] start)
    (kept : ∀ seen s a t, P seen s → step s a = some t → P (seen ++ observe s a t) t) : P seen s := by
  induction trace with
  | start => exact initial
  | next _ taken ih => exact kept _ _ _ _ ih taken

def observed {E : Type w} (step : S → A → Option S) (observe : S → A → S → List E) : S → List A → List E
  | _, [] => []
  | s, a :: rest =>
    match step s a with
    | none => []
    | some t => observe s a t ++ observed step observe t rest

theorem Trace.of_perform {E : Type w} {observe : S → A → S → List E} (actions : List A)
    (done : perform step start actions = some t) :
    Trace step observe start (observed step observe start actions) t := by
  suffices general : ∀ actions seen s, Trace step observe start seen s → perform step s actions = some t →
      Trace step observe start (seen ++ observed step observe s actions) t from
    general actions [] start .start done
  intro actions
  induction actions with
  | nil =>
    intro seen s trace done
    cases done
    rw [observed, List.append_nil]
    exact trace
  | cons a rest ih =>
    intro seen s trace done
    obtain ⟨middle, taken, done⟩ := Option.bind_eq_some_iff.mp done
    have onward := ih _ middle (trace.next taken) done
    rwa [List.append_assoc, show observe s a middle ++ observed step observe middle rest =
      observed step observe s (a :: rest) by simp only [observed, taken]] at onward

/-- When every guarded step decreases a measure, a run can be continued until none is enabled. -/
theorem exists_stuck {α : Type w} {less : α → α → Prop} (wellFounded : WellFounded less) (measure : S → α)
    {P : S → Prop} (kept : ∀ s a t, P s → guard s a → step s a = some t → P t ∧ less (measure t) (measure s))
    (s : S) (holds : P s) : ∃ t, Run step guard s t ∧ P t ∧ ∀ a, guard t a → step t a = none := by
  suffices general : ∀ value s, measure s = value → P s →
      ∃ t, Run step guard s t ∧ P t ∧ ∀ a, guard t a → step t a = none from general _ s rfl holds
  intro value
  induction value using wellFounded.induction with
  | _ value ih =>
    rintro s rfl holds
    -- Either a guarded step is possible and decreases the measure, or the run is stuck.
    by_cases enabled : ∃ a t, guard s a ∧ step s a = some t
    · obtain ⟨a, middle, met, taken⟩ := enabled
      obtain ⟨keeps, decreases⟩ := kept s a middle holds met taken
      obtain ⟨t, onward, final⟩ := ih _ decreases middle rfl keeps
      exact ⟨t, (Run.next .start met taken).trans onward, final⟩
    · refine ⟨s, .start, holds, fun a met => ?_⟩
      cases next : step s a with
      | none => rfl
      | some t => exact absurd ⟨a, t, met, next⟩ enabled

end Transition
