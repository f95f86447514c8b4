import MyCQ.Foundation.Monitor
import MyCQ.Foundation.Transition

/-! The thread-safe queue, at the granularity of its locks.

A member function runs as a sequence of atomic steps: taking and releasing the
two mutexes, the access to the deque, the notification and the suspension. The
threads interleave in any order, and each may call any function any number of
times.
-/

set_option autoImplicit false

namespace MyCQ

inductive QueueCall (α : Type) where
  | front
  | back
  | pushBack (inputElement : α)
  | pushFront (inputElement : α)
  | isEmpty
  | count
  | clear
  | popFront
  | popBack
  | wait
  deriving DecidableEq, Repr

inductive QueueResult (α : Type) where
  | void
  | element (value : α)
  | empty (flag : Bool)
  | size (number : Nat)
  deriving DecidableEq, Repr

namespace QueueCall

variable {α : Type}

/-- What a function does to the deque while it holds `mutex_q_`; `wait` calls `isEmpty`. Access to
the ends of an empty deque is undefined and has no result. -/
def run : QueueCall α → List α → Option (List α × QueueResult α)
  | .front, dataQueue => dataQueue.head?.map fun value => (dataQueue, .element value)
  | .back, dataQueue => dataQueue.getLast?.map fun value => (dataQueue, .element value)
  | .pushBack inputElement, dataQueue => some (dataQueue ++ [inputElement], .void)
  | .pushFront inputElement, dataQueue => some (inputElement :: dataQueue, .void)
  | .isEmpty, dataQueue | .wait, dataQueue => some (dataQueue, .empty dataQueue.isEmpty)
  | .count, dataQueue => some (dataQueue, .size dataQueue.length)
  | .clear, _ => some ([], .void)
  | .popFront, dataQueue => dataQueue.head?.map fun value => (dataQueue.tail, .element value)
  | .popBack, dataQueue => dataQueue.getLast?.map fun value => (dataQueue.dropLast, .element value)

def isPush : QueueCall α → Bool
  | .pushBack _ | .pushFront _ => true
  | _ => false

theorem run_ne_nil {c : QueueCall α} {dataQueue after : List α} {result : QueueResult α}
    (ran : c.run dataQueue = some (after, result)) (other : c.isPush = false) (some : after ≠ []) :
    dataQueue ≠ [] := by
  rintro rfl
  cases c <;> cases ran
  · cases other
  · cases other
  all_goals exact some rfl

end QueueCall

/-- Where a thread is, named after the step it takes next. -/
inductive Pc (α : Type) where
  | idle (returned : QueueResult α)
  | lockQ (c : QueueCall α)
  | access (c : QueueCall α)
  | lockCond (c : QueueCall α)
  | notify (c : QueueCall α)
  | unlockCond (c : QueueCall α)
  | unlockQ (c : QueueCall α) (result : QueueResult α)
  | waitLock
  | waitBlock
  | blocked
  | woken
  | waitUnlock
  deriving DecidableEq, Repr

namespace Pc

variable {α : Type}

def holdsQ : Pc α → Bool
  | .access _ | .lockCond _ | .notify _ | .unlockCond _ | .unlockQ _ _ => true
  | _ => false

def holdsCond : Pc α → Bool
  | .notify _ | .unlockCond _ | .waitBlock | .waitUnlock => true
  | _ => false

def isBlocked : Pc α → Bool
  | .blocked => true
  | _ => false

def afterAccess (c : QueueCall α) (result : QueueResult α) : Pc α :=
  if c.isPush then .lockCond c else .unlockQ c result

/-- After the critical section the call returns, except for a `wait` that has found the queue empty. -/
def afterUnlock : QueueCall α → QueueResult α → Pc α
  | .wait, .empty true => .waitLock
  | .wait, _ => .idle .void
  | _, result => .idle result

theorem holdsQ_afterAccess (c : QueueCall α) (result : QueueResult α) : (afterAccess c result).holdsQ = true := by
  unfold afterAccess
  split <;> rfl

theorem holdsCond_afterAccess (c : QueueCall α) (result : QueueResult α) :
    (afterAccess c result).holdsCond = false := by
  unfold afterAccess
  split <;> rfl

theorem isBlocked_afterAccess (c : QueueCall α) (result : QueueResult α) :
    (afterAccess c result).isBlocked = false := by
  unfold afterAccess
  split <;> rfl

theorem afterUnlock_free (c : QueueCall α) (result : QueueResult α) :
    (afterUnlock c result).holdsQ = false ∧ (afterUnlock c result).holdsCond = false ∧
      (afterUnlock c result).isBlocked = false := by
  unfold afterUnlock
  split <;> exact ⟨rfl, rfl, rfl⟩

end Pc

-- A mutex records its owner; a thread that finds it taken has no step until it is
-- released. Sleeping threads are recorded by the condition variable.
structure TsNetQueue (ι α : Type) where
  mutexQ : Option ι
  dataQueue : List α
  callerBlock : Finset ι
  mtxCallerBlock : Option ι
  threads : ι → Pc α

namespace TsNetQueue

variable {ι α : Type} [DecidableEq ι]

def initial : TsNetQueue ι α := ⟨none, [], ∅, none, fun _ => .idle .void⟩

inductive Action (ι α : Type) where
  | call (i : ι) (c : QueueCall α)
  | next (i : ι)
  -- `notify_one`; the operating system chooses which suspended thread is woken.
  | notifyOne (i : ι) (target : Option ι)
  | spuriousWakeUp (i : ι)
  deriving DecidableEq, Repr

def goto (q : TsNetQueue ι α) (i : ι) (pc : Pc α) : TsNetQueue ι α :=
  { q with threads := Function.update q.threads i pc }

@[simp] theorem goto_self (q : TsNetQueue ι α) (i : ι) (pc : Pc α) : (q.goto i pc).threads i = pc := by
  simp only [goto, Function.update_self]

theorem goto_of_ne (q : TsNetQueue ι α) {i j : ι} (apart : j ≠ i) (pc : Pc α) :
    (q.goto i pc).threads j = q.threads j := by
  simp only [goto, Function.update_of_ne apart]

-- The locks of a function are released in the reverse order of their construction.
def next (q : TsNetQueue ι α) (i : ι) : Option (TsNetQueue ι α) :=
  match q.threads i with
  | .lockQ c => if q.mutexQ = none then some ({ q with mutexQ := some i }.goto i (.access c)) else none
  | .access c => (c.run q.dataQueue).map fun result =>
    { q with dataQueue := result.1 }.goto i (.afterAccess c result.2)
  | .lockCond c =>
    if q.mtxCallerBlock = none then some ({ q with mtxCallerBlock := some i }.goto i (.notify c)) else none
  | .unlockCond c => some ({ q with mtxCallerBlock := none }.goto i (.unlockQ c .void))
  | .unlockQ c result => some ({ q with mutexQ := none }.goto i (.afterUnlock c result))
  | .waitLock =>
    if q.mtxCallerBlock = none then some ({ q with mtxCallerBlock := some i }.goto i .waitBlock) else none
  | .waitBlock =>
    some ({ q with mtxCallerBlock := none, callerBlock := insert i q.callerBlock }.goto i .blocked)
  | .woken =>
    if q.mtxCallerBlock = none then some ({ q with mtxCallerBlock := some i }.goto i .waitUnlock) else none
  | .waitUnlock => some ({ q with mtxCallerBlock := none }.goto i (.lockQ .wait))
  | .idle _ | .notify _ | .blocked => none

def wake (q : TsNetQueue ι α) (i : ι) : TsNetQueue ι α :=
  { q with callerBlock := q.callerBlock.erase i }.goto i .woken

def step (q : TsNetQueue ι α) : Action ι α → Option (TsNetQueue ι α)
  | .call i c =>
    match q.threads i with
    | .idle _ => some (q.goto i (.lockQ c))
    | _ => none
  | .next i => q.next i
  | .notifyOne i target =>
    match q.threads i, target with
    -- With nobody waiting, the notification has no effect and is not remembered.
    | .notify c, none => if q.callerBlock = ∅ then some (q.goto i (.unlockCond c)) else none
    | .notify c, some j => if j ∈ q.callerBlock then some ((q.wake j).goto i (.unlockCond c)) else none
    | _, _ => none
  | .spuriousWakeUp i => if i ∈ q.callerBlock then some (q.wake i) else none

inductive StepCases (q : TsNetQueue ι α) : Action ι α → TsNetQueue ι α → Prop where
  | call (i : ι) (c : QueueCall α) (returned : QueueResult α) : q.threads i = .idle returned →
      StepCases q (.call i c) (q.goto i (.lockQ c))
  | lockQ (i : ι) (c : QueueCall α) : q.threads i = .lockQ c → q.mutexQ = none →
      StepCases q (.next i) ({ q with mutexQ := some i }.goto i (.access c))
  | access (i : ι) (c : QueueCall α) (dataQueue : List α) (result : QueueResult α) :
      q.threads i = .access c → c.run q.dataQueue = some (dataQueue, result) →
      StepCases q (.next i) ({ q with dataQueue := dataQueue }.goto i (.afterAccess c result))
  | lockCond (i : ι) (c : QueueCall α) : q.threads i = .lockCond c → q.mtxCallerBlock = none →
      StepCases q (.next i) ({ q with mtxCallerBlock := some i }.goto i (.notify c))
  | unlockCond (i : ι) (c : QueueCall α) : q.threads i = .unlockCond c →
      StepCases q (.next i) ({ q with mtxCallerBlock := none }.goto i (.unlockQ c .void))
  | unlockQ (i : ι) (c : QueueCall α) (result : QueueResult α) : q.threads i = .unlockQ c result →
      StepCases q (.next i) ({ q with mutexQ := none }.goto i (.afterUnlock c result))
  | waitLock (i : ι) : q.threads i = .waitLock → q.mtxCallerBlock = none →
      StepCases q (.next i) ({ q with mtxCallerBlock := some i }.goto i .waitBlock)
  | waitBlock (i : ι) : q.threads i = .waitBlock →
      StepCases q (.next i)
        ({ q with mtxCallerBlock := none, callerBlock := insert i q.callerBlock }.goto i .blocked)
  | woken (i : ι) : q.threads i = .woken → q.mtxCallerBlock = none →
      StepCases q (.next i) ({ q with mtxCallerBlock := some i }.goto i .waitUnlock)
  | waitUnlock (i : ι) : q.threads i = .waitUnlock →
      StepCases q (.next i) ({ q with mtxCallerBlock := none }.goto i (.lockQ .wait))
  | notifyNone (i : ι) (c : QueueCall α) : q.threads i = .notify c → q.callerBlock = ∅ →
      StepCases q (.notifyOne i none) (q.goto i (.unlockCond c))
  | notifySome (i j : ι) (c : QueueCall α) : q.threads i = .notify c → j ∈ q.callerBlock →
      StepCases q (.notifyOne i (some j)) ((q.wake j).goto i (.unlockCond c))
  | spuriousWakeUp (i : ι) : i ∈ q.callerBlock → StepCases q (.spuriousWakeUp i) (q.wake i)

theorem step_cases {q r : TsNetQueue ι α} {a : Action ι α} (taken : q.step a = some r) : StepCases q a r := by
  cases a with
  | call i c =>
    simp only [step] at taken
    split at taken
    · next returned pc =>
      cases taken
      exact .call i c returned pc
    · cases taken
  | next i =>
    simp only [step, next] at taken
    split at taken
    · next c pc =>
      obtain ⟨free, same⟩ := Option.ite_none_right_eq_some.mp taken
      cases same
      exact .lockQ i c pc free
    · next c pc =>
      obtain ⟨⟨dataQueue, result⟩, ran, rfl⟩ := Option.map_eq_some_iff.mp taken
      exact .access i c dataQueue result pc ran
    · next c pc =>
      obtain ⟨free, same⟩ := Option.ite_none_right_eq_some.mp taken
      cases same
      exact .lockCond i c pc free
    · next c pc =>
      cases taken
      exact .unlockCond i c pc
    · next c result pc =>
      cases taken
      exact .unlockQ i c result pc
    · next pc =>
      obtain ⟨free, same⟩ := Option.ite_none_right_eq_some.mp taken
      cases same
      exact .waitLock i pc free
    · next pc =>
      cases taken
      exact .waitBlock i pc
    · next pc =>
      obtain ⟨free, same⟩ := Option.ite_none_right_eq_some.mp taken
      cases same
      exact .woken i pc free
    · next pc =>
      cases taken
      exact .waitUnlock i pc
    · cases taken
    · cases taken
    · cases taken
  | notifyOne i target =>
    simp only [step] at taken
    split at taken
    · next c pc =>
      obtain ⟨nobody, same⟩ := Option.ite_none_right_eq_some.mp taken
      cases same
      exact .notifyNone i c pc nobody
    · next c j pc =>
      obtain ⟨waiting, same⟩ := Option.ite_none_right_eq_some.mp taken
      cases same
      exact .notifySome i j c pc waiting
    · cases taken
  | spuriousWakeUp i =>
    obtain ⟨waiting, same⟩ := Option.ite_none_right_eq_some.mp taken
    cases same
    exact .spuriousWakeUp i waiting

structure LocksAgree (q : TsNetQueue ι α) : Prop where
  ownsQ : Monitor.Owned Pc.holdsQ q.mutexQ q.threads
  ownsCond : Monitor.Owned Pc.holdsCond q.mtxCallerBlock q.threads
  suspended : Monitor.Suspended Pc.isBlocked q.callerBlock q.threads

omit [DecidableEq ι] in
theorem locksAgree_initial : LocksAgree (initial : TsNetQueue ι α) where
  ownsQ _ := iff_of_false Bool.false_ne_true (Option.some_ne_none _).symm
  ownsCond _ := iff_of_false Bool.false_ne_true (Option.some_ne_none _).symm
  suspended _ := iff_of_false Bool.false_ne_true (Finset.notMem_empty _)

omit [DecidableEq ι] in
theorem LocksAgree.blocked {q : TsNetQueue ι α} (agree : LocksAgree q) {i : ι} (waiting : i ∈ q.callerBlock) :
    q.threads i = .blocked := by
  have asleep := (agree.suspended i).mpr waiting
  cases pc : q.threads i <;> rw [pc] at asleep <;> first | rfl | cases asleep

theorem LocksAgree.wake {q : TsNetQueue ι α} (agree : LocksAgree q) {i : ι} (waiting : i ∈ q.callerBlock) :
    LocksAgree (q.wake i) where
  ownsQ := agree.ownsQ.keep (agree.blocked waiting) rfl
  ownsCond := agree.ownsCond.keep (agree.blocked waiting) rfl
  suspended := agree.suspended.wake rfl

/-- A notification wakes a thread other than the one that issues it. -/
theorem LocksAgree.notified {q : TsNetQueue ι α} (agree : LocksAgree q) {i j : ι} {c : QueueCall α}
    (pc : q.threads i = .notify c) (waiting : j ∈ q.callerBlock) : (q.wake j).threads i = .notify c := by
  have apart : i ≠ j := by
    rintro rfl
    rw [agree.blocked waiting] at pc
    cases pc
  exact (goto_of_ne _ apart _).trans pc

theorem LocksAgree.step {q r : TsNetQueue ι α} {a : Action ι α} (agree : LocksAgree q)
    (taken : q.step a = some r) : LocksAgree r := by
  obtain ⟨ownsQ, ownsCond, suspended⟩ := agree
  cases step_cases taken with
  | call i c returned pc => exact ⟨ownsQ.keep pc rfl, ownsCond.keep pc rfl, suspended.keep pc rfl⟩
  | lockQ i c pc free => exact ⟨ownsQ.acquire free rfl, ownsCond.keep pc rfl, suspended.keep pc rfl⟩
  | access i c dataQueue result pc =>
    refine ⟨ownsQ.keep pc ?_, ownsCond.keep pc ?_, suspended.keep pc ?_⟩
    · exact Pc.holdsQ_afterAccess c result
    · exact Pc.holdsCond_afterAccess c result
    · exact Pc.isBlocked_afterAccess c result
  | lockCond i c pc free => exact ⟨ownsQ.keep pc rfl, ownsCond.acquire free rfl, suspended.keep pc rfl⟩
  | unlockCond i c pc => exact ⟨ownsQ.keep pc rfl, ownsCond.release pc rfl rfl, suspended.keep pc rfl⟩
  | unlockQ i c result pc =>
    obtain ⟨leftQ, leftCond, awake⟩ := Pc.afterUnlock_free c result
    exact ⟨ownsQ.release pc rfl leftQ, ownsCond.keep pc leftCond, suspended.keep pc awake⟩
  | waitLock i pc free => exact ⟨ownsQ.keep pc rfl, ownsCond.acquire free rfl, suspended.keep pc rfl⟩
  | waitBlock i pc => exact ⟨ownsQ.keep pc rfl, ownsCond.release pc rfl rfl, suspended.suspend rfl⟩
  | woken i pc free => exact ⟨ownsQ.keep pc rfl, ownsCond.acquire free rfl, suspended.keep pc rfl⟩
  | waitUnlock i pc => exact ⟨ownsQ.keep pc rfl, ownsCond.release pc rfl rfl, suspended.keep pc rfl⟩
  | notifyNone i c pc => exact ⟨ownsQ.keep pc rfl, ownsCond.keep pc rfl, suspended.keep pc rfl⟩
  | notifySome i j c pc waiting =>
    have agree : LocksAgree q := ⟨ownsQ, ownsCond, suspended⟩
    have pc := agree.notified pc waiting
    obtain ⟨ownsQ, ownsCond, suspended⟩ := agree.wake waiting
    exact ⟨ownsQ.keep pc rfl, ownsCond.keep pc rfl, suspended.keep pc rfl⟩
  | spuriousWakeUp i waiting => exact LocksAgree.wake ⟨ownsQ, ownsCond, suspended⟩ waiting

end TsNetQueue
end MyCQ
