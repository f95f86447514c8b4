import Mathlib.Data.Fintype.Order
import MyCQ.Foundation.LockOrder
import MyCQ.Net.TsNetQueue

/-! That the threads of a queue never block each other on its two mutexes.

A push takes `mtx_caller_block` while it holds `mutex_q_`; every other function
holds one mutex at a time. So the mutexes are always taken in the same order,
and whoever waits for one waits in the end for a thread that can go on.
-/

set_option autoImplicit false

namespace MyCQ

inductive QueueMutex where
  | mutexQ
  | mtxCallerBlock
  deriving DecidableEq, Repr

namespace QueueMutex

def rank : QueueMutex → Fin 2
  | mutexQ => 0
  | mtxCallerBlock => 1

instance : Preorder QueueMutex := .lift rank

instance : WellFoundedGT QueueMutex := ⟨InvImage.wf rank wellFounded_gt⟩

end QueueMutex

namespace QueueCall

variable {α : Type}

def usesEnd : QueueCall α → Bool
  | .front | .back | .popFront | .popBack => true
  | _ => false

theorem exists_run (c : QueueCall α) (dataQueue : List α) (present : c.usesEnd = true → dataQueue ≠ []) :
    ∃ result, c.run dataQueue = some result := by
  cases dataQueue with
  | nil => cases c <;> first | exact absurd rfl (present rfl) | exact ⟨_, rfl⟩
  | cons first rest => cases c <;> exact ⟨_, rfl⟩

end QueueCall

namespace Pc

variable {α : Type}

def requests : Pc α → Option QueueMutex
  | .lockQ _ => some .mutexQ
  | .lockCond _ | .waitLock | .woken => some .mtxCallerBlock
  | _ => none

def holds (pc : Pc α) : QueueMutex → Bool
  | .mutexQ => pc.holdsQ
  | .mtxCallerBlock => pc.holdsCond

/-- A thread asks for no mutex below one that it holds. -/
theorem ascending {pc : Pc α} {held requested : QueueMutex} (holds : pc.holds held = true)
    (requests : pc.requests = some requested) : held < requested := by
  cases pc with
  | lockCond c =>
    cases requests
    cases held with
    | mutexQ => exact (by decide : QueueMutex.rank .mutexQ < QueueMutex.rank .mtxCallerBlock)
    | mtxCallerBlock => cases holds
  | lockQ c => cases held <;> cases holds
  | waitLock => cases held <;> cases holds
  | woken => cases held <;> cases holds
  | _ => cases requests

end Pc

namespace TsNetQueue

variable {ι α : Type} [DecidableEq ι] {q : TsNetQueue ι α} {i : ι}

def holder (q : TsNetQueue ι α) : QueueMutex → Option ι
  | .mutexQ => q.mutexQ
  | .mtxCallerBlock => q.mtxCallerBlock

def WaitsFor (q : TsNetQueue ι α) : ι → ι → Prop :=
  LockOrder.WaitsFor (fun i => (q.threads i).requests) q.holder

def Action.thread : Action ι α → ι
  | .call i _ | .next i | .notifyOne i _ | .spuriousWakeUp i => i

def CanStep (q : TsNetQueue ι α) (i : ι) : Prop := ∃ a, a.thread = i ∧ (q.step a).isSome = true

def Holds (q : TsNetQueue ι α) (i : ι) : Prop := ∃ lock, q.holder lock = some i

def CanTake (q : TsNetQueue ι α) (i : ι) : Prop :=
  ∃ lock, (q.threads i).requests = some lock ∧ q.holder lock = none

def EndPresent (q : TsNetQueue ι α) (i : ι) : Prop :=
  ∀ c, q.threads i = .access c → c.usesEnd = true → q.dataQueue ≠ []

omit [DecidableEq ι] in
theorem LocksAgree.holds_iff (agree : LocksAgree q) (i : ι) (lock : QueueMutex) :
    (q.threads i).holds lock = true ↔ q.holder lock = some i := by
  cases lock with
  | mutexQ => exact agree.ownsQ i
  | mtxCallerBlock => exact agree.ownsCond i

omit [DecidableEq ι] in
theorem LocksAgree.ascending (agree : LocksAgree q) :
    LockOrder.Ascending (fun i => (q.threads i).requests) q.holder := by
  intro i held requested holds requests
  exact Pc.ascending ((agree.holds_iff i held).mpr holds) requests

/-- A thread in the middle of a function that waits for no other thread has a step. -/
theorem canStep_of_free (free : ∀ lock, (q.threads i).requests = some lock → q.holder lock = none)
    (inside : (∃ lock, (q.threads i).holds lock = true) ∨ ∃ lock, (q.threads i).requests = some lock)
    (present : q.EndPresent i) : q.CanStep i := by
  have unlockedQ (requested : (q.threads i).requests = some .mutexQ) : q.mutexQ = none := free _ requested
  have unlockedCond (requested : (q.threads i).requests = some .mtxCallerBlock) : q.mtxCallerBlock = none :=
    free _ requested
  cases pc : q.threads i with
  | lockQ c => exact ⟨.next i, rfl, by simp [step, next, pc, unlockedQ (by rw [pc]; rfl)]⟩
  | access c =>
    obtain ⟨result, ran⟩ := c.exists_run q.dataQueue (present c pc)
    exact ⟨.next i, rfl, by simp [step, next, pc, ran]⟩
  | lockCond c => exact ⟨.next i, rfl, by simp [step, next, pc, unlockedCond (by rw [pc]; rfl)]⟩
  | notify c =>
    by_cases nobody : q.callerBlock = ∅
    · exact ⟨.notifyOne i none, rfl, by simp [step, pc, nobody]⟩
    · obtain ⟨j, waiting⟩ := Finset.nonempty_iff_ne_empty.mpr nobody
      exact ⟨.notifyOne i (some j), rfl, by simp [step, pc, waiting]⟩
  | unlockCond c => exact ⟨.next i, rfl, by simp [step, next, pc]⟩
  | unlockQ c result => exact ⟨.next i, rfl, by simp [step, next, pc]⟩
  | waitLock => exact ⟨.next i, rfl, by simp [step, next, pc, unlockedCond (by rw [pc]; rfl)]⟩
  | waitBlock => exact ⟨.next i, rfl, by simp [step, next, pc]⟩
  | woken => exact ⟨.next i, rfl, by simp [step, next, pc, unlockedCond (by rw [pc]; rfl)]⟩
  | waitUnlock => exact ⟨.next i, rfl, by simp [step, next, pc]⟩
  | idle returned | blocked =>
    -- Outside of the queue and asleep, a thread neither holds nor requests a mutex.
    rw [pc] at inside
    rcases inside with ⟨lock, holds⟩ | ⟨lock, requests⟩
    · cases lock <;> cases holds
    · cases requests

structure DeadlockFree (q : TsNetQueue ι α) : Prop where
  suspended : ∀ i lock, q.threads i = .blocked → q.holder lock ≠ some i
  acyclic : ∀ i, ¬ Relation.TransGen q.WaitsFor i i
  notMutual : ∀ threads : Set ι, threads.Nonempty → ∃ i ∈ threads, ∀ j ∈ threads, ¬ q.WaitsFor i j
  progress : ∀ i lock, (q.threads i).requests = some lock →
    ∃ j, Relation.ReflTransGen q.WaitsFor i j ∧ (q.Holds j ∨ q.CanTake j) ∧ (q.EndPresent j → q.CanStep j)

theorem LocksAgree.deadlockFree (agree : LocksAgree q) : DeadlockFree q where
  suspended i lock asleep held := by
    have holds := (agree.holds_iff i lock).mpr held
    rw [asleep] at holds
    cases lock <;> cases holds
  acyclic := agree.ascending.acyclic
  notMutual _ nonempty := agree.ascending.exists_not_waitsFor nonempty
  progress i lock requested := by
    obtain ⟨j, chain, alone⟩ := agree.ascending.exists_end i
    have free := LockOrder.not_waitsFor_iff.mp alone
    refine ⟨j, chain, ?_⟩
    rcases Relation.ReflTransGen.cases_tail chain with same | ⟨k, _, above, _, held⟩
    · subst same
      refine ⟨Or.inr ⟨lock, requested, free lock requested⟩, canStep_of_free free (Or.inr ⟨lock, requested⟩)⟩
    · have holds := (agree.holds_iff j above).mpr held
      exact ⟨Or.inl ⟨above, held⟩, canStep_of_free free (Or.inl ⟨above, holds⟩)⟩

/-- In every state that any number of threads can reach, in any order of their steps. -/
theorem deadlock_free (run : Transition.Reachable step (initial : TsNetQueue ι α) q) : DeadlockFree q :=
  (run.invariant locksAgree_initial fun _ _ _ agree _ taken => agree.step taken).deadlockFree

/-- A push holds the first mutex and waits for the second, another waits for the first, and a consumer
that was woken holds the second. -/
def contendedRun : List (Action (Fin 3) Nat) :=
  [.call 0 .wait, .next 0, .next 0, .next 0, .next 0, .next 0, .spuriousWakeUp 0,
    .call 1 (.pushBack 7), .call 2 (.pushFront 8), .next 1, .next 1, .next 0]

theorem contendedRun_enabled : (Transition.perform step initial contendedRun).isSome = true := by decide

theorem deadlock_free_contendedRun :
    DeadlockFree ((Transition.perform step initial contendedRun).get contendedRun_enabled) :=
  deadlock_free (.of_isSome contendedRun initial contendedRun_enabled)

end TsNetQueue
end MyCQ
