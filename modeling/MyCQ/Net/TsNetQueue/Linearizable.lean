import MyCQ.Foundation.Linearizability
import MyCQ.Net.TsNetQueue

/-! The thread-safe queue behaves as if every call took effect at once.

A call takes effect when it accesses the deque under `mutex_q_`; what a push does
after that, the notification, is part of no result. `wait` takes effect when it
finds the deque non-empty, however often it has slept before.
-/

set_option autoImplicit false

namespace MyCQ
open Linearizability (Event Linearizable Phase Points)

namespace QueueCall

variable {α : Type}

/-- What a call does when no other runs; `wait` does not return from an empty queue. -/
def atomically : QueueCall α → List α → Option (List α × QueueResult α)
  | .wait, dataQueue => if dataQueue.isEmpty then none else some (dataQueue, .void)
  | c, dataQueue => c.run dataQueue

end QueueCall

namespace Pc

variable {α : Type}

def phase : Pc α → Phase (QueueCall α) (QueueResult α)
  | .idle _ => .idle
  | .lockQ c | .access c => .pending c
  | .lockCond c | .notify c | .unlockCond c => .done c .void
  | .unlockQ .wait (.empty true) => .pending .wait
  | .unlockQ .wait _ => .done .wait .void
  | .unlockQ c result => .done c result
  | .waitLock | .waitBlock | .blocked | .woken | .waitUnlock => .pending .wait

theorem afterAccess_ne_idle (c : QueueCall α) (result returned : QueueResult α) :
    afterAccess c result ≠ .idle returned := by
  unfold afterAccess
  split <;> nofun

end Pc

namespace TsNetQueue

variable {ι α : Type} [DecidableEq ι] {q r : TsNetQueue ι α} {a : Action ι α} {i : ι}

def events (_ : TsNetQueue ι α) (a : Action ι α) (r : TsNetQueue ι α) :
    List (Event ι (QueueCall α) (QueueResult α)) :=
  match a with
  | .call i c => [.call i c]
  | .next i =>
    match r.threads i with
    | .idle result => [.ret i result]
    | _ => []
  | .notifyOne _ _ | .spuriousWakeUp _ => []

def phases (q : TsNetQueue ι α) (i : ι) : Phase (QueueCall α) (QueueResult α) := (q.threads i).phase

theorem phases_goto (q : TsNetQueue ι α) (i : ι) (pc : Pc α) :
    (q.goto i pc).phases = Function.update q.phases i pc.phase := by
  funext j
  by_cases same : j = i
  · subst same
    simp only [phases, goto_self, Function.update_self]
  · simp only [phases, goto_of_ne q same, Function.update_of_ne same]

theorem phases_goto_same {pc : Pc α} (same : pc.phase = (q.threads i).phase) : (q.goto i pc).phases = q.phases := by
  rw [phases_goto, same]
  exact Function.update_eq_self i q.phases

theorem phases_wake {j : ι} (asleep : q.threads j = .blocked) : (q.wake j).phases = q.phases :=
  phases_goto_same (q := { q with callerBlock := q.callerBlock.erase j }) (by simp only [asleep]; rfl)

def Explained (h : List (Event ι (QueueCall α) (QueueResult α))) (q : TsNetQueue ι α) : Prop :=
  Points QueueCall.atomically [] h q.phases q.dataQueue

/-- The access is the moment at which a call takes effect, except for a `wait` that finds nothing. -/
theorem Explained.access {h : List (Event ι (QueueCall α) (QueueResult α))} (explained : Explained h q)
    {c : QueueCall α} {dataQueue : List α} {result : QueueResult α} (pc : q.threads i = .access c)
    (ran : c.run q.dataQueue = some (dataQueue, result)) :
    Explained h ({ q with dataQueue := dataQueue }.goto i (.afterAccess c result)) := by
  have waiting : q.phases i = .pending c := by rw [phases, pc]; rfl
  have effect : ∀ value, (Pc.afterAccess c result).phase = .done c value →
      c.atomically q.dataQueue = some (dataQueue, value) →
      Explained h ({ q with dataQueue := dataQueue }.goto i (.afterAccess c result)) := by
    intro value finished performed
    rw [Explained, phases_goto, finished]
    exact Points.effect explained waiting performed
  cases c with
  | wait =>
    cases ran
    by_cases nothing : q.dataQueue.isEmpty = true
    · have same : (Pc.afterAccess .wait (.empty q.dataQueue.isEmpty)).phase = (q.threads i).phase := by
        rw [nothing, pc]
        rfl
      rw [Explained, phases_goto_same (q := { q with dataQueue := q.dataQueue }) same]
      exact explained
    · have some : q.dataQueue.isEmpty = false := (Bool.not_eq_true _).mp nothing
      apply effect .void
      · rw [some]
        rfl
      · rw [QueueCall.atomically, if_neg nothing]
  | pushBack value =>
    cases ran
    exact effect .void rfl rfl
  | pushFront value =>
    cases ran
    exact effect .void rfl rfl
  | front => exact effect result rfl ran
  | back => exact effect result rfl ran
  | isEmpty => exact effect result rfl ran
  | count => exact effect result rfl ran
  | clear => exact effect result rfl ran
  | popFront => exact effect result rfl ran
  | popBack => exact effect result rfl ran

theorem Explained.unlockQ {h : List (Event ι (QueueCall α) (QueueResult α))} (explained : Explained h q)
    {c : QueueCall α} {result : QueueResult α} (pc : q.threads i = .unlockQ c result) :
    Explained (h ++ events q (.next i) ({ q with mutexQ := none }.goto i (.afterUnlock c result)))
      ({ q with mutexQ := none }.goto i (.afterUnlock c result)) := by
  have returns : ∀ value, q.phases i = .done c value → Pc.afterUnlock c result = .idle value →
      Explained (h ++ events q (.next i) ({ q with mutexQ := none }.goto i (.afterUnlock c result)))
        ({ q with mutexQ := none }.goto i (.afterUnlock c result)) := by
    intro value finished idle
    rw [idle, Explained, phases_goto]
    simp only [events, goto_self]
    exact Points.ret explained finished
  cases c with
  | wait =>
    by_cases nothing : result = .empty true
    · subst nothing
      have same : (Pc.afterUnlock .wait (.empty true)).phase = (q.threads i).phase := by rw [pc]; rfl
      have silent : events q (.next i) ({ q with mutexQ := none }.goto i (.afterUnlock .wait (.empty true))) = [] := by
        simp only [events, goto_self, Pc.afterUnlock]
      rw [silent, List.append_nil, Explained, phases_goto_same (q := { q with mutexQ := none }) same]
      exact explained
    · apply returns .void
      · rw [phases, pc]
        cases result with
        | empty flag =>
          cases flag with
          | true => exact absurd rfl nothing
          | false => rfl
        | _ => rfl
      · cases result with
        | empty flag =>
          cases flag with
          | true => exact absurd rfl nothing
          | false => rfl
        | _ => rfl
  | _ => exact returns result (by rw [phases, pc]; rfl) rfl

theorem Explained.step {h : List (Event ι (QueueCall α) (QueueResult α))} (explained : Explained h q)
    (agree : LocksAgree q) (taken : q.step a = some r) : Explained (h ++ events q a r) r := by
  -- Most steps change nothing that a call or a result shows.
  have hidden : ∀ {r : TsNetQueue ι α} {j : ι} {pc : Pc α}, r.phases = q.phases → r.dataQueue = q.dataQueue →
      pc.phase = r.phases j → (∀ result, pc ≠ .idle result) →
      Explained (h ++ events q (.next j) (r.goto j pc)) (r.goto j pc) := by
    intro r j pc phases dataQueue same active
    have silent : events q (.next j) (r.goto j pc) = [] := by
      -- The step leads to no idle state, so `active` decides the match.
      simp only [events, goto_self]
    rw [silent, List.append_nil, Explained, phases_goto_same same, phases]
    exact dataQueue ▸ explained
  cases step_cases taken with
  | call i c returned pc =>
    rw [Explained, phases_goto]
    exact Points.call explained i c
  | lockQ i c pc => exact hidden rfl rfl (by rw [phases, pc]; rfl) nofun
  | access i c dataQueue result pc ran =>
    have silent : events q (.next i) ({ q with dataQueue := dataQueue }.goto i (.afterAccess c result)) = [] := by
      simp only [events, goto_self]
      split
      · next result' idle => exact absurd idle (Pc.afterAccess_ne_idle c result result')
      · rfl
    rw [silent, List.append_nil]
    exact explained.access pc ran
  | lockCond i c pc => exact hidden rfl rfl (by rw [phases, pc]; rfl) nofun
  | unlockCond i c pc => exact hidden rfl rfl (by rw [phases, pc]; cases c <;> rfl) nofun
  | unlockQ i c result pc => exact explained.unlockQ pc
  | waitLock i pc => exact hidden rfl rfl (by rw [phases, pc]; rfl) nofun
  | waitBlock i pc => exact hidden rfl rfl (by rw [phases, pc]; rfl) nofun
  | woken i pc => exact hidden rfl rfl (by rw [phases, pc]; rfl) nofun
  | waitUnlock i pc => exact hidden rfl rfl (by rw [phases, pc]; rfl) nofun
  | notifyNone i c pc =>
    rw [events, List.append_nil, Explained, phases_goto_same (by rw [pc]; rfl)]
    exact explained
  | notifySome i j c pc waiting =>
    rw [events, List.append_nil, Explained, phases_goto_same (by rw [agree.notified pc waiting]; rfl),
      phases_wake (agree.blocked waiting)]
    exact explained
  | spuriousWakeUp i waiting =>
    rw [events, List.append_nil, Explained, phases_wake (agree.blocked waiting)]
    exact explained

/-- Whatever threads call, in every interleaving of their steps. -/
theorem queue_linearizable {h : List (Event ι (QueueCall α) (QueueResult α))}
    (run : Transition.Trace step events (initial : TsNetQueue ι α) h q) :
    Linearizable QueueCall.atomically [] h := by
  have both := run.invariant (P := fun h q => Explained h q ∧ LocksAgree q)
    ⟨Linearizability.points_start [], locksAgree_initial⟩
    fun _ _ _ _ ⟨explained, agree⟩ taken => ⟨explained.step agree taken, agree.step taken⟩
  exact both.1.linearizable

def sleepingConsumer : List (Action Bool Nat) :=
  .call false .wait :: List.replicate 5 (.next false) ++ .call true (.pushBack 7) :: List.replicate 3 (.next true) ++
    .notifyOne true (some false) :: List.replicate 2 (.next true) ++ List.replicate 5 (.next false) ++
    .call false .popFront :: List.replicate 3 (.next false)

theorem queue_linearizable_sleepingConsumer : Linearizable QueueCall.atomically []
    (Transition.observed step events (initial : TsNetQueue Bool Nat) sleepingConsumer) :=
  queue_linearizable (.of_perform sleepingConsumer (Option.some_get (by decide)).symm)

example : Transition.observed step events (initial : TsNetQueue Bool Nat) sleepingConsumer =
    [.call false .wait, .call true (.pushBack 7), .ret true .void, .ret false .void, .call false .popFront,
      .ret false (.element 7)] := by
  decide

end TsNetQueue
end MyCQ
