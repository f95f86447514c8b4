import Mathlib.Data.Fintype.Basic
import MyCQ.Net.TsNetQueue

/-! Whether a consumer that waits misses a wake-up.

`wait` tests for emptiness under one mutex and goes to sleep under another.
Between the two it holds neither, and a notification issued there is lost. In
runs without such a notification the consumer never sleeps on a non-empty queue
for which no notification is to come.
-/

set_option autoImplicit false

namespace MyCQ

namespace Pc

variable {α : Type}

def inWait : Pc α → Bool
  | .lockQ .wait | .access .wait | .lockCond .wait | .notify .wait | .unlockCond .wait | .unlockQ .wait _ => true
  | .waitLock | .waitBlock | .blocked | .woken | .waitUnlock => true
  | _ => false

def hasSeenEmpty : Pc α → Bool
  | .unlockQ .wait (.empty true) | .waitLock | .waitBlock | .blocked => true
  | _ => false

def hasPushed : Pc α → Bool
  | .lockCond _ | .notify _ => true
  | _ => false

def willNotify : Pc α → Bool
  | .lockQ c | .access c => c.isPush
  | .lockCond _ | .notify _ => true
  | _ => false

theorem willNotify_of_hasPushed {pc : Pc α} (pushed : pc.hasPushed = true) : pc.willNotify = true := by
  cases pc <;> first | rfl | cases pushed

structure Quiet (before after : Pc α) : Prop where
  inWait : after.inWait = true → before.inWait = true
  hasSeenEmpty : after.hasSeenEmpty = true → before.hasSeenEmpty = true
  hasPushed : before.hasPushed = true → after.hasPushed = true

theorem quiet_lockQ (c : QueueCall α) : Quiet (.lockQ c) (.access c) := by
  cases c <;> constructor <;> exact id

theorem quiet_lockCond (c : QueueCall α) : Quiet (.lockCond c) (.notify c) := by
  cases c <;> constructor <;> exact id

theorem quiet_unlockCond (c : QueueCall α) : Quiet (.unlockCond c) (.unlockQ c .void) := by
  cases c <;> constructor <;> exact id

theorem quiet_unlockQ (c : QueueCall α) (result : QueueResult α) :
    Quiet (.unlockQ c result) (.afterUnlock c result) := by
  unfold afterUnlock
  split
  · exact ⟨fun _ => rfl, fun _ => rfl, id⟩
  · exact ⟨fun _ => rfl, Bool.noConfusion, id⟩
  · exact ⟨Bool.noConfusion, Bool.noConfusion, id⟩

theorem inWait_afterAccess {c : QueueCall α} {result : QueueResult α}
    (waits : (afterAccess c result).inWait = true) : (Pc.access c).inWait = true := by
  cases c <;> first | rfl | cases waits

theorem hasSeenEmpty_afterAccess {c : QueueCall α} {dataQueue after : List α} {result : QueueResult α}
    (ran : c.run dataQueue = some (after, result)) (seen : (afterAccess c result).hasSeenEmpty = true) :
    after = [] := by
  cases c with
  | wait =>
    obtain ⟨rfl, rfl⟩ := Prod.mk.inj (Option.some.inj ran)
    cases found : dataQueue with
    | nil => rfl
    | cons first rest =>
      rw [found] at seen
      cases seen
  | _ => cases seen

end Pc

namespace TsNetQueue

variable {ι α : Type} [DecidableEq ι] {consumer : ι} {q r : TsNetQueue ι α}

def OneConsumer (consumer : ι) : Action ι α → Prop
  | .call i .wait => i = consumer
  | _ => True

/-- No notification is issued while the consumer is between its test and the mutex it sleeps under. -/
def NotifiesOutside (consumer : ι) (q : TsNetQueue ι α) : Action ι α → Prop
  | .notifyOne _ _ => q.threads consumer ≠ .waitLock
  | _ => True

-- A push that still waits for a mutex counts as in progress.
/-- A consumer suspended on a non-empty queue is going to be notified by a push in progress. -/
def NoMissedWakeUp (consumer : ι) (q : TsNetQueue ι α) : Prop :=
  q.threads consumer = .blocked → q.dataQueue ≠ [] → ∃ i, (q.threads i).willNotify = true

structure WakeUpInvariant (consumer : ι) (q : TsNetQueue ι α) : Prop where
  agree : LocksAgree q
  single : ∀ i, (q.threads i).inWait = true → i = consumer
  announced : (q.threads consumer).hasSeenEmpty = true → q.dataQueue ≠ [] →
    ∃ i, (q.threads i).hasPushed = true

theorem WakeUpInvariant.single_update (inv : WakeUpInvariant consumer q) (i : ι) {pc : Pc α}
    (entered : pc.inWait = true → i = consumer) {j : ι}
    (waits : (Function.update q.threads i pc j).inWait = true) : j = consumer := by
  by_cases moved : j = i
  · subst moved
    rw [Function.update_self] at waits
    exact entered waits
  · rw [Function.update_of_ne moved] at waits
    exact inv.single j waits

/-- What one thread's step has to say for the invariant to be kept. -/
theorem WakeUpInvariant.move (inv : WakeUpInvariant consumer q) (agree : LocksAgree r) (i : ι) (pc : Pc α)
    (threads : r.threads = Function.update q.threads i pc) (removed : r.dataQueue ≠ [] → q.dataQueue ≠ [])
    (entered : pc.inWait = true → i = consumer)
    (seen : pc.hasSeenEmpty = true → r.dataQueue ≠ [] → (q.threads i).hasSeenEmpty = true)
    (kept : (q.threads i).hasPushed = true → pc.hasPushed = true) : WakeUpInvariant consumer r := by
  refine ⟨agree, fun j waits => ?_, fun waiting some => ?_⟩
  · rw [threads] at waits
    exact inv.single_update i entered waits
  · rw [threads] at waiting ⊢
    have before : (q.threads consumer).hasSeenEmpty = true := by
      by_cases moved : consumer = i
      · subst moved
        rw [Function.update_self] at waiting
        exact seen waiting some
      · rwa [Function.update_of_ne moved] at waiting
    obtain ⟨j, pushed⟩ := inv.announced before (removed some)
    refine ⟨j, ?_⟩
    by_cases moved : j = i
    · subst moved
      rw [Function.update_self]
      exact kept pushed
    · rwa [Function.update_of_ne moved]

theorem WakeUpInvariant.quiet (inv : WakeUpInvariant consumer q) (agree : LocksAgree r) {i : ι}
    {before after : Pc α} (pc : q.threads i = before) (quiet : Pc.Quiet before after)
    (threads : r.threads = Function.update q.threads i after) (same : r.dataQueue = q.dataQueue) :
    WakeUpInvariant consumer r := by
  subst pc
  exact inv.move agree i after threads (same ▸ id) (fun waits => inv.single i (quiet.inWait waits))
    (fun seen _ => quiet.hasSeenEmpty seen) quiet.hasPushed

omit [DecidableEq ι] in
/-- Outside of the gap, a notification finds the consumer suspended or not about to sleep. -/
theorem blocked_of_hasSeenEmpty {i : ι} {c : QueueCall α} (agree : LocksAgree q) (pc : q.threads i = .notify c)
    (outside : q.threads consumer ≠ .waitLock) (seen : (q.threads consumer).hasSeenEmpty = true) :
    consumer ∈ q.callerBlock := by
  have apart : i ≠ consumer := by
    rintro rfl
    rw [pc] at seen
    cases seen
  have holdsQ : (q.threads i).holdsQ = true := by rw [pc]; rfl
  have holdsCond : (q.threads i).holdsCond = true := by rw [pc]; rfl
  apply (agree.suspended consumer).mp
  cases at_consumer : q.threads consumer with
  | unlockQ c result =>
    exact absurd (agree.ownsQ.unique holdsQ (by rw [at_consumer]; rfl)) apart
  | waitLock => exact absurd at_consumer outside
  | waitBlock => exact absurd (agree.ownsCond.unique holdsCond (by rw [at_consumer]; rfl)) apart
  | blocked => rfl
  | _ =>
    rw [at_consumer] at seen
    cases seen

theorem WakeUpInvariant.wake (inv : WakeUpInvariant consumer q) {i : ι} (waiting : i ∈ q.callerBlock) :
    WakeUpInvariant consumer (q.wake i) :=
  inv.quiet (inv.agree.wake waiting) (inv.agree.blocked waiting)
    (⟨id, Bool.noConfusion, id⟩ : Pc.Quiet .blocked .woken) rfl rfl

theorem WakeUpInvariant.notify (inv : WakeUpInvariant consumer q) {i : ι} {c : QueueCall α}
    (pc : q.threads i = .notify c) (awake : (q.threads consumer).hasSeenEmpty = false)
    (agree : LocksAgree (q.goto i (.unlockCond c))) : WakeUpInvariant consumer (q.goto i (.unlockCond c)) := by
  refine ⟨agree, fun j => inv.single_update i fun waits => ?_, fun seen => ?_⟩
  · apply inv.single i
    rw [pc]
    cases c <;> first | rfl | cases waits
  · by_cases moved : consumer = i
    · subst moved
      rw [goto_self] at seen
      cases c <;> cases seen
    · rw [goto_of_ne q moved, awake] at seen
      cases seen

theorem WakeUpInvariant.step {a : Action ι α} (inv : WakeUpInvariant consumer q)
    (guard : OneConsumer consumer a ∧ NotifiesOutside consumer q a) (taken : q.step a = some r) :
    WakeUpInvariant consumer r := by
  have agree := inv.agree.step taken
  cases step_cases taken with
  | call i c returned pc =>
    refine inv.move agree i _ rfl id (fun waits => ?_) (fun seen => ?_) (fun pushed => ?_)
    · cases c <;> first | exact guard.1 | cases waits
    · cases seen
    · rw [pc] at pushed
      cases pushed
  | lockQ i c pc => exact inv.quiet agree pc (Pc.quiet_lockQ c) rfl rfl
  | access i c dataQueue result pc ran =>
    cases push : c.isPush with
    | true =>
      -- The element is announced by the push itself.
      have next : Pc.afterAccess c result = .lockCond c := by simp [Pc.afterAccess, push]
      rw [next] at agree ⊢
      refine ⟨agree, fun j => inv.single_update i fun waits => ?_, fun _ _ => ⟨i, by rw [goto_self]; rfl⟩⟩
      apply inv.single i
      rw [pc]
      cases c <;> first | rfl | cases waits
    | false =>
      refine inv.move agree i _ rfl (QueueCall.run_ne_nil ran push) (fun waits => ?_) (fun seen some => ?_)
        (fun pushed => ?_)
      · apply inv.single i
        rw [pc]
        exact Pc.inWait_afterAccess waits
      · exact absurd (Pc.hasSeenEmpty_afterAccess ran seen) some
      · rw [pc] at pushed
        cases pushed
  | lockCond i c pc => exact inv.quiet agree pc (Pc.quiet_lockCond c) rfl rfl
  | unlockCond i c pc => exact inv.quiet agree pc (Pc.quiet_unlockCond c) rfl rfl
  | unlockQ i c result pc => exact inv.quiet agree pc (Pc.quiet_unlockQ c result) rfl rfl
  | waitLock i pc => exact inv.quiet agree pc (⟨id, id, id⟩ : Pc.Quiet .waitLock .waitBlock) rfl rfl
  | waitBlock i pc => exact inv.quiet agree pc (⟨id, id, id⟩ : Pc.Quiet .waitBlock .blocked) rfl rfl
  | woken i pc => exact inv.quiet agree pc (⟨id, id, id⟩ : Pc.Quiet .woken .waitUnlock) rfl rfl
  | waitUnlock i pc => exact inv.quiet agree pc (⟨id, id, id⟩ : Pc.Quiet .waitUnlock (.lockQ .wait)) rfl rfl
  | notifyNone i c pc nobody =>
    -- Nobody is suspended, so outside of the gap the consumer is not about to sleep.
    refine inv.notify pc (Bool.eq_false_iff.mpr fun seen => ?_) agree
    have waiting := blocked_of_hasSeenEmpty inv.agree pc guard.2 seen
    rw [nobody] at waiting
    exact Finset.notMem_empty _ waiting
  | notifySome i j c pc waiting =>
    -- Only the consumer sleeps, so it is the thread that is woken.
    have alone : j = consumer := by
      apply inv.single j
      rw [inv.agree.blocked waiting]
      rfl
    refine (inv.wake waiting).notify (inv.agree.notified pc waiting) ?_ agree
    rw [alone, TsNetQueue.wake, goto_self]
    rfl
  | spuriousWakeUp i waiting => exact inv.wake waiting

omit [DecidableEq ι] in
theorem wakeUpInvariant_initial (consumer : ι) : WakeUpInvariant consumer (initial : TsNetQueue ι α) :=
  ⟨locksAgree_initial, fun _ waits => Bool.noConfusion waits, fun seen => Bool.noConfusion seen⟩

/-- In every run in which notifications avoid the gap, the consumer misses none. -/
theorem no_missed_wake_up (run : Transition.Run step
    (fun q a => OneConsumer consumer a ∧ NotifiesOutside consumer q a) initial q) :
    NoMissedWakeUp consumer q := by
  have inv := run.invariant (wakeUpInvariant_initial consumer) fun _ _ _ inv guard taken => inv.step guard taken
  intro blocked some
  obtain ⟨i, pushed⟩ := inv.announced (by rw [blocked]; rfl) some
  exact ⟨i, Pc.willNotify_of_hasPushed pushed⟩

def patientRun : List (Action Bool Nat) :=
  [.call false .wait, .next false, .next false, .next false, .next false, .next false,
    .call true (.pushBack 7), .next true, .next true]

theorem patientRun_guarded (q : TsNetQueue Bool Nat) :
    ∀ a ∈ patientRun, OneConsumer false a ∧ NotifiesOutside false q a := by
  simp [patientRun, OneConsumer, NotifiesOutside]

theorem no_missed_wake_up_patientRun :
    NoMissedWakeUp false ((Transition.perform step initial patientRun).get (by decide)) :=
  no_missed_wake_up (.of_perform patientRun _ (.of_forall patientRun patientRun_guarded _) (Option.some_get _).symm)

/-- The producer pushes and notifies after the consumer has seen the queue empty and before it goes to
sleep. -/
def hastyRun : List (Action Bool Nat) :=
  [.call false .wait, .next false, .next false, .next false,
    .call true (.pushBack 7), .next true, .next true, .next true, .notifyOne true none, .next true, .next true,
    .next false, .next false]

theorem hastyRun_enabled : (Transition.perform step initial hastyRun).isSome = true := by decide

theorem hastyRun_single (_ : TsNetQueue Bool Nat) : ∀ a ∈ hastyRun, OneConsumer false a := by
  simp [hastyRun, OneConsumer]

theorem wake_up_missed : ∃ q : TsNetQueue Bool Nat,
    Transition.Run step (fun _ a => OneConsumer false a) initial q ∧ ¬ NoMissedWakeUp false q := by
  refine ⟨_, .of_perform hastyRun _ (.of_forall hastyRun hastyRun_single _)
    (Option.some_get hastyRun_enabled).symm, fun holds => ?_⟩
  have silent : ∀ i, (((Transition.perform step initial hastyRun).get hastyRun_enabled).threads i).willNotify =
      false := by
    decide
  obtain ⟨i, notifies⟩ := holds (by decide) (by decide)
  rw [silent] at notifies
  cases notifies

end TsNetQueue
end MyCQ
