import Mathlib.Logic.Relation
import MyCQ.Net.TsNetQueue.WakeUp

/-! What the locks of the queue come to for a consumer that waits.

`Waiting` is the queue as its user sees it: a push adds an element and wakes the
consumer, a waiting consumer goes on when the queue is not empty, and it may
fall asleep after it has seen the queue empty. Each step of the locks is one of
these or none. Outside of a missed notification, a consumer that finds elements
gets out of `wait` by its own steps.
-/

set_option autoImplicit false

namespace MyCQ

/-- Where a thread is in `wait`: before its test, after a test that has found the queue empty, asleep. -/
inductive WaitPhase where
  | outside
  | waiting
  | blocking
  | blocked
  deriving DecidableEq, Repr

def WaitPhase.notified : WaitPhase → WaitPhase
  | blocked => waiting
  | phase => phase

structure Waiting (α : Type) where
  dataQueue : List α
  phase : WaitPhase

namespace Waiting

variable {α : Type}

inductive Step : Waiting α → Waiting α → Prop where
  | push (dataQueue : List α) (phase : WaitPhase) (element : α) :
      Step ⟨dataQueue, phase⟩ ⟨dataQueue ++ [element], phase.notified⟩
  | pop (element : α) (dataQueue : List α) : Step ⟨element :: dataQueue, .outside⟩ ⟨dataQueue, .outside⟩
  | call (dataQueue : List α) : Step ⟨dataQueue, .outside⟩ ⟨dataQueue, .waiting⟩
  | returns (dataQueue : List α) : dataQueue ≠ [] → Step ⟨dataQueue, .waiting⟩ ⟨dataQueue, .outside⟩
  | seesEmpty : Step ⟨[], .waiting⟩ ⟨[], .blocking⟩
  | block (dataQueue : List α) : Step ⟨dataQueue, .blocking⟩ ⟨dataQueue, .blocked⟩
  | spuriousWakeUp (dataQueue : List α) : Step ⟨dataQueue, .blocked⟩ ⟨dataQueue, .waiting⟩

end Waiting

section Roles

variable {ι α : Type}

def QueueCall.InRole (consumer i : ι) : QueueCall α → Prop
  | .pushBack _ => i ≠ consumer
  | .wait | .isEmpty | .popFront => i = consumer
  | .front | .back | .pushFront _ | .count | .clear | .popBack => False

def Pc.InRole (consumer i : ι) : Pc α → Prop
  | .idle _ => True
  | .lockQ c | .access c | .unlockQ c _ => c.InRole consumer i
  | .lockCond c | .notify c | .unlockCond c => c.InRole consumer i ∧ c.isPush = true
  | .waitLock | .waitBlock | .blocked | .woken | .waitUnlock => i = consumer

theorem Pc.inRole_afterAccess {consumer i : ι} {c : QueueCall α} (role : c.InRole consumer i)
    (result : QueueResult α) : (Pc.afterAccess c result).InRole consumer i := by
  unfold Pc.afterAccess
  split
  · next push => exact ⟨role, push⟩
  · exact role

theorem Pc.inRole_afterUnlock {consumer i : ι} {c : QueueCall α} (role : c.InRole consumer i)
    (result : QueueResult α) : (Pc.afterUnlock c result).InRole consumer i := by
  unfold Pc.afterUnlock
  split
  · exact role
  · trivial
  · trivial

end Roles

namespace Pc

variable {α : Type}

def waitPhase : Pc α → WaitPhase
  | .lockQ .wait | .access .wait | .woken | .waitUnlock => .waiting
  | .unlockQ .wait (.empty true) | .waitLock | .waitBlock => .blocking
  | .blocked => .blocked
  | _ => .outside

theorem notified_waitPhase {pc : Pc α} (awake : pc ≠ .blocked) : pc.waitPhase.notified = pc.waitPhase := by
  unfold waitPhase
  split <;> first | rfl | exact absurd rfl awake

theorem hasPushed_of_hasSeenEmpty {pc : Pc α} (seen : pc.hasSeenEmpty = true) : pc.hasPushed = false := by
  unfold hasSeenEmpty at seen
  split at seen <;> first | rfl | cases seen

theorem waitPhase_lockQ (c : QueueCall α) : (Pc.access c).waitPhase = (Pc.lockQ c).waitPhase := by
  cases c <;> rfl

theorem waitPhase_afterUnlock (c : QueueCall α) (result : QueueResult α) :
    (afterUnlock c result).waitPhase = (Pc.unlockQ c result).waitPhase := by
  cases c with
  | wait =>
    cases result with
    | empty flag => cases flag <;> rfl
    | _ => rfl
  | _ => rfl

end Pc

namespace TsNetQueue

variable {ι α : Type} {consumer : ι} {q r : TsNetQueue ι α} {w : Waiting α}

def Roles (consumer : ι) : Action ι α → Prop
  | .call i c => c.InRole consumer i
  | .next _ | .notifyOne _ _ | .spuriousWakeUp _ => True

structure RolesInvariant (consumer : ι) (q : TsNetQueue ι α) : Prop where
  agree : LocksAgree q
  roles : ∀ i, (q.threads i).InRole consumer i

-- The lock level wakes the consumer with the notification, the abstract one with the element before it.
/-- The queue at the level of its locks, and as its user sees it. -/
structure Represents (consumer : ι) (q : TsNetQueue ι α) (w : Waiting α) : Prop where
  dataQueue : w.dataQueue = q.dataQueue
  phase : w.phase = (q.threads consumer).waitPhase ∨ q.threads consumer = .blocked ∧ w.phase = .waiting

theorem rolesInvariant_initial (consumer : ι) : RolesInvariant consumer (initial : TsNetQueue ι α) :=
  ⟨locksAgree_initial, fun _ => trivial⟩

theorem represents_initial (consumer : ι) : Represents consumer (initial : TsNetQueue ι α) ⟨[], .outside⟩ :=
  ⟨rfl, Or.inl rfl⟩

variable [DecidableEq ι]

theorem inRole_update {i : ι} {before after : Pc α} (roles : ∀ j, (q.threads j).InRole consumer j)
    (pc : q.threads i = before) (kept : before.InRole consumer i → after.InRole consumer i) (j : ι) :
    (Function.update q.threads i after j).InRole consumer j := by
  by_cases moved : j = i
  · subst moved
    rw [Function.update_self]
    exact kept (pc ▸ roles j)
  · rw [Function.update_of_ne moved]
    exact roles j

theorem RolesInvariant.step {a : Action ι α} (inv : RolesInvariant consumer q) (guard : Roles consumer a)
    (taken : q.step a = some r) : RolesInvariant consumer r := by
  refine ⟨inv.agree.step taken, ?_⟩
  cases step_cases taken with
  | call i c returned pc => exact inRole_update inv.roles pc fun _ => guard
  | lockQ i c pc => exact inRole_update inv.roles pc id
  | access i c dataQueue result pc => exact inRole_update inv.roles pc fun role => Pc.inRole_afterAccess role result
  | lockCond i c pc => exact inRole_update inv.roles pc id
  | unlockCond i c pc => exact inRole_update inv.roles pc And.left
  | unlockQ i c result pc => exact inRole_update inv.roles pc fun role => Pc.inRole_afterUnlock role result
  | waitLock i pc => exact inRole_update inv.roles pc id
  | waitBlock i pc => exact inRole_update inv.roles pc id
  | woken i pc => exact inRole_update inv.roles pc id
  | waitUnlock i pc => exact inRole_update inv.roles pc id
  | notifyNone i c pc => exact inRole_update inv.roles pc id
  | notifySome i j c pc waiting =>
    have woken := inRole_update inv.roles (inv.agree.blocked waiting) (id : _ → Pc.woken.InRole consumer j)
    exact inRole_update (q := q.wake j) woken (inv.agree.notified pc waiting) id
  | spuriousWakeUp i waiting => exact inRole_update inv.roles (inv.agree.blocked waiting) id

theorem Represents.stay (rep : Represents consumer q w) {i : ι} {before after : Pc α} (pc : q.threads i = before)
    (awake : before ≠ .blocked) (threads : r.threads = Function.update q.threads i after)
    (same : after.waitPhase = before.waitPhase) (queue : r.dataQueue = q.dataQueue) : Represents consumer r w := by
  refine ⟨rep.dataQueue.trans queue.symm, ?_⟩
  rw [threads]
  by_cases moved : consumer = i
  · subst moved
    rw [Function.update_self, same, ← pc]
    rcases rep.phase with phase | ⟨asleep, _⟩
    · exact Or.inl phase
    · exact absurd (pc.symm.trans asleep) awake
  · rw [Function.update_of_ne moved]
    exact rep.phase

theorem Represents.move (rep : Represents consumer q w) {before after : Pc α} (pc : q.threads consumer = before)
    (awake : before ≠ .blocked) (threads : r.threads = Function.update q.threads consumer after)
    (moved : Waiting.Step ⟨q.dataQueue, before.waitPhase⟩ ⟨r.dataQueue, after.waitPhase⟩) :
    ∃ w', (w' = w ∨ Waiting.Step w w') ∧ Represents consumer r w' := by
  obtain ⟨dataQueue, phase⟩ := w
  obtain ⟨rfl, at_phase | ⟨asleep, _⟩⟩ := rep
  · obtain rfl : phase = before.waitPhase := at_phase.trans (congrArg Pc.waitPhase pc)
    refine ⟨_, Or.inr moved, rfl, Or.inl ?_⟩
    rw [threads, Function.update_self]
  · exact absurd (pc.symm.trans asleep) awake

omit [DecidableEq ι] in
theorem Represents.push (rep : Represents consumer q w) {element : α} (queue : r.dataQueue = q.dataQueue ++ [element])
    (same : r.threads consumer = q.threads consumer) :
    ∃ w', (w' = w ∨ Waiting.Step w w') ∧ Represents consumer r w' := by
  refine ⟨_, Or.inr (.push w.dataQueue w.phase element), by rw [rep.dataQueue, queue], ?_⟩
  rw [same]
  rcases rep.phase with phase | ⟨asleep, phase⟩
  · rw [phase]
    by_cases asleep : q.threads consumer = .blocked
    · rw [asleep]
      exact Or.inr ⟨rfl, rfl⟩
    · exact Or.inl (Pc.notified_waitPhase asleep)
  · refine Or.inr ⟨asleep, ?_⟩
    rw [phase]
    rfl

theorem Represents.access (rep : Represents consumer q w) (inv : RolesInvariant consumer q) {i : ι} {c : QueueCall α}
    {dataQueue : List α} {result : QueueResult α} (pc : q.threads i = .access c)
    (ran : c.run q.dataQueue = some (dataQueue, result)) : ∃ w', (w' = w ∨ Waiting.Step w w') ∧
      Represents consumer ({ q with dataQueue := dataQueue }.goto i (.afterAccess c result)) w' := by
  have role : c.InRole consumer i := by
    have role := inv.roles i
    rwa [pc] at role
  cases c with
  | pushBack element =>
    cases ran
    exact rep.push rfl (goto_of_ne _ (Ne.symm role) _)
  | isEmpty =>
    cases ran
    exact ⟨w, Or.inl rfl, rep.stay pc nofun rfl rfl rfl⟩
  | wait =>
    obtain rfl : i = consumer := role
    cases ran
    refine rep.move pc nofun rfl ?_
    show Waiting.Step ⟨q.dataQueue, .waiting⟩
      ⟨q.dataQueue, (Pc.unlockQ .wait (.empty q.dataQueue.isEmpty) : Pc α).waitPhase⟩
    cases q.dataQueue with
    | nil => exact .seesEmpty
    | cons element rest => exact .returns _ (List.cons_ne_nil element rest)
  | popFront =>
    obtain rfl : i = consumer := role
    obtain ⟨element, found, same⟩ := Option.map_eq_some_iff.mp ran
    cases same
    refine rep.move pc nofun rfl ?_
    show Waiting.Step ⟨q.dataQueue, .outside⟩ ⟨q.dataQueue.tail, .outside⟩
    obtain ⟨rest, stored⟩ := List.head?_eq_some_iff.mp found
    rw [stored]
    exact .pop element rest
  | front | back | pushFront | count | clear | popBack => exact role.elim

theorem Represents.wake (rep : Represents consumer q w) (agree : LocksAgree q) {i : ι} (waiting : i ∈ q.callerBlock) :
    ∃ w', (w' = w ∨ Waiting.Step w w') ∧ Represents consumer (q.wake i) w' := by
  by_cases own : i = consumer
  · subst own
    have woken : (q.wake i).threads i = .woken := goto_self _ i .woken
    obtain ⟨dataQueue, phase⟩ := w
    obtain ⟨rfl, at_phase | ⟨_, rfl⟩⟩ := rep
    · rw [agree.blocked waiting] at at_phase
      obtain rfl : phase = .blocked := at_phase
      exact ⟨_, Or.inr (.spuriousWakeUp _), rfl, Or.inl (by rw [woken]; rfl)⟩
    · exact ⟨_, Or.inl rfl, rfl, Or.inl (by rw [woken]; rfl)⟩
  · refine ⟨w, Or.inl rfl, rep.dataQueue, ?_⟩
    rw [show (q.wake i).threads consumer = q.threads consumer from goto_of_ne _ (Ne.symm own) _]
    exact rep.phase

theorem Represents.step {a : Action ι α} (rep : Represents consumer q w) (inv : RolesInvariant consumer q)
    (guard : Roles consumer a) (taken : q.step a = some r) :
    ∃ w', (w' = w ∨ Waiting.Step w w') ∧ Represents consumer r w' := by
  cases step_cases taken with
  | call i c returned pc =>
    cases c with
    | wait =>
      obtain rfl : i = consumer := guard
      exact rep.move pc nofun rfl (.call q.dataQueue)
    | _ => exact ⟨w, Or.inl rfl, rep.stay pc nofun rfl rfl rfl⟩
  | lockQ i c pc => exact ⟨w, Or.inl rfl, rep.stay pc nofun rfl (Pc.waitPhase_lockQ c) rfl⟩
  | access i c dataQueue result pc ran => exact rep.access inv pc ran
  | lockCond i c pc => exact ⟨w, Or.inl rfl, rep.stay pc nofun rfl rfl rfl⟩
  | unlockCond i c pc => exact ⟨w, Or.inl rfl, rep.stay pc nofun rfl (by cases c <;> rfl) rfl⟩
  | unlockQ i c result pc => exact ⟨w, Or.inl rfl, rep.stay pc nofun rfl (Pc.waitPhase_afterUnlock c result) rfl⟩
  | waitLock i pc => exact ⟨w, Or.inl rfl, rep.stay pc nofun rfl rfl rfl⟩
  | waitBlock i pc =>
    obtain rfl : i = consumer := by
      have role := inv.roles i
      rwa [pc] at role
    exact rep.move pc nofun rfl (.block q.dataQueue)
  | woken i pc => exact ⟨w, Or.inl rfl, rep.stay pc nofun rfl rfl rfl⟩
  | waitUnlock i pc => exact ⟨w, Or.inl rfl, rep.stay pc nofun rfl rfl rfl⟩
  | notifyNone i c pc => exact ⟨w, Or.inl rfl, rep.stay pc nofun rfl rfl rfl⟩
  | notifySome i j c pc waiting =>
    obtain ⟨w', moved, woken⟩ := rep.wake inv.agree waiting
    exact ⟨w', moved, woken.stay (inv.agree.notified pc waiting) nofun rfl rfl rfl⟩
  | spuriousWakeUp i waiting => exact rep.wake inv.agree waiting

/-- What the locks do is what the user of the queue can see. -/
theorem waiting_of_run (run : Transition.Run TsNetQueue.step (fun _ a => Roles consumer a) initial q) :
    ∃ w, Relation.ReflTransGen Waiting.Step ⟨[], .outside⟩ w ∧ Represents consumer q w := by
  have whole : RolesInvariant consumer q ∧
      ∃ w, Relation.ReflTransGen Waiting.Step ⟨[], .outside⟩ w ∧ Represents consumer q w := by
    refine run.invariant (P := fun q => RolesInvariant consumer q ∧ ∃ w,
      Relation.ReflTransGen Waiting.Step ⟨[], .outside⟩ w ∧ Represents consumer q w)
      ⟨rolesInvariant_initial consumer, _, .refl, represents_initial consumer⟩ ?_
    rintro q a r ⟨inv, w, before, rep⟩ guard taken
    obtain ⟨w', moved, rep'⟩ := rep.step inv guard taken
    refine ⟨inv.step guard taken, w', ?_, rep'⟩
    rcases moved with rfl | step
    · exact before
    · exact before.tail step
  exact whole.2

def Returns (consumer : ι) (q : TsNetQueue ι α) : Prop :=
  ∃ r, Transition.Run step (fun _ a => a = Action.next consumer) q r ∧
    (∃ returned, r.threads consumer = .idle returned) ∧ r.dataQueue = q.dataQueue

theorem Returns.of_step (taken : q.next consumer = some r) (same : r.dataQueue = q.dataQueue)
    (returns : Returns consumer r) : Returns consumer q := by
  obtain ⟨last, run, done, queue⟩ := returns
  have first : Transition.Run step (fun _ a => a = Action.next consumer) q r :=
    Transition.Run.start.next (a := .next consumer) rfl taken
  exact ⟨last, first.trans run, done, queue.trans same⟩

theorem returns_unlockQ {c : QueueCall α} {result returned : QueueResult α}
    (pc : q.threads consumer = .unlockQ c result) (ends : Pc.afterUnlock c result = .idle returned) :
    Returns consumer q := by
  have taken : q.next consumer = some ({ q with mutexQ := none }.goto consumer (.idle returned)) := by
    simp only [next, pc, ends]
  exact .of_step taken rfl ⟨_, .start, ⟨returned, goto_self _ consumer _⟩, rfl⟩

theorem returns_access (pc : q.threads consumer = .access .wait) (waits : q.dataQueue ≠ []) : Returns consumer q := by
  have found : q.dataQueue.isEmpty = false := by simpa using waits
  have taken : q.next consumer = some (q.goto consumer (.unlockQ .wait (.empty false))) := by
    simp only [next, pc, QueueCall.run, found, Option.map_some]
    rfl
  exact .of_step taken rfl (returns_unlockQ (goto_self q consumer _) rfl)

theorem returns_lockQ (pc : q.threads consumer = .lockQ .wait) (free : q.mutexQ = none) (waits : q.dataQueue ≠ []) :
    Returns consumer q := by
  have taken : q.next consumer = some ({ q with mutexQ := some consumer }.goto consumer (.access .wait)) := by
    simp only [next, pc, if_pos free]
  exact .of_step taken rfl (returns_access (goto_self _ consumer _) waits)

theorem returns_waitUnlock (pc : q.threads consumer = .waitUnlock) (free : q.mutexQ = none) (waits : q.dataQueue ≠ []) :
    Returns consumer q := by
  have taken : q.next consumer = some ({ q with mtxCallerBlock := none }.goto consumer (.lockQ .wait)) := by
    simp only [next, pc]
  exact .of_step taken rfl (returns_lockQ (goto_self _ consumer _) free waits)

theorem returns_woken (pc : q.threads consumer = .woken) (free : q.mutexQ = none) (freeCond : q.mtxCallerBlock = none)
    (waits : q.dataQueue ≠ []) : Returns consumer q := by
  have taken : q.next consumer = some ({ q with mtxCallerBlock := some consumer }.goto consumer .waitUnlock) := by
    simp only [next, pc, if_pos freeCond]
  exact .of_step taken rfl (returns_waitUnlock (goto_self _ consumer _) free waits)

omit [DecidableEq ι] in
theorem free_of_outside {inside : Pc α → Bool} {owner : Option ι} (owned : Monitor.Owned inside owner q.threads)
    (idle : ∀ returned, inside (.idle returned) = false) (left : inside (q.threads consumer) = false)
    (others : ∀ i, i ≠ consumer → ∃ returned, q.threads i = .idle returned) : owner = none := by
  refine Option.eq_none_iff_forall_ne_some.mpr fun i held => ?_
  have holds := (owned i).mpr held
  by_cases own : i = consumer
  · subst own
    rw [left] at holds
    cases holds
  · obtain ⟨returned, outside⟩ := others i own
    rw [outside, idle] at holds
    cases holds

theorem invariants_of_run
    (run : Transition.Run step (fun q a => Roles consumer a ∧ NotifiesOutside consumer q a) initial q) :
    WakeUpInvariant consumer q ∧ RolesInvariant consumer q := by
  refine run.invariant (P := fun q => WakeUpInvariant consumer q ∧ RolesInvariant consumer q)
    ⟨wakeUpInvariant_initial consumer, rolesInvariant_initial consumer⟩ ?_
  rintro q a r ⟨wakeUp, roles⟩ ⟨role, outside⟩ taken
  refine ⟨wakeUp.step ⟨?_, outside⟩ taken, roles.step role taken⟩
  cases a with
  | call i c => cases c <;> first | exact role | trivial
  | _ => trivial

theorem WakeUpInvariant.awake (wakeUp : WakeUpInvariant consumer q)
    (others : ∀ i, i ≠ consumer → ∃ returned, q.threads i = .idle returned) (waits : q.dataQueue ≠ []) :
    (q.threads consumer).hasSeenEmpty = false := by
  refine Bool.eq_false_iff.mpr fun seen => ?_
  obtain ⟨i, pushed⟩ := wakeUp.announced seen waits
  by_cases own : i = consumer
  · subst own
    rw [Pc.hasPushed_of_hasSeenEmpty seen] at pushed
    cases pushed
  · obtain ⟨returned, outside⟩ := others i own
    rw [outside] at pushed
    cases pushed

/-- Outside of missed notifications, a consumer gets out of `wait` when there is an element and nobody else uses the
queue. -/
theorem returns_of_wait
    (run : Transition.Run step (fun q a => Roles consumer a ∧ NotifiesOutside consumer q a) initial q)
    (inside : (q.threads consumer).inWait = true)
    (others : ∀ i, i ≠ consumer → ∃ returned, q.threads i = .idle returned) (waits : q.dataQueue ≠ []) :
    Returns consumer q := by
  obtain ⟨wakeUp, roles⟩ := invariants_of_run run
  have role := roles.roles consumer
  -- Nobody is going to notify, so the consumer is not on its way to sleep.
  have awake := wakeUp.awake others waits
  have freeQ : (q.threads consumer).holdsQ = false → q.mutexQ = none := fun left =>
    free_of_outside roles.agree.ownsQ (fun _ => rfl) left others
  have freeCond : (q.threads consumer).holdsCond = false → q.mtxCallerBlock = none := fun left =>
    free_of_outside roles.agree.ownsCond (fun _ => rfl) left others
  cases pc : q.threads consumer with
  | lockQ c =>
    rw [pc] at inside
    cases c with
    | wait => exact returns_lockQ pc (freeQ (by rw [pc]; rfl)) waits
    | _ => cases inside
  | access c =>
    rw [pc] at inside
    cases c with
    | wait => exact returns_access pc waits
    | _ => cases inside
  | unlockQ c result =>
    rw [pc] at inside awake
    cases c with
    | wait =>
      cases result with
      | empty flag =>
        cases flag with
        | true => cases awake
        | false => exact returns_unlockQ pc rfl
      | _ => exact returns_unlockQ pc rfl
    | _ => cases inside
  | woken => exact returns_woken pc (freeQ (by rw [pc]; rfl)) (freeCond (by rw [pc]; rfl)) waits
  | waitUnlock => exact returns_waitUnlock pc (freeQ (by rw [pc]; rfl)) waits
  | lockCond c | notify c | unlockCond c =>
    rw [pc] at inside role
    cases c with
    | wait => cases role.2
    | _ => cases inside
  | idle returned =>
    rw [pc] at inside
    cases inside
  | waitLock | waitBlock | blocked =>
    rw [pc] at awake
    cases awake

end TsNetQueue
end MyCQ
