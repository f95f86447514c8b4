import MyCQ.App.Server.Requests
import MyCQ.App.System.Steps
import MyCQ.Net.TsNetQueue.Waiting

/-! The update thread as a consumer that waits on the incoming queue.

The server pushes a message and notifies in one step. What it does to the queue
are the steps of `Waiting`, which are all that the locks of the queue allow. In
runs in which no notification is missed, the thread sleeps only while there is
nothing to handle.
-/

set_option autoImplicit false

namespace MyCQ
open Octets (Endian)
open ConnectionInterface (Handler)

namespace UpdateThread

def hasSeenEmpty : UpdateThread → Bool
  | blocking _ | blocked _ => true
  | _ => false

def isBlocking : UpdateThread → Bool
  | blocking _ => true
  | _ => false

def phase : UpdateThread → WaitPhase
  | waiting _ => .waiting
  | blocking _ => .blocking
  | blocked _ => .blocked
  | _ => .outside

theorem phase_notified (thread : UpdateThread) : thread.notified.phase = thread.phase.notified := by
  cases thread <;> rfl

theorem phase_waiting {thread : UpdateThread} (same : thread.phase = .waiting) : ∃ n, thread = waiting n := by
  cases thread with
  | waiting numMaxMessages => exact ⟨numMaxMessages, rfl⟩
  | _ => cases same

theorem phase_blocking {thread : UpdateThread} (same : thread.phase = .blocking) : ∃ n, thread = blocking n := by
  cases thread with
  | blocking numMaxMessages => exact ⟨numMaxMessages, rfl⟩
  | _ => cases same

theorem phase_blocked {thread : UpdateThread} (same : thread.phase = .blocked) : ∃ n, thread = blocked n := by
  cases thread with
  | blocked numMaxMessages => exact ⟨numMaxMessages, rfl⟩
  | _ => cases same

end UpdateThread

namespace System

variable {order : Endian} {idCounter : UInt32} {s t : System} {a : Action}

/-- The incoming queue, as the thread that waits on it sees it. -/
def queue (s : System) : Waiting OwnedMessage := ⟨s.server.inMsgQueue, s.thread.phase⟩

theorem queue_finishHandler (s : System) (c : ConnRef) (conn : ConnectionInterface) (out : Option Message) :
    (s.finishHandler c conn out).queue = s.queue ∨ Waiting.Step s.queue (s.finishHandler c conn out).queue := by
  cases out with
  | none => exact Or.inl (congrArg (Waiting.mk · _) (List.append_nil _))
  | some msg =>
    have step := Waiting.Step.push s.server.inMsgQueue s.thread.phase ⟨some c, msg⟩
    rw [← UpdateThread.phase_notified] at step
    exact Or.inr step

theorem Moves.queue {queue : List OwnedMessage} {thread next : UpdateThread} (moves : Moves queue thread next) :
    next.phase = thread.phase ∨ Waiting.Step ⟨queue, thread.phase⟩ ⟨queue, next.phase⟩ := by
  cases moves with
  | call numMaxMessages enableWaiting =>
    cases enableWaiting with
    | false => exact Or.inl rfl
    | true => exact Or.inr (.call queue)
  | wake _ waits => exact Or.inr (.returns queue waits)
  | seesEmpty _ empty =>
    subst empty
    exact Or.inr .seesEmpty
  | block => exact Or.inr (.block queue)
  | spuriousWakeUp => exact Or.inr (.spuriousWakeUp queue)
  | enter => exact Or.inl rfl
  | leave => exact Or.inl rfl

/-- A step of the server is one of the queue, or none for it. -/
theorem queue_step (taken : s.step order a = some t) : t.queue = s.queue ∨ Waiting.Step s.queue t.queue := by
  cases step_cases taken with
  | accept | dangling | emptyPop | sendFault => exact Or.inl rfl
  | handler c h conn out => exact queue_finishHandler s c conn out
  | moves a thread moved => exact moved.queue.imp (congrArg (Waiting.mk _)) id
  | popFront numMaxMessages msgCount msg rest point queue =>
    refine Or.inr ?_
    rw [System.queue, queue, point]
    exact .pop msg rest
  | onMessage uninitialized numMaxMessages msgCount msg server point ran =>
    obtain ⟨_, delivers, _⟩ := (MyCQServer.handled_of_onMessage ran).delivers
    refine Or.inl ?_
    rw [System.queue, System.queue, point, delivers.inMsgQueue]
    rfl
  | onMessageFault _ _ _ _ _ point | endIteration _ _ _ point =>
    refine Or.inl ?_
    rw [System.queue, System.queue, point]
    rfl
  | sendMessageToAllClients msg ignoreClient server point ran =>
    exact Or.inl (congrArg (Waiting.mk · _) (MyCQServer.sendMessageToAllClients_ok ran).1.inMsgQueue)
  | sendMessageToClient client msg server point held ran =>
    obtain ⟨out, delivers, _⟩ := MyCQServer.sendMessageToClient_ok ran
    exact Or.inl (congrArg (Waiting.mk · _) delivers.inMsgQueue)

/-- Inside `wait` the server can do all that the queue can do without a push. -/
theorem step_of_queue {w : Waiting OwnedMessage} (clear : s.fault = none) (inside : s.thread.phase ≠ .outside)
    (moved : Waiting.Step s.queue w) (same : w.dataQueue = s.server.inMsgQueue) :
    ∃ a t, s.step order a = some t ∧ t.queue = w := by
  generalize view : s.queue = before at moved
  obtain ⟨before, at_phase⟩ := before
  obtain ⟨queue, phase⟩ := Waiting.mk.inj view
  cases moved with
  | push _ _ element =>
    have long := congrArg List.length (queue.symm.trans same.symm)
    dsimp only at long
    rw [List.length_append, List.length_singleton] at long
    omega
  | pop => exact absurd phase inside
  | call => exact absurd phase inside
  | returns dataQueue waits =>
    obtain ⟨numMaxMessages, point⟩ := UpdateThread.phase_waiting phase
    refine ⟨.waitReturns, { s with thread := .testing numMaxMessages 0 }, ?_, by rw [← queue]; rfl⟩
    simp only [step, clear, act, point, queue, if_pos waits]
  | seesEmpty =>
    obtain ⟨numMaxMessages, point⟩ := UpdateThread.phase_waiting phase
    refine ⟨.seesEmpty, { s with thread := .blocking numMaxMessages }, ?_, by rw [← queue]; rfl⟩
    simp only [step, clear, act, point, if_pos queue]
  | block dataQueue =>
    obtain ⟨numMaxMessages, point⟩ := UpdateThread.phase_blocking phase
    refine ⟨.block, { s with thread := .blocked numMaxMessages }, ?_, by rw [← queue]; rfl⟩
    simp only [step, clear, act, point]
  | spuriousWakeUp dataQueue =>
    obtain ⟨numMaxMessages, point⟩ := UpdateThread.phase_blocked phase
    refine ⟨.spuriousWakeUp, { s with thread := .waiting numMaxMessages }, ?_, by rw [← queue]; rfl⟩
    simp only [step, clear, act, point]

/-- No message is pushed while the thread is between its test and its sleep. -/
def PushesOutside (order : Endian) (s : System) : Action → Prop
  | .handler c h => s.thread.isBlocking = true → ∀ r ∈ (s.server.conn c).runHandler order h, r.2 = none
  | _ => True

instance (s : System) : (a : Action) → Decidable (s.PushesOutside order a)
  | .handler c h => inferInstanceAs (Decidable (s.thread.isBlocking = true →
      ∀ r ∈ (s.server.conn c).runHandler order h, r.2 = none))
  | .accept _ | .update _ _ | .waitReturns | .seesEmpty | .block | .spuriousWakeUp | .test | .popFront | .onMessage _
  | .endIteration | .sendMessageToAllClients _ _ | .sendMessageToClient _ _ => isTrue trivial

theorem Moves.hasSeenEmpty {queue : List OwnedMessage} {thread next : UpdateThread} (moves : Moves queue thread next)
    (seen : next.hasSeenEmpty = true) : queue = [] ∨ thread.hasSeenEmpty = true := by
  cases moves with
  | seesEmpty _ empty => exact Or.inl empty
  | block => exact Or.inr rfl
  | call _ enableWaiting => cases enableWaiting <;> cases seen
  | _ => cases seen

theorem finishHandler_hasSeenEmpty {c : ConnRef} {conn : ConnectionInterface} {out : Option Message}
    (seen : (s.finishHandler c conn out).thread.hasSeenEmpty = true) :
    s.thread.hasSeenEmpty = true ∧ (out = none ∨ s.thread.isBlocking = true) := by
  cases out with
  | none => exact ⟨seen, Or.inl rfl⟩
  | some msg =>
    have woken : s.thread.notified.hasSeenEmpty = true := seen
    cases point : s.thread with
    | blocking => exact ⟨rfl, Or.inr rfl⟩
    | _ =>
      rw [point] at woken
      cases woken

theorem hasSeenEmpty_step (inv : s.thread.hasSeenEmpty = true → s.server.inMsgQueue = [])
    (outside : s.PushesOutside order a) (taken : s.step order a = some t) (seen : t.thread.hasSeenEmpty = true) :
    t.server.inMsgQueue = [] := by
  cases step_cases taken with
  | accept | dangling | emptyPop => exact inv seen
  | handler c h conn out ran =>
    obtain ⟨before, silent⟩ := finishHandler_hasSeenEmpty seen
    have none : out = none := silent.elim id fun blocking => outside blocking _ ran
    subst none
    exact (List.append_nil _).trans (inv before)
  | moves a thread moved => exact (moved.hasSeenEmpty seen).elim id inv
  | popFront | onMessage | onMessageFault | endIteration => cases seen
  | sendMessageToAllClients _ _ _ point | sendMessageToClient _ _ _ point | sendFault _ _ point =>
    have seen : s.thread.hasSeenEmpty = true := seen
    rw [point] at seen
    cases seen

/-- The thread sleeps only while there is nothing to handle. -/
theorem inMsgQueue_of_hasSeenEmpty (run : Transition.Run (step order) (PushesOutside order) (.start idCounter) s)
    (seen : s.thread.hasSeenEmpty = true) : s.server.inMsgQueue = [] :=
  run.invariant (P := fun s => s.thread.hasSeenEmpty = true → s.server.inMsgQueue = []) Bool.noConfusion
    (fun _ _ _ inv outside taken => hasSeenEmpty_step inv outside taken) seen

end System
end MyCQ
