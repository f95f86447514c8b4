import MyCQ.App.System.Incoming
import MyCQ.App.System.Waiting

/-! The thread that calls `update` handles whatever has been enqueued.

It calls `update` for one message at least, and for any number of them when it
can; then nothing keeps it from emptying the queue, unless it sleeps over a
message whose notification it has missed.
-/

set_option autoImplicit false

namespace MyCQ
open Octets (Endian)

namespace System

variable {order : Endian} {idCounter : UInt32} {s t : System} {a : Action} {numMaxMessages msgCount : UInt64}

def Serves (_ : System) : Action → Prop
  | .update _ _ | .waitReturns | .seesEmpty | .block | .test | .popFront | .onMessage _ | .endIteration => True
  | .accept _ | .handler _ _ | .spuriousWakeUp | .sendMessageToAllClients _ _ | .sendMessageToClient _ _ => False

theorem Serves.pushed (serves : Serves s a) (taken : s.step order a = some t) : t.pushed = s.pushed := by
  cases step_cases taken with
  | handler => exact serves.elim
  | _ => rfl

def Served (s : System) : Prop :=
  s.fault ≠ none ∨ s.server.inMsgQueue = [] ∧ s.thread.unhandled = [] ∧ s.thread.isBlocking = false

def Serving (order : Endian) (s : System) : Prop := ∃ t, Transition.Run (step order) Serves s t ∧ Served t

theorem Serving.of_step (serves : Serves s a) (taken : s.step order a = some t) (serving : Serving order t) :
    Serving order s := by
  obtain ⟨u, run, served⟩ := serving
  exact ⟨u, (Transition.Run.start.next serves taken).trans run, served⟩

theorem Serving.of_fault (failed : s.fault ≠ none) : Serving order s := ⟨s, .start, Or.inl failed⟩

theorem serving_received {msg : OwnedMessage} (clear : s.fault = none)
    (point : s.thread = .received numMaxMessages msgCount msg)
    (onward : ∀ t : System, t.fault = none → t.server.inMsgQueue = s.server.inMsgQueue →
      t.thread = .testing numMaxMessages (msgCount + 1) → Serving order t) : Serving order s := by
  have called : s.step order (.onMessage ⟨0, 0, .replicate 1000 0⟩) =
      some ({ s with
        thread := .handled numMaxMessages msgCount msg
        calls := s.calls ++ [msg] }.settle
          (s.server.onMessage order ⟨0, 0, .replicate 1000 0⟩ msg.remote msg.msg)) := by
    simp only [step, clear, act, point]
  refine .of_step (a := .onMessage _) trivial called ?_
  cases ran : s.server.onMessage order ⟨0, 0, .replicate 1000 0⟩ msg.remote msg.msg with
  | error fault => exact .of_fault (Option.some_ne_none fault)
  | ok server =>
    obtain ⟨_, delivers, _⟩ := (MyCQServer.handled_of_onMessage ran).delivers
    refine .of_step (a := .endIteration) trivial (by simp only [step, settle, clear, act]; rfl) ?_
    exact onward _ rfl delivers.inMsgQueue rfl

theorem serving_popping {msg : OwnedMessage} {rest : List OwnedMessage} (clear : s.fault = none)
    (point : s.thread = .popping numMaxMessages msgCount) (queue : s.server.inMsgQueue = msg :: rest)
    (onward : ∀ t : System, t.fault = none → t.server.inMsgQueue = rest →
      t.thread = .testing numMaxMessages (msgCount + 1) → Serving order t) : Serving order s := by
  refine .of_step (a := .popFront) trivial (by simp only [step, clear, act, point, queue]; rfl) ?_
  exact serving_received rfl rfl onward

theorem serving_waiting (clear : s.fault = none) (point : s.thread = .waiting numMaxMessages)
    (queue : s.server.inMsgQueue ≠ []) (onward : ∀ t : System, t.fault = none →
      t.server.inMsgQueue = s.server.inMsgQueue → t.thread = .testing numMaxMessages 0 → Serving order t) :
    Serving order s := by
  refine .of_step (a := .waitReturns) trivial (by simp only [step, clear, act, point, if_pos queue]; rfl) ?_
  exact onward _ rfl rfl rfl

theorem serving_outside (clear : s.fault = none) (point : s.thread = .outside) (queue : s.server.inMsgQueue ≠ [])
    (onward : ∀ t : System, t.fault = none → t.server.inMsgQueue = s.server.inMsgQueue →
      t.thread = .testing (-1) 0 → Serving order t) : Serving order s := by
  refine .of_step (a := .update (-1) true) trivial (by simp only [step, clear, act, point]; rfl) ?_
  exact serving_waiting rfl rfl queue onward

/-- By induction on the queue; the loop may have reached its maximum, and is entered again then. -/
theorem serving_testing (queue : List OwnedMessage) (clear : s.fault = none) (same : s.server.inMsgQueue = queue)
    (point : s.thread = .testing numMaxMessages msgCount) : Serving order s := by
  induction queue generalizing s numMaxMessages msgCount with
  | nil => exact ⟨s, .start, Or.inr ⟨same, by rw [point]; rfl, by rw [point]; rfl⟩⟩
  | cons msg rest ih =>
    have waits : s.server.inMsgQueue ≠ [] := same ▸ List.cons_ne_nil msg rest
    -- The test succeeds when fewer messages than the maximum have been handled.
    have enters : ∀ {s : System} {numMaxMessages msgCount : UInt64}, s.fault = none →
        s.server.inMsgQueue = msg :: rest → s.thread = .testing numMaxMessages msgCount →
          msgCount < numMaxMessages → Serving order s := by
      intro s numMaxMessages msgCount clear same point below
      have both : msgCount < numMaxMessages ∧ s.server.inMsgQueue ≠ [] := ⟨below, same ▸ List.cons_ne_nil msg rest⟩
      refine .of_step (a := .test) trivial (by simp only [step, clear, act, point, if_pos both]; rfl) ?_
      exact serving_popping rfl rfl same fun t clear same point => ih clear same point
    by_cases below : msgCount < numMaxMessages
    · exact enters clear same point below
    · have leaves : ¬ (msgCount < numMaxMessages ∧ s.server.inMsgQueue ≠ []) := fun both => below both.1
      refine .of_step (a := .test) trivial (by simp only [step, clear, act, point, if_neg leaves]; rfl) ?_
      exact serving_outside rfl rfl waits fun t clear queue point => enters clear (queue.trans same) point (by decide)

/-- Wherever the thread is, it can handle all that has been enqueued. -/
theorem serving (run : Transition.Run (step order) (PushesOutside order) (.start idCounter) s)
    (clear : s.fault = none) : Serving order s := by
  have testing : ∀ {numMaxMessages msgCount : UInt64} (t : System), t.fault = none →
      t.thread = .testing numMaxMessages msgCount → Serving order t := fun t clear point =>
    serving_testing t.server.inMsgQueue clear rfl point
  have idle : s.server.inMsgQueue = [] → s.thread.unhandled = [] → s.thread.isBlocking = false → Serving order s :=
    fun queue none awake => ⟨s, .start, Or.inr ⟨queue, none, awake⟩⟩
  cases point : s.thread with
  | outside =>
    by_cases queue : s.server.inMsgQueue = []
    · exact idle queue (by rw [point]; rfl) (by rw [point]; rfl)
    · exact serving_outside clear point queue fun t clear _ => testing t clear
  | waiting numMaxMessages =>
    by_cases queue : s.server.inMsgQueue = []
    · exact idle queue (by rw [point]; rfl) (by rw [point]; rfl)
    · exact serving_waiting clear point queue fun t clear _ => testing t clear
  | blocking numMaxMessages =>
    have queue := inMsgQueue_of_hasSeenEmpty run (by rw [point]; rfl)
    refine .of_step (a := .block) trivial (by simp only [step, clear, act, point]; rfl) ?_
    exact ⟨_, .start, Or.inr ⟨queue, rfl, rfl⟩⟩
  | blocked numMaxMessages =>
    have queue := inMsgQueue_of_hasSeenEmpty run (by rw [point]; rfl)
    exact idle queue (by rw [point]; rfl) (by rw [point]; rfl)
  | testing numMaxMessages msgCount => exact testing s clear point
  | popping numMaxMessages msgCount =>
    cases queue : s.server.inMsgQueue with
    | nil => exact absurd queue (popsMessage_of_reachable run.reachable _ _ point)
    | cons msg rest => exact serving_popping clear point queue fun t clear _ => testing t clear
  | received numMaxMessages msgCount msg => exact serving_received clear point fun t clear _ => testing t clear
  | handled numMaxMessages msgCount msg =>
    refine .of_step (a := .endIteration) trivial (by simp only [step, clear, act, point]; rfl) ?_
    exact testing _ rfl rfl

end System
end MyCQ
