import MyCQ.App.System
import MyCQ.Net.Endpoint

/-! What a step of the running server can do, and what it means for one connection.

`step_cases` lists the outcomes of a step. `endpoint_step` shows that between
two steps of the system every connection makes steps of its own, so that what
holds of every reachable endpoint holds of every connection of the server.
-/

set_option autoImplicit false

namespace MyCQ
open Octets (Endian)
open ConnectionInterface (Handler)

namespace System

inductive Moves (queue : List OwnedMessage) : UpdateThread → UpdateThread → Prop where
  | call (numMaxMessages : UInt64) (enableWaiting : Bool) : Moves queue .outside
      (if enableWaiting then .waiting numMaxMessages else .testing numMaxMessages 0)
  | wake (numMaxMessages : UInt64) : queue ≠ [] → Moves queue (.waiting numMaxMessages) (.testing numMaxMessages 0)
  | seesEmpty (numMaxMessages : UInt64) : queue = [] → Moves queue (.waiting numMaxMessages) (.blocking numMaxMessages)
  | block (numMaxMessages : UInt64) : Moves queue (.blocking numMaxMessages) (.blocked numMaxMessages)
  | spuriousWakeUp (numMaxMessages : UInt64) : Moves queue (.blocked numMaxMessages) (.waiting numMaxMessages)
  | enter (numMaxMessages msgCount : UInt64) : msgCount < numMaxMessages → queue ≠ [] →
      Moves queue (.testing numMaxMessages msgCount) (.popping numMaxMessages msgCount)
  | leave (numMaxMessages msgCount : UInt64) : (msgCount < numMaxMessages → queue = []) →
      Moves queue (.testing numMaxMessages msgCount) .outside

inductive StepCases (order : Endian) (s : System) : Action → System → Prop where
  | accept (clock : UInt64) : StepCases order s (.accept clock)
      { s with server := s.server.acceptConnection clock, challenges := s.challenges ++ [clock] }
  | handler (c : ConnRef) (h : Handler) (conn : ConnectionInterface) (out : Option Message) :
      (s.server.conn c).runHandler order h = some (conn, out) → s.Owned c →
      StepCases order s (.handler c h) (s.finishHandler c conn out)
  | dangling (c : ConnRef) (h : Handler) (result : ConnectionInterface × Option Message) :
      (s.server.conn c).runHandler order h = some result → ¬ s.Owned c →
      StepCases order s (.handler c h) { s with fault := some .useAfterFree }
  | moves (a : Action) (thread : UpdateThread) : Moves s.server.inMsgQueue s.thread thread →
      StepCases order s a { s with thread := thread }
  | emptyPop (numMaxMessages msgCount : UInt64) : s.thread = .popping numMaxMessages msgCount →
      s.server.inMsgQueue = [] → StepCases order s .popFront { s with fault := some .emptyQueue }
  | popFront (numMaxMessages msgCount : UInt64) (msg : OwnedMessage) (rest : List OwnedMessage) :
      s.thread = .popping numMaxMessages msgCount → s.server.inMsgQueue = msg :: rest →
      StepCases order s .popFront
        { s with
          server := { s.server with inMsgQueue := rest }
          thread := .received numMaxMessages msgCount msg }
  | onMessage (uninitialized : ClientsListDescription) (numMaxMessages msgCount : UInt64) (msg : OwnedMessage)
      (server : MyCQServer) : s.thread = .received numMaxMessages msgCount msg →
      s.server.onMessage order uninitialized msg.remote msg.msg = .ok server →
      StepCases order s (.onMessage uninitialized)
        { s with server, thread := .handled numMaxMessages msgCount msg, calls := s.calls ++ [msg] }
  | onMessageFault (uninitialized : ClientsListDescription) (numMaxMessages msgCount : UInt64)
      (msg : OwnedMessage) (fault : Fault) : s.thread = .received numMaxMessages msgCount msg →
      s.server.onMessage order uninitialized msg.remote msg.msg = .error fault →
      StepCases order s (.onMessage uninitialized)
        { s with thread := .handled numMaxMessages msgCount msg, calls := s.calls ++ [msg], fault := some fault }
  | endIteration (numMaxMessages msgCount : UInt64) (msg : OwnedMessage) :
      s.thread = .handled numMaxMessages msgCount msg →
      StepCases order s .endIteration { s with thread := .testing numMaxMessages (msgCount + 1) }
  | sendMessageToAllClients (msg : Message) (ignoreClient : Option ConnRef) (server : MyCQServer) :
      s.thread = .outside → s.server.sendMessageToAllClients msg ignoreClient = .ok server →
      StepCases order s (.sendMessageToAllClients msg ignoreClient) { s with server }
  | sendMessageToClient (client : Option ConnRef) (msg : Message) (server : MyCQServer) :
      s.thread = .outside → (∀ d, client = some d → s.Owned d) →
      s.server.sendMessageToClient client msg = .ok server →
      StepCases order s (.sendMessageToClient client msg) { s with server }
  | sendFault (a : Action) (fault : Fault) : s.thread = .outside →
      StepCases order s a { s with fault := some fault }

variable {order : Endian} {s t : System} {a : Action}

theorem finishHandler_thread (s : System) (c : ConnRef) (conn : ConnectionInterface) (out : Option Message) :
    (s.finishHandler c conn out).thread = s.thread ∨ out.isSome = true ∧ ∃ numMaxMessages,
      s.thread = .blocked numMaxMessages ∧ (s.finishHandler c conn out).thread = .waiting numMaxMessages := by
  cases out with
  | none => exact Or.inl rfl
  | some msg =>
    cases point : s.thread with
    | blocked numMaxMessages =>
      exact Or.inr ⟨rfl, numMaxMessages, rfl, by simp [finishHandler, point, UpdateThread.notified]⟩
    | _ => exact Or.inl (by simp [finishHandler, point, UpdateThread.notified])

@[simp] theorem finishHandler_held (s : System) (c : ConnRef) (conn : ConnectionInterface) (out : Option Message) :
    (s.finishHandler c conn out).thread.held = s.thread.held := by
  rcases s.finishHandler_thread c conn out with same | ⟨_, _, before, after⟩
  · rw [same]
  · rw [before, after]
    rfl

theorem settle_cases {P : System → Prop} {result : Except Fault MyCQServer}
    (returned : ∀ server, result = .ok server → P { s with server })
    (faulted : ∀ fault, result = .error fault → P { s with fault := some fault }) :
    P (s.settle result) := by
  cases result with
  | ok server => exact returned server rfl
  | error fault => exact faulted fault rfl

theorem step_cases (taken : s.step order a = some t) : StepCases order s a t := by
  unfold step at taken
  split at taken
  · cases taken
  cases a with
  | accept clock =>
    cases taken
    exact .accept clock
  | handler c h =>
    simp only [act] at taken
    split at taken
    · cases taken
    · next conn out ran =>
      split at taken
      · next owned =>
        cases taken
        exact .handler c h conn out ran owned
      · next unowned =>
        cases taken
        exact .dangling c h _ ran unowned
  | update numMaxMessages enableWaiting =>
    simp only [act] at taken
    split at taken
    · next point =>
      cases taken
      exact .moves _ _ (by rw [point]; exact .call _ _)
    · cases taken
  | waitReturns =>
    simp only [act] at taken
    split at taken
    · next point =>
      split at taken
      · next waiting =>
        cases taken
        exact .moves _ _ (by rw [point]; exact .wake _ waiting)
      · cases taken
    · cases taken
  | seesEmpty =>
    simp only [act] at taken
    split at taken
    · next point =>
      split at taken
      · next empty =>
        cases taken
        exact .moves _ _ (by rw [point]; exact .seesEmpty _ empty)
      · cases taken
    · cases taken
  | block =>
    simp only [act] at taken
    split at taken
    · next point =>
      cases taken
      exact .moves _ _ (by rw [point]; exact .block _)
    · cases taken
  | spuriousWakeUp =>
    simp only [act] at taken
    split at taken
    · next point =>
      cases taken
      exact .moves _ _ (by rw [point]; exact .spuriousWakeUp _)
    · cases taken
  | test =>
    simp only [act] at taken
    split at taken
    · next point =>
      split at taken
      · next more =>
        cases taken
        exact .moves _ _ (by rw [point]; exact .enter _ _ more.1 more.2)
      · next no_more =>
        cases taken
        refine .moves _ _ ?_
        rw [point]
        exact .leave _ _ fun below => Decidable.not_not.mp fun waiting => no_more ⟨below, waiting⟩
    · cases taken
  | popFront =>
    simp only [act] at taken
    split at taken
    · next point queue =>
      cases taken
      exact .emptyPop _ _ point queue
    · next point queue =>
      cases taken
      exact .popFront _ _ _ _ point queue
    · cases taken
  | onMessage uninitialized =>
    simp only [act] at taken
    split at taken
    · next point =>
      cases taken
      exact settle_cases (fun _ ran => .onMessage _ _ _ _ _ point ran)
        fun _ ran => .onMessageFault _ _ _ _ _ point ran
    · cases taken
  | endIteration =>
    simp only [act] at taken
    split at taken
    · next point =>
      cases taken
      exact .endIteration _ _ _ point
    · cases taken
  | sendMessageToAllClients msg ignoreClient =>
    simp only [act] at taken
    split at taken
    · next point =>
      cases taken
      exact settle_cases (fun _ ran => .sendMessageToAllClients _ _ _ point ran)
        fun _ _ => .sendFault _ _ point
    · cases taken
  | sendMessageToClient client msg =>
    simp only [act] at taken
    split at taken
    · next point =>
      split at taken
      · next held =>
        cases taken
        refine settle_cases (fun _ ran => .sendMessageToClient _ _ _ point (fun d found => ?_) ran)
          fun _ _ => .sendFault _ _ point
        rw [found] at held
        exact of_decide_eq_true held
      · cases taken
    · cases taken

theorem clear_of_step (taken : s.step order a = some t) : s.fault = none := by
  unfold step at taken
  split at taken
  · cases taken
  · next clear => exact clear

theorem accept_eq {clock : UInt64} (taken : s.step order (.accept clock) = some t) : t = { s with
    server := s.server.acceptConnection clock
    challenges := s.challenges ++ [clock] } := by
  unfold step at taken
  split at taken
  · cases taken
  · cases taken
    rfl

inductive FaultCases (order : Endian) (s : System) : Action → Fault → Prop where
  | dangling (c : ConnRef) (h : Handler) : ¬ s.Owned c → FaultCases order s (.handler c h) .useAfterFree
  | emptyPop : s.server.inMsgQueue = [] → FaultCases order s .popFront .emptyQueue
  | onMessage (uninitialized : ClientsListDescription) (numMaxMessages msgCount : UInt64) (msg : OwnedMessage)
      (fault : Fault) : s.thread = .received numMaxMessages msgCount msg →
      s.server.onMessage order uninitialized msg.remote msg.msg = .error fault →
      FaultCases order s (.onMessage uninitialized) fault
  | sendMessageToAllClients (msg : Message) (ignoreClient : Option ConnRef) (fault : Fault) :
      s.server.sendMessageToAllClients msg ignoreClient = .error fault →
      FaultCases order s (.sendMessageToAllClients msg ignoreClient) fault
  | sendMessageToClient (client : Option ConnRef) (msg : Message) (fault : Fault) :
      s.server.sendMessageToClient client msg = .error fault →
      FaultCases order s (.sendMessageToClient client msg) fault

theorem settle_fault {result : Except Fault MyCQServer} {fault : Fault}
    (failed : (s.settle result).fault = some fault) (clear : s.fault = none) : result = .error fault := by
  cases result with
  | ok server => cases clear.symm.trans failed
  | error found =>
    cases failed
    rfl

theorem fault_cases {fault : Fault} (taken : s.step order a = some t) (failed : t.fault = some fault) :
    FaultCases order s a fault := by
  unfold step at taken
  split at taken
  · cases taken
  next clear =>
  cases a with
  | accept clock =>
    cases taken
    cases clear.symm.trans failed
  | handler c h =>
    simp only [act] at taken
    split at taken
    · cases taken
    · split at taken
      · cases taken
        cases clear.symm.trans failed
      · next unowned =>
        cases taken
        cases failed
        exact .dangling c h unowned
  | update numMaxMessages enableWaiting =>
    simp only [act] at taken
    split at taken
    · cases taken
      cases clear.symm.trans failed
    · cases taken
  | waitReturns =>
    simp only [act] at taken
    split at taken
    · split at taken
      · cases taken
        cases clear.symm.trans failed
      · cases taken
    · cases taken
  | seesEmpty =>
    simp only [act] at taken
    split at taken
    · split at taken
      · cases taken
        cases clear.symm.trans failed
      · cases taken
    · cases taken
  | block =>
    simp only [act] at taken
    split at taken
    · cases taken
      cases clear.symm.trans failed
    · cases taken
  | spuriousWakeUp =>
    simp only [act] at taken
    split at taken
    · cases taken
      cases clear.symm.trans failed
    · cases taken
  | test =>
    simp only [act] at taken
    split at taken
    · split at taken
      · cases taken
        cases clear.symm.trans failed
      · cases taken
        cases clear.symm.trans failed
    · cases taken
  | popFront =>
    simp only [act] at taken
    split at taken
    · next queue =>
      cases taken
      cases failed
      exact .emptyPop queue
    · cases taken
      cases clear.symm.trans failed
    · cases taken
  | onMessage uninitialized =>
    simp only [act] at taken
    split at taken
    · next point =>
      cases taken
      exact .onMessage _ _ _ _ _ point (settle_fault failed clear)
    · cases taken
  | endIteration =>
    simp only [act] at taken
    split at taken
    · cases taken
      cases clear.symm.trans failed
    · cases taken
  | sendMessageToAllClients msg ignoreClient =>
    simp only [act] at taken
    split at taken
    · cases taken
      exact .sendMessageToAllClients _ _ _ (settle_fault failed clear)
    · cases taken
  | sendMessageToClient client msg =>
    simp only [act] at taken
    split at taken
    · split at taken
      · cases taken
        exact .sendMessageToClient _ _ _ (settle_fault failed clear)
      · cases taken
    · cases taken

def endpoint (s : System) (c : ConnRef) : Endpoint :=
  ⟨s.server.conn c, (s.pushed.filter fun m => m.remote = some c).map OwnedMessage.msg⟩

inductive ConnStep (order : Endian) (p : Endpoint) : Endpoint → Prop where
  | handler (h : Handler) (q : Endpoint) : p.step order (.handler h) = some q → ConnStep order p q
  | sends (msgs : List Message) : ConnStep order p ⟨p.conn.sendAll msgs, p.enqueued⟩

theorem ConnStep.refl (order : Endian) (p : Endpoint) : ConnStep order p p := by
  have none := @ConnStep.sends order p []
  rwa [ConnectionInterface.sendAll_nil] at none

theorem run_sendAll (order : Endian) (p : Endpoint) (msgs : List Message) :
    Transition.Reachable (Endpoint.step order) p ⟨p.conn.sendAll msgs, p.enqueued⟩ := by
  induction msgs generalizing p with
  | nil =>
    rw [ConnectionInterface.sendAll_nil]
    exact .start
  | cons msg rest ih =>
    have first : p.step order (.sendData msg) = some ⟨p.conn.sendAll [msg], p.enqueued⟩ := rfl
    have others := ih ⟨p.conn.sendAll [msg], p.enqueued⟩
    rw [ConnectionInterface.sendAll_sendAll, List.singleton_append] at others
    exact (Transition.Run.next .start trivial first).trans others

theorem ConnStep.reachable {p q : Endpoint} (moved : ConnStep order p q) :
    Transition.Reachable (Endpoint.step order) p q := by
  cases moved with
  | handler h q taken => exact .next .start trivial taken
  | sends msgs => exact run_sendAll order p msgs

end System
end MyCQ
