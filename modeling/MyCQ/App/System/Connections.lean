import MyCQ.App.System.Steps
import MyCQ.Net.Endpoint.Validation

/-! The connections of the running server as endpoints.

`endpoint_of_reachable` is the bridge from the server to a single connection:
in every reachable state each accepted connection is in a state that an
endpoint reaches on its own from the accept handler.
-/

set_option autoImplicit false

namespace MyCQ
open Octets (Endian)
open ConnectionInterface (Handler)

def UpdateThread.unhandled : UpdateThread → List OwnedMessage
  | received _ _ msg => [msg]
  | _ => []

namespace MyCQServer

def serverAccept : Message := .ofId MyCQMessages.serverAccept.toUInt32

/-- The order of the two calls in the accept handler does not matter for the new connection. -/
theorem acceptConnection_conn (s : MyCQServer) (clock : UInt64) (c : ConnRef) :
    (s.acceptConnection clock).conn c =
      if c = s.created then (ConnectionInterface.accepted clock s.idCounter).sendAll [serverAccept]
      else s.conn c := by
  by_cases new : c = s.created
  · subst new
    simp only [acceptConnection, onClientConnect, setConn, sendData, Function.update_self, if_true]
    rfl
  · simp [acceptConnection, onClientConnect, setConn, sendData, new]

@[simp] theorem acceptConnection_created (s : MyCQServer) (clock : UInt64) :
    (s.acceptConnection clock).created = s.created + 1 := rfl

@[simp] theorem acceptConnection_connectionsQueue (s : MyCQServer) (clock : UInt64) :
    (s.acceptConnection clock).connectionsQueue = s.connectionsQueue ++ [some s.created] := rfl

end MyCQServer

namespace System

variable {order : Endian} {s t : System} {a : Action}

/-- The bookkeeping of the server: connections are created in order, only created connections are
referred to, and every message pushed is handled, in hand or queued. -/
structure WellFormed (s : System) : Prop where
  created : s.server.created = s.challenges.length
  unborn : ∀ c, s.server.created ≤ c → s.server.conn c = default
  remotes : ∀ m ∈ s.pushed, ∃ c, m.remote = some c ∧ c < s.server.created
  entries : ∀ entry ∈ s.server.connectionsQueue, ∃ c, entry = some c ∧ c < s.server.created
  log : s.calls ++ s.thread.unhandled ++ s.server.inMsgQueue = s.pushed

@[simp] theorem finishHandler_unhandled (s : System) (c : ConnRef) (conn : ConnectionInterface)
    (out : Option Message) : (s.finishHandler c conn out).thread.unhandled = s.thread.unhandled := by
  rcases s.finishHandler_thread c conn out with same | ⟨_, _, before, after⟩
  · rw [same]
  · rw [before, after]
    rfl

theorem wellFormed_start (idCounter : UInt32) : WellFormed (start idCounter) where
  created := rfl
  unborn _ _ := rfl
  remotes _ none := absurd none List.not_mem_nil
  entries _ none := absurd none List.not_mem_nil
  log := rfl

theorem runHandler_default (h : Handler) : (default : ConnectionInterface).runHandler order h = none := by
  cases h <;> rfl

theorem WellFormed.created_of_ran (wellFormed : WellFormed s) {c : ConnRef} {h : Handler}
    {result : ConnectionInterface × Option Message}
    (ran : (s.server.conn c).runHandler order h = some result) : c < s.server.created := by
  refine Nat.lt_of_not_le fun unborn => ?_
  rw [wellFormed.unborn c unborn, runHandler_default] at ran
  cases ran

theorem Moves.unhandled {queue : List OwnedMessage} {thread next : UpdateThread}
    (moves : Moves queue thread next) : thread.unhandled = [] ∧ next.unhandled = [] := by
  cases moves with
  | call _ enableWaiting => cases enableWaiting <;> exact ⟨rfl, rfl⟩
  | _ => exact ⟨rfl, rfl⟩

theorem sent_created (wellFormed : WellFormed s) {msg : OwnedMessage} (pushed : msg ∈ s.pushed) {d : ConnRef}
    {m : Message} (sent : MyCQServer.Sent order s.server msg.remote msg.msg d m) : d < s.server.created := by
  rcases sent.recipient with found | ⟨listed, _⟩
  · obtain ⟨c, same, created⟩ := wellFormed.remotes msg pushed
    rw [found] at same
    cases same
    exact created
  · obtain ⟨c, same, created⟩ := wellFormed.entries _ listed
    cases same
    exact created

structure Operates (s : System) (server : MyCQServer) (out : ConnRef → List Message) : Prop where
  delivers : s.server.Delivers server out
  created : ∀ d m, m ∈ out d → d < s.server.created
  entries : ∀ entry ∈ server.connectionsQueue, entry ∈ s.server.connectionsQueue

theorem WellFormed.unhandled_pushed (wellFormed : WellFormed s) {msg : OwnedMessage}
    (inHand : msg ∈ s.thread.unhandled) : msg ∈ s.pushed := by
  rw [← wellFormed.log]
  exact List.mem_append_left _ (List.mem_append_right _ inHand)

theorem operates_onMessage (wellFormed : WellFormed s) {uninitialized : ClientsListDescription}
    {msg : OwnedMessage} {server : MyCQServer} (inHand : msg ∈ s.thread.unhandled)
    (ran : s.server.onMessage order uninitialized msg.remote msg.msg = .ok server) :
    ∃ out, Operates s server out ∧
      ∀ d m, m ∈ out d → MyCQServer.Sent order s.server msg.remote msg.msg d m := by
  obtain ⟨out, delivers, sent, queue⟩ := (MyCQServer.handled_of_onMessage ran).delivers
  refine ⟨out, ⟨delivers, fun d m member => ?_, fun entry member => ?_⟩, sent⟩
  · exact sent_created wellFormed (wellFormed.unhandled_pushed inHand) (sent d m member)
  · rw [queue] at member
    split at member
    · exact (List.mem_filter.mp member).1
    · exact member

theorem operates_sendMessageToAllClients (wellFormed : WellFormed s) {msg : Message}
    {ignoreClient : Option ConnRef} {server : MyCQServer}
    (ran : s.server.sendMessageToAllClients msg ignoreClient = .ok server) :
    Operates s server (s.server.broadcastTo s.server.connectionsQueue msg ignoreClient) := by
  obtain ⟨delivers, queue, _⟩ := MyCQServer.sendMessageToAllClients_ok ran
  refine ⟨delivers, fun d m member => ?_, fun entry member => ?_⟩
  · obtain ⟨c, same, created⟩ := wellFormed.entries _ (MyCQServer.mem_broadcastTo member).1
    cases same
    exact created
  · rw [queue] at member
    exact (List.mem_filter.mp member).1

theorem operates_sendMessageToClient (wellFormed : WellFormed s) {msg : Message} {client : Option ConnRef}
    {server : MyCQServer} (ran : s.server.sendMessageToClient client msg = .ok server) :
    ∃ out, Operates s server out ∧
      ∀ d m, m ∈ out d → m = msg ∧ client = some d ∧ s.server.isConnected d = true := by
  obtain ⟨out, delivers, sent, queue⟩ := MyCQServer.sendMessageToClient_ok ran
  refine ⟨out, ⟨delivers, fun d m member => ?_, fun entry member => ?_⟩, sent⟩
  · refine Nat.lt_of_not_le fun unborn => ?_
    have isOpen := (sent d m member).2.2
    rw [MyCQServer.isConnected, wellFormed.unborn d unborn] at isOpen
    cases isOpen
  · rcases queue with same | filtered
    · rwa [same] at member
    · rw [filtered] at member
      exact (List.mem_filter.mp member).1

theorem WellFormed.operate (wellFormed : WellFormed s) {server : MyCQServer} {out : ConnRef → List Message}
    (operates : Operates s server out) : WellFormed { s with server } where
  created := operates.delivers.created.trans wellFormed.created
  unborn c unborn := by
    rw [operates.delivers.created] at unborn
    have silent : out c = [] := by
      refine List.eq_nil_iff_forall_not_mem.mpr fun m member => ?_
      exact Nat.not_lt.mpr unborn (operates.created c m member)
    rw [operates.delivers.conn, silent, ConnectionInterface.sendAll_nil, wellFormed.unborn c unborn]
  remotes m member := by
    rw [operates.delivers.created]
    exact wellFormed.remotes m member
  entries entry member := by
    rw [operates.delivers.created]
    exact wellFormed.entries entry (operates.entries entry member)
  log := by
    rw [operates.delivers.inMsgQueue]
    exact wellFormed.log

theorem WellFormed.withFault (wellFormed : WellFormed s) (fault : Fault) :
    WellFormed { s with fault := some fault } :=
  ⟨wellFormed.created, wellFormed.unborn, wellFormed.remotes, wellFormed.entries, wellFormed.log⟩

theorem WellFormed.call (wellFormed : WellFormed s) {numMaxMessages msgCount : UInt64} {msg : OwnedMessage}
    (point : s.thread = .received numMaxMessages msgCount msg) :
    WellFormed { s with thread := .handled numMaxMessages msgCount msg, calls := s.calls ++ [msg] } where
  created := wellFormed.created
  unborn := wellFormed.unborn
  remotes := wellFormed.remotes
  entries := wellFormed.entries
  log := by simpa [point, UpdateThread.unhandled] using wellFormed.log

theorem WellFormed.step (wellFormed : WellFormed s) (taken : s.step order a = some t) : WellFormed t := by
  cases step_cases taken with
  | accept clock =>
    refine ⟨?_, fun c unborn => ?_, fun m member => ?_, fun entry member => ?_, wellFormed.log⟩
    · rw [MyCQServer.acceptConnection_created, List.length_append, wellFormed.created, List.length_singleton]
    · have later : s.server.created + 1 ≤ c := unborn
      have other : c ≠ s.server.created := by omega
      simp only [MyCQServer.acceptConnection_conn, other, if_false]
      exact wellFormed.unborn c (by omega)
    · obtain ⟨c, same, created⟩ := wellFormed.remotes m member
      exact ⟨c, same, Nat.lt_succ_of_lt created⟩
    · rcases List.mem_append.mp member with old | new
      · obtain ⟨c, same, created⟩ := wellFormed.entries entry old
        exact ⟨c, same, Nat.lt_succ_of_lt created⟩
      · exact ⟨_, List.mem_singleton.mp new, Nat.lt_succ_self _⟩
  | handler c h conn out ran owned =>
    have created := wellFormed.created_of_ran ran
    refine ⟨wellFormed.created, fun d unborn => ?_, fun m member => ?_, wellFormed.entries, ?_⟩
    · have later : s.server.created ≤ d := unborn
      have other : d ≠ c := Nat.ne_of_gt (Nat.lt_of_lt_of_le created later)
      simp only [finishHandler, MyCQServer.setConn, Function.update_of_ne other]
      exact wellFormed.unborn d later
    · rcases List.mem_append.mp member with old | new
      · exact wellFormed.remotes m old
      · obtain ⟨_, _, rfl⟩ := List.mem_map.mp new
        exact ⟨c, rfl, created⟩
    · rw [finishHandler_unhandled]
      simp only [finishHandler, MyCQServer.setConn, ← wellFormed.log, List.append_assoc]
  | dangling => exact wellFormed.withFault _
  | moves _ thread moved =>
    have log := wellFormed.log
    rw [moved.unhandled.1] at log
    refine ⟨wellFormed.created, wellFormed.unborn, wellFormed.remotes, wellFormed.entries, ?_⟩
    simp only [moved.unhandled.2]
    exact log
  | emptyPop => exact wellFormed.withFault _
  | popFront numMaxMessages msgCount msg rest point queue =>
    refine ⟨wellFormed.created, wellFormed.unborn, wellFormed.remotes, wellFormed.entries, ?_⟩
    simpa [point, queue, UpdateThread.unhandled] using wellFormed.log
  | onMessage uninitialized numMaxMessages msgCount msg server point ran =>
    have inHand : msg ∈ s.thread.unhandled := by simp [point, UpdateThread.unhandled]
    obtain ⟨out, operates, _⟩ := operates_onMessage wellFormed inHand ran
    have called : Operates { s with thread := .handled numMaxMessages msgCount msg, calls := s.calls ++ [msg] }
        server out :=
      ⟨operates.delivers, operates.created, operates.entries⟩
    exact (wellFormed.call point).operate called
  | onMessageFault uninitialized numMaxMessages msgCount msg fault point =>
    exact (wellFormed.call point).withFault fault
  | endIteration numMaxMessages msgCount msg point =>
    refine ⟨wellFormed.created, wellFormed.unborn, wellFormed.remotes, wellFormed.entries, ?_⟩
    simpa [point, UpdateThread.unhandled] using wellFormed.log
  | sendMessageToAllClients msg ignoreClient server point ran =>
    exact wellFormed.operate (operates_sendMessageToAllClients wellFormed ran)
  | sendMessageToClient client msg server point held ran =>
    obtain ⟨out, operates, _⟩ := operates_sendMessageToClient wellFormed ran
    exact wellFormed.operate operates
  | sendFault _ fault => exact wellFormed.withFault fault

theorem wellFormed_of_reachable {idCounter : UInt32}
    (run : Transition.Reachable (System.step order) (.start idCounter) s) : WellFormed s :=
  run.invariant (wellFormed_start idCounter) fun _ _ _ wellFormed _ taken => wellFormed.step taken

theorem Operates.endpoint {server : MyCQServer} {out : ConnRef → List Message}
    (operates : Operates s server out) (c : ConnRef) :
    ConnStep order (s.endpoint c) ({ s with server }.endpoint c) := by
  have sends := @ConnStep.sends order (s.endpoint c) (out c)
  rwa [show (s.endpoint c).conn.sendAll (out c) = server.conn c from (operates.delivers.conn c).symm] at sends

/-- Between two steps of the system an accepted connection makes steps of its own. -/
theorem endpoint_step (wellFormed : WellFormed s) (taken : s.step order a = some t) {c : ConnRef}
    (created : c < s.server.created) : ConnStep order (s.endpoint c) (t.endpoint c) := by
  cases step_cases taken with
  | accept clock =>
    have old : c ≠ s.server.created := Nat.ne_of_lt created
    have same : (s.server.acceptConnection clock).conn c = s.server.conn c := by
      rw [MyCQServer.acceptConnection_conn, if_neg old]
    simp only [endpoint, same]
    exact .refl order _
  | handler d h conn out ran owned =>
    by_cases same : c = d
    · subst same
      refine .handler h _ ?_
      simp only [Endpoint.step, endpoint, ran, Option.map_some, finishHandler, MyCQServer.setConn,
        Function.update_self, List.filter_append, List.map_append]
      congr 3
      cases out <;> simp
    · have unchanged : (s.finishHandler d conn out).endpoint c = s.endpoint c := by
        simp only [endpoint, finishHandler, MyCQServer.setConn, Function.update_of_ne same,
          List.filter_append, List.map_append]
        congr 1
        cases out with
        | none => simp
        | some msg => simpa using fun back : d = c => same back.symm
      rw [unchanged]
      exact .refl order _
  | dangling => exact .refl order _
  | moves => exact .refl order _
  | emptyPop => exact .refl order _
  | popFront => exact .refl order _
  | onMessage uninitialized numMaxMessages msgCount msg server point ran =>
    have inHand : msg ∈ s.thread.unhandled := by simp [point, UpdateThread.unhandled]
    obtain ⟨out, operates, _⟩ := operates_onMessage wellFormed inHand ran
    exact operates.endpoint c
  | onMessageFault => exact .refl order _
  | endIteration => exact .refl order _
  | sendMessageToAllClients msg ignoreClient server point ran =>
    exact (operates_sendMessageToAllClients wellFormed ran).endpoint c
  | sendMessageToClient client msg server point held ran =>
    obtain ⟨out, operates, _⟩ := operates_sendMessageToClient wellFormed ran
    exact operates.endpoint c
  | sendFault => exact .refl order _

theorem endpoint_accept (wellFormed : WellFormed s) (clock : UInt64) :
    Transition.Reachable (Endpoint.step order) ⟨.accepted clock s.server.idCounter, []⟩
      ({ s with
        server := s.server.acceptConnection clock
        challenges := s.challenges ++ [clock] }.endpoint s.server.created) := by
  have silent : (s.pushed.filter fun m => m.remote = some s.server.created) = [] := by
    refine List.filter_eq_nil_iff.mpr fun m member found => ?_
    obtain ⟨c, same, created⟩ := wellFormed.remotes m member
    rw [decide_eq_true_eq, same] at found
    cases found
    exact Nat.lt_irrefl _ created
  simp only [endpoint, silent, List.map_nil, MyCQServer.acceptConnection_conn, if_true]
  exact run_sendAll order ⟨.accepted clock s.server.idCounter, []⟩ [MyCQServer.serverAccept]

theorem challenges_step (taken : s.step order a = some t) :
    (∃ clock, t = { s with
      server := s.server.acceptConnection clock
      challenges := s.challenges ++ [clock] }) ∨ t.challenges = s.challenges := by
  cases step_cases taken with
  | accept clock => exact Or.inl ⟨clock, rfl⟩
  | _ => exact Or.inr rfl

/-- Every accepted connection is an endpoint that was started with its own challenge. -/
theorem endpoint_of_reachable {idCounter : UInt32}
    (run : Transition.Reachable (System.step order) (.start idCounter) s) (c : ConnRef) (challenge : UInt64)
    (accepted : s.challenges[c]? = some challenge) :
    ∃ uId, Transition.Reachable (Endpoint.step order) ⟨.accepted challenge uId, []⟩ (s.endpoint c) := by
  induction run generalizing c challenge with
  | start => cases accepted
  | @next s t a before _ taken ih =>
    have wellFormed := wellFormed_of_reachable before
    by_cases old : c < s.server.created
    · have known : s.challenges[c]? = some challenge := by
        rcases challenges_step taken with ⟨clock, rfl⟩ | same
        · rw [wellFormed.created] at old
          rwa [List.getElem?_append_left old] at accepted
        · rwa [same] at accepted
      obtain ⟨uId, reached⟩ := ih c challenge known
      exact ⟨uId, reached.trans (endpoint_step wellFormed taken old).reachable⟩
    · rw [wellFormed.created] at old
      rcases challenges_step taken with ⟨clock, rfl⟩ | same
      · rw [List.getElem?_append_right (Nat.le_of_not_lt old), List.getElem?_singleton] at accepted
        split at accepted
        · next first =>
          cases accepted
          have new : c = s.server.created := by
            rw [wellFormed.created]
            exact Nat.le_antisymm (Nat.le_of_sub_eq_zero first) (Nat.le_of_not_lt old)
          exact ⟨_, new ▸ endpoint_accept wellFormed challenge⟩
        · cases accepted
      · rw [same, List.getElem?_eq_none (Nat.le_of_not_lt old)] at accepted
        cases accepted

theorem exists_accepted_endpoint {idCounter : UInt32}
    (run : Transition.Reachable (System.step order) (.start idCounter) s) {c : ConnRef}
    (created : c < s.server.created) : ∃ challenge uId,
      Transition.Reachable (Endpoint.step order) ⟨.accepted challenge uId, []⟩ (s.endpoint c) := by
  rw [(wellFormed_of_reachable run).created] at created
  exact ⟨s.challenges[c], endpoint_of_reachable run c s.challenges[c] (List.getElem?_eq_getElem created)⟩

end System
end MyCQ
