import MyCQ.App.System.Connections
import MyCQ.Net.Endpoint.Writer

/-! The handshake as a gate in both directions.

Inbound, the gate holds over all runs: only validated connections push
messages. Outbound it holds as long as no forwarded message meets a connection
of the list that is not validated yet.
-/

set_option autoImplicit false

namespace MyCQ
open Octets (Endian)
open Endpoint (Answered ServerEnd)

namespace System

variable {order : Endian} {idCounter : UInt32} {s t : System} {a : Action}

theorem serverEnd_of_reachable (run : Transition.Reachable (System.step order) (.start idCounter) s)
    {c : ConnRef} {challenge : UInt64} (accepted : s.challenges[c]? = some challenge) :
    ServerEnd order challenge (s.endpoint c) :=
  have ⟨_, reached⟩ := endpoint_of_reachable run c challenge accepted
  Endpoint.serverEnd_of_reachable reached

theorem exists_challenge (wellFormed : WellFormed s) {c : ConnRef} (created : c < s.server.created) :
    ∃ challenge, s.challenges[c]? = some challenge := by
  rw [wellFormed.created] at created
  exact ⟨_, List.getElem?_eq_getElem created⟩

theorem enqueued_of_pushed {c : ConnRef} {m : OwnedMessage} (pushed : m ∈ s.pushed)
    (remote : m.remote = some c) : m.msg ∈ (s.endpoint c).enqueued :=
  List.mem_map.mpr ⟨m, List.mem_filter.mpr ⟨pushed, decide_eq_true remote⟩, rfl⟩

structure InboundGate (order : Endian) (s : System) (c : ConnRef) : Prop where
  pushed : (∃ m ∈ s.pushed, m.remote = some c) → ∃ challenge, s.challenges[c]? = some challenge ∧
    Answered order challenge (s.server.conn c).socketConnection.received
  called : (∃ m ∈ s.calls, m.remote = some c) → ∃ challenge, s.challenges[c]? = some challenge ∧
    Answered order challenge (s.server.conn c).socketConnection.received
  refused : ∀ challenge, s.challenges[c]? = some challenge →
    .checkValidation ∉ (s.server.conn c).socketConnection.reads →
    ¬ Answered order challenge (s.server.conn c).socketConnection.received →
    (s.server.conn c).socketConnection.isOpen = false ∧ (s.server.conn c).socketConnection.reads = [] ∧
      .header ∉ (s.server.conn c).socketConnection.readsStarted ∧ ∀ m ∈ s.pushed, m.remote ≠ some c
  oneRead : (s.server.conn c).socketConnection.reads.length ≤ 1

theorem answered_of_pushed (run : Transition.Reachable (System.step order) (.start idCounter) s)
    {c : ConnRef} {m : OwnedMessage} (pushed : m ∈ s.pushed) (remote : m.remote = some c) :
    ∃ challenge, s.challenges[c]? = some challenge ∧
      Answered order challenge (s.server.conn c).socketConnection.received ∧
      (s.server.conn c).handshakeFlag = true := by
  have wellFormed := wellFormed_of_reachable run
  obtain ⟨d, same, created⟩ := wellFormed.remotes m pushed
  rw [remote] at same
  cases same
  obtain ⟨challenge, accepted⟩ := exists_challenge wellFormed created
  have server := serverEnd_of_reachable run accepted
  exact ⟨challenge, accepted,
    server.answered_of_enqueued (List.ne_nil_of_mem (enqueued_of_pushed pushed remote))⟩

theorem pushed_of_called (wellFormed : WellFormed s) {m : OwnedMessage} (called : m ∈ s.calls) :
    m ∈ s.pushed := by
  rw [← wellFormed.log, List.append_assoc]
  exact List.mem_append_left _ called

/-- The inbound gate, for every connection in every reachable state. -/
theorem inbound_gate (run : Transition.Reachable (System.step order) (.start idCounter) s) (c : ConnRef) :
    InboundGate order s c := by
  have wellFormed := wellFormed_of_reachable run
  refine ⟨?_, ?_, ?_, ?_⟩
  · rintro ⟨m, pushed, remote⟩
    obtain ⟨challenge, accepted, answered, _⟩ := answered_of_pushed run pushed remote
    exact ⟨challenge, accepted, answered⟩
  · rintro ⟨m, called, remote⟩
    obtain ⟨challenge, accepted, answered, _⟩ :=
      answered_of_pushed run (pushed_of_called wellFormed called) remote
    exact ⟨challenge, accepted, answered⟩
  · intro challenge accepted decided wrong
    obtain ⟨closed, reads, started, enqueued⟩ :=
      (serverEnd_of_reachable run accepted).refused_of_wrong decided wrong
    have noHeader : .header ∉ (s.server.conn c).socketConnection.readsStarted := by
      have only : (s.server.conn c).socketConnection.readsStarted = [.checkValidation] := started
      simp [only]
    refine ⟨closed, reads, noHeader, fun m pushed remote => ?_⟩
    have member := enqueued_of_pushed pushed remote
    rw [enqueued] at member
    cases member
  · by_cases created : c < s.server.created
    · obtain ⟨challenge, accepted⟩ := exists_challenge wellFormed created
      exact (serverEnd_of_reachable run accepted).reads_length
    · rw [wellFormed.unborn c (Nat.le_of_not_lt created)]
      exact Nat.zero_le 1

def refusedRun : List Action :=
  [.accept 7, .handler 0 (.readOk .checkValidation [0, 0, 0, 0, 0, 0, 0, 0])]

theorem inbound_gate_refused :
    InboundGate .little ((Transition.perform (System.step .little) (.start 0) refusedRun).get (by decide)) 0 :=
  inbound_gate (.of_isSome refusedRun (start 0) (by decide)) 0

def OutboundGate (s : System) : Prop :=
  ∀ c, ∀ m ∈ (s.server.conn c).sendDataCalls, 0 < m.payload.size → (s.server.conn c).handshakeFlag = true

/-- Whatever the action forwards is meant for validated connections: a broadcast finds no other open
entry in the list, a private message no other entry with the receiver's ID. -/
def RecipientsValidated (order : Endian) (s : System) : Action → Prop
  | .onMessage _ => ∀ msg ∈ s.thread.unhandled,
      (MyCQMessages.ofUInt32 msg.msg.header.id = some .messageAll →
        (msg.msg.pop MessageAllDescription.sizeof).isSome = true → ∀ d, some d ∈ s.server.connectionsQueue →
        s.server.isConnected d = true → some d ≠ msg.remote → (s.server.conn d).handshakeFlag = true) ∧
      (MyCQMessages.ofUInt32 msg.msg.header.id = some .notifyOneClient → ∀ bytes rest d,
        msg.msg.pop NotifyOneDescription.sizeof = some (bytes, rest) → some d ∈ s.server.connectionsQueue →
        s.server.getID d = (NotifyOneDescription.ofBytes order bytes).receiverId →
        (s.server.conn d).handshakeFlag = true)
  | .sendMessageToAllClients msg ignoreClient => 0 < msg.payload.size → ∀ d,
      some d ∈ s.server.connectionsQueue → s.server.isConnected d = true → some d ≠ ignoreClient →
      (s.server.conn d).handshakeFlag = true
  | .sendMessageToClient client msg => 0 < msg.payload.size → ∀ d, client = some d →
      s.server.isConnected d = true → (s.server.conn d).handshakeFlag = true
  | _ => True

theorem OutboundGate.operate (gate : OutboundGate s) {server : MyCQServer} {out : ConnRef → List Message}
    (delivers : s.server.Delivers server out)
    (validated : ∀ c m, m ∈ out c → 0 < m.payload.size → (s.server.conn c).handshakeFlag = true) :
    OutboundGate { s with server } := by
  intro c m sent payload
  have flag : (server.conn c).handshakeFlag = (s.server.conn c).handshakeFlag := by
    rw [delivers.conn]
    rfl
  have calls : (server.conn c).sendDataCalls = (s.server.conn c).sendDataCalls ++ out c := by
    rw [delivers.conn]
    rfl
  rw [calls] at sent
  rw [flag]
  rcases List.mem_append.mp sent with old | new
  · exact gate c m old payload
  · exact validated c m new payload

theorem OutboundGate.handler (gate : OutboundGate s) {c : ConnRef} {h : ConnectionInterface.Handler}
    {conn : ConnectionInterface} {out : Option Message}
    (ran : (s.server.conn c).runHandler order h = some (conn, out)) :
    OutboundGate (s.finishHandler c conn out) := by
  intro d m sent payload
  have taken := Endpoint.step_handler ran []
  by_cases same : d = c
  · subst same
    simp only [finishHandler, MyCQServer.setConn, Function.update_self] at sent ⊢
    rw [Endpoint.sendDataCalls_handler taken] at sent
    exact Endpoint.handshakeFlag_handler taken (gate d m sent payload)
  · simp only [finishHandler, MyCQServer.setConn, Function.update_of_ne same] at sent ⊢
    exact gate d m sent payload

theorem OutboundGate.step (run : Transition.Reachable (System.step order) (.start idCounter) s)
    (gate : OutboundGate s) (guard : RecipientsValidated order s a) (taken : s.step order a = some t) :
    OutboundGate t := by
  have wellFormed := wellFormed_of_reachable run
  cases step_cases taken with
  | accept clock =>
    intro c m sent payload
    simp only [MyCQServer.acceptConnection_conn] at sent ⊢
    split at sent
    -- The message sent on acceptance carries no payload.
    · have only : m = MyCQServer.serverAccept := List.mem_singleton.mp sent
      rw [only] at payload
      exact absurd payload (Nat.lt_irrefl 0)
    · next old =>
      rw [if_neg old]
      exact gate c m sent payload
  | handler c h conn out ran owned => exact gate.handler ran
  | dangling => exact gate
  | moves => exact gate
  | emptyPop => exact gate
  | popFront => exact gate
  | onMessage uninitialized numMaxMessages msgCount msg server point ran =>
    have inHand : msg ∈ s.thread.unhandled := by simp [point, UpdateThread.unhandled]
    obtain ⟨out, operates, sent⟩ := operates_onMessage wellFormed inHand ran
    obtain ⟨broadcasts, notifies⟩ := guard msg inHand
    -- Whoever has pushed a message is validated, so replies to it may pass.
    have requester : ∀ {d}, msg.remote = some d → (s.server.conn d).handshakeFlag = true := by
      intro d found
      obtain ⟨_, _, _, flag⟩ := answered_of_pushed run (wellFormed.unhandled_pushed inHand) found
      exact flag
    refine gate.operate operates.delivers fun c m member payload => ?_
    cases sent c m member with
    | echo _ found => exact requester found
    | broadcast _ _ _ known found popped listed isOpen other =>
      refine broadcasts known (by rw [popped]; rfl) c listed isOpen fun self => other ?_
      rw [found] at self
      exact Option.some.inj self
    | list _ _ found => exact requester found
    | notify _ bytes rest known _ popped listed meant => exact notifies known bytes rest c popped listed meant
  | onMessageFault => exact gate
  | endIteration => exact gate
  | sendMessageToAllClients msg ignoreClient server point ran =>
    have operates := operates_sendMessageToAllClients wellFormed ran
    refine gate.operate operates.delivers fun c m member payload => ?_
    obtain ⟨listed, isOpen, other, same⟩ := MyCQServer.mem_broadcastTo member
    exact guard (same ▸ payload) c listed isOpen other
  | sendMessageToClient client msg server point held ran =>
    obtain ⟨out, operates, sent⟩ := operates_sendMessageToClient wellFormed ran
    refine gate.operate operates.delivers fun c m member payload => ?_
    obtain ⟨same, found, isOpen⟩ := sent c m member
    exact guard (same ▸ payload) c found isOpen
  | sendFault => exact gate

/-- The outbound gate, in every state of a run that forwards nothing to connections that are not
validated. -/
theorem outbound_gate
    (run : Transition.Run (System.step order) (RecipientsValidated order) (.start idCounter) s) :
    OutboundGate s :=
  run.invariant_of_reached (fun _ _ none => absurd none List.not_mem_nil)
    fun _ _ _ before gate guard taken => gate.step before.reachable guard taken

def lateBroadcast : List Action :=
  [.accept 7,
    .handler 0 (.readOk .checkValidation (CArray.ofUInt64 .little (encryptHandshakeData 7)).toList),
    .sendMessageToAllClients ((Message.ofId 0).push [65]) none]

theorem lateBroadcast_meets :
    Transition.Meets (System.step .little) (RecipientsValidated .little) (.start 0) lateBroadcast := by
  refine ⟨trivial, fun _ taken => ⟨trivial, fun _ taken' => ⟨fun _ d listed _ _ => ?_, fun _ _ => trivial⟩⟩⟩
  cases taken
  cases taken'
  cases List.mem_singleton.mp listed
  rfl

theorem outbound_gate_lateBroadcast :
    OutboundGate ((Transition.perform (System.step .little) (.start 0) lateBroadcast).get (by decide)) :=
  outbound_gate (.of_perform lateBroadcast _ lateBroadcast_meets (Option.some_get _).symm)

def earlyBroadcast : List Action :=
  [.accept 7, .accept 8,
    .handler 0 (.readOk .checkValidation (CArray.ofUInt64 .little (encryptHandshakeData 7)).toList),
    .handler 0 (.readOk .header ((MessageHeader.mk 0 2056).bytes .little).toList),
    .handler 0 (.readOk (.payload 2056) (List.replicate 2056 65)),
    .update 1 true, .waitReturns, .test, .popFront,
    .onMessage ⟨0, 0, .replicate 1000 0⟩]

theorem earlyBroadcast_enabled :
    (Transition.perform (System.step .little) (start 0) earlyBroadcast).isSome = true := by
  decide +kernel

theorem early_broadcast_passes_gate :
    ∃ s, Transition.Reachable (System.step .little) (.start 0) s ∧ ¬ OutboundGate s := by
  refine ⟨_, .of_isSome earlyBroadcast (start 0) earlyBroadcast_enabled, fun gate => ?_⟩
  have passed : (∃ m ∈ (((Transition.perform (System.step .little) (start 0) earlyBroadcast).get
      earlyBroadcast_enabled).server.conn 1).sendDataCalls, 0 < m.payload.size) ∧
      (((Transition.perform (System.step .little) (start 0) earlyBroadcast).get
        earlyBroadcast_enabled).server.conn 1).handshakeFlag = false := by
    decide +kernel
  obtain ⟨⟨m, sent, payload⟩, flag⟩ := passed
  rw [gate 1 m sent payload] at flag
  cases flag

end System
end MyCQ
