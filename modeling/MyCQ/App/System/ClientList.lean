import Mathlib.Data.List.Sort
import MyCQ.App.Server.ClientList
import MyCQ.App.System.Roster

/-! The list of clients over the runs of the server.

Nothing bounds the number of entries of `connectionsQueue`, and entries whose
socket is closed stay until the next broadcast. Both decide what becomes of a
`ListAllClients` request, at the moment when it is handled.
-/

set_option autoImplicit false

namespace MyCQ
open Octets (Endian)

namespace System
open MyCQServer (listReply)

variable {order : Endian} {idCounter : UInt32} {s t : System} {a : Action}

def AtListRequest (s : System) (c : ConnRef) : Prop :=
  ∃ msg ∈ s.thread.unhandled, msg.remote = some c ∧ MyCQMessages.ofUInt32 msg.msg.header.id = some .listAllClients

/-- A `ListAllClients` request is handled while there are at most a thousand entries. -/
def ListFits (s : System) : Action → Prop
  | .onMessage _ => ∀ c, AtListRequest s c → s.server.connectionsQueue.length ≤ 1000
  | _ => True

/-- The step from `s` to `t` answers a `ListAllClients` request of `c` without leaving the array, and so
does the client with the answer, whatever its receive buffer holds. -/
structure ListInside (order : Endian) (s t : System) (c : ConnRef) : Prop where
  writes : t.fault ≠ some .clientIdsOverflow
  reply : ∃ d : ClientsListDescription, t.server = s.server.sendData c (listReply order d) ∧
    d.numActiveIds.toNat ≤ 1000 ∧ ∃ agrees : (listReply order d).Agrees, ∀ buffer, ∃ others,
      MyCQClient.dispatch order ((listReply order d).delivered agrees buffer) =
        .ok (.listAllClients d.ownId others)

structure ListCapacity (order : Endian) (s : System) : Prop where
  inside : s.fault ≠ some .clientIdsOverflow
  handled : ∀ uninitialized t c, AtListRequest s c → ListFits s (.onMessage uninitialized) →
    s.step order (.onMessage uninitialized) = some t → ListInside order s t c

theorem server_of_onMessage {uninitialized : ClientsListDescription} {msg : OwnedMessage} {server : MyCQServer}
    (inHand : msg ∈ s.thread.unhandled)
    (ran : s.server.onMessage order uninitialized msg.remote msg.msg = .ok server)
    (taken : s.step order (.onMessage uninitialized) = some t) : t.server = server := by
  cases step_cases taken with
  | moves _ thread moved =>
    rw [moved.unhandled.1] at inHand
    cases inHand
  | onMessage _ _ _ held _ point outcome =>
    rw [point, UpdateThread.unhandled, List.mem_singleton] at inHand
    subst inHand
    cases outcome.symm.trans ran
    rfl
  | onMessageFault _ _ _ held fault point failed =>
    rw [point, UpdateThread.unhandled, List.mem_singleton] at inHand
    subst inHand
    cases failed.symm.trans ran
  | sendFault _ fault outside =>
    rw [outside] at inHand
    cases inHand

theorem not_overflow_step (run : Transition.Reachable (System.step order) (.start idCounter) s)
    (fits : ListFits s a) (taken : s.step order a = some t) : t.fault ≠ some .clientIdsOverflow := by
  intro failed
  cases fault_cases taken failed with
  | onMessage uninitialized numMaxMessages msgCount msg fault point overflow =>
    have known := MyCQServer.onMessage_overflow overflow
    have inHand : msg ∈ s.thread.unhandled := by simp [point, UpdateThread.unhandled]
    have wellFormed := wellFormed_of_reachable run
    obtain ⟨c, remote, _⟩ := wellFormed.remotes msg (wellFormed.unhandled_pushed inHand)
    obtain ⟨refs, roster⟩ := exists_roster run
    have few := fits c ⟨msg, inHand, remote, known⟩
    rw [roster.length] at few
    obtain ⟨d, answered, _⟩ := MyCQServer.onMessage_listAllClients roster.entries few known c
    rw [remote, answered] at overflow
    cases overflow
  | sendMessageToAllClients msg ignoreClient fault overflow =>
    cases MyCQServer.sendMessageToAllClients_error overflow
  | sendMessageToClient client msg fault overflow => cases MyCQServer.sendMessageToClient_error overflow

theorem listInside_step (run : Transition.Reachable (System.step order) (.start idCounter) s)
    {uninitialized : ClientsListDescription} {c : ConnRef} (request : AtListRequest s c)
    (fits : ListFits s (.onMessage uninitialized)) (taken : s.step order (.onMessage uninitialized) = some t) :
    ListInside order s t c where
  writes := not_overflow_step run fits taken
  reply := by
    obtain ⟨msg, inHand, remote, known⟩ := request
    obtain ⟨refs, roster⟩ := exists_roster run
    have few := fits c ⟨msg, inHand, remote, known⟩
    rw [roster.length] at few
    obtain ⟨d, answered, reply⟩ := @MyCQServer.onMessage_listAllClients order uninitialized s.server refs msg.msg
      roster.entries few known c
    rw [← remote] at answered
    have agrees : (listReply order d).Agrees := Message.agrees_push_value _ _ (by decide)
    refine ⟨d, server_of_onMessage inHand answered taken, ?_, agrees, ?_⟩
    · rw [reply.numActiveIds]
      exact few
    · intro buffer
      rw [reply.shown few agrees buffer, reply.ownId]
      exact ⟨_, rfl⟩

/-- The list fits its array in every state of a run that handles no request with too many entries. -/
theorem list_capacity (run : Transition.Run (System.step order) ListFits (.start idCounter) s) :
    ListCapacity order s where
  inside := by
    cases run with
    | start =>
      intro failed
      cases failed
    | next before fits taken => exact not_overflow_step before.reachable fits taken
  handled _ _ _ request fits taken := listInside_step run.reachable request fits taken

def listRequested : List Action :=
  [.accept 7,
    .handler 0 (.readOk .checkValidation (CArray.ofUInt64 .little (encryptHandshakeData 7)).toList),
    .handler 0 (.readOk .header ((MessageHeader.mk 1 0).bytes .little).toList),
    .update 1 true, .waitReturns, .test, .popFront]

theorem listRequested_enabled :
    (Transition.perform (System.step .little) (start 0) listRequested).isSome = true := by
  decide +kernel

def requested : System := (Transition.perform (System.step .little) (start 0) listRequested).get listRequested_enabled

theorem requested_reachable : Transition.Reachable (System.step .little) (.start 0) requested :=
  .of_isSome listRequested (start 0) listRequested_enabled

theorem listRequested_fits (s : System) (a : Action) (member : a ∈ listRequested) : ListFits s a := by
  cases a with
  | onMessage uninitialized => simp [listRequested] at member
  | _ => trivial

theorem list_capacity_requested : ListCapacity .little requested :=
  list_capacity (.of_perform listRequested _ (.of_forall _ (fun s a member => listRequested_fits s a member) _)
    (Option.some_get _).symm)

theorem exists_accepted (order : Endian) (n : Nat) (s : System) (clear : s.fault = none) :
    ∃ t, Transition.Reachable (System.step order) s t ∧ t.fault = none ∧ t.thread = s.thread ∧
      t.server.connectionsQueue.length = s.server.connectionsQueue.length + n := by
  induction n with
  | zero => exact ⟨s, .start, clear, rfl, rfl⟩
  | succ n ih =>
    obtain ⟨t, run, clear, thread, length⟩ := ih
    have accepted : t.step order (.accept 0) = some { t with
        server := t.server.acceptConnection 0, challenges := t.challenges ++ [0] } := by
      simp only [System.step, clear, act]
    refine ⟨_, run.next trivial accepted, clear, thread, ?_⟩
    rw [MyCQServer.acceptConnection_connectionsQueue, List.length_append, length]
    rfl

/-- A thousand more connections are accepted before the request is handled. -/
theorem list_overflows : ∃ s, Transition.Reachable (System.step .little) (.start 0) s ∧ ¬ ListCapacity .little s := by
  have point : requested.thread = .received 1 0 ⟨some 0, ⟨⟨1, 0⟩, .empty⟩⟩ := by decide +kernel
  obtain ⟨s, accepts, clear, thread, length⟩ := exists_accepted .little 1000 requested (by decide +kernel)
  have run := requested_reachable.trans accepts
  obtain ⟨refs, roster⟩ := exists_roster run
  have one : requested.server.connectionsQueue.length = 1 := by decide +kernel
  have exceeds : 1000 < refs.length := by
    rw [← roster.length, length, one]
    decide
  have overflows := @MyCQServer.onMessage_listAllClients_overflow .little ⟨0, 0, .replicate 1000 0⟩ s.server refs
    ⟨⟨1, 0⟩, .empty⟩ roster.entries exceeds rfl 0
  have taken : s.step .little (.onMessage ⟨0, 0, .replicate 1000 0⟩) = some { s with
      thread := .handled 1 0 ⟨some 0, ⟨⟨1, 0⟩, .empty⟩⟩
      calls := s.calls ++ [⟨some 0, ⟨⟨1, 0⟩, .empty⟩⟩]
      fault := some .clientIdsOverflow } := by
    simp only [System.step, clear, act, thread, point, overflows, settle]
  exact ⟨_, run.next trivial taken, fun capacity => capacity.inside rfl⟩

end System

namespace MyCQServer

variable {order : Endian} {s : MyCQServer} {refs : List ConnRef} {msg : Message} {c : ConnRef}

def openConnections (s : MyCQServer) : List ConnRef := (List.range s.created).filter s.isConnected

/-- The structure tells the requester its identifier and those of the open connections, each once. -/
structure ListAccurate (s : MyCQServer) (c : ConnRef) (d : ClientsListDescription) : Prop where
  ownId : d.ownId = s.getID c
  clientIds : d.clientIds.toList.take d.numActiveIds.toNat = s.openConnections.map s.getID
  once : (d.clientIds.toList.take d.numActiveIds.toNat).Nodup

def RepliesAccurately (order : Endian) (s : MyCQServer) (c : ConnRef) (msg : Message) : Prop :=
  ∀ uninitialized, ∃ d, s.onMessage order uninitialized (some c) msg = .ok (s.sendData c (listReply order d)) ∧
    ListAccurate s c d

theorem listReply_inj {d e : ClientsListDescription} (same : listReply order d = listReply order e) : d = e := by
  have left : (listReply order d).Carries (d.toBytes order) := Message.carries_push _ _
  have right : (listReply order e).Carries (e.toBytes order) := Message.carries_push _ _
  rw [← same] at right
  rw [← ClientsListDescription.ofBytes_toBytes order d, left.inj right, ClientsListDescription.ofBytes_toBytes]

theorem sendData_inj {m m' : Message} (same : s.sendData c m = s.sendData c m') : m = m' := by
  have passed := (delivers_sendData s c m).passed c
  rw [same, (delivers_sendData s c m').passed c] at passed
  simpa using passed.symm

theorem Roster.openConnections (roster : Roster s refs) : s.openConnections = refs.filter s.isConnected := by
  apply List.Pairwise.eq_of_mem_iff (List.pairwise_lt_range.filter s.isConnected) (roster.ordered.filter _)
  intro c
  rw [List.mem_filter, List.mem_filter, List.mem_range]
  constructor
  · rintro ⟨_, isOpen⟩
    exact ⟨roster.connected c isOpen, isOpen⟩
  · rintro ⟨listed, isOpen⟩
    exact ⟨roster.created c listed, isOpen⟩

theorem repliesAccurately_iff (roster : Roster s refs) (few : refs.length ≤ 1000)
    (known : MyCQMessages.ofUInt32 msg.header.id = some .listAllClients) :
    RepliesAccurately order s c msg ↔ (∀ d ∈ refs, s.isConnected d = true) ∧ (refs.map s.getID).Nodup := by
  constructor
  · intro accurately
    let memory : ClientsListDescription := ⟨0, 0, .replicate 1000 0⟩
    obtain ⟨d, answered, ownId, clientIds, once⟩ := accurately memory
    obtain ⟨e, same, reply⟩ := @onMessage_listAllClients order memory s refs msg roster.entries few known c
    obtain rfl : d = e := listReply_inj (sendData_inj (Except.ok.inj (answered.symm.trans same)))
    rw [reply.listed] at clientIds once
    refine ⟨?_, once⟩
    rw [roster.openConnections] at clientIds
    have lengths := congrArg List.length clientIds
    rw [List.length_map, List.length_map] at lengths
    exact List.length_filter_eq_length_iff.mp lengths.symm
  · rintro ⟨allOpen, distinct⟩ uninitialized
    obtain ⟨d, answered, reply⟩ := @onMessage_listAllClients order uninitialized s refs msg roster.entries few known c
    refine ⟨d, answered, reply.ownId, ?_, ?_⟩
    · rw [reply.listed, roster.openConnections, List.filter_eq_self.mpr allOpen]
    · rw [reply.listed]
      exact distinct

end MyCQServer

namespace System

variable {order : Endian} {idCounter : UInt32} {s : System}

/-- In every reachable state a request is answered accurately exactly when no entry of the list is closed
and no two entries were accepted a multiple of `2 ^ 32` apart. -/
theorem list_accurate_iff (run : Transition.Reachable (System.step order) (.start idCounter) s)
    (few : s.server.connectionsQueue.length ≤ 1000) (c : ConnRef) (msg : Message)
    (known : MyCQMessages.ofUInt32 msg.header.id = some .listAllClients) :
    MyCQServer.RepliesAccurately order s.server c msg ↔
      (∀ d, some d ∈ s.server.connectionsQueue → s.server.isConnected d = true) ∧
        ∀ d e, some d ∈ s.server.connectionsQueue → some e ∈ s.server.connectionsQueue →
          d % 2 ^ 32 = e % 2 ^ 32 → d = e := by
  obtain ⟨refs, roster⟩ := exists_roster run
  have numbered := numbered_of_reachable run
  rw [roster.length] at few
  rw [MyCQServer.repliesAccurately_iff roster few known]
  simp only [roster.mem_iff]
  refine and_congr_right fun _ => ?_
  rw [List.nodup_map_iff_inj_on roster.nodup]
  constructor
  · intro injective d e left right same
    exact injective d left e right
      ((numbered.getID_eq_iff (roster.created d left) (roster.created e right)).mpr same)
  · intro apart d left e right same
    exact apart d e left right
      ((numbered.getID_eq_iff (roster.created d left) (roster.created e right)).mp same)

theorem list_accurate_requested : MyCQServer.RepliesAccurately .little requested.server 0 ⟨⟨1, 0⟩, .empty⟩ := by
  have queue : requested.server.connectionsQueue = [some 0] := by decide +kernel
  apply (list_accurate_iff requested_reachable (by decide +kernel) 0 ⟨⟨1, 0⟩, .empty⟩ rfl).mpr
  simp only [queue, List.mem_singleton, Option.some.injEq, forall_eq]
  exact ⟨by decide +kernel, fun _ _ left right _ => left.trans right.symm⟩

def closedBeforeRequest : List Action :=
  [.accept 7, .accept 8, .handler 1 (.readFailed .checkValidation []),
    .handler 0 (.readOk .checkValidation (CArray.ofUInt64 .little (encryptHandshakeData 7)).toList),
    .handler 0 (.readOk .header ((MessageHeader.mk 1 0).bytes .little).toList),
    .update 1 true, .waitReturns, .test, .popFront]

theorem closedBeforeRequest_enabled :
    (Transition.perform (System.step .little) (start 0) closedBeforeRequest).isSome = true := by
  decide +kernel

/-- The reply lists a connection whose socket is closed. -/
theorem closed_connection_listed : ∃ s, Transition.Reachable (System.step .little) (.start 0) s ∧
    s.server.connectionsQueue.length ≤ 1000 ∧ s.thread = .received 1 0 ⟨some 0, ⟨⟨1, 0⟩, .empty⟩⟩ ∧
    ¬ MyCQServer.RepliesAccurately .little s.server 0 ⟨⟨1, 0⟩, .empty⟩ := by
  have run := Transition.Reachable.of_isSome closedBeforeRequest (start 0) closedBeforeRequest_enabled
  refine ⟨_, run, by decide +kernel, by decide +kernel, fun accurately => ?_⟩
  obtain ⟨refs, roster⟩ := exists_roster run
  have listed : 1 ∈ refs := (roster.mem_iff 1).mp (by decide +kernel)
  have few : refs.length ≤ 1000 := by
    rw [← roster.length]
    decide +kernel
  have isOpen := ((MyCQServer.repliesAccurately_iff roster few rfl).mp accurately).1 1 listed
  have isClosed : ((Transition.perform (System.step .little) (start 0) closedBeforeRequest).get
      closedBeforeRequest_enabled).server.isConnected 1 = false := by decide +kernel
  cases isClosed.symm.trans isOpen

end System
end MyCQ
