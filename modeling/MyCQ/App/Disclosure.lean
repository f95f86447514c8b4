import MyCQ.App.Client.Requests
import MyCQ.App.System.ClientList
import MyCQ.App.System.Senders
import MyCQ.Net.Endpoint.SendQueue

/-! Whether the bytes that are transmitted depend on uninitialised memory.

Payload structures are created without initialisers and transmitted whole, also
where the program has not written them. Two runs that differ only in what the
memory held are compared by what they hand to the sockets.
-/

set_option autoImplicit false

namespace MyCQ
open Octets (Endian)

section
variable {Memory Frames : Type} {run : Memory → Option Frames}

/-- The run has a result whatever the memory held, and two runs never differ in it. -/
structure Determined (run : Memory → Option Frames) : Prop where
  defined : ∀ memory, run memory ≠ none
  same : ∀ first second, run first = run second

theorem Determined.of_const (frames : Frames) (const : ∀ memory, run memory = some frames) : Determined run where
  defined memory undefined := by
    cases (const memory).symm.trans undefined
  same first second := (const first).trans (const second).symm

end

variable {order : Endian} {n : Nat}

theorem wire_push_inj {id : UInt32} {value other : CArray Byte n}
    (same : ((Message.ofId id).push value.toList).wire order = ((Message.ofId id).push other.toList).wire order) :
    value = other := by
  have body := List.append_inj_right same
    (((MessageHeader.bytes order _).length_eq).trans (MessageHeader.bytes order _).length_eq.symm)
  rw [(Message.carries_push id value).transmitted, (Message.carries_push id other).transmitted] at body
  exact CArray.ext body

namespace MyCQServer

variable {s : MyCQServer} {refs : List ConnRef} {c : ConnRef} {msg : Message}

/-- What the request of `c` makes the server hand to the socket of each connection. After undefined
behaviour nothing is known of it. -/
def frames (order : Endian) (s : MyCQServer) (c : ConnRef) (msg : Message)
    (uninitialized : ClientsListDescription) : Option (ConnRef → List (List Byte)) :=
  match s.onMessage order uninitialized (some c) msg with
  | .error _ => none
  | .ok t => some fun d => (s.passed t d).map (Message.wire order)

theorem onMessage_memory (other : MyCQMessages.ofUInt32 msg.header.id ≠ some .listAllClients)
    (first second : ClientsListDescription) (client : Option ConnRef) :
    s.onMessage order first client msg = s.onMessage order second client msg := by
  unfold onMessage
  split
  · rfl
  · rfl
  · next known => exact absurd known other
  · rfl
  · rfl
  · rfl

theorem Roster.onMessage_total (roster : Roster s refs) (size : msg.payload.size < 2 ^ 64)
    (other : MyCQMessages.ofUInt32 msg.header.id ≠ some .listAllClients)
    (enough : ∀ sizeof, requestPayload msg.header.id = some sizeof → sizeof ≤ msg.payload.size)
    (uninitialized : ClientsListDescription) (c : ConnRef) :
    ∃ t, s.onMessage order uninitialized (some c) msg = .ok t := by
  have inside : ∀ sizeof, sizeof < 2 ^ 64 → requestPayload msg.header.id = some sizeof →
      ∃ bytes, extract msg sizeof = .ok bytes := by
    intro sizeof bound known
    obtain ⟨⟨bytes, rest⟩, popped⟩ := Option.isSome_iff_exists.mp
      ((msg.pop_isSome_iff sizeof size bound).mpr (enough sizeof known))
    exact ⟨bytes, by simp only [extract, popped]⟩
  unfold onMessage
  unfold requestPayload at inside
  split
  · exact ⟨_, rfl⟩
  · next known =>
    simp only [known] at inside
    obtain ⟨bytes, extracted⟩ := inside MessageAllDescription.sizeof (by decide) rfl
    simp only [extracted, deref, bind, Except.bind]
    exact sendMessageToAllClients_total roster.entries _ (some c)
  · next known => exact absurd known other
  · next known =>
    simp only [known] at inside
    obtain ⟨bytes, extracted⟩ := inside NotifyOneDescription.sizeof (by decide) rfl
    simp only [extracted, deref, bind, Except.bind, roster.entries]
    exact notifyLoop_total _ _ refs s
  · exact ⟨s, rfl⟩
  · exact ⟨s, rfl⟩

theorem frames_listAllClients {uninitialized d : ClientsListDescription}
    (answered : s.onMessage order uninitialized (some c) msg = .ok (s.sendData c (listReply order d))) :
    s.frames order c msg uninitialized =
      some fun e => if e = c then [(listReply order d).wire order] else [] := by
  simp only [frames, answered]
  congr 1
  funext e
  rw [(delivers_sendData s c _).passed e]
  split <;> rfl

theorem Roster.list_defined (roster : Roster s refs) (fits : refs.length ≤ 1000)
    (known : MyCQMessages.ofUInt32 msg.header.id = some .listAllClients) (uninitialized : ClientsListDescription) :
    s.frames order c msg uninitialized ≠ none := by
  obtain ⟨d, answered, _⟩ := @onMessage_listAllClients order uninitialized s refs msg roster.entries fits known c
  rw [frames_listAllClients answered]
  exact Option.some_ne_none _

theorem Roster.list_discloses (roster : Roster s refs) (room : refs.length < 1000)
    (known : MyCQMessages.ofUInt32 msg.header.id = some .listAllClients) :
    s.frames order c msg ⟨0, 0, .replicate 1000 0⟩ ≠ s.frames order c msg ⟨0, 0, .replicate 1000 1⟩ := by
  intro same
  have answers := fun uninitialized => @onMessage_listAllClients order uninitialized s refs msg roster.entries
    (Nat.le_of_lt room) known c
  obtain ⟨d, answered, reply⟩ := answers ⟨0, 0, .replicate 1000 0⟩
  obtain ⟨e, answered', reply'⟩ := answers ⟨0, 0, .replicate 1000 1⟩
  rw [frames_listAllClients answered, frames_listAllClients answered'] at same
  have wires := congrFun (Option.some.inj same) c
  simp only [if_true, List.cons.injEq, and_true] at wires
  have fields := congrArg (ClientsListDescription.ofBytes order) (wire_push_inj wires)
  rw [ClientsListDescription.ofBytes_toBytes, ClientsListDescription.ofBytes_toBytes] at fields
  have ids := reply.clientIds
  rw [fields, reply'.clientIds] at ids
  have rest : (List.replicate 1000 (1 : UInt32)).drop refs.length =
      (List.replicate 1000 (0 : UInt32)).drop refs.length := List.append_cancel_left ids
  rw [List.drop_replicate, List.drop_replicate] at rest
  exact absurd ((List.replicate_right_inj (Nat.sub_ne_zero_of_lt room)).mp rest) (by decide)

/-- The reply is the same for all contents of memory exactly when every element of the array is
written. -/
theorem Roster.list_determined_iff (roster : Roster s refs)
    (known : MyCQMessages.ofUInt32 msg.header.id = some .listAllClients) :
    Determined (s.frames order c msg) ↔ refs.length = 1000 := by
  constructor
  · intro determined
    apply Nat.le_antisymm
    · apply Nat.le_of_not_lt
      intro exceeds
      have overflows := @onMessage_listAllClients_overflow order ⟨0, 0, .replicate 1000 0⟩ s refs msg roster.entries
        exceeds known c
      exact determined.defined ⟨0, 0, .replicate 1000 0⟩ (by simp only [frames, overflows])
    · apply Nat.le_of_not_lt
      intro room
      exact roster.list_discloses room known (determined.same _ _)
  · intro full
    have reply : ∀ uninitialized, ∃ d,
        s.onMessage order uninitialized (some c) msg = .ok (s.sendData c (listReply order d)) ∧
        d.numActiveIds.toNat = 1000 ∧ d.ownId = s.getID c ∧ d.clientIds.toList = refs.map s.getID := by
      intro uninitialized
      obtain ⟨d, answered, reply⟩ := @onMessage_listAllClients order uninitialized s refs msg roster.entries
        (Nat.le_of_eq full) known c
      refine ⟨d, answered, reply.numActiveIds.trans full, reply.ownId, ?_⟩
      rw [reply.clientIds, List.drop_eq_nil_of_le (by rw [uninitialized.clientIds.length_eq, full]),
        List.append_nil]
    obtain ⟨d, _, count, own, ids⟩ := reply ⟨0, 0, .replicate 1000 0⟩
    apply Determined.of_const fun e => if e = c then [(listReply order d).wire order] else []
    intro uninitialized
    obtain ⟨d', answered, count', own', ids'⟩ := reply uninitialized
    have same : d' = d := by
      obtain ⟨numActiveIds, ownId, clientIds⟩ := d
      obtain ⟨numActiveIds', ownId', clientIds'⟩ := d'
      obtain rfl : numActiveIds' = numActiveIds := UInt32.toNat_inj.mp (count'.trans count.symm)
      obtain rfl : clientIds' = clientIds := CArray.ext (ids'.trans ids.symm)
      obtain rfl : ownId' = ownId := own'.trans own.symm
      rfl
    rw [frames_listAllClients answered, same]

/-- The request is long enough for the structure it is to hold, and a request for the list finds as
many connections as the reply has room for. -/
structure FillsPayload (s : MyCQServer) (msg : Message) : Prop where
  enough : ∀ sizeof, requestPayload msg.header.id = some sizeof → sizeof ≤ msg.payload.size
  full : MyCQMessages.ofUInt32 msg.header.id = some .listAllClients → s.connectionsQueue.length = 1000

theorem Roster.frames_determined_iff (roster : Roster s refs) (size : msg.payload.size < 2 ^ 64) :
    Determined (s.frames order c msg) ↔ FillsPayload s msg := by
  by_cases known : MyCQMessages.ofUInt32 msg.header.id = some .listAllClients
  · have none : requestPayload msg.header.id = none := by simp only [requestPayload, known]
    rw [roster.list_determined_iff known, ← roster.length]
    constructor
    · intro full
      refine ⟨fun sizeof some => ?_, fun _ => full⟩
      cases none.symm.trans some
    · intro fills
      exact fills.full known
  · constructor
    · intro determined
      refine ⟨fun sizeof extracts => Nat.le_of_not_lt fun short => ?_, fun listing => absurd listing known⟩
      have outside := (@onMessage_extraction_iff order ⟨0, 0, .replicate 1000 0⟩ s c msg size).mpr
        ⟨sizeof, extracts, short⟩
      exact determined.defined ⟨0, 0, .replicate 1000 0⟩ (by simp only [frames, outside])
    · intro fills
      obtain ⟨t, handled⟩ := @onMessage_total order s refs msg roster size known fills.enough
        ⟨0, 0, .replicate 1000 0⟩ c
      apply Determined.of_const fun d => (s.passed t d).map (Message.wire order)
      intro uninitialized
      have same := (onMessage_memory known uninitialized ⟨0, 0, .replicate 1000 0⟩ (some c)).trans handled
      simp only [frames, same]

end MyCQServer

namespace MyCQClient

variable {connectionModule : Option ConnectionInterface}

def passed : Option ConnectionInterface → Option ConnectionInterface → List Message
  | some before, some after => before.passed after
  | _, _ => []

def Outcome.frames (order : Endian) (before : Option ConnectionInterface) : Outcome → Option (List (List Byte))
  | .returned after => some ((passed before after).map (Message.wire order))
  | .exited | .thrown => some []
  | .overrun => none

theorem passed_send (connectionModule : Option ConnectionInterface) (msg : Message) :
    passed connectionModule (send connectionModule msg) = if isConnected connectionModule then [msg] else [] := by
  cases connectionModule with
  | none => rfl
  | some c =>
    by_cases connected : c.isConnected = true
    · rw [send_connected connected, passed, ConnectionInterface.passed_sendData]
      exact (if_pos connected).symm
    · have disconnected : isConnected (some c) = false := (Bool.not_eq_true _).mp connected
      rw [send_disconnected disconnected, disconnected, passed]
      simp [ConnectionInterface.passed]

theorem frames_send (connectionModule : Option ConnectionInterface) (msg : Message) :
    (Outcome.returned (send connectionModule msg)).frames order connectionModule =
      some (if isConnected connectionModule then [msg.wire order] else []) := by
  rw [Outcome.frames, passed_send]
  split <;> rfl

theorem sent_discloses (connected : isConnected connectionModule = true) {id : UInt32} {first second : CArray Byte n}
    (differ : first ≠ second) :
    (Outcome.returned (send connectionModule ((Message.ofId id).push first.toList))).frames order connectionModule ≠
      (Outcome.returned (send connectionModule ((Message.ofId id).push second.toList))).frames order
        connectionModule := by
  intro same
  simp only [frames_send, connected, if_true, Option.some.injEq, List.cons.injEq, and_true] at same
  exact differ (wire_push_inj same)

/-- A request whose payload depends on the memory is determined exactly when it is not sent. -/
theorem sent_determined_iff {Memory : Type} {outcome : Memory → Outcome} {id : UInt32}
    {value : Memory → CArray Byte n} (sends : ∀ memory, outcome memory =
      .returned (send connectionModule ((Message.ofId id).push (value memory).toList)))
    (first second : Memory) (differ : value first ≠ value second) :
    Determined (fun memory => (outcome memory).frames order connectionModule) ↔
      isConnected connectionModule = false := by
  constructor
  · intro determined
    rw [← Bool.not_eq_true]
    intro connected
    have same := determined.same first second
    simp only [sends] at same
    exact sent_discloses connected differ same
  · intro disconnected
    apply Determined.of_const []
    intro memory
    rw [sends, frames_send, disconnected]
    rfl

theorem messageAll_determined_iff (inputStr : List Byte) :
    Determined (fun uninitialized => (messageAll order uninitialized connectionModule inputStr).frames order
      connectionModule) ↔
      2048 < inputStr.length ∨ isConnected connectionModule = false ∧ (CString.text inputStr).length < 2048 := by
  by_cases refused : 2048 < inputStr.length
  · have exits : ∀ uninitialized, messageAll order uninitialized connectionModule inputStr = .exited :=
      fun _ => if_pos refused
    apply iff_of_true _ (Or.inl refused)
    apply Determined.of_const []
    intro uninitialized
    rw [exits]
    rfl
  · have accepted := Nat.le_of_not_lt refused
    by_cases fits : (CString.text inputStr).length < 2048
    · have sends := fun uninitialized : MessageAllDescription =>
        @messageAll_copied order connectionModule uninitialized inputStr _ accepted
          (CString.exists_strcpy uninitialized.message fits).choose_spec
      rw [sent_determined_iff sends ⟨0, .replicate 2048 0, 0⟩ ⟨1, .replicate 2048 0, 0⟩ ?_]
      · simp [refused, fits]
      · intro same
        have fields := congrArg (fun bytes => (MessageAllDescription.ofBytes order bytes).numberOfElements) same
        simp only [MessageAllDescription.ofBytes_toBytes] at fields
        exact absurd fields (by decide)
    · apply iff_of_false
      · intro determined
        apply determined.defined ⟨0, .replicate 2048 0, 0⟩
        simp only [messageAll_overrun _ accepted (Nat.le_of_not_lt fits), Outcome.frames]
      · rintro (long | ⟨_, short⟩)
        · exact refused long
        · exact fits short

theorem notifyOne_determined_iff (receiverId writtenMsg : List Byte) :
    Determined (fun uninitialized =>
      (notifyOne order uninitialized connectionModule receiverId writtenMsg).frames order connectionModule) ↔
      Numeral.stoul receiverId = none ∨
        isConnected connectionModule = false ∧ (CString.text writtenMsg).length < 2048 := by
  cases numeral : Numeral.stoul receiverId with
  | none =>
    apply iff_of_true _ (Or.inl rfl)
    apply Determined.of_const []
    intro uninitialized
    simp only [notifyOne, numeral, Outcome.frames]
  | some id =>
    by_cases fits : (CString.text writtenMsg).length < 2048
    · have sends := fun uninitialized : NotifyOneDescription =>
        @notifyOne_copied order connectionModule uninitialized receiverId writtenMsg id _ numeral
          (CString.exists_strcpy uninitialized.message fits).choose_spec
      rw [sent_determined_iff sends ⟨0, 0, .replicate 2048 0⟩ ⟨1, 0, .replicate 2048 0⟩ ?_]
      · simp [fits]
      · intro same
        have fields := congrArg (fun bytes => (NotifyOneDescription.ofBytes order bytes).senderId) same
        simp only [NotifyOneDescription.ofBytes_toBytes] at fields
        exact absurd fields (by decide)
    · apply iff_of_false
      · intro determined
        apply determined.defined ⟨0, 0, .replicate 2048 0⟩
        simp only [notifyOne_overrun _ numeral (Nat.le_of_not_lt fits), Outcome.frames]
      · rintro (none | ⟨_, short⟩)
        · cases none
        · exact fits short

end MyCQClient

namespace System

variable {idCounter : UInt32} {s : System}

/-- When the transmitted bytes are independent of what uninitialised memory held, for the server in the
state `s` and for a client in any state. -/
structure MemoryIndependence (order : Endian) (s : System) : Prop where
  onMessage : ∀ c msg, msg.payload.size < 2 ^ 64 →
    (Determined (s.server.frames order c msg) ↔ MyCQServer.FillsPayload s.server msg)
  messageAll : ∀ connectionModule inputStr,
    Determined (fun uninitialized =>
      (MyCQClient.messageAll order uninitialized connectionModule inputStr).frames order connectionModule) ↔
    2048 < inputStr.length ∨
      MyCQClient.isConnected connectionModule = false ∧ (CString.text inputStr).length < 2048
  notifyOne : ∀ connectionModule receiverId writtenMsg,
    Determined (fun uninitialized =>
      (MyCQClient.notifyOne order uninitialized connectionModule receiverId writtenMsg).frames order
        connectionModule) ↔
    Numeral.stoul receiverId = none ∨
      MyCQClient.isConnected connectionModule = false ∧ (CString.text writtenMsg).length < 2048

/-- A request that is answered from a structure with unwritten bytes shows them, in every reachable state
of the server; a client shows them with every `MessageAll` and `NotifyOneClient` request it sends. -/
theorem memory_independence (run : Transition.Reachable (System.step order) (.start idCounter) s) :
    MemoryIndependence order s where
  onMessage c msg size := by
    obtain ⟨refs, roster⟩ := exists_roster run
    exact roster.frames_determined_iff size
  messageAll connectionModule inputStr := MyCQClient.messageAll_determined_iff inputStr
  notifyOne connectionModule receiverId writtenMsg := MyCQClient.notifyOne_determined_iff receiverId writtenMsg

theorem memory_independence_requested : MemoryIndependence .little requested :=
  memory_independence requested_reachable

/-- The reply to the only client shows what the memory held, and so does a line that is sent to all. -/
theorem memory_disclosed : Transition.Reachable (System.step .little) (.start 0) requested ∧
    requested.thread = .received 1 0 ⟨some 0, ⟨⟨1, 0⟩, .empty⟩⟩ ∧
    (∀ uninitialized, requested.server.frames .little 0 ⟨⟨1, 0⟩, .empty⟩ uninitialized ≠ none) ∧
    requested.server.frames .little 0 ⟨⟨1, 0⟩, .empty⟩ ⟨0, 0, .replicate 1000 0⟩ ≠
      requested.server.frames .little 0 ⟨⟨1, 0⟩, .empty⟩ ⟨0, 0, .replicate 1000 1⟩ ∧
    ¬ Determined (fun uninitialized => (MyCQClient.messageAll .little uninitialized (some .connecting)
      [104, 105]).frames .little (some .connecting)) := by
  obtain ⟨refs, roster⟩ := exists_roster requested_reachable
  have few : refs.length < 1000 := by
    rw [← roster.length]
    decide +kernel
  refine ⟨requested_reachable, by decide +kernel, ?_, roster.list_discloses few rfl, ?_⟩
  · exact roster.list_defined (Nat.le_of_lt few) rfl
  · rw [MyCQClient.messageAll_determined_iff]
    decide

end System
end MyCQ
