import MyCQ.App.System.Senders
import MyCQ.Foundation.Labels
import MyCQ.Net.Endpoint.OutgoingStream
import MyCQ.Net.Endpoint.Parsing

/-! The order in which broadcasts reach the clients.

Requests are numbered in the order in which they are popped from the incoming
queue. `Traced` adds to the server a record of the request that each message
passed to `sendData` broadcasts, so that the streams to two clients can be
compared request by request.
-/

set_option autoImplicit false

namespace MyCQ
open Octets (Endian)
open ConnectionInterface (Handler)

namespace System

variable {order : Endian} {idCounter : UInt32} {s t : System} {a : Action}

def label (s : System) : Action → Option Nat
  | .onMessage _ =>
    match s.thread with
    | .received _ _ msg =>
      if MyCQMessages.ofUInt32 msg.msg.header.id = some .messageAll then some s.calls.length else none
    | _ => none
  | _ => none

/-- The running server, and for each message passed to `sendData` of a connection the request that it
broadcasts. -/
structure Traced where
  system : System
  origin : ConnRef → List (Option Nat)

def Traced.start (idCounter : UInt32) : Traced := ⟨.start idCounter, fun _ => []⟩

def Traced.step (order : Endian) (s : Traced) (a : Action) : Option Traced :=
  (s.system.step order a).map fun t =>
    ⟨t, fun c => s.origin c ++ List.replicate (s.system.server.passed t.server c).length (s.system.label a)⟩

theorem label_eq_some {i : Nat} (labelled : s.label a = some i) :
    ∃ uninitialized numMaxMessages msgCount msg, a = .onMessage uninitialized ∧
      s.thread = .received numMaxMessages msgCount msg ∧
      MyCQMessages.ofUInt32 msg.msg.header.id = some .messageAll ∧ i = s.calls.length := by
  unfold label at labelled
  split at labelled
  · next uninitialized =>
    split at labelled
    · next numMaxMessages msgCount msg point =>
      split at labelled
      · next known =>
        cases labelled
        exact ⟨uninitialized, numMaxMessages, msgCount, msg, rfl, point, known, rfl⟩
      · cases labelled
    · cases labelled
  · cases labelled

theorem calls_step (taken : s.step order a = some t) : s.calls <+: t.calls := by
  cases step_cases taken with
  | onMessage => exact List.prefix_append _ _
  | onMessageFault => exact List.prefix_append _ _
  | _ => exact List.prefix_refl _

theorem sendDataCalls_step (wellFormed : WellFormed s) (taken : s.step order a = some t) (x : ConnRef) :
    (t.server.conn x).sendDataCalls = (s.server.conn x).sendDataCalls ++ s.server.passed t.server x := by
  suffices grown : ∃ msgs, (t.server.conn x).sendDataCalls = (s.server.conn x).sendDataCalls ++ msgs by
    obtain ⟨msgs, grown⟩ := grown
    rw [MyCQServer.passed, ConnectionInterface.passed, grown, List.drop_left]
  by_cases created : x < s.server.created
  · have moved := endpoint_step wellFormed taken created
    generalize reached : t.endpoint x = q at moved
    have same : (t.server.conn x).sendDataCalls = q.conn.sendDataCalls := by rw [← reached]; rfl
    rw [same]
    cases moved with
    | handler h _ ran => exact ⟨[], (Endpoint.sendDataCalls_handler ran).trans (List.append_nil _).symm⟩
    | sends msgs => exact ⟨msgs, rfl⟩
  · rw [wellFormed.unborn x (Nat.le_of_not_lt created)]
    exact ⟨_, rfl⟩

theorem broadcast_step (run : Transition.Reachable (System.step order) (.start idCounter) s) {i : Nat}
    (labelled : s.label a = some i) (taken : s.step order a = some t) : i = s.calls.length ∧
    ∃ c request, t.calls = s.calls ++ [⟨some c, request⟩] ∧ c < s.server.created ∧
      MyCQMessages.ofUInt32 request.header.id = some .messageAll ∧
      ∀ x, s.server.passed t.server x = [] ∨ c ≠ x ∧ ∃ bytes rest,
        request.pop MessageAllDescription.sizeof = some (bytes, rest) ∧
        s.server.passed t.server x = [s.server.messageAllReply order c bytes] := by
  obtain ⟨uninitialized, numMaxMessages, msgCount, msg, rfl, point, known, number⟩ := label_eq_some labelled
  have wellFormed := wellFormed_of_reachable run
  have inHand : msg ∈ s.thread.unhandled := by simp [point, UpdateThread.unhandled]
  obtain ⟨c, remote, created⟩ := wellFormed.remotes msg (wellFormed.unhandled_pushed inHand)
  obtain ⟨client, request⟩ := msg
  obtain rfl : client = some c := remote
  refine ⟨number, c, request, ?_⟩
  cases step_cases taken with
  | moves _ thread moved =>
    rw [moved.unhandled.1] at inHand
    cases inHand
  | onMessage _ _ _ held server received ran =>
    obtain ⟨_, _, rfl⟩ := UpdateThread.received.inj (point.symm.trans received)
    refine ⟨rfl, created, known, fun x => ?_⟩
    obtain ⟨d, bytes, rest, found, popped, broadcast⟩ := (MyCQServer.handled_of_onMessage ran).of_messageAll known
    cases found
    obtain ⟨refs, roster⟩ := exists_roster run
    have passed := (MyCQServer.sendMessageToAllClients_ok broadcast).1.passed x
    rw [roster.broadcastTo] at passed
    split at passed
    · next meant => exact Or.inr ⟨fun same => meant.2.2 same.symm, bytes, rest, popped, passed⟩
    · exact Or.inl passed
  | onMessageFault _ _ _ held fault received =>
    obtain ⟨_, _, rfl⟩ := UpdateThread.received.inj (point.symm.trans received)
    refine ⟨rfl, created, known, fun x => Or.inl ?_⟩
    simp [MyCQServer.passed, ConnectionInterface.passed]
  | sendFault _ _ outside => cases point.symm.trans outside

def Broadcasts (order : Endian) (s : System) (x : ConnRef) (position i : Nat) : Prop :=
  ∃ c request bytes rest, s.calls[i]? = some ⟨some c, request⟩ ∧
    MyCQMessages.ofUInt32 request.header.id = some .messageAll ∧ c ≠ x ∧
    request.pop MessageAllDescription.sizeof = some (bytes, rest) ∧
    (s.server.conn x).sendDataCalls[position]? = some (s.server.messageAllReply order c bytes)

theorem WellFormed.calls_created (wellFormed : WellFormed s) {c : ConnRef} {request : Message} {i : Nat}
    (handled : s.calls[i]? = some ⟨some c, request⟩) : c < s.server.created := by
  have pushed : (⟨some c, request⟩ : OwnedMessage) ∈ s.pushed := by
    rw [← wellFormed.log, List.append_assoc]
    exact List.mem_append_left _ (List.mem_of_getElem? handled)
  obtain ⟨d, same, created⟩ := wellFormed.remotes _ pushed
  cases same
  exact created

/-- Connections keep their identifiers, so a later reply is the same. -/
theorem messageAllReply_step (run : Transition.Reachable (System.step order) (.start idCounter) s)
    (taken : s.step order a = some t) {c : ConnRef} (created : c < s.server.created)
    (bytes : CArray Byte MessageAllDescription.sizeof) :
    t.server.messageAllReply order c bytes = s.server.messageAllReply order c bytes := by
  have after : Transition.Reachable (System.step order) (.start idCounter) t := run.next trivial taken
  have kept : s.server.created ≤ t.server.created := by
    rw [(wellFormed_of_reachable run).created, (wellFormed_of_reachable after).created]
    rcases challenges_step taken with ⟨clock, rfl⟩ | same
    · rw [List.length_append]
      exact Nat.le_add_right _ _
    · rw [same]
  rw [MyCQServer.messageAllReply, MyCQServer.messageAllReply, (numbered_of_reachable run).ids c created,
    (numbered_of_reachable after).ids c (Nat.lt_of_lt_of_le created kept)]

theorem Broadcasts.step (run : Transition.Reachable (System.step order) (.start idCounter) s) {x : ConnRef}
    {position i : Nat} (broadcasts : Broadcasts order s x position i) (taken : s.step order a = some t) :
    Broadcasts order t x position i := by
  obtain ⟨c, request, bytes, rest, handled, known, other, popped, passed⟩ := broadcasts
  have wellFormed := wellFormed_of_reachable run
  obtain ⟨more, calls⟩ := calls_step taken
  have handled' : t.calls[i]? = some ⟨some c, request⟩ := by
    rw [← calls, List.getElem?_append_left (List.getElem?_eq_some_iff.mp handled).1]
    exact handled
  refine ⟨c, request, bytes, rest, handled', known, other, popped, ?_⟩
  rw [sendDataCalls_step wellFormed taken, List.getElem?_append_left (List.getElem?_eq_some_iff.mp passed).1,
    passed, messageAllReply_step run taken (wellFormed.calls_created handled)]

theorem writerInvariant_of_reachable (run : Transition.Reachable (System.step order) (.start idCounter) s)
    (x : ConnRef) : (s.server.conn x).WriterInvariant := by
  by_cases created : x < s.server.created
  · obtain ⟨challenge, uId, reached⟩ := exists_accepted_endpoint run created
    exact Endpoint.writerInvariant_run (Endpoint.Begins.accepted challenge uId).writerInvariant reached
  · rw [(wellFormed_of_reachable run).unborn x (Nat.le_of_not_lt created)]
    exact ⟨[], rfl, .quiet rfl rfl rfl⟩

def inbound (s : System) (c : ConnRef) : List Byte := (s.server.conn c).socketConnection.received.drop 8

theorem validated_of_enqueued (run : Transition.Reachable (System.step order) (.start idCounter) s) {c : ConnRef}
    (created : c < s.server.created) (some : (s.endpoint c).enqueued ≠ []) :
    Endpoint.Validated order (s.inbound c) (s.endpoint c) := by
  obtain ⟨_, _, reached⟩ := exists_accepted_endpoint run created
  cases (Endpoint.serverEnd_of_reachable reached).inbound with
  | awaiting _ _ _ _ _ none => exact absurd none some
  | serving answer _ flag serving =>
    obtain ⟨frames, rest, received, _⟩ := serving.frames
    refine ⟨⟨_, _, reached⟩, flag, answer, ?_⟩
    have behind : s.inbound c = frames.flatMap (Frame.bytes order) ++ rest := by
      have split : (s.server.conn c).socketConnection.received = _ := received
      rw [inbound, split, List.append_assoc, List.drop_left' answer.length_eq]
    rw [behind, ← List.append_assoc]
    exact received
  | refused _ _ _ _ _ none => exact absurd none some

def fromClient (c : ConnRef) (m : OwnedMessage) : Bool := decide (m.remote = some c)

def requestRank (s : System) (c : ConnRef) (i : Nat) : Nat := Labels.rank (fromClient c) s.calls i

theorem calls_prefix_enqueued (wellFormed : WellFormed s) (c : ConnRef) :
    (s.calls.filter (fromClient c)).map OwnedMessage.msg <+: (s.endpoint c).enqueued := by
  have whole : s.calls <+: s.pushed := by
    rw [← wellFormed.log, List.append_assoc]
    exact List.prefix_append _ _
  exact (whole.filter (fromClient c)).map OwnedMessage.msg

theorem request_frame (run : Transition.Reachable (System.step order) (.start idCounter) s) {c : ConnRef}
    {request : Message} {i : Nat} (handled : s.calls[i]? = some ⟨some c, request⟩) :
    Endpoint.Validated order (s.inbound c) (s.endpoint c) ∧
      ((Frame.parse order (s.inbound c)).map Frame.content)[s.requestRank c i]? = some request.content := by
  have wellFormed := wellFormed_of_reachable run
  have mine : fromClient c ⟨some c, request⟩ = true := decide_eq_true rfl
  have enqueued : (s.endpoint c).enqueued[s.requestRank c i]? = some request := by
    obtain ⟨later, whole⟩ := calls_prefix_enqueued wellFormed c
    have ranked : ((s.calls.filter (fromClient c)).map OwnedMessage.msg)[s.requestRank c i]? = some request := by
      rw [List.getElem?_map, requestRank, Labels.getElem?_filter_rank handled mine]
      rfl
    rw [← whole, List.getElem?_append_left (List.getElem?_eq_some_iff.mp ranked).1]
    exact ranked
  have validated := validated_of_enqueued run (wellFormed.calls_created handled)
    (List.ne_nil_of_mem (List.mem_of_getElem? enqueued))
  refine ⟨validated, ?_⟩
  rw [← validated.parsed, List.getElem?_map, enqueued]
  rfl

namespace Traced

variable {s t : Traced}

theorem step_system (taken : s.step order a = some t) : s.system.step order a = some t.system := by
  obtain ⟨_, ran, rfl⟩ := Option.map_eq_some_iff.mp taken
  exact ran

theorem step_origin (taken : s.step order a = some t) (x : ConnRef) : t.origin x =
    s.origin x ++ List.replicate (s.system.server.passed t.system.server x).length (s.system.label a) := by
  obtain ⟨_, _, rfl⟩ := Option.map_eq_some_iff.mp taken
  rfl

theorem system_reachable (run : Transition.Reachable (step order) (start idCounter) s) :
    Transition.Reachable (System.step order) (.start idCounter) s.system := by
  induction run with
  | start => exact .start
  | next _ _ taken ih => exact ih.next trivial (step_system taken)

/-- Every run of the server can be traced. -/
theorem exists_traced {s : System} (run : Transition.Reachable (System.step order) (.start idCounter) s) :
    ∃ origin, Transition.Reachable (step order) (start idCounter) ⟨s, origin⟩ := by
  induction run with
  | start => exact ⟨_, .start⟩
  | @next s t a _ _ taken ih =>
    obtain ⟨origin, traced⟩ := ih
    have moved : step order ⟨s, origin⟩ a = some ⟨t, fun c =>
        origin c ++ List.replicate (s.server.passed t.server c).length (s.label a)⟩ := by
      simp only [step, taken, Option.map_some]
    exact ⟨_, traced.next trivial moved⟩

structure Tracked (order : Endian) (s : Traced) : Prop where
  length : ∀ x, (s.origin x).length = (s.system.server.conn x).sendDataCalls.length
  increasing : ∀ x, Labels.Increasing s.system.calls.length (s.origin x)
  broadcasts : ∀ x position i, (s.origin x)[position]? = some (some i) → Broadcasts order s.system x position i

theorem Tracked.step (run : Transition.Reachable (System.step order) (.start idCounter) s.system)
    (tracked : Tracked order s) (taken : s.step order a = some t) : Tracked order t := by
  have moved := step_system taken
  have grown := sendDataCalls_step (wellFormed_of_reachable run) moved
  obtain ⟨more, calls⟩ := calls_step moved
  have later : s.system.calls.length ≤ t.system.calls.length := by
    rw [← calls, List.length_append]
    exact Nat.le_add_right _ _
  refine ⟨fun x => ?_, fun x => ?_, fun x position i entry => ?_⟩
  · rw [step_origin taken, grown, List.length_append, List.length_append, List.length_replicate, tracked.length]
  · rw [step_origin taken]
    cases labelled : s.system.label a with
    | none => exact ((tracked.increasing x).unlabelled _).mono later
    | some i =>
      obtain ⟨rfl, c, request, calls, _, _, passes⟩ := broadcast_step run labelled moved
      rcases passes x with none | ⟨_, bytes, rest, _, one⟩
      · rw [none]
        simpa using (tracked.increasing x).mono later
      · rw [one, calls, List.length_append]
        exact (tracked.increasing x).next
  · rw [step_origin taken] at entry
    by_cases old : position < (s.origin x).length
    · rw [List.getElem?_append_left old] at entry
      exact (tracked.broadcasts x position i entry).step run moved
    · -- The entry is new, and so is the message at its position.
      have new := Nat.le_of_not_lt old
      rw [List.getElem?_append_right new, List.getElem?_replicate] at entry
      split at entry
      · next inside =>
        have labelled := Option.some.inj entry
        obtain ⟨rfl, c, request, calls, created, known, passes⟩ := broadcast_step run labelled moved
        rcases passes x with none | ⟨other, bytes, rest, popped, one⟩
        · rw [none] at inside
          cases inside
        · rw [one, List.length_singleton] at inside
          have last : position = (s.system.server.conn x).sendDataCalls.length := by
            rw [← tracked.length]
            omega
          refine ⟨c, request, bytes, rest, ?_, known, other, popped, ?_⟩
          · rw [calls, List.getElem?_concat_length]
          · rw [grown, one, last, List.getElem?_concat_length, messageAllReply_step run moved created]
      · cases entry

theorem tracked_of_reachable (run : Transition.Reachable (step order) (start idCounter) s) : Tracked order s := by
  induction run with
  | start => exact ⟨fun _ => rfl, fun _ => .nil 0, fun _ _ _ none => by cases none⟩
  | next before _ taken ih => exact ih.step (system_reachable before) taken

def streamed (s : Traced) (x : ConnRef) : List Nat :=
  ((s.origin x).take (s.system.server.conn x).framesBegun).reduceOption

structure BroadcastOrder (order : Endian) (s : Traced) : Prop where
  length : ∀ x, (s.origin x).length = (s.system.server.conn x).sendDataCalls.length
  broadcasts : ∀ x position i, (s.origin x)[position]? = some (some i) → Broadcasts order s.system x position i
  stream : ∀ x, ((s.system.server.conn x).sendDataCalls.take ((s.system.server.conn x).framesBegun - 1)).flatMap
      (Message.wire order) <+: (s.system.server.conn x).frameBytes order ∧
    (s.system.server.conn x).frameBytes order <+:
      ((s.system.server.conn x).sendDataCalls.take (s.system.server.conn x).framesBegun).flatMap
        (Message.wire order)
  popOrder : ∀ x, (s.streamed x).Pairwise (· < ·)
  agreement : ∀ x y, (s.streamed x).filter (· ∈ s.streamed y) = (s.streamed y).filter (· ∈ s.streamed x)
  requestFrame : ∀ c i request, s.system.calls[i]? = some ⟨some c, request⟩ →
    Endpoint.Validated order (s.system.inbound c) (s.system.endpoint c) ∧
      ((Frame.parse order (s.system.inbound c)).map Frame.content)[s.system.requestRank c i]? = some request.content
  senderOrder : ∀ c i j request, s.system.calls[i]? = some ⟨some c, request⟩ → i < j →
    s.system.requestRank c i < s.system.requestRank c j

/-- In every state of every run, whatever the interleaving. -/
theorem broadcast_order (run : Transition.Reachable (step order) (start idCounter) s) : BroadcastOrder order s := by
  have tracked := tracked_of_reachable run
  have reached := system_reachable run
  have popOrder : ∀ x, (s.streamed x).Pairwise (· < ·) := fun x => (tracked.increasing x).take _
  constructor
  · exact tracked.length
  · exact tracked.broadcasts
  · exact fun x => (writerInvariant_of_reachable reached x).stream order
  · exact popOrder
  · exact fun x y => Labels.filter_mem_comm (popOrder x) (popOrder y)
  · exact fun c i request handled => request_frame reached handled
  · exact fun c i j request handled before => Labels.rank_lt_rank handled (decide_eq_true rfl) before

def requestArrives (c : ConnRef) (byte : Byte) : List Action :=
  [.handler c (.readOk .header ((MessageHeader.mk 0 2056).bytes .little).toList),
    .handler c (.readOk (.payload 2056) (List.replicate 2056 byte))]

def twoSenders : List Action :=
  [.accept 7, .accept 8, .accept 9,
    .handler 0 (.readOk .checkValidation (CArray.ofUInt64 .little (encryptHandshakeData 7)).toList),
    .handler 1 (.readOk .checkValidation (CArray.ofUInt64 .little (encryptHandshakeData 8)).toList)] ++
  requestArrives 1 98 ++ requestArrives 0 97 ++
  [.update 2 true, .waitReturns,
    .test, .popFront, .onMessage ⟨0, 0, .replicate 1000 0⟩, .endIteration,
    .test, .popFront, .onMessage ⟨0, 0, .replicate 1000 0⟩, .endIteration,
    .handler 2 .posted, .handler 2 .posted, .handler 2 .posted,
    .handler 2 (.writeOk (.header ⟨4, 0⟩)), .handler 2 (.writeOk (.header ⟨0, 2056⟩)),
    .handler 2 (.writeOk (.payload (List.replicate 2052 98 ++ [1, 0, 0, 0])))]

theorem twoSenders_enabled :
    (Transition.perform (step .little) (start 0) twoSenders).isSome = true := by
  decide +kernel

theorem broadcast_order_twoSenders : BroadcastOrder .little
    ((Transition.perform (step .little) (start 0) twoSenders).get twoSenders_enabled) :=
  broadcast_order (.of_isSome twoSenders (start 0) twoSenders_enabled)

example : ((Transition.perform (step .little) (start 0) twoSenders).get twoSenders_enabled).streamed 2 = [0, 1] := by
  decide +kernel

end Traced
end System
end MyCQ
