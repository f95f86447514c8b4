import Mathlib.Data.List.Nodup
import MyCQ.App.Client.Dispatch
import MyCQ.App.System.Roster

/-! Who is named as the sender of a forwarded message, and who receives it.

The server takes the structure off the request, assigns `sender_id` and pushes
it onto a new message. The field lies at the end of one structure and at the
start of the other; whatever the requester wrote there is overwritten.
-/

set_option autoImplicit false

namespace MyCQ
open Octets (Endian)

/-- `m` is the request with the identifier `id` written at `offset` of its structure, and a receiver
extracts just that. -/
structure Forwards {n : Nat} (order : Endian) (id : UInt32) (offset : Nat) (request m : Message)
    (bytes stamped : CArray Byte n) : Prop where
  header : m.header.id = request.header.id
  overwritten : stamped.toList = Buffer.overwrite bytes.toList offset (CArray.ofUInt32 order id).toList
  carries : m.Carries stamped
  extracted : ∃ agrees : m.Agrees, ∀ buffer, MyCQServer.extract (m.delivered agrees buffer) n = .ok stamped

theorem forwards_push {n : Nat} {order : Endian} {id : UInt32} {offset : Nat} {request : Message}
    {kind : MyCQMessages} {bytes : CArray Byte n} (stamped : CArray Byte n)
    (known : request.header.id = kind.toUInt32) (positive : 0 < n) (bound : n < 2 ^ 32)
    (overwritten : stamped.toList = Buffer.overwrite bytes.toList offset (CArray.ofUInt32 order id).toList) :
    Forwards order id offset request ((Message.ofId kind.toUInt32).push stamped.toList) bytes stamped where
  header := by
    rw [known]
    rfl
  overwritten := overwritten
  carries := Message.carries_push kind.toUInt32 stamped
  extracted := by
    refine ⟨Message.agrees_push_value kind.toUInt32 stamped bound, fun buffer => ?_⟩
    have arrived := (Message.carries_push kind.toUInt32 stamped).delivered
      (Message.agrees_push_value kind.toUInt32 stamped bound) positive buffer
    exact MyCQServer.extract_of_carries arrived (Nat.lt_trans bound (by decide))

namespace MyCQServer

variable {order : Endian} {s : MyCQServer} {refs : List ConnRef}

theorem Roster.nodup_connectionsQueue (roster : Roster s refs) : s.connectionsQueue.Nodup := by
  rw [roster.entries]
  exact roster.nodup.map fun _ _ => Option.some.inj

theorem Roster.broadcastTo (roster : Roster s refs) (msg : Message) (c d : ConnRef) :
    s.broadcastTo s.connectionsQueue msg (some c) d =
      if some d ∈ s.connectionsQueue ∧ s.isConnected d = true ∧ d ≠ c then [msg] else [] := by
  rw [broadcastTo_of_nodup roster.nodup_connectionsQueue]
  simp only [ne_eq, Option.some.injEq]

theorem Roster.notifyTo (roster : Roster s refs) (msg : Message) (receiverId : UInt32) (d : ConnRef) :
    s.notifyTo s.connectionsQueue msg receiverId d =
      if some d ∈ s.connectionsQueue ∧ s.getID d = receiverId then [msg] else [] := by
  rw [MyCQServer.notifyTo, roster.nodup_connectionsQueue.count]
  by_cases listed : some d ∈ s.connectionsQueue
  · simp [listed]
  · simp [listed]

theorem Roster.passed_messageAll (roster : Roster s refs) {uninitialized : ClientsListDescription} {c : ConnRef}
    {msg : Message} {bytes : CArray Byte MessageAllDescription.sizeof}
    (known : msg.header.id = MyCQMessages.messageAll.toUInt32) (carries : msg.Carries bytes) :
    ∃ t, s.onMessage order uninitialized (some c) msg = .ok t ∧ ∀ d, s.passed t d =
      if some d ∈ s.connectionsQueue ∧ s.isConnected d = true ∧ d ≠ c then [s.messageAllReply order c bytes]
      else [] := by
  obtain ⟨t, ran⟩ := sendMessageToAllClients_total roster.entries (s.messageAllReply order c bytes) (some c)
  have extracted := extract_of_carries carries (by decide)
  refine ⟨t, ?_, fun d => ?_⟩
  · rw [onMessage, known, MyCQMessages.ofUInt32_toUInt32]
    simp only [extracted, deref, bind, Except.bind]
    exact ran
  · rw [(sendMessageToAllClients_ok ran).1.passed, roster.broadcastTo]

theorem Roster.passed_notifyOne (roster : Roster s refs) {uninitialized : ClientsListDescription} {c : ConnRef}
    {msg : Message} {bytes : CArray Byte NotifyOneDescription.sizeof}
    (known : msg.header.id = MyCQMessages.notifyOneClient.toUInt32) (carries : msg.Carries bytes) :
    ∃ t, s.onMessage order uninitialized (some c) msg = .ok t ∧ ∀ d, s.passed t d =
      if some d ∈ s.connectionsQueue ∧ s.getID d = (NotifyOneDescription.ofBytes order bytes).receiverId then
        [s.notifyOneReply order c bytes]
      else [] := by
  obtain ⟨t, ran⟩ := notifyLoop_total (s.notifyOneReply order c bytes)
    (NotifyOneDescription.ofBytes order bytes).receiverId refs s
  rw [← roster.entries] at ran
  have extracted := extract_of_carries carries (by decide)
  refine ⟨t, ?_, fun d => ?_⟩
  · rw [onMessage, known, MyCQMessages.ofUInt32_toUInt32]
    simp only [extracted, deref, bind, Except.bind]
    exact ran
  · rw [(notifyLoop_ok ran).1.passed, roster.notifyTo]

structure SenderAuthentic (order : Endian) (s : MyCQServer) (c : ConnRef) : Prop where
  messageAll : ∀ (uninitialized : ClientsListDescription) (msg : Message)
    (bytes : CArray Byte MessageAllDescription.sizeof),
    msg.header.id = MyCQMessages.messageAll.toUInt32 → msg.Carries bytes →
    ∃ t m stamped, s.onMessage order uninitialized (some c) msg = .ok t ∧
      Forwards order (s.getID c) MessageAllDescription.senderIdOffset msg m bytes stamped ∧
      MessageAllDescription.ofBytes order stamped =
        { MessageAllDescription.ofBytes order bytes with senderId := s.getID c } ∧
      ∀ d, s.passed t d = if some d ∈ s.connectionsQueue ∧ s.isConnected d = true ∧ d ≠ c then [m] else []
  notifyOne : ∀ (uninitialized : ClientsListDescription) (msg : Message)
    (bytes : CArray Byte NotifyOneDescription.sizeof),
    msg.header.id = MyCQMessages.notifyOneClient.toUInt32 → msg.Carries bytes →
    ∃ t m stamped, s.onMessage order uninitialized (some c) msg = .ok t ∧
      Forwards order (s.getID c) NotifyOneDescription.senderIdOffset msg m bytes stamped ∧
      NotifyOneDescription.ofBytes order stamped =
        { NotifyOneDescription.ofBytes order bytes with senderId := s.getID c } ∧
      ∀ d, s.passed t d =
        if some d ∈ s.connectionsQueue ∧ s.getID d = (NotifyOneDescription.ofBytes order bytes).receiverId then [m]
        else []

theorem Roster.senderAuthentic (roster : Roster s refs) (order : Endian) (c : ConnRef) :
    SenderAuthentic order s c where
  messageAll uninitialized msg bytes known carries := by
    let stamped := { MessageAllDescription.ofBytes order bytes with senderId := s.getID c }.toBytes order
    obtain ⟨t, handled, passed⟩ := @passed_messageAll order s refs roster uninitialized c msg bytes known carries
    refine ⟨t, s.messageAllReply order c bytes, stamped, handled, ?_, ?_, passed⟩
    · exact forwards_push stamped known (by decide) (by decide)
        (MessageAllDescription.toBytes_assign_senderId order bytes (s.getID c))
    · exact MessageAllDescription.ofBytes_toBytes order _
  notifyOne uninitialized msg bytes known carries := by
    let stamped := { NotifyOneDescription.ofBytes order bytes with senderId := s.getID c }.toBytes order
    obtain ⟨t, handled, passed⟩ := @passed_notifyOne order s refs roster uninitialized c msg bytes known carries
    refine ⟨t, s.notifyOneReply order c bytes, stamped, handled, ?_, ?_, passed⟩
    · exact forwards_push stamped known (by decide) (by decide)
        (NotifyOneDescription.toBytes_assign_senderId order bytes (s.getID c))
    · exact NotifyOneDescription.ofBytes_toBytes order _

end MyCQServer

namespace System

variable {order : Endian} {idCounter : UInt32} {s : System}

/-- No client can speak in the name of another. -/
theorem sender_authentic (run : Transition.Reachable (System.step order) (.start idCounter) s) (c : ConnRef) :
    MyCQServer.SenderAuthentic order s.server c := by
  obtain ⟨refs, roster⟩ := exists_roster run
  exact roster.senderAuthentic order c

def twoClients : List Action := [.accept 7, .accept 8]

theorem twoClients_enabled : (Transition.perform (System.step .little) (start 5) twoClients).isSome = true := by
  decide +kernel

theorem sender_authentic_twoClients : MyCQServer.SenderAuthentic .little
    ((Transition.perform (System.step .little) (.start 5) twoClients).get twoClients_enabled).server 1 :=
  sender_authentic (.of_isSome twoClients (start 5) twoClients_enabled) 1

end System
end MyCQ
