import Mathlib.Data.List.Basic
import MyCQ.App.Client.Dispatch
import MyCQ.App.Extraction

/-! The reply to a `ListAllClients` request.

The loop that fills `client_ids` runs over `connectionsQueue`. As long as the
list fits the array, the reply carries the identifiers of its entries in order,
and behind them what the memory held before.
-/

set_option autoImplicit false

namespace MyCQ
open Octets (Endian)

namespace MyCQServer

variable {order : Endian} {uninitialized : ClientsListDescription}

/-- The loop writes the identifiers from position `i` on and leaves the rest of the array alone. -/
theorem fillClientIds_ok (s : MyCQServer) (refs : List ConnRef) (i : Nat) (ids : CArray UInt32 1000)
    (fits : i + refs.length ≤ 1000) : ∃ filled, s.fillClientIds i (refs.map some) ids = .ok filled ∧
      filled.toList = ids.toList.take i ++ (refs.map s.getID ++ ids.toList.drop (i + refs.length)) := by
  induction refs generalizing i ids with
  | nil => exact ⟨ids, rfl, (List.take_append_drop i ids.toList).symm⟩
  | cons c rest ih =>
    rw [List.length_cons] at fits
    have inside : i < 1000 := by omega
    have position : i < ids.toList.length := by
      rw [ids.length_eq]
      exact inside
    obtain ⟨filled, ran, contents⟩ := ih (i + 1) (ids.set i (s.getID c)) (by omega)
    have written : (ids.set i (s.getID c)).toList =
        (ids.toList.take i ++ [s.getID c]) ++ ids.toList.drop (i + 1) := by
      have set : (ids.set i (s.getID c)).toList = ids.toList.set i (s.getID c) := rfl
      rw [set, List.set_eq_take_append_cons_drop, if_pos position, List.append_assoc]
      rfl
    have front : (ids.toList.take i ++ [s.getID c]).length = i + 1 := by
      rw [List.length_append, List.length_take, List.length_singleton]
      omega
    refine ⟨filled, ?_, ?_⟩
    · simp only [List.map_cons, fillClientIds, deref, bind, Except.bind, inside, if_true, ran]
    · rw [contents, written, List.take_left' front, List.drop_append, front,
        List.drop_eq_nil_of_le (by omega), List.drop_drop, List.map_cons, List.length_cons]
      have rest_length : i + 1 + (i + 1 + rest.length - (i + 1)) = i + (rest.length + 1) := by omega
      rw [rest_length, List.append_assoc]
      rfl

theorem fillClientIds_overflow (s : MyCQServer) (refs : List ConnRef) (i : Nat) (ids : CArray UInt32 1000)
    (start : i ≤ 1000) (exceeds : 1000 < i + refs.length) :
    s.fillClientIds i (refs.map some) ids = .error .clientIdsOverflow := by
  induction refs generalizing i ids with
  | nil =>
    rw [List.length_nil] at exceeds
    omega
  | cons c rest ih =>
    rw [List.length_cons] at exceeds
    simp only [List.map_cons, fillClientIds, deref, bind, Except.bind]
    by_cases inside : i < 1000
    · rw [if_pos inside]
      exact ih (i + 1) _ inside (by omega)
    · exact if_neg inside

structure ListReply (s : MyCQServer) (refs : List ConnRef) (memory : List UInt32) (c : ConnRef)
    (d : ClientsListDescription) : Prop where
  numActiveIds : d.numActiveIds.toNat = refs.length
  ownId : d.ownId = s.getID c
  clientIds : d.clientIds.toList = refs.map s.getID ++ memory.drop refs.length

def listReply (order : Endian) (d : ClientsListDescription) : Message :=
  (Message.ofId MyCQMessages.listAllClients.toUInt32).push (d.toBytes order).toList

variable {s : MyCQServer} {refs : List ConnRef} {msg : Message}

theorem onMessage_listAllClients (entries : s.connectionsQueue = refs.map some) (fits : refs.length ≤ 1000)
    (known : MyCQMessages.ofUInt32 msg.header.id = some .listAllClients) (c : ConnRef) :
    ∃ d, s.onMessage order uninitialized (some c) msg = .ok (s.sendData c (listReply order d)) ∧
      ListReply s refs uninitialized.clientIds.toList c d := by
  obtain ⟨ids, filled, contents⟩ := s.fillClientIds_ok refs 0 uninitialized.clientIds (by omega)
  rw [List.take_zero, List.nil_append, Nat.zero_add] at contents
  have length : s.connectionsQueue.length = refs.length := by rw [entries, List.length_map]
  refine ⟨⟨UInt32.ofNat s.connectionsQueue.length, s.getID c, ids⟩, ?_, ?_, rfl, contents⟩
  · rw [← entries] at filled
    simp only [onMessage, known, deref, bind, Except.bind, filled]
    rfl
  · rw [length, UInt32.toNat_ofNat']
    exact Nat.mod_eq_of_lt (Nat.lt_of_le_of_lt fits (by decide))

theorem onMessage_listAllClients_overflow (entries : s.connectionsQueue = refs.map some) (exceeds : 1000 < refs.length)
    (known : MyCQMessages.ofUInt32 msg.header.id = some .listAllClients) (c : ConnRef) :
    s.onMessage order uninitialized (some c) msg = .error .clientIdsOverflow := by
  have overflows := s.fillClientIds_overflow refs 0 uninitialized.clientIds (by omega) (by omega)
  rw [← entries] at overflows
  simp only [onMessage, known, deref, bind, Except.bind, overflows]

theorem ListReply.listed {memory : List UInt32} {c : ConnRef} {d : ClientsListDescription}
    (reply : ListReply s refs memory c d) :
    d.clientIds.toList.take d.numActiveIds.toNat = refs.map s.getID := by
  rw [reply.numActiveIds, reply.clientIds]
  exact List.take_left' (List.length_map s.getID)

theorem ListReply.shown {memory : List UInt32} {c : ConnRef} {d : ClientsListDescription}
    (reply : ListReply s refs memory c d) (fits : refs.length ≤ 1000) (agrees : (listReply order d).Agrees)
    (buffer : Message) : MyCQClient.dispatch order ((listReply order d).delivered agrees buffer) =
      .ok (.listAllClients (s.getID c) ((refs.map s.getID).filter (· ≠ s.getID c))) := by
  have sent : (listReply order d).Carries (d.toBytes order) := Message.carries_push _ _
  have arrived := sent.delivered agrees (by decide) buffer
  have inside : 0 + d.numActiveIds.toNat ≤ 1000 := by
    rw [reply.numActiveIds, Nat.zero_add]
    exact fits
  rw [MyCQClient.dispatch_listAllClients rfl arrived, MyCQClient.otherClients_ok _ _ _ _ inside, List.drop_zero,
    reply.listed, reply.ownId]
  rfl

/-- Only the list reply writes to the array. -/
theorem onMessage_overflow {client : Option ConnRef}
    (failed : s.onMessage order uninitialized client msg = .error .clientIdsOverflow) :
    MyCQMessages.ofUInt32 msg.header.id = some .listAllClients := by
  unfold onMessage at failed
  split at failed
  · rcases bind_eq_error failed with null | ⟨_, _, impossible⟩
    · cases deref_error null
    · cases impossible
  · rcases bind_eq_error failed with outside | ⟨_, _, failed⟩
    · cases extract_error outside
    · rcases bind_eq_error failed with null | ⟨_, _, failed⟩
      · cases deref_error null
      · cases sendMessageToAllClients_error failed
  · next known => exact known
  · rcases bind_eq_error failed with outside | ⟨_, _, failed⟩
    · cases extract_error outside
    · rcases bind_eq_error failed with null | ⟨_, _, failed⟩
      · cases deref_error null
      · cases notifyLoop_error failed
  · cases failed
  · cases failed

end MyCQServer
end MyCQ
