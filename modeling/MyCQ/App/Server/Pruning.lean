import MyCQ.App.Server.Requests

/-! How the server takes lost connections off its list.

A broadcast sends, calls the hook for the closed connections and drops them, all
in one pass over the list. A private message is to drop the connection that it
does not reach; but it looks for a pointer that has just been reset.
-/

set_option autoImplicit false

namespace MyCQ
open Octets (Endian)

namespace MyCQServer

variable {s t : MyCQServer} {refs : List ConnRef} {msg : Message} {ignoreClient : Option ConnRef} {c : ConnRef}

theorem closedEntries_map (s : MyCQServer) (refs : List ConnRef) :
    s.closedEntries (refs.map some) = refs.filter fun c => !s.isConnected c := by
  rw [closedEntries, List.filterMap_map]
  congr 1
  exact List.filterMap_some

structure Pruned (s : MyCQServer) : Prop where
  entries : ∀ entry ∈ s.connectionsQueue, ∃ c, entry = some c ∧ s.isConnected c = true
  idle : ∀ msg ignoreClient, ∃ t, s.sendMessageToAllClients msg ignoreClient = .ok t ∧
    t.disconnectCalls = s.disconnectCalls ∧ t.connectionsQueue = s.connectionsQueue

theorem Pruned.of_connected (entries : s.connectionsQueue = refs.map some)
    (connected : ∀ c ∈ refs, s.isConnected c = true) : Pruned s where
  entries entry member := by
    rw [entries] at member
    obtain ⟨c, listed, rfl⟩ := List.mem_map.mp member
    exact ⟨c, rfl, connected c listed⟩
  idle msg ignoreClient := by
    obtain ⟨t, done⟩ := sendMessageToAllClients_total entries msg ignoreClient
    obtain ⟨_, queue, calls⟩ := sendMessageToAllClients_ok done
    refine ⟨t, done, ?_, ?_⟩
    · have none : refs.filter (fun c => !s.isConnected c) = [] := by
        rw [List.filter_eq_nil_iff]
        intro c listed
        simp [connected c listed]
      rw [calls, entries, closedEntries_map, none, List.append_nil]
    · rw [queue, entries]
      apply List.filter_eq_self.mpr
      intro entry member
      obtain ⟨c, listed, rfl⟩ := List.mem_map.mp member
      exact connected c listed

/-- What a broadcast does that finds the connections `refs` in the list. -/
structure AfterBroadcast (s : MyCQServer) (refs : List ConnRef) (msg : Message) (ignoreClient : Option ConnRef)
    (t : MyCQServer) : Prop where
  delivers : Delivers s t fun c =>
    if c ∈ refs ∧ s.isConnected c = true ∧ some c ≠ ignoreClient then [msg] else []
  disconnectCalls : t.disconnectCalls = s.disconnectCalls ++ refs.filter fun c => !s.isConnected c
  connectionsQueue : t.connectionsQueue = (refs.filter s.isConnected).map some
  pruned : ∀ u : MyCQServer, u.connectionsQueue = t.connectionsQueue → u.isConnected = t.isConnected → Pruned u

/-- Whatever sockets are open and whoever is ignored, a broadcast over distinct connections sends one
message to each open one, calls the hook for each closed one, and keeps the open ones. -/
theorem broadcast_postcondition (s : MyCQServer) (refs : List ConnRef) (entries : s.connectionsQueue = refs.map some)
    (distinct : refs.Nodup) (msg : Message) (ignoreClient : Option ConnRef) :
    ∃ t, s.sendMessageToAllClients msg ignoreClient = .ok t ∧ AfterBroadcast s refs msg ignoreClient t := by
  obtain ⟨t, done⟩ := sendMessageToAllClients_total entries msg ignoreClient
  obtain ⟨delivers, queue, calls⟩ := sendMessageToAllClients_ok done
  have kept : t.connectionsQueue = (refs.filter s.isConnected).map some := by
    rw [queue, entries, List.filter_map]
    rfl
  refine ⟨t, done, ?_, ?_, kept, ?_⟩
  · apply delivers.congr
    intro c
    rw [entries, broadcastTo_of_nodup (distinct.map fun _ _ => Option.some.inj)]
    simp
  · rw [calls, entries, closedEntries_map]
  · intro u same opens
    apply Pruned.of_connected (same.trans kept)
    intro c listed
    rw [opens, delivers.isConnected]
    exact (List.mem_filter.mp listed).2

theorem broadcast_postcondition_closed : ∃ s : MyCQServer, s.connectionsQueue = [some 0, some 1, some 2] ∧
    s.isConnected 1 = false ∧ ∃ t, s.sendMessageToAllClients (.ofId 4) (some 2) = .ok t ∧
      AfterBroadcast s [0, 1, 2] (.ofId 4) (some 2) t := by
  let accepted := ((((start 0).acceptConnection 7).acceptConnection 8).acceptConnection 9)
  let s := accepted.setConn 1 (accepted.conn 1).close
  exact ⟨s, rfl, rfl, broadcast_postcondition s [0, 1, 2] rfl (by decide) (.ofId 4) (some 2)⟩

/-- A private message is handed to an open connection, and otherwise the hook is called and the
connection taken off the list. -/
def RemovesLost (s : MyCQServer) (c : ConnRef) (msg : Message) : Prop :=
  ∃ t, s.sendMessageToClient (some c) msg = .ok t ∧
    if s.isConnected c then
      Delivers s t (fun d => if d = c then [msg] else []) ∧ t.disconnectCalls = s.disconnectCalls ∧
        t.connectionsQueue = s.connectionsQueue
    else
      Delivers s t (fun _ => []) ∧ t.disconnectCalls = s.disconnectCalls ++ [c] ∧
        t.connectionsQueue = s.connectionsQueue.filter (· ≠ some c)

theorem sendMessageToClient_connected (connected : s.isConnected c = true) (msg : Message) :
    s.sendMessageToClient (some c) msg = .ok (s.sendData c msg) := by
  simp [sendMessageToClient, Option.filter, connected]

theorem sendMessageToClient_closed (entries : s.connectionsQueue = refs.map some) (closed : s.isConnected c = false)
    (msg : Message) : s.sendMessageToClient (some c) msg =
      .ok { s with disconnectCalls := s.disconnectCalls ++ [c] } := by
  have kept : s.connectionsQueue.filter (· ≠ none) = s.connectionsQueue := by
    rw [entries]
    apply List.filter_eq_self.mpr
    intro entry member
    obtain ⟨d, _, rfl⟩ := List.mem_map.mp member
    rfl
  simp only [sendMessageToClient, Option.filter, closed, onClientDisconnect, deref, bind, Except.bind, kept]
  rfl

theorem not_removesLost (entries : s.connectionsQueue = refs.map some) (listed : c ∈ refs)
    (closed : s.isConnected c = false) (msg : Message) : ¬ RemovesLost s c msg := by
  rintro ⟨t, done, lost⟩
  rw [closed, if_neg Bool.false_ne_true] at lost
  rw [sendMessageToClient_closed entries closed] at done
  cases done
  have member : some c ∈ s.connectionsQueue := by
    rw [entries]
    exact List.mem_map_of_mem listed
  have queue : s.connectionsQueue = s.connectionsQueue.filter (· ≠ some c) := lost.2.2
  rw [queue] at member
  exact of_decide_eq_true (List.mem_filter.mp member).2 rfl

/-- A private message to an entry of the list does what it should exactly when the entry is open. -/
theorem removes_lost_iff (s : MyCQServer) (refs : List ConnRef) (entries : s.connectionsQueue = refs.map some)
    (c : ConnRef) (listed : c ∈ refs) (msg : Message) : RemovesLost s c msg ↔ s.isConnected c = true := by
  constructor
  · intro removes
    rw [← Bool.not_eq_false]
    intro closed
    exact not_removesLost entries listed closed msg removes
  · intro connected
    refine ⟨_, sendMessageToClient_connected connected msg, ?_⟩
    rw [if_pos connected]
    exact ⟨delivers_sendData s c msg, rfl, rfl⟩

theorem removes_lost_accepted : RemovesLost ((start 0).acceptConnection 7) 0 (.ofId 4) :=
  (removes_lost_iff ((start 0).acceptConnection 7) [0] rfl 0 (by decide) (.ofId 4)).mpr rfl

/-- The read of the only connection fails, and the message to it leaves it in the list. -/
theorem lost_connection_kept : ∃ conn, (((start 0).acceptConnection 7).conn 0).runHandler .little
      (.readFailed .checkValidation []) = some (conn, none) ∧
    ¬ RemovesLost (((start 0).acceptConnection 7).setConn 0 conn) 0 (.ofId 4) := by
  refine ⟨_, rfl, ?_⟩
  apply @not_removesLost _ [0]
  · rfl
  · decide
  · rfl

end MyCQServer
end MyCQ
