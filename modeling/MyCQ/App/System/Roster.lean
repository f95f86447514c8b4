import MyCQ.App.System.Connections

/-! Which connections are listed in `connectionsQueue`, and which identifiers they have.

Every accepted connection is listed, and only a broadcast takes a connection
off the list, when it finds its socket closed. A closed socket of the server is
never opened again, so the open ones are always listed. Identifiers are handed
out by a counter of 32 bits and never change.
-/

set_option autoImplicit false

namespace MyCQ
open Octets (Endian)
open ConnectionInterface (Handler)

namespace MyCQServer

variable {s t : MyCQServer} {refs : List ConnRef}

/-- `refs` is the connection list: created connections in the order of acceptance, each once, and
every connection whose socket is open among them. -/
structure Roster (s : MyCQServer) (refs : List ConnRef) : Prop where
  entries : s.connectionsQueue = refs.map some
  ordered : refs.Pairwise (· < ·)
  created : ∀ c ∈ refs, c < s.created
  connected : ∀ c, s.isConnected c = true → c ∈ refs

theorem Roster.mem_iff (roster : Roster s refs) (c : ConnRef) : some c ∈ s.connectionsQueue ↔ c ∈ refs := by
  rw [roster.entries]
  simp

theorem Roster.nodup (roster : Roster s refs) : refs.Nodup :=
  roster.ordered.imp Nat.ne_of_lt

theorem Roster.length (roster : Roster s refs) : s.connectionsQueue.length = refs.length := by
  rw [roster.entries, List.length_map]

theorem filter_live_map (s : MyCQServer) (refs : List ConnRef) :
    (refs.map some).filter s.live = (refs.filter s.isConnected).map some := by
  rw [List.filter_map]
  rfl

def Keeps (s : MyCQServer) (queue : List (Option ConnRef)) : Prop :=
  queue = s.connectionsQueue ∨ queue = s.connectionsQueue.filter s.live ∨
    queue = s.connectionsQueue.filter (· ≠ none)

theorem Roster.operate (roster : Roster s refs) {out : ConnRef → List Message} (delivers : Delivers s t out)
    (kept : s.Keeps t.connectionsQueue) :
    t.connectionsQueue = s.connectionsQueue ∧ Roster t refs ∨ Roster t (refs.filter s.isConnected) := by
  have same := delivers.isConnected
  have whole : t.connectionsQueue = s.connectionsQueue → Roster t refs := by
    intro queue
    refine ⟨queue.trans roster.entries, roster.ordered, ?_, ?_⟩
    · rw [delivers.created]
      exact roster.created
    · rw [same]
      exact roster.connected
  rcases kept with queue | queue | queue
  · exact Or.inl ⟨queue, whole queue⟩
  · right
    refine ⟨?_, roster.ordered.filter _, ?_, ?_⟩
    · rw [queue, roster.entries, filter_live_map]
    · intro c member
      rw [delivers.created]
      exact roster.created c (List.mem_filter.mp member).1
    · intro c isOpen
      rw [same] at isOpen
      exact List.mem_filter.mpr ⟨roster.connected c isOpen, isOpen⟩
  · left
    have none : t.connectionsQueue = s.connectionsQueue := by
      rw [queue, roster.entries]
      exact List.filter_eq_self.mpr fun entry member => by
        obtain ⟨c, _, rfl⟩ := List.mem_map.mp member
        rfl
    exact ⟨none, whole none⟩

theorem Roster.accept (roster : Roster s refs) (clock : UInt64) :
    Roster (s.acceptConnection clock) (refs ++ [s.created]) where
  entries := by
    rw [acceptConnection_connectionsQueue, roster.entries, List.map_append]
    rfl
  ordered := by
    refine List.pairwise_append.mpr ⟨roster.ordered, List.pairwise_singleton _ _, fun c member d last => ?_⟩
    rw [List.mem_singleton.mp last]
    exact roster.created c member
  created c member := by
    rw [acceptConnection_created]
    rcases List.mem_append.mp member with old | new
    · exact Nat.lt_succ_of_lt (roster.created c old)
    · exact List.mem_singleton.mp new ▸ Nat.lt_succ_self _
  connected c isOpen := by
    by_cases new : c = s.created
    · exact List.mem_append_right _ (List.mem_singleton.mpr new)
    · rw [isConnected, acceptConnection_conn, if_neg new] at isOpen
      exact List.mem_append_left _ (roster.connected c isOpen)

theorem Roster.setConn (roster : Roster s refs) {c : ConnRef} {conn : ConnectionInterface}
    (closes : conn.isConnected = true → s.isConnected c = true) : Roster (s.setConn c conn) refs where
  entries := roster.entries
  ordered := roster.ordered
  created := roster.created
  connected d isOpen := by
    by_cases same : d = c
    · subst same
      simp only [isConnected, MyCQServer.setConn, Function.update_self] at isOpen
      exact roster.connected d (closes isOpen)
    · simp only [isConnected, MyCQServer.setConn, Function.update_of_ne same] at isOpen
      exact roster.connected d isOpen

structure Numbered (first : UInt32) (s : MyCQServer) : Prop where
  counter : s.idCounter = first + UInt32.ofNat s.created
  ids : ∀ c, c < s.created → s.getID c = first + UInt32.ofNat c

theorem Numbered.operate {first : UInt32} (numbered : Numbered first s) {out : ConnRef → List Message}
    (delivers : Delivers s t out) : Numbered first t where
  counter := by
    rw [delivers.idCounter, delivers.created]
    exact numbered.counter
  ids c created := by
    rw [delivers.created] at created
    rw [delivers.getID]
    exact numbered.ids c created

theorem Numbered.accept {first : UInt32} (numbered : Numbered first s) (clock : UInt64) :
    Numbered first (s.acceptConnection clock) where
  counter := by
    have next : (s.acceptConnection clock).idCounter = s.idCounter + 1 := rfl
    rw [next, numbered.counter, acceptConnection_created, UInt32.ofNat_add, UInt32.add_assoc]
    rfl
  ids c created := by
    rw [acceptConnection_created] at created
    by_cases new : c = s.created
    · rw [getID, acceptConnection_conn, if_pos new, new]
      exact numbered.counter
    · rw [getID, acceptConnection_conn, if_neg new]
      exact numbered.ids c (Nat.lt_of_le_of_ne (Nat.le_of_lt_succ created) new)

theorem Numbered.setConn {first : UInt32} (numbered : Numbered first s) {c : ConnRef} {conn : ConnectionInterface}
    (same : conn.id = s.getID c) : Numbered first (s.setConn c conn) where
  counter := numbered.counter
  ids d created := by
    by_cases changed : d = c
    · subst changed
      simp only [getID, MyCQServer.setConn, Function.update_self]
      exact same.trans (numbered.ids d created)
    · simp only [getID, MyCQServer.setConn, Function.update_of_ne changed]
      exact numbered.ids d created

/-- Two connections have one identifier when a multiple of `2 ^ 32` others was accepted in between. -/
theorem Numbered.getID_eq_iff {first : UInt32} (numbered : Numbered first s) {c d : ConnRef}
    (left : c < s.created) (right : d < s.created) : s.getID c = s.getID d ↔ c % 2 ^ 32 = d % 2 ^ 32 := by
  rw [numbered.ids c left, numbered.ids d right, UInt32.add_right_inj, ← UInt32.toNat_inj, UInt32.toNat_ofNat',
    UInt32.toNat_ofNat']

structure Stable (order : Endian) (P : MyCQServer → Prop) : Prop where
  accept : ∀ s clock, P s → P (s.acceptConnection clock)
  handler : ∀ s c h conn out, P s → (s.conn c).runHandler order h = some (conn, out) → P (s.setConn c conn)
  inMsgQueue : ∀ s queue, P s → P { s with inMsgQueue := queue }
  operate : ∀ s t out, P s → Delivers s t out → s.Keeps t.connectionsQueue → P t

theorem stable_roster (order : Endian) : Stable order fun s => ∃ refs, Roster s refs where
  accept s clock holds := by
    obtain ⟨refs, roster⟩ := holds
    exact ⟨_, roster.accept clock⟩
  handler s c h conn out holds ran := by
    obtain ⟨refs, roster⟩ := holds
    exact ⟨refs, roster.setConn (Endpoint.isOpen_handler (Endpoint.step_handler ran []))⟩
  inMsgQueue s queue holds := by
    obtain ⟨refs, roster⟩ := holds
    exact ⟨refs, roster.entries, roster.ordered, roster.created, roster.connected⟩
  operate s t out holds delivers kept := by
    obtain ⟨refs, roster⟩ := holds
    rcases roster.operate delivers kept with ⟨_, same⟩ | pruned
    · exact ⟨_, same⟩
    · exact ⟨_, pruned⟩

theorem stable_numbered (order : Endian) (first : UInt32) : Stable order (Numbered first) where
  accept _ clock numbered := numbered.accept clock
  handler _ _ _ _ _ numbered ran := numbered.setConn (Endpoint.id_handler (Endpoint.step_handler ran []))
  inMsgQueue _ _ numbered := ⟨numbered.counter, numbered.ids⟩
  operate _ _ _ numbered delivers _ := numbered.operate delivers

end MyCQServer

namespace System

variable {order : Endian} {idCounter : UInt32} {s t : System} {a : Action}

theorem stable_step {P : MyCQServer → Prop} (stable : MyCQServer.Stable order P) (holds : P s.server)
    (taken : s.step order a = some t) : P t.server := by
  cases step_cases taken with
  | accept clock => exact stable.accept _ _ holds
  | handler c h conn out ran => exact stable.inMsgQueue _ _ (stable.handler _ c h conn out holds ran)
  | dangling => exact holds
  | moves => exact holds
  | emptyPop => exact holds
  | popFront => exact stable.inMsgQueue _ _ holds
  | onMessage uninitialized numMaxMessages msgCount msg server point ran =>
    obtain ⟨out, delivers, _, queue⟩ := (MyCQServer.handled_of_onMessage ran).delivers
    apply stable.operate _ _ out holds delivers
    rw [queue]
    split
    · exact Or.inr (Or.inl rfl)
    · exact Or.inl rfl
  | onMessageFault => exact holds
  | endIteration => exact holds
  | sendMessageToAllClients msg ignoreClient server point ran =>
    obtain ⟨delivers, queue, _⟩ := MyCQServer.sendMessageToAllClients_ok ran
    exact stable.operate _ _ _ holds delivers (Or.inr (Or.inl queue))
  | sendMessageToClient client msg server point held ran =>
    obtain ⟨out, delivers, _, queue⟩ := MyCQServer.sendMessageToClient_ok ran
    exact stable.operate _ _ out holds delivers (queue.imp_right Or.inr)
  | sendFault => exact holds

theorem stable_of_reachable {P : MyCQServer → Prop} (stable : MyCQServer.Stable order P)
    (initial : P (.start idCounter)) (run : Transition.Reachable (System.step order) (.start idCounter) s) :
    P s.server := by
  induction run with
  | start => exact initial
  | next _ _ taken ih => exact stable_step stable ih taken

theorem exists_roster (run : Transition.Reachable (System.step order) (.start idCounter) s) :
    ∃ refs, MyCQServer.Roster s.server refs := by
  apply stable_of_reachable (MyCQServer.stable_roster order) _ run
  exact ⟨[], rfl, .nil, fun _ none => absurd none List.not_mem_nil, fun _ isOpen => by cases isOpen⟩

theorem numbered_of_reachable (run : Transition.Reachable (System.step order) (.start idCounter) s) :
    MyCQServer.Numbered idCounter s.server := by
  apply stable_of_reachable (MyCQServer.stable_numbered order idCounter) _ run
  constructor
  · exact (UInt32.add_zero idCounter).symm
  · intro c created
    cases created

end System
end MyCQ
