import MyCQ.App.System.Feeds

/-! The feeds of a connection: answers, what is said to all, and what is said to it alone.

Pings and lists are answered for ever, and what others say to all is passed on
while the socket is open. Private messages need an entry in the list of
connections, which a closed connection keeps until the next broadcast.
-/

set_option autoImplicit false

namespace MyCQ
open Octets (Endian)
open List (Forall₂)
open MyCQServer (Handled Reply Roster)

def MyCQMessages.answered : MyCQMessages → Bool
  | .serverPing | .listAllClients => true
  | _ => false

def Message.receiver (order : Endian) (msg : Message) : Option UInt32 :=
  (msg.pop NotifyOneDescription.sizeof).map fun popped => (NotifyOneDescription.ofBytes order popped.1).receiverId

namespace MyCQServer

variable {order : Endian} {s t : MyCQServer} {refs : List ConnRef} {uninitialized : ClientsListDescription}
  {client : Option ConnRef} {msg : Message} {kinds : MyCQMessages → Bool} {d : ConnRef}

def Concerns (order : Endian) (s : MyCQServer) (d : ConnRef) (request : OwnedMessage) : Prop :=
  match MyCQMessages.ofUInt32 request.msg.header.id with
  | some .serverPing | some .listAllClients => request.remote = some d
  | some .messageAll => s.isConnected d = true ∧ request.remote ≠ some d
  | some .notifyOneClient => some d ∈ s.connectionsQueue ∧ request.msg.receiver order = some (s.getID d)
  | some .serverAccept | none => False

/-- What the server passes to `d` for a request: one message of the kind of the request, or nothing. -/
inductive Relays (order : Endian) (s t : MyCQServer) (d : ConnRef) (request : OwnedMessage) : Prop where
  | message (m : Message) : s.Concerns order d request → s.passed t d = [m] →
      MyCQMessages.ofUInt32 m.header.id = MyCQMessages.ofUInt32 request.msg.header.id →
      Reply order s.getID d m request → Relays order s t d request
  | nothing : ¬ s.Concerns order d request → s.passed t d = [] → Relays order s t d request

theorem Roster.relays (roster : Roster s refs) (handled : Handled order uninitialized s client msg t) (d : ConnRef) :
    Relays order s t d ⟨client, msg⟩ := by
  cases handled with
  | ignored known same =>
    subst same
    refine .nothing ?_ (by simp [MyCQServer.passed, ConnectionInterface.passed])
    rcases List.mem_pair.mp known with none | accept
    · simp only [Concerns, none, not_false_eq_true]
    · simp only [Concerns, accept, not_false_eq_true]
  | serverPing c known found same =>
    have passed := passed_sendData s c d msg
    rw [← same] at passed
    by_cases target : d = c
    · subst target
      exact .message msg (by simpa only [Concerns, known] using found) (passed.trans (if_pos rfl)) rfl
        (.echo known found rfl)
    · refine .nothing ?_ (passed.trans (if_neg target))
      simp only [Concerns, known, found, Option.some.injEq]
      exact fun own => target own.symm
  | messageAll c bytes rest known found popped ran =>
    have passed := (sendMessageToAllClients_ok ran).1.passed d
    rw [found, roster.broadcastTo] at passed
    by_cases meant : s.isConnected d = true ∧ d ≠ c
    · have listed : some d ∈ s.connectionsQueue := (roster.mem_iff d).mpr (roster.connected d meant.1)
      refine .message _ ?_ (passed.trans (if_pos ⟨listed, meant⟩)) ?_ (.broadcast c bytes rest known found meant.2 popped rfl)
      · simp only [Concerns, known, found, ne_eq, Option.some.injEq]
        exact ⟨meant.1, fun own => meant.2 own.symm⟩
      · rw [known]
        exact MyCQMessages.ofUInt32_toUInt32 .messageAll
    · refine .nothing ?_ (passed.trans (if_neg fun both => meant both.2))
      simp only [Concerns, known, found, ne_eq, Option.some.injEq]
      exact fun both => meant ⟨both.1, fun own => both.2 own.symm⟩
  | listAllClients c ids known found filled same =>
    have passed := passed_sendData s c d (s.listAllClientsReply order c ids)
    rw [← same] at passed
    by_cases target : d = c
    · subst target
      refine .message _ (by simpa only [Concerns, known] using found) (passed.trans (if_pos rfl)) ?_
        (.list _ known found rfl (roster.listed filled) rfl)
      rw [known]
      exact MyCQMessages.ofUInt32_toUInt32 .listAllClients
    · refine .nothing ?_ (passed.trans (if_neg target))
      simp only [Concerns, known, found, Option.some.injEq]
      exact fun own => target own.symm
  | notifyOneClient c bytes rest known found popped ran =>
    have passed := (notifyLoop_ok ran).1.passed d
    rw [roster.notifyTo] at passed
    have receiver : msg.receiver order = some (NotifyOneDescription.ofBytes order bytes).receiverId := by
      rw [Message.receiver, popped, Option.map_some]
    by_cases meant : some d ∈ s.connectionsQueue ∧ s.getID d = (NotifyOneDescription.ofBytes order bytes).receiverId
    · refine .message _ ?_ (passed.trans (if_pos meant)) ?_ (.notify c bytes rest known found meant.2.symm popped rfl)
      · simp only [Concerns, known, receiver, Option.some.injEq]
        exact ⟨meant.1, meant.2.symm⟩
      · rw [known]
        exact MyCQMessages.ofUInt32_toUInt32 .notifyOneClient
    · refine .nothing ?_ (passed.trans (if_neg meant))
      simp only [Concerns, known, receiver, Option.some.injEq]
      exact fun both => meant ⟨both.1, both.2.symm⟩

theorem Relays.filter {request : OwnedMessage} (relays : Relays order s t d request) {due : OwnedMessage → Bool}
    (agrees : due request = true ↔ request.msg.isOf kinds = true ∧ s.Concerns order d request) :
    Forall₂ (Reply order s.getID d) ((s.passed t d).filter (Message.isOf kinds)) ([request].filter due) := by
  cases relays with
  | message m concerns passed kind reply =>
    have same : m.isOf kinds = request.msg.isOf kinds := by rw [Message.isOf, kind, Message.isOf]
    have alike : due request = true ↔ m.isOf kinds = true := by
      rw [agrees, same]
      exact ⟨And.left, fun of => ⟨of, concerns⟩⟩
    rw [passed]
    by_cases asked : due request = true
    · rw [List.filter_cons_of_pos asked, List.filter_cons_of_pos (alike.mp asked)]
      exact .cons reply .nil
    · rw [List.filter_cons_of_neg asked, List.filter_cons_of_neg fun of => asked (alike.mpr of)]
      exact .nil
  | nothing foreign passed =>
    rw [passed, List.filter_cons_of_neg fun asked => foreign (agrees.mp asked).2]
    exact .nil

theorem Relays.filter_eq_nil {request : OwnedMessage} (relays : Relays order s t d request)
    (foreign : request.msg.isOf kinds = true → ¬ s.Concerns order d request) :
    (s.passed t d).filter (Message.isOf kinds) = [] := by
  cases relays with
  | message m concerns passed kind =>
    rw [passed]
    refine List.filter_cons_of_neg fun of => foreign ?_ concerns
    rwa [Message.isOf, kind] at of
  | nothing _ passed => rw [passed, List.filter_nil]

end MyCQServer

namespace Feed
open MyCQServer (Concerns)

def answers (order : Endian) : Feed order where
  kinds := MyCQMessages.answered
  due d _ request := request.msg.isOf MyCQMessages.answered && System.fromClient d request
  present _ _ := True
  greeting := rfl
  leaves _ present' := .of_leaves present' (fun _ _ _ => id) (fun _ _ _ _ _ _ => id) (fun _ _ => id) fun _ _ _ _ _ => id
  relays {_ s _ _ client msg} roster handled d _ := by
    refine (roster.relays handled d).filter ?_
    rw [Bool.and_eq_true, System.fromClient, decide_eq_true_iff, Concerns, Message.isOf]
    cases MyCQMessages.ofUInt32 msg.header.id with
    | none => simp
    | some kind => cases kind <;> simp [MyCQMessages.answered]
  withholds _ _ _ absent := absurd trivial absent

def broadcasts (order : Endian) : Feed order where
  kinds kind := decide (kind = .messageAll)
  due d _ request := request.msg.isOf (fun kind => decide (kind = .messageAll)) && !System.fromClient d request
  present d s := s.isConnected d = true
  greeting := rfl
  leaves d present' := by
    refine .of_leaves present' ?_ ?_ (fun _ _ => id) fun s t out delivers _ => ?_
    · intro s clock created
      rw [MyCQServer.isConnected, MyCQServer.acceptConnection_conn, if_neg (Nat.ne_of_lt created)]
      exact id
    · intro s c h conn out ran isOpen
      by_cases target : d = c
      · subst target
        simp only [MyCQServer.isConnected, MyCQServer.setConn, Function.update_self] at isOpen
        exact Endpoint.isOpen_handler (Endpoint.step_handler ran []) isOpen
      · simpa only [MyCQServer.isConnected, MyCQServer.setConn, Function.update_of_ne target] using isOpen
    · rw [delivers.isConnected]
      exact id
  relays {_ s _ _ client msg} roster handled d present := by
    refine (roster.relays handled d).filter ?_
    rw [Bool.and_eq_true, Bool.not_eq_true', System.fromClient, decide_eq_false_iff_not, Concerns, Message.isOf]
    cases MyCQMessages.ofUInt32 msg.header.id with
    | none => simp
    | some kind => cases kind <;> simp [present]
  withholds {_ s _ _ client msg} roster handled d absent := by
    refine (roster.relays handled d).filter_eq_nil ?_
    rw [Concerns, Message.isOf]
    cases MyCQMessages.ofUInt32 msg.header.id with
    | none => simp
    | some kind => cases kind <;> simp [absent]

def privates (order : Endian) : Feed order where
  kinds kind := decide (kind = .notifyOneClient)
  due _ name request :=
    request.msg.isOf (fun kind => decide (kind = .notifyOneClient)) && decide (request.msg.receiver order = some name)
  present d s := some d ∈ s.connectionsQueue
  greeting := rfl
  leaves d present' := by
    refine .of_leaves present' ?_ (fun _ _ _ _ _ _ => id) (fun _ _ => id) fun s t out _ kept listed => ?_
    · intro s clock created listed
      rw [MyCQServer.acceptConnection_connectionsQueue] at listed
      rcases List.mem_append.mp listed with old | new
      · exact old
      · exact absurd (Option.some.inj (List.mem_singleton.mp new)) (Nat.ne_of_lt created)
    · rcases kept with same | same | same
      · exact same ▸ listed
      · exact List.mem_of_mem_filter (same ▸ listed)
      · exact List.mem_of_mem_filter (same ▸ listed)
  relays {_ s _ _ client msg} roster handled d present := by
    refine (roster.relays handled d).filter ?_
    rw [Bool.and_eq_true, decide_eq_true_iff, Concerns, Message.isOf]
    cases MyCQMessages.ofUInt32 msg.header.id with
    | none => simp
    | some kind => cases kind <;> simp [present]
  withholds {_ s _ _ client msg} roster handled d absent := by
    refine (roster.relays handled d).filter_eq_nil ?_
    rw [Concerns, Message.isOf]
    cases MyCQMessages.ofUInt32 msg.header.id with
    | none => simp
    | some kind => cases kind <;> simp [absent]

end Feed

namespace System

variable {order : Endian} {idCounter : UInt32} {s : System} {d : ConnRef}

/-- What the server has passed to a connection for the requests that it has handled, of which the first `k` were
handled before its acceptance. -/
structure Relayed (order : Endian) (idCounter : UInt32) (s : System) (d : ConnRef) (k : Nat) : Prop where
  answers : Segment order idCounter (Feed.answers order) s d 0
  broadcasts : Segment order idCounter (Feed.broadcasts order) s d k
  privates : Segment order idCounter (Feed.privates order) s d k

/-- No request of the connection was handled before its acceptance. -/
theorem Segment.whole {k : Nat} (segment : Segment order idCounter (Feed.answers order) s d k) :
    Segment order idCounter (Feed.answers order) s d 0 := by
  obtain ⟨_, before, inOrder, complete⟩ := segment
  have none : (s.calls.take k).filter ((Feed.answers order).due d (number idCounter d)) = [] := by
    refine List.filter_eq_nil_iff.mpr fun request member asked => ?_
    exact before request member (of_decide_eq_true (Bool.and_eq_true_iff.mp asked).2)
  have same : (s.calls.drop k).filter ((Feed.answers order).due d (number idCounter d)) =
      (s.calls.drop 0).filter ((Feed.answers order).due d (number idCounter d)) := by
    rw [List.drop_zero, ← List.take_append_drop k s.calls, List.filter_append, none, List.nil_append,
      List.take_append_drop]
  rw [same] at inOrder complete
  exact ⟨Nat.zero_le _, nofun, inOrder, complete⟩

theorem relayed_of_accepted {k : Nat} (accepted : AcceptedAfter order idCounter s d k) :
    Relayed order idCounter s d k where
  answers := (segment_of_accepted accepted).whole
  broadcasts := segment_of_accepted accepted
  privates := segment_of_accepted accepted

/-- In every run of a server that only calls `update`, for every connection from its acceptance on. -/
theorem relays_without_gap (run : Transition.Run (System.step order) OnlyUpdates (.start idCounter) s) :
    (∀ d < s.server.created, ∃ k, AcceptedAfter order idCounter s d k) ∧
      ∀ d k, AcceptedAfter order idCounter s d k → Relayed order idCounter s d k :=
  ⟨fun _ created => exists_acceptedAfter run created, fun _ _ accepted => relayed_of_accepted accepted⟩

theorem relays_without_gap_handledPing : Relayed .little 0
    ((Transition.perform (System.step .little) (.start 0) handledPing).get handledPing_enabled) 0 0 := by
  obtain ⟨after, accept, onward⟩ := Option.bind_eq_some_iff.mp (Option.some_get handledPing_enabled).symm
  have later : Transition.Run (System.step .little) OnlyUpdates after _ :=
    .of_perform handledPing.tail after (.of_forall handledPing.tail
      (fun s a member => handledPing_only s a (List.mem_of_mem_tail member)) after) onward
  have run : Transition.Run (System.step .little) OnlyUpdates (.start 0) _ :=
    .of_perform handledPing (start 0) (.of_forall handledPing handledPing_only (start 0))
      (Option.some_get handledPing_enabled).symm
  exact (relays_without_gap run).2 0 0 (.history .start accept later)

end System
end MyCQ
