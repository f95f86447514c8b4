import MyCQ.App.System.Gate
import MyCQ.App.System.Replies

/-! Parts of what the server sends to a connection, by the kinds of the messages.

A connection gets the messages of a feed while it is present: one for each
request that is due to it, in the order of the requests. Nobody comes back, so
that these requests follow each other without a gap.
-/

set_option autoImplicit false

namespace MyCQ
open Octets (Endian)
open List (Forall₂)
open MyCQServer (Delivers Handled Reply Roster Stable)

def Message.isOf (kinds : MyCQMessages → Bool) (msg : Message) : Bool := (MyCQMessages.ofUInt32 msg.header.id).any kinds

theorem Message.isOf_of_known {kinds : MyCQMessages → Bool} {msg : Message} {kind : MyCQMessages}
    (known : MyCQMessages.ofUInt32 msg.header.id = some kind) : msg.isOf kinds = kinds kind := by
  rw [isOf, known, Option.any_some]

theorem Message.isOf_push (kinds : MyCQMessages → Bool) (kind : MyCQMessages) (bytes : List Byte) :
    ((Message.ofId kind.toUInt32).push bytes).isOf kinds = kinds kind :=
  isOf_of_known (MyCQMessages.ofUInt32_toUInt32 kind)

/-- Messages of some kinds, and the requests that they are due to. -/
structure Feed (order : Endian) where
  kinds : MyCQMessages → Bool
  due (d : ConnRef) (name : UInt32) : OwnedMessage → Bool
  present (d : ConnRef) : MyCQServer → Prop
  greeting : kinds .serverAccept = false
  leaves (d : ConnRef) (present' : Prop) : Stable order fun s => d < s.created ∧ (present d s → present')
  relays {uninitialized : ClientsListDescription} {s t : MyCQServer} {refs : List ConnRef} {client : Option ConnRef}
    {msg : Message} (roster : Roster s refs) (handled : Handled order uninitialized s client msg t) (d : ConnRef) :
    present d s → Forall₂ (Reply order s.getID d) ((s.passed t d).filter (Message.isOf kinds))
      ([OwnedMessage.mk client msg].filter (due d (s.getID d)))
  withholds {uninitialized : ClientsListDescription} {s t : MyCQServer} {refs : List ConnRef} {client : Option ConnRef}
    {msg : Message} (roster : Roster s refs) (handled : Handled order uninitialized s client msg t) (d : ConnRef) :
    ¬ present d s → (s.passed t d).filter (Message.isOf kinds) = []

theorem MyCQServer.Stable.of_leaves {order : Endian} {present : MyCQServer → Prop} {d : ConnRef} (present' : Prop)
    (accept : ∀ s clock, d < s.created → present (s.acceptConnection clock) → present s)
    (handler : ∀ s c h conn out, (s.conn c).runHandler order h = some (conn, out) → present (s.setConn c conn) →
      present s)
    (inMsgQueue : ∀ s queue, present { s with inMsgQueue := queue } → present s)
    (operate : ∀ s t out, Delivers s t out → s.Keeps t.connectionsQueue → present t → present s) :
    Stable order fun s => d < s.created ∧ (present s → present') where
  accept s clock := fun ⟨created, left⟩ => by
    rw [MyCQServer.acceptConnection_created]
    exact ⟨Nat.lt_succ_of_lt created, fun stays => left (accept s clock created stays)⟩
  handler s c h conn out := fun ⟨created, left⟩ ran => ⟨created, fun stays => left (handler s c h conn out ran stays)⟩
  inMsgQueue s queue := fun ⟨created, left⟩ => ⟨created, fun stays => left (inMsgQueue s queue stays)⟩
  operate s t out := fun ⟨created, left⟩ delivers kept =>
    ⟨delivers.created ▸ created, fun stays => left (operate s t out delivers kept stays)⟩

namespace System
open MyCQServer (serverAccept)

variable {order : Endian} {idCounter : UInt32} {feed : Feed order} {s t : System} {a : Action} {d : ConnRef} {k : Nat}

/-- The messages of the feed to the connection, and the requests that are due to it behind the first `k`. -/
structure Segment (order : Endian) (idCounter : UInt32) (feed : Feed order) (s : System) (d : ConnRef) (k : Nat) :
    Prop where
  begun : k ≤ s.calls.length
  before : ∀ request ∈ s.calls.take k, request.remote ≠ some d
  inOrder : Relay.Follows (Reply order (number idCounter) d)
    ((s.server.conn d).sendDataCalls.filter (Message.isOf feed.kinds))
    ((s.calls.drop k).filter (feed.due d (number idCounter d)))
  complete : s.fault = none → feed.present d s.server → Forall₂ (Reply order (number idCounter) d)
    ((s.server.conn d).sendDataCalls.filter (Message.isOf feed.kinds))
    ((s.calls.drop k).filter (feed.due d (number idCounter d)))

theorem Segment.stays (segment : Segment order idCounter feed s d k) (clear : s.fault = none)
    (left : feed.present d t.server → feed.present d s.server)
    (same : (t.server.conn d).sendDataCalls = (s.server.conn d).sendDataCalls) (calls : t.calls = s.calls) :
    Segment order idCounter feed t d k := by
  obtain ⟨begun, before, inOrder, complete⟩ := segment
  rw [← calls] at begun before inOrder complete
  rw [← same] at inOrder complete
  exact ⟨begun, before, inOrder, fun _ stays => complete clear (left stays)⟩

theorem Segment.called (segment : Segment order idCounter feed s d k) {request : OwnedMessage}
    (calls : t.calls = s.calls ++ [request])
    (inOrder : Relay.Follows (Reply order (number idCounter) d)
      ((t.server.conn d).sendDataCalls.filter (Message.isOf feed.kinds))
      ((s.calls.drop k).filter (feed.due d (number idCounter d)) ++
        [request].filter (feed.due d (number idCounter d))))
    (complete : t.fault = none → feed.present d t.server → Forall₂ (Reply order (number idCounter) d)
      ((t.server.conn d).sendDataCalls.filter (Message.isOf feed.kinds))
      ((s.calls.drop k).filter (feed.due d (number idCounter d)) ++
        [request].filter (feed.due d (number idCounter d)))) :
    Segment order idCounter feed t d k := by
  have behind : t.calls.drop k = s.calls.drop k ++ [request] := by
    rw [calls, List.drop_append_of_le_length segment.begun]
  rw [← List.filter_append, ← behind] at inOrder complete
  refine ⟨?_, ?_, inOrder, complete⟩
  · rw [calls, List.length_append]
    exact Nat.le_add_right_of_le segment.begun
  · rw [calls, List.take_append_of_le_length segment.begun]
    exact segment.before

theorem replies_named (run : Transition.Reachable (System.step order) (.start idCounter) s)
    (created : d < s.server.created) {numMaxMessages msgCount : UInt64} {msg : OwnedMessage}
    (point : s.thread = .received numMaxMessages msgCount msg) {msgs : List Message} {q : OwnedMessage → Bool}
    (related : Forall₂ (Reply order s.server.getID d) msgs ([msg].filter q)) :
    Forall₂ (Reply order (number idCounter) d) msgs ([msg].filter q) := by
  have wellFormed := wellFormed_of_reachable run
  have numbered := numbered_of_reachable run
  have inHand : msg ∈ s.thread.unhandled := by simp [point, UpdateThread.unhandled]
  have single : ∀ request ∈ [msg].filter q, request = msg := fun request member =>
    List.mem_singleton.mp (List.mem_of_mem_filter member)
  refine ((List.forall₂_and_left _ _).mpr ⟨single, related.flip⟩).flip.imp fun m request both => ?_
  obtain ⟨rfl, reply⟩ := both
  refine reply.congr (numbered.ids d created) fun c found => ?_
  obtain ⟨e, remote, old⟩ := wellFormed.remotes request (wellFormed.unhandled_pushed inHand)
  obtain rfl : e = c := Option.some.inj (remote.symm.trans found)
  exact numbered.ids e old

theorem Segment.step (run : Transition.Reachable (System.step order) (.start idCounter) s) (only : OnlyUpdates s a)
    (taken : s.step order a = some t) (created : d < s.server.created) (segment : Segment order idCounter feed s d k) :
    Segment order idCounter feed t d k := by
  have wellFormed := wellFormed_of_reachable run
  have clear := clear_of_step taken
  have left : feed.present d t.server → feed.present d s.server :=
    (stable_step (feed.leaves d (feed.present d s.server)) ⟨created, id⟩ taken).2
  have grown := sendDataCalls_step wellFormed taken d
  cases step_cases taken with
  | accept clock =>
    refine segment.stays clear left ?_ rfl
    simp only [MyCQServer.acceptConnection_conn, if_neg (Nat.ne_of_lt created)]
  | handler c h conn out ran =>
    refine segment.stays clear left ?_ rfl
    simp only [finishHandler, MyCQServer.setConn]
    by_cases target : d = c
    · subst target
      rw [Function.update_self]
      exact Endpoint.sendDataCalls_handler (Endpoint.step_handler ran [])
    · rw [Function.update_of_ne target]
  | onMessage uninitialized numMaxMessages msgCount msg server point ran =>
    obtain ⟨refs, roster⟩ := exists_roster run
    have handled := MyCQServer.handled_of_onMessage ran
    have named : s.server.getID d = number idCounter d := (numbered_of_reachable run).ids d created
    have grown : (server.conn d).sendDataCalls = (s.server.conn d).sendDataCalls ++ s.server.passed server d := grown
    by_cases present : feed.present d s.server
    · have related := feed.relays roster handled d present
      rw [named] at related
      have all : Forall₂ (Reply order (number idCounter) d)
          ((server.conn d).sendDataCalls.filter (Message.isOf feed.kinds))
          ((s.calls.drop k).filter (feed.due d (number idCounter d)) ++
            [msg].filter (feed.due d (number idCounter d))) := by
        rw [grown, List.filter_append]
        exact List.rel_append (segment.complete clear present) (replies_named run created point related)
      exact segment.called rfl (.of_forall all) fun _ _ => all
    · refine segment.called rfl ?_ fun _ stays => absurd (left stays) present
      rw [grown, List.filter_append, feed.withholds roster handled d present, List.append_nil]
      exact segment.inOrder.later (List.prefix_append _ _)
  | onMessageFault uninitialized numMaxMessages msgCount msg fault point =>
    refine segment.called rfl (segment.inOrder.later (List.prefix_append _ _)) fun clear => by cases clear
  | sendMessageToAllClients => exact only.elim
  | sendMessageToClient => exact only.elim
  | _ => exact segment.stays clear left rfl rfl

theorem segment_accepted (run : Transition.Reachable (System.step order) (.start idCounter) s) {clock : UInt64}
    (taken : s.step order (.accept clock) = some t) :
    Segment order idCounter feed t s.server.created s.calls.length := by
  have wellFormed := wellFormed_of_reachable run
  obtain rfl := accept_eq taken
  have greeted : ((s.server.acceptConnection clock).conn s.server.created).sendDataCalls = [serverAccept] := by
    rw [MyCQServer.acceptConnection_conn, if_pos rfl]
    rfl
  have nothing : [serverAccept].filter (Message.isOf feed.kinds) = [] := by
    have other : serverAccept.isOf feed.kinds = false := feed.greeting
    rw [List.filter_cons_of_neg (by rw [other]; exact Bool.false_ne_true), List.filter_nil]
  have all : Forall₂ (Reply order (number idCounter) s.server.created)
      (((s.server.acceptConnection clock).conn s.server.created).sendDataCalls.filter (Message.isOf feed.kinds))
      ((s.calls.drop s.calls.length).filter (feed.due s.server.created (number idCounter s.server.created))) := by
    rw [greeted, nothing, List.drop_length, List.filter_nil]
    exact .nil
  refine ⟨Nat.le_refl _, fun request called own => ?_, .of_forall all, fun _ _ => all⟩
  rw [List.take_length] at called
  obtain ⟨c, remote, old⟩ := wellFormed.remotes request (pushed_of_called wellFormed called)
  exact absurd old (Nat.not_lt_of_le (Nat.le_of_eq (Option.some.inj (own.symm.trans remote))))

/-- In every run of a server that only calls `update`, from the acceptance on. -/
theorem segment_of_accepted (accepted : AcceptedAfter order idCounter s d k) :
    Segment order idCounter feed s d k := by
  obtain @⟨before, after, clock, earlier, accept, onward⟩ := accepted
  have first := earlier.next (show OnlyUpdates before (.accept clock) from trivial) accept
  have both : before.server.created < s.server.created ∧
      Segment order idCounter feed s before.server.created before.calls.length := by
    refine onward.invariant_of_reached (P := fun s => before.server.created < s.server.created ∧
      Segment order idCounter feed s before.server.created before.calls.length) ?_ ?_
    · refine ⟨?_, segment_accepted earlier.reachable accept⟩
      rw [accept_eq accept, MyCQServer.acceptConnection_created]
      exact Nat.lt_succ_self _
    · intro s a t between both only taken
      have reached := (first.trans between).reachable
      refine ⟨?_, both.2.step reached only taken both.1⟩
      rcases created_step reached taken with same | ⟨grown, _⟩
      · exact same ▸ both.1
      · exact grown ▸ Nat.lt_succ_of_lt both.1
  exact both.2

end System
end MyCQ
