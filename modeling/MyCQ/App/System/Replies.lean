import MyCQ.App.Server.ClientList
import MyCQ.App.System.BroadcastOrder
import MyCQ.App.System.Incoming
import MyCQ.Foundation.Relay

/-! What the running server sends, and which requests it is due to.

The shipped server sends nothing but its greeting and what `onMessage` passes on.
Behind the greeting, each message to a connection then has a request of its own,
in the order in which the requests are handled.
-/

set_option autoImplicit false

namespace MyCQ
open Octets (Endian)
open List (SublistForall₂)

namespace MyCQServer

variable {order : Endian}

/-- The message `m` to the connection `d` is due to the request; `id` names the connections. -/
inductive Reply (order : Endian) (id : ConnRef → UInt32) (d : ConnRef) (m : Message) (request : OwnedMessage) :
    Prop where
  | echo : MyCQMessages.ofUInt32 request.msg.header.id = some .serverPing → request.remote = some d →
      m = request.msg → Reply order id d m request
  | broadcast (c : ConnRef) (bytes : CArray Byte MessageAllDescription.sizeof) (rest : Message) :
      MyCQMessages.ofUInt32 request.msg.header.id = some .messageAll → request.remote = some c → d ≠ c →
      request.msg.pop MessageAllDescription.sizeof = some (bytes, rest) →
      m = (Message.ofId MyCQMessages.messageAll.toUInt32).push
        ({ MessageAllDescription.ofBytes order bytes with senderId := id c }.toBytes order).toList →
      Reply order id d m request
  | list (reply : ClientsListDescription) : MyCQMessages.ofUInt32 request.msg.header.id = some .listAllClients →
      request.remote = some d → reply.ownId = id d → reply.numActiveIds.toNat ≤ 1000 →
      m = listReply order reply → Reply order id d m request
  | notify (c : ConnRef) (bytes : CArray Byte NotifyOneDescription.sizeof) (rest : Message) :
      MyCQMessages.ofUInt32 request.msg.header.id = some .notifyOneClient → request.remote = some c →
      (NotifyOneDescription.ofBytes order bytes).receiverId = id d →
      request.msg.pop NotifyOneDescription.sizeof = some (bytes, rest) →
      m = (Message.ofId MyCQMessages.notifyOneClient.toUInt32).push
        ({ NotifyOneDescription.ofBytes order bytes with senderId := id c }.toBytes order).toList →
      Reply order id d m request

theorem Reply.congr {id id' : ConnRef → UInt32} {d : ConnRef} {m : Message} {request : OwnedMessage}
    (reply : Reply order id d m request) (receiver : id d = id' d)
    (requester : ∀ c, request.remote = some c → id c = id' c) : Reply order id' d m request := by
  cases reply with
  | echo known found same => exact .echo known found same
  | broadcast c bytes rest known found other popped same =>
    rw [requester c found] at same
    exact .broadcast c bytes rest known found other popped same
  | list reply known found own few same => exact .list reply known found (own.trans receiver) few same
  | notify c bytes rest known found meant popped same =>
    rw [requester c found] at same
    exact .notify c bytes rest known found (meant.trans receiver) popped same

variable {s t : MyCQServer} {refs : List ConnRef} {uninitialized : ClientsListDescription}

theorem passed_sendData (s : MyCQServer) (c d : ConnRef) (msg : Message) :
    s.passed (s.sendData c msg) d = if d = c then [msg] else [] := (delivers_sendData s c msg).passed d

theorem Roster.listed (roster : Roster s refs) {ids : CArray UInt32 1000}
    (filled : s.fillClientIds 0 s.connectionsQueue uninitialized.clientIds = .ok ids) :
    (UInt32.ofNat s.connectionsQueue.length).toNat ≤ 1000 := by
  have few : refs.length ≤ 1000 := by
    refine Nat.le_of_not_lt fun many => ?_
    have overflows := s.fillClientIds_overflow refs 0 uninitialized.clientIds (Nat.zero_le _)
      (by rwa [Nat.zero_add])
    rw [← roster.entries, filled] at overflows
    cases overflows
  rw [roster.length, UInt32.toNat_ofNat']
  exact (Nat.mod_le _ _).trans few

/-- A request makes the server pass at most one message to each connection. -/
theorem Roster.reply (roster : Roster s refs) {client : Option ConnRef} {msg : Message}
    (handled : Handled order uninitialized s client msg t) (d : ConnRef) :
    s.passed t d = [] ∨ ∃ m, s.passed t d = [m] ∧ Reply order s.getID d m ⟨client, msg⟩ := by
  cases handled with
  | ignored _ same =>
    subst same
    exact Or.inl (by simp [MyCQServer.passed, ConnectionInterface.passed])
  | serverPing c known found same =>
    rw [same, passed_sendData]
    split
    · next target => exact Or.inr ⟨msg, rfl, .echo known (target ▸ found) rfl⟩
    · exact Or.inl rfl
  | messageAll c bytes rest known found popped ran =>
    rw [(sendMessageToAllClients_ok ran).1.passed, found, roster.broadcastTo]
    split
    · next meant => exact Or.inr ⟨_, rfl, .broadcast c bytes rest known rfl meant.2.2 popped rfl⟩
    · exact Or.inl rfl
  | listAllClients c ids known found filled same =>
    rw [same, passed_sendData]
    split
    · next target =>
      subst target
      exact Or.inr ⟨_, rfl, .list _ known found rfl (roster.listed filled) rfl⟩
    · exact Or.inl rfl
  | notifyOneClient c bytes rest known found popped ran =>
    rw [(notifyLoop_ok ran).1.passed, roster.notifyTo]
    split
    · next meant => exact Or.inr ⟨_, rfl, .notify c bytes rest known found meant.2.symm popped rfl⟩
    · exact Or.inl rfl

end MyCQServer

namespace System
open MyCQServer (Reply serverAccept)

variable {order : Endian} {idCounter : UInt32} {s t : System} {a : Action}

/-- The program makes no use of the sends that the library offers beside `update`. -/
def OnlyUpdates (_ : System) : Action → Prop
  | .sendMessageToAllClients _ _ | .sendMessageToClient _ _ => False
  | _ => True

def number (idCounter : UInt32) (c : ConnRef) : UInt32 := idCounter + UInt32.ofNat c

theorem passed_of_conn {d : ConnRef}
    (same : (t.server.conn d).sendDataCalls = (s.server.conn d).sendDataCalls) : s.server.passed t.server d = [] := by
  rw [MyCQServer.passed, ConnectionInterface.passed, same, List.drop_length]

inductive PassCases (order : Endian) (idCounter : UInt32) (s t : System) (d : ConnRef) : Prop where
  | nothing : s.server.passed t.server d = [] → PassCases order idCounter s t d
  | reply (m : Message) (request : OwnedMessage) : s.server.passed t.server d = [m] →
      t.calls = s.calls ++ [request] → Reply order (number idCounter) d m request → PassCases order idCounter s t d

theorem handles_of_passed (only : OnlyUpdates s a) (taken : s.step order a = some t) {d : ConnRef}
    (created : d < s.server.created) : s.server.passed t.server d = [] ∨ ∃ uninitialized msg,
      msg ∈ s.thread.unhandled ∧ s.server.onMessage order uninitialized msg.remote msg.msg = .ok t.server ∧
        t.calls = s.calls ++ [msg] := by
  cases step_cases taken with
  | accept clock =>
    refine Or.inl (passed_of_conn ?_)
    simp only [MyCQServer.acceptConnection_conn, if_neg (Nat.ne_of_lt created)]
  | handler c h conn out ran =>
    refine Or.inl (passed_of_conn ?_)
    simp only [finishHandler, MyCQServer.setConn]
    by_cases target : d = c
    · subst target
      rw [Function.update_self]
      exact Endpoint.sendDataCalls_handler (Endpoint.step_handler ran [])
    · rw [Function.update_of_ne target]
  | onMessage uninitialized numMaxMessages msgCount msg server point ran =>
    have inHand : msg ∈ s.thread.unhandled := by simp [point, UpdateThread.unhandled]
    exact Or.inr ⟨uninitialized, msg, inHand, ran, rfl⟩
  | sendMessageToAllClients => exact only.elim
  | sendMessageToClient => exact only.elim
  | _ => exact Or.inl (passed_of_conn rfl)

theorem pass_cases (run : Transition.Reachable (System.step order) (.start idCounter) s) (only : OnlyUpdates s a)
    (taken : s.step order a = some t) {d : ConnRef} (created : d < s.server.created) :
    PassCases order idCounter s t d := by
  rcases handles_of_passed only taken created with none | ⟨uninitialized, msg, inHand, ran, calls⟩
  · exact .nothing none
  have wellFormed := wellFormed_of_reachable run
  have numbered := numbered_of_reachable run
  obtain ⟨refs, roster⟩ := exists_roster run
  rcases roster.reply (MyCQServer.handled_of_onMessage ran) d with none | ⟨m, one, reply⟩
  · exact .nothing none
  refine .reply m msg one calls (reply.congr (numbered.ids d created) fun c found => ?_)
  obtain ⟨e, remote, old⟩ := wellFormed.remotes msg (wellFormed.unhandled_pushed inHand)
  obtain rfl : e = c := Option.some.inj (remote.symm.trans found)
  exact numbered.ids e old

/-- Behind the greeting, every message to a connection has a request of its own, in the order of the
requests; no request has two messages to one connection. -/
def RepliesInOrder (order : Endian) (idCounter : UInt32) (s : System) (d : ConnRef) : Prop :=
  ∃ replies, (s.server.conn d).sendDataCalls = serverAccept :: replies ∧
    SublistForall₂ (Reply order (number idCounter) d) replies s.calls

theorem RepliesInOrder.step (run : Transition.Reachable (System.step order) (.start idCounter) s)
    (only : OnlyUpdates s a) (taken : s.step order a = some t) {d : ConnRef} (created : d < s.server.created)
    (inOrder : RepliesInOrder order idCounter s d) : RepliesInOrder order idCounter t d := by
  obtain ⟨replies, calls, relayed⟩ := inOrder
  have grown := sendDataCalls_step (wellFormed_of_reachable run) taken d
  cases pass_cases run only taken created with
  | nothing none =>
    rw [none, List.append_nil] at grown
    exact ⟨replies, grown.trans calls, Relay.later relayed (calls_step taken).sublist⟩
  | reply m request one handled reply =>
    rw [one, calls, List.cons_append] at grown
    exact ⟨replies ++ [m], grown, handled ▸ Relay.concat relayed reply⟩

theorem created_step (run : Transition.Reachable (System.step order) (.start idCounter) s)
    (taken : s.step order a = some t) : t.server.created = s.server.created ∨
      t.server.created = s.server.created + 1 ∧
        (t.server.conn s.server.created).sendDataCalls = [serverAccept] := by
  rcases challenges_step taken with ⟨clock, rfl⟩ | same
  · refine Or.inr ⟨rfl, ?_⟩
    simp only [MyCQServer.acceptConnection_conn, if_true]
    rfl
  · refine Or.inl ?_
    rw [(wellFormed_of_reachable run).created, (wellFormed_of_reachable (run.next trivial taken)).created, same]

/-- The connection `d` is accepted on the way to a state, after so many calls of `onMessage`. -/
inductive AcceptedAfter (order : Endian) (idCounter : UInt32) (s : System) : ConnRef → Nat → Prop where
  | history {before after : System} {clock : UInt64} :
      Transition.Run (System.step order) OnlyUpdates (.start idCounter) before →
      before.step order (.accept clock) = some after → Transition.Run (System.step order) OnlyUpdates after s →
      AcceptedAfter order idCounter s before.server.created before.calls.length

theorem AcceptedAfter.step {d : ConnRef} {k : Nat} (accepted : AcceptedAfter order idCounter s d k)
    (only : OnlyUpdates s a) (taken : s.step order a = some t) : AcceptedAfter order idCounter t d k := by
  obtain ⟨earlier, accept, onward⟩ := accepted
  exact .history earlier accept (onward.next only taken)

theorem exists_acceptedAfter (run : Transition.Run (System.step order) OnlyUpdates (.start idCounter) s)
    {d : ConnRef} (created : d < s.server.created) : ∃ k, AcceptedAfter order idCounter s d k := by
  induction run with
  | start => exact absurd created (Nat.not_lt_zero d)
  | @next s t a before only taken ih =>
    rcases Nat.lt_or_ge d s.server.created with old | new
    · obtain ⟨k, accepted⟩ := ih old
      exact ⟨k, accepted.step only taken⟩
    · rcases challenges_step taken with ⟨clock, rfl⟩ | unchanged
      · obtain rfl : d = s.server.created := Nat.le_antisymm (Nat.le_of_lt_succ created) new
        have accept : s.step order (.accept clock) = some { s with
            server := s.server.acceptConnection clock
            challenges := s.challenges ++ [clock] } := by
          simp only [System.step, clear_of_step taken, act]
        exact ⟨_, .history before accept .start⟩
      · have count := (wellFormed_of_reachable (before.next only taken).reachable).created
        rw [unchanged, ← (wellFormed_of_reachable before.reachable).created] at count
        exact absurd created (Nat.not_lt_of_ge (count ▸ new))

theorem repliesInOrder_of_run (run : Transition.Run (System.step order) OnlyUpdates (.start idCounter) s) {d : ConnRef}
    (created : d < s.server.created) : RepliesInOrder order idCounter s d := by
  suffices all : ∀ d, d < s.server.created → RepliesInOrder order idCounter s d from all d created
  refine run.invariant_of_reached (P := fun s => ∀ d, d < s.server.created → RepliesInOrder order idCounter s d)
    (fun _ born => absurd born (Nat.not_lt_zero _)) fun s a t before inOrder only taken d born => ?_
  rcases created_step before.reachable taken with same | ⟨grown, greeted⟩
  · exact (inOrder d (same ▸ born)).step before.reachable only taken (same ▸ born)
  · rw [grown] at born
    rcases Nat.lt_succ_iff_lt_or_eq.mp born with old | rfl
    · exact (inOrder d old).step before.reachable only taken old
    · exact ⟨[], greeted, .nil⟩

/-- In every run of a server that only calls `update`, for every connection. -/
theorem replies_in_order (run : Transition.Run (System.step order) OnlyUpdates (.start idCounter) s) {d : ConnRef}
    (created : d < s.server.created) : RepliesInOrder order idCounter s d := repliesInOrder_of_run run created

theorem handledPing_only (s : System) (a : Action) (member : a ∈ handledPing) : OnlyUpdates s a := by
  simp only [handledPing, List.mem_cons, List.not_mem_nil, or_false] at member
  rcases member with rfl | rfl | rfl | rfl | rfl | rfl | rfl | rfl | rfl | rfl <;> exact trivial

theorem replies_in_order_handledPing : RepliesInOrder .little 0
    ((Transition.perform (System.step .little) (.start 0) handledPing).get handledPing_enabled) 0 :=
  replies_in_order (.of_perform handledPing (start 0) (.of_forall handledPing handledPing_only (start 0))
    (Option.some_get handledPing_enabled).symm) (by decide)

end System
end MyCQ
