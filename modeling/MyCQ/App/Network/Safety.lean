import MyCQ.App.Network.Answers
import MyCQ.App.System.ClientList

/-! A server whose peers all run the client program.

Such peers cannot make the server or each other do what the language leaves
undefined: every request carries the structure that is expected of it, and every
text ends inside its field. Two things remain. The list of clients must fit its
array, and a handler can outlive its connection.
-/

set_option autoImplicit false

namespace MyCQ
open Octets (Endian)
open MyCQServer (Reply Roster serverAccept)

variable {order : Endian}

theorem MyCQServer.Roster.onMessage_asked {s : MyCQServer} {refs : List ConnRef} (roster : Roster s refs)
    {m : Message} {request : Request × UInt64} (asked : Asked order m request)
    (fits : MyCQMessages.ofUInt32 m.header.id = some .listAllClients → s.connectionsQueue.length ≤ 1000)
    (uninitialized : ClientsListDescription) (c : ConnRef) :
    ∃ t, s.onMessage order uninitialized (some c) m = .ok t := by
  have kind := asked.kind
  cases asked with
  | pingServer => exact ⟨_, by simp only [onMessage, kind, Request.kind, deref]; rfl⟩
  | messageAll inputStr now d _ carries =>
    have extracted := extract_of_carries carries (by decide)
    simp only [onMessage, kind, Request.kind, extracted, deref, bind, Except.bind]
    exact sendMessageToAllClients_total roster.entries _ (some c)
  | requestConnectedClientsList =>
    have few : 0 + refs.length ≤ 1000 := by
      rw [Nat.zero_add, ← roster.length]
      exact fits kind
    obtain ⟨ids, filled, _⟩ := s.fillClientIds_ok refs 0 uninitialized.clientIds few
    rw [← roster.entries] at filled
    exact ⟨_, by simp only [onMessage, kind, Request.kind, deref, filled, bind, Except.bind]; rfl⟩
  | notifyOne receiverId writtenMsg now id d _ carries =>
    have extracted := extract_of_carries carries (by decide)
    simp only [onMessage, kind, Request.kind, extracted, deref, bind, Except.bind, roster.entries]
    exact notifyLoop_total _ _ refs s

theorem MyCQServer.Reply.dispatched {id : ConnRef → UInt32} {d : ConnRef} {msg m : Message} {request : OwnedMessage}
    {r : Request × UInt64} (reply : Reply order id d msg request) (asked : Asked order request.msg r)
    (arrives : msg.Arrives m) : ∃ display, MyCQClient.dispatch order m = .ok display := by
  have kind := asked.kind
  cases reply with
  | echo known remote same =>
    subst same
    obtain ⟨_, carries, _⟩ := asked.of_ping known
    have extracted := extract_of_carries (arrives.carries carries (by decide)) (by decide)
    rw [← arrives.header] at known
    exact ⟨_, by simp only [MyCQClient.dispatch, known, MyCQClient.timePointSize, extracted, bind, Except.bind]; rfl⟩
  | broadcast c bytes rest known remote other popped same =>
    subst same
    have carries := arrives.carries (Message.carries_push _ _) (by decide)
    rw [MyCQClient.dispatch_messageAll (congrArg MessageHeader.id arrives.header) carries]
    have same := Option.some.inj (kind.symm.trans known)
    cases asked with
    | messageAll inputStr now d _ whole typed =>
      obtain ⟨_, found⟩ := whole.pop (by decide)
      obtain ⟨rfl, _⟩ := Prod.mk.inj (Option.some.inj (popped.symm.trans found))
      rw [MessageAllDescription.ofBytes_toBytes, typed]
      exact ⟨_, rfl⟩
    | _ => cases same
  | list answer known remote own few same =>
    subst same
    have carries := arrives.carries (Message.carries_push _ _) (by decide)
    rw [MyCQClient.dispatch_listAllClients (congrArg MessageHeader.id arrives.header) carries,
      MyCQClient.otherClients_ok answer.ownId answer.clientIds 0 answer.numActiveIds.toNat (by rwa [Nat.zero_add])]
    exact ⟨_, rfl⟩
  | notify c bytes rest known remote meant popped same =>
    subst same
    have carries := arrives.carries (Message.carries_push _ _) (by decide)
    rw [MyCQClient.dispatch_notifyOneClient (congrArg MessageHeader.id arrives.header) carries]
    have same := Option.some.inj (kind.symm.trans known)
    cases asked with
    | notifyOne receiverId writtenMsg now number d _ whole _ _ typed =>
      obtain ⟨_, found⟩ := whole.pop (by decide)
      obtain ⟨rfl, _⟩ := Prod.mk.inj (Option.some.inj (popped.symm.trans found))
      rw [NotifyOneDescription.ofBytes_toBytes, typed]
      exact ⟨_, rfl⟩
    | _ => cases same

theorem System.WellFormed.created_of_handler {s t : System} (wellFormed : WellFormed s) {c : ConnRef}
    {h : ConnectionInterface.Handler} (taken : s.step order (.handler c h) = some t) : c < s.server.created := by
  refine Nat.lt_of_not_le fun unborn => ?_
  have nothing : (s.server.conn c).runHandler order h = none := by
    rw [wellFormed.unborn c unborn, runHandler_default]
  simp only [System.step, System.act, nothing] at taken
  split at taken <;> cases taken

namespace Network

variable {ι : Type} {idCounter : UInt32} {stdin : ι → List Byte} {s t : Network ι} {a : Action ι}
  {c d : ConnRef} {x y : ι}

/-- Every peer runs the client program, and the list is asked for while it fits its array. -/
def AmongClients (s : Network ι) : Action ι → Prop
  | .accept _ peer => peer ≠ none
  | .server a => System.ListFits s.system a
  | .client _ _ => True

/-- A guard that can be evaluated, for few connections. -/
def FewClients (s : Network ι) (a : Action ι) : Prop :=
  s.system.server.connectionsQueue.length ≤ 1000 ∧ ∀ peer ∈ accepted a, peer ≠ none
where
  accepted : Action ι → List (Option ι)
    | .accept _ peer => [peer]
    | .server _ | .client _ _ => []

instance (s : Network ι) (a : Action ι) : Decidable (FewClients s a) :=
  inferInstanceAs (Decidable (_ ∧ _))

theorem FewClients.among (few : FewClients s a) : AmongClients s a := by
  obtain ⟨small, known⟩ := few
  cases a with
  | accept clock peer => exact known peer List.mem_cons_self
  | server a =>
    cases a with
    | onMessage => exact fun _ _ => small
    | _ => trivial
  | client => trivial

def Populated (s : Network ι) : Prop := none ∉ s.peers

theorem Populated.joins (populated : s.Populated) (wired : Wired order idCounter stdin s)
    (created : c < s.system.server.created) : ∃ x, s.Joins c x := by
  have inside : c < s.peers.length := wired.length.symm ▸ created
  cases entry : s.peers[c] with
  | none => exact absurd (entry ▸ List.getElem_mem inside) populated
  | some x => exact ⟨x, List.getElem?_eq_some_iff.mpr ⟨inside, entry⟩⟩

theorem Populated.exists_asked (populated : s.Populated) (wired : Wired order idCounter stdin s)
    {request : OwnedMessage} (called : request ∈ s.system.calls) : ∃ c r, request.remote = some c ∧
      Asked order request.msg r := by
  have wellFormed := System.wellFormed_of_reachable wired.system.reachable
  obtain ⟨c, remote, created⟩ := wellFormed.remotes request (System.pushed_of_called wellFormed called)
  obtain ⟨x, joins⟩ := populated.joins wired created
  obtain ⟨r, _, asked⟩ := wired.exists_asked joins called remote
  exact ⟨c, r, remote, asked⟩

theorem Wired.enqueued_of_unaccepted (wired : Wired order idCounter stdin s) (absent : some y ∉ s.peers) :
    (s.program y).enqueued = [] := by
  obtain ⟨conn, connected⟩ := wired.exists_connected y
  have received := wired.unaccepted y absent
  rw [ClientProgram.received_eq connected.current] at received
  have server : Transition.Reachable (Endpoint.step order) ⟨.accepted 0 0, []⟩ ⟨.accepted 0 0, []⟩ := .start
  have lossless : conn.socketConnection.received <+: (Endpoint.mk (.accepted 0 0) []).sent order := by
    rw [received]
    exact List.nil_prefix
  obtain ⟨front, before, related⟩ := Endpoint.arrived_at_client server connected.endpoint nofun lossless
  obtain rfl := List.prefix_nil.mp before
  exact List.forall₂_nil_right_iff.mp related

theorem Populated.dispatched (populated : s.Populated) (wired : Wired order idCounter stdin s) {m : Message}
    (enqueued : m ∈ (s.program y).enqueued) : ∃ display, MyCQClient.dispatch order m = .ok display := by
  by_cases accepted : some y ∈ s.peers
  · obtain ⟨d, joins⟩ := List.mem_iff_getElem?.mp accepted
    obtain ⟨front, before, related⟩ := wired.arrived (d := d) joins
    obtain ⟨msg, sent, arrives⟩ := Relay.exists_of_mem related.flip enqueued
    obtain ⟨replies, calls, relayed⟩ := System.repliesInOrder_of_run wired.system (Joins.created wired joins)
    have member := before.subset sent
    rw [calls] at member
    rcases List.mem_cons.mp member with rfl | reply
    · have known : MyCQMessages.ofUInt32 m.header.id = some .serverAccept :=
        congrArg (fun header => MyCQMessages.ofUInt32 header.id) (Message.Arrives.header arrives)
      exact ⟨.nothing, by simp only [MyCQClient.dispatch, known]⟩
    · obtain ⟨kept, among, sub⟩ := List.sublistForall₂_iff.mp relayed
      obtain ⟨request, handled, reply⟩ := Relay.exists_of_mem among.flip reply
      obtain ⟨_, r, _, asked⟩ := populated.exists_asked wired (sub.subset handled)
      exact reply.dispatched asked arrives
  · rw [wired.enqueued_of_unaccepted accepted] at enqueued
    cases enqueued

variable [DecidableEq ι]

theorem populated_of_run (run : Transition.Run (step order) AmongClients (start idCounter stdin) s) :
    s.Populated := by
  refine run.invariant List.not_mem_nil fun s a t populated among taken => ?_
  cases step_cases taken with
  | accept clock peer =>
    rw [Populated, List.mem_append, not_or]
    exact ⟨populated, fun last => among (List.mem_singleton.mp last).symm⟩
  | server => exact populated
  | client => exact populated

/-- The server does nothing undefined in a step, unless the connection of a handler is gone. -/
theorem fault_of_step (run : Transition.Run (step order) AmongClients (start idCounter stdin) s)
    (among : AmongClients s a) (taken : s.step order a = some t) (clear : s.system.fault = none) {fault : Fault}
    (failed : t.system.fault = some fault) :
    fault = .useAfterFree ∧ ∃ c h, a = .server (.handler c h) ∧ c < s.system.server.created ∧ ¬ s.system.Owned c := by
  have wired := wired_of_reachable run.reachable
  have next := run.next among taken
  have after := wired_of_reachable next.reachable
  cases step_cases taken with
  | accept clock peer system new ran =>
    obtain rfl := System.accept_eq ran
    cases clear.symm.trans failed
  | client => cases clear.symm.trans failed
  | server a system acts ran =>
    cases System.fault_cases ran failed with
    | dangling c h unowned =>
      exact ⟨rfl, c, h, rfl, (System.wellFormed_of_reachable wired.system.reachable).created_of_handler ran, unowned⟩
    | emptyPop empty =>
      cases System.step_cases ran with
      | emptyPop _ _ point => exact absurd empty (System.popsMessage_of_reachable wired.system.reachable _ _ point)
      | popFront => cases clear.symm.trans failed
      | moves => cases clear.symm.trans failed
      | sendFault _ _ point => simp [System.step, clear, System.act, point] at ran
    | onMessage uninitialized numMaxMessages msgCount msg _ point outcome =>
      have called : msg ∈ system.calls := by
        cases System.step_cases ran with
        | moves => cases clear.symm.trans failed
        | onMessage _ _ _ held _ at_ =>
          rw [point] at at_
          cases at_
          exact List.mem_append_right _ List.mem_cons_self
        | onMessageFault _ _ _ held _ at_ =>
          rw [point] at at_
          cases at_
          exact List.mem_append_right _ List.mem_cons_self
        | sendFault _ _ outside => cases point.symm.trans outside
      obtain ⟨c, r, remote, asked⟩ := (populated_of_run next).exists_asked after called
      obtain ⟨refs, roster⟩ := System.exists_roster wired.system.reachable
      have inHand : msg ∈ s.system.thread.unhandled := by simp [point, UpdateThread.unhandled]
      have fits : MyCQMessages.ofUInt32 msg.msg.header.id = some .listAllClients →
          s.system.server.connectionsQueue.length ≤ 1000 := fun known => among c ⟨msg, inHand, remote, known⟩
      obtain ⟨server, done⟩ := roster.onMessage_asked asked fits uninitialized c
      rw [remote, done] at outcome
      cases outcome
    | sendMessageToAllClients => cases acts
    | sendMessageToClient => cases acts

theorem program_clear_of_run (run : Transition.Run (step order) AmongClients (start idCounter stdin) s)
    (x : ι) : (s.program x).fault = none := by
  have wired := wired_of_reachable run.reachable
  cases failed : (s.program x).fault with
  | none => rfl
  | some fault =>
    obtain ⟨reason, rfl⟩ := (ClientProgram.inputInvariant_of_reachable (wired.program x)).faults fault failed
    obtain ⟨m, enqueued, outcome⟩ := ClientProgram.exists_failed (wired.program x) failed
    obtain ⟨display, done⟩ := (populated_of_run run).dispatched wired enqueued
    cases done.symm.trans outcome

structure Safe (s : Network ι) : Prop where
  server : ∀ fault, s.system.fault = some fault → fault = .useAfterFree
  client : ∀ x, (s.program x).Defined

theorem defined_of_run (run : Transition.Run (step order) AmongClients (start idCounter stdin) s)
    (fits : ∀ x, Console.LinesFit (stdin x)) (x : ι) : (s.program x).Defined where
  fault := program_clear_of_run run x
  main := ClientProgram.main_ne_overrun ((wired_of_reachable run.reachable).program x) (fits x)

/-- Whatever the operating system fails to do and the users type, as long as their lines fit. -/
theorem safe (run : Transition.Run (step order) AmongClients (start idCounter stdin) s)
    (fits : ∀ x, Console.LinesFit (stdin x)) : Safe s where
  client := defined_of_run run fits
  server := by
    refine run.invariant_of_reached (P := fun s => ∀ fault, s.system.fault = some fault → fault = .useAfterFree)
      nofun fun s a t before sofar among taken fault failed => ?_
    cases clear : s.system.fault with
    | none => exact (fault_of_step before among taken clear failed).1
    | some old =>
      -- The server has stopped.
      cases step_cases taken with
      | client => exact sofar fault failed
      | accept clock peer system new ran => cases clear.symm.trans (System.clear_of_step ran)
      | server a system acts ran => cases clear.symm.trans (System.clear_of_step ran)

theorem pings_few : Transition.Meets (step .little) FewClients (start 0 fun _ => [112]) pings := by
  decide +kernel

theorem pTyped_fits : Console.LinesFit [112] := by
  intro request typed
  have only : Console.interpret .key [112] = [.call .pingServer] := by decide
  rw [only] at typed
  cases List.mem_singleton.mp typed
  trivial

theorem safe_pings : ∃ s : Network Unit,
    (s.program ()).shown.filterMap MyCQClient.Display.answer = [.ping 42] ∧ Safe s := by
  obtain ⟨s, done, facts⟩ := (Option.any_eq_true _ _).mp pings_shown
  obtain ⟨_, shown⟩ := of_decide_eq_true facts
  have run : Transition.Run (step .little) FewClients (start 0 fun _ => [112]) s :=
    .of_perform pings _ pings_few done
  exact ⟨s, shown, safe (run.mono fun _ _ => FewClients.among) fun _ => pTyped_fits⟩

end Network
end MyCQ
