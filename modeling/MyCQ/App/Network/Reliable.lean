import MyCQ.App.Network.Safety
import MyCQ.Net.Link.Settling

/-! The connection of a client within the network, when no operation on it fails.

Seen from one connection, a run of the network is a run of a client and a server
that are joined by a lossless connection. What holds there holds here: the
server rejects no client, and no socket is closed.
-/

set_option autoImplicit false

namespace MyCQ
open Octets (Endian)
open ConnectionInterface (Handler)
open Endpoint (AnswerStarted)
open Link (AnswersFirst)

theorem Endpoint.answerStarted_iff {p : Endpoint} :
    p.conn.socketConnection.writesStarted.any (!·.isFrame) = true ↔ AnswerStarted p := by
  rw [List.any_eq_true]
  refine ⟨fun ⟨op, member, answer⟩ => ?_, fun ⟨word, member⟩ => ⟨_, member, rfl⟩⟩
  cases op with
  | validationData word => exact ⟨word, member⟩
  | header => cases answer
  | payload => cases answer

instance (p : Endpoint) : Decidable (AnswerStarted p) := decidable_of_iff _ Endpoint.answerStarted_iff

def ClientProgram.endpoint (s : ClientProgram) : Endpoint := ⟨s.connectionModule.getD .connecting, s.enqueued⟩

namespace ClientProgram

variable {order : Endian} {s t : ClientProgram} {a : Action} {c : ConnectionInterface}

theorem endpoint_eq (current : s.connectionModule = some c) : s.endpoint = ⟨c, s.enqueued⟩ := by
  rw [endpoint, current, Option.getD_some]

inductive EndpointStep (order : Endian) (p q : Endpoint) : Action → Prop where
  | handler (h : Handler) : p.step order (.handler h) = some q → EndpointStep order p q (.handler h)
  | sendData (a : Action) (msg : Message) : p.conn.isConnected = true → p.step order (.sendData msg) = some q →
      EndpointStep order p q a
  | stays (a : Action) : q = p → EndpointStep order p q a

theorem endpoint_step (current : s.connectionModule = some c) (taken : s.step order a = some t) :
    EndpointStep order s.endpoint t.endpoint a := by
  cases step_cases taken with
  | inputCharacter key =>
    obtain ⟨main, begun, same, _⟩ := s.onInputCharacter_eq key
    rw [same]
    exact .stays _ rfl
  | returned now messageAll notifyOne request connectionModule _ performed =>
    obtain ⟨msg, rfl, _⟩ := MyCQClient.perform_returned performed
    rw [endpoint_eq current]
    by_cases isOpen : c.isConnected = true
    · refine .sendData _ msg isOpen ?_
      rw [endpoint, current, MyCQClient.send_connected isOpen msg]
      rfl
    · refine .stays _ ?_
      rw [endpoint, current, @MyCQClient.send_disconnected (some c) ((Bool.not_eq_true _).mp isOpen) msg]
      rfl
  | handler h c' conn out found ran =>
    obtain rfl : c = c' := Option.some.inj (current.symm.trans found)
    rw [endpoint_eq current]
    exact .handler h (Endpoint.step_handler ran s.enqueued)
  | _ => exact .stays _ rfl

end ClientProgram

namespace System

variable {order : Endian} {s t : System} {a : Action} {c : ConnRef}

inductive EndpointStep (order : Endian) (c : ConnRef) (p q : Endpoint) : Action → Prop where
  | handler (h : Handler) : p.step order (.handler h) = some q → EndpointStep order c p q (.handler c h)
  | sends (a : Action) (msgs : List Message) : q = ⟨p.conn.sendAll msgs, p.enqueued⟩ → EndpointStep order c p q a

theorem EndpointStep.stays {p q : Endpoint} (a : Action) (same : q = p) : EndpointStep order c p q a :=
  .sends a [] (same.trans (by rw [ConnectionInterface.sendAll_nil]))

theorem endpoint_finishHandler {h : Handler} {conn : ConnectionInterface} {out : Option Message}
    (ran : (s.server.conn c).runHandler order h = some (conn, out)) :
    (s.endpoint c).step order (.handler h) = some ((s.finishHandler c conn out).endpoint c) := by
  simp only [Endpoint.step, endpoint, ran, Option.map_some, finishHandler, MyCQServer.setConn, Function.update_self,
    List.filter_append, List.map_append]
  congr 3
  cases out <;> simp

theorem endpoint_finishHandler_of_ne {d : ConnRef} (other : c ≠ d) (conn : ConnectionInterface) (out : Option Message) :
    (s.finishHandler d conn out).endpoint c = s.endpoint c := by
  simp only [endpoint, finishHandler, MyCQServer.setConn, Function.update_of_ne other, List.filter_append,
    List.map_append]
  congr 1
  cases out with
  | none => simp
  | some msg => simpa using fun back : d = c => other back.symm

theorem endpoint_accepted (wellFormed : WellFormed s) (clock : UInt64) :
    ({ s with
      server := s.server.acceptConnection clock
      challenges := s.challenges ++ [clock] } : System).endpoint s.server.created =
        ⟨(ConnectionInterface.accepted clock s.server.idCounter).sendAll [MyCQServer.serverAccept], []⟩ := by
  have silent : (s.pushed.filter fun m => m.remote = some s.server.created) = [] := by
    refine List.filter_eq_nil_iff.mpr fun m member found => ?_
    obtain ⟨c, remote, created⟩ := wellFormed.remotes m member
    exact Nat.ne_of_lt created (Option.some.inj (remote.symm.trans (of_decide_eq_true found)))
  simp only [endpoint, silent, List.map_nil, MyCQServer.acceptConnection_conn, if_true]

theorem endpoint_action (only : OnlyUpdates s a) (taken : s.step order a = some t) (created : c < s.server.created) :
    EndpointStep order c (s.endpoint c) (t.endpoint c) a := by
  cases step_cases taken with
  | accept clock =>
    refine .stays _ ?_
    simp only [endpoint, MyCQServer.acceptConnection_conn, if_neg (Nat.ne_of_lt created)]
  | handler d h conn out ran =>
    by_cases target : c = d
    · subst target
      exact .handler h (endpoint_finishHandler ran)
    · exact .stays _ (endpoint_finishHandler_of_ne target conn out)
  | onMessage uninitialized numMaxMessages msgCount msg server point ran =>
    obtain ⟨out, delivers, _⟩ := (MyCQServer.handled_of_onMessage ran).delivers
    refine .sends _ (out c) ?_
    simp only [endpoint, delivers.conn]
  | sendMessageToAllClients => exact only.elim
  | sendMessageToClient => exact only.elim
  | _ => exact .stays _ rfl

end System

namespace Network

variable {ι : Type} {order : Endian} {idCounter : UInt32} {stdin : ι → List Byte} {s t : Network ι} {a : Action ι}
  {c d : ConnRef} {x y : ι}

/-- No operation on a client's connection fails, and a client handles no send before its answer to the challenge. -/
def Reliable (s : Network ι) : Action ι → Prop
  | .server (.handler c h) => s.peer c ≠ none → h.succeeds = true
  | .client x (.handler h) => h.succeeds = true ∧ (h = .posted → AnswerStarted (s.program x).endpoint)
  | _ => True

instance (s : Network ι) : (a : Action ι) → Decidable (s.Reliable a)
  | .server (.handler c h) => inferInstanceAs (Decidable (s.peer c ≠ none → h.succeeds = true))
  | .client x (.handler h) =>
    inferInstanceAs (Decidable (h.succeeds = true ∧ (h = .posted → AnswerStarted (s.program x).endpoint)))
  | .accept _ _ | .server (.accept _) | .server (.update _ _) | .server .waitReturns | .server .seesEmpty
  | .server .block | .server .spuriousWakeUp | .server .test | .server .popFront | .server (.onMessage _)
  | .server .endIteration | .server (.sendMessageToAllClients _ _) | .server (.sendMessageToClient _ _)
  | .client _ .main | .client _ (.call _ _ _) | .client _ .keyboard => isTrue trivial

def link (s : Network ι) (c : ConnRef) (x : ι) : Link := ⟨(s.program x).endpoint, s.system.endpoint c⟩

/-- The server's end as soon as the connection is accepted, and before that. -/
inductive LinkRun (order : Endian) (s : Network ι) (x : ι) : Prop where
  | joined (c : ConnRef) (challenge : UInt64) (uId : UInt32) : s.Joins c x →
      Transition.Run (Link.step order) AnswersFirst (.start challenge uId) (s.link c x) → LinkRun order s x
  | unaccepted : some x ∉ s.peers → (∀ challenge uId, Transition.Run (Link.step order) AnswersFirst
      (.start challenge uId) ⟨(s.program x).endpoint, ⟨.accepted challenge uId, []⟩⟩) → LinkRun order s x

theorem link_sends {start l : Link} (run : Transition.Run (Link.step order) AnswersFirst start l)
    (msgs : List Message) : Transition.Run (Link.step order) AnswersFirst start
      ⟨l.client, ⟨l.server.conn.sendAll msgs, l.server.enqueued⟩⟩ := by
  induction msgs generalizing l with
  | nil =>
    rw [ConnectionInterface.sendAll_nil]
    exact run
  | cons msg rest ih =>
    have guard : AnswersFirst l (.server, .sendData msg) := trivial
    have sent : l.step order (.server, .sendData msg) =
        some ⟨l.client, ⟨l.server.conn.sendAll [msg], l.server.enqueued⟩⟩ := rfl
    have others := ih (run.next guard sent)
    rwa [ConnectionInterface.sendAll_sendAll, List.singleton_append] at others

theorem link_server {start l : Link} (run : Transition.Run (Link.step order) AnswersFirst start l) {h : Handler}
    {q : Endpoint} (moved : l.server.step order (.handler h) = some q) (succeeds : h.succeeds = true)
    (next : l.server.conn.socketConnection.received ++ (Endpoint.Action.handler h).taken <+: l.client.sent order) :
    Transition.Run (Link.step order) AnswersFirst start ⟨l.client, q⟩ := by
  have guard : AnswersFirst l (.server, .handler h) := trivial
  have allowed : l.allowed order .server (.handler h) = true := by
    cases h with
    | readOk op bytes => exact List.isPrefixOf_iff_prefix.mpr next
    | readFailed | writeFailed | connectFailed => cases succeeds
    | _ => rfl
  exact run.next guard (Link.step_of allowed moved)

theorem link_client {start l : Link} (run : Transition.Run (Link.step order) AnswersFirst start l)
    {a : ClientProgram.Action} {q : Endpoint} (moved : ClientProgram.EndpointStep order l.client q a)
    (succeeds : ∀ h, a = .handler h → h.succeeds = true ∧ (h = .posted → AnswerStarted l.client))
    (next : l.client.conn.socketConnection.received ++ a.taken <+: l.server.sent order) :
    Transition.Run (Link.step order) AnswersFirst start ⟨q, l.server⟩ := by
  cases moved with
  | stays _ same =>
    rw [same]
    exact run
  | sendData a msg isOpen moved =>
    have guard : AnswersFirst l (.client, .sendData msg) := trivial
    have allowed : l.allowed order .client (.sendData msg) = true := isOpen
    exact run.next guard (Link.step_of allowed moved)
  | handler h moved =>
    obtain ⟨succeeded, answers⟩ := succeeds h rfl
    have guard : AnswersFirst l (.client, .handler h) := by
      cases h with
      | posted => exact answers rfl
      | _ => trivial
    have allowed : l.allowed order .client (.handler h) = true := by
      cases h with
      | readOk op bytes => exact List.isPrefixOf_iff_prefix.mpr next
      | readFailed | writeFailed | connectFailed => cases succeeded
      | _ => rfl
    exact run.next guard (Link.step_of allowed moved)

theorem LinkRun.accept (linkRun : LinkRun order s x) (wired : Wired order idCounter stdin s) {clock : UInt64}
    {peer : Option ι} {system : System} (taken : s.system.step order (.accept clock) = some system) :
    LinkRun order { s with system, peers := s.peers ++ [peer] } x := by
  have wellFormed := System.wellFormed_of_reachable wired.system.reachable
  have old : ∀ c, c < s.system.server.created → system.endpoint c = s.system.endpoint c := by
    intro c created
    obtain rfl := System.accept_eq taken
    simp only [System.endpoint, MyCQServer.acceptConnection_conn, if_neg (Nat.ne_of_lt created)]
  cases linkRun with
  | joined c challenge uId joins run =>
    have created := joins.created wired
    refine .joined c challenge uId ((List.getElem?_append_left (wired.length ▸ created)).trans joins) ?_
    rw [link, old c created]
    exact run
  | unaccepted absent runs =>
    by_cases own : peer = some x
    · subst own
      have entry : (s.peers ++ [some x])[s.system.server.created]? = some (some x) := by
        rw [← wired.length, List.getElem?_concat_length]
      refine .joined s.system.server.created clock s.system.server.idCounter entry ?_
      have greeted : system.endpoint s.system.server.created =
          ⟨(ConnectionInterface.accepted clock s.system.server.idCounter).sendAll [MyCQServer.serverAccept], []⟩ := by
        obtain rfl := System.accept_eq taken
        exact System.endpoint_accepted wellFormed clock
      rw [link, greeted]
      exact link_sends (runs clock s.system.server.idCounter) [MyCQServer.serverAccept]
    · refine .unaccepted (fun member => ?_) runs
      rcases List.mem_append.mp member with before | last
      · exact absent before
      · exact own (List.mem_singleton.mp last).symm

theorem LinkRun.server (linkRun : LinkRun order s x) (wired : Wired order idCounter stdin s) {a : System.Action}
    {system : System} (reliable : s.Reliable (.server a)) (acts : s.serverActs order a = true)
    (taken : s.system.step order a = some system) : LinkRun order { s with system } x := by
  cases linkRun with
  | unaccepted absent runs => exact .unaccepted absent runs
  | joined c challenge uId joins run =>
    have only := onlyUpdates_of_serverActs acts
    refine .joined c challenge uId joins ?_
    cases System.endpoint_action only taken (joins.created wired) with
    | sends _ msgs same =>
      rw [link, same]
      exact link_sends run msgs
    | handler h moved =>
      have peer : s.peer c = some x := joins_iff.mp joins
      obtain ⟨conn, connected⟩ := wired.exists_connected x
      rw [serverActs, peer] at acts
      have next : (s.system.server.conn c).socketConnection.received ++ (Endpoint.Action.handler h).taken <+:
          (s.program x).written order := List.isPrefixOf_iff_prefix.mp acts
      rw [ClientProgram.written_eq order connected.current, ← ClientProgram.endpoint_eq connected.current] at next
      have known : s.peer c ≠ none := by
        rw [peer]
        exact Option.some_ne_none x
      exact link_server run moved (reliable known) next

theorem LinkRun.exists_joined (linkRun : LinkRun order s x) (wired : Wired order idCounter stdin s)
    (joins : s.Joins c x) : ∃ challenge, Link.Joined order challenge (s.link c x) := by
  cases linkRun with
  | unaccepted absent => exact absurd joins.mem absent
  | joined d challenge uId joins' run =>
    obtain rfl := wired.once c d x joins joins'
    exact ⟨challenge, Link.joined_of_run run⟩

/-- Only clients connect, and nothing goes wrong with their connections. -/
def Undisturbed (s : Network ι) (a : Action ι) : Prop := AmongClients s a ∧ s.Reliable a

variable [DecidableEq ι]

theorem LinkRun.client (linkRun : LinkRun order s x) (wired : Wired order idCounter stdin s) {y : ι}
    {a : ClientProgram.Action} {program : ClientProgram} (reliable : s.Reliable (.client y a))
    (acts : s.clientActs order y a = true) (taken : (s.program y).step order a = some program) :
    LinkRun order { s with program := Function.update s.program y program } x := by
  by_cases own : x = y
  · subst own
    obtain ⟨conn, connected⟩ := wired.exists_connected x
    have moved := ClientProgram.endpoint_step connected.current taken
    have succeeds : ∀ h, a = .handler h → h.succeeds = true ∧ (h = .posted → AnswerStarted (s.program x).endpoint) := by
      rintro h rfl
      exact reliable
    have next : (s.program x).endpoint.conn.socketConnection.received ++ a.taken <+: s.toClient order x := by
      rw [ClientProgram.endpoint_eq connected.current, ← ClientProgram.received_eq connected.current]
      exact List.isPrefixOf_iff_prefix.mp acts
    cases linkRun with
    | joined c challenge uId joins run =>
      refine .joined c challenge uId joins ?_
      rw [wired.toClient_eq joins] at next
      simp only [link, Function.update_self]
      exact link_client run moved succeeds next
    | unaccepted absent runs =>
      refine .unaccepted absent fun challenge uId => ?_
      rw [toClient_eq_nil absent] at next
      simp only [Function.update_self]
      exact link_client (runs challenge uId) moved succeeds (next.trans List.nil_prefix)
  · have same : Function.update s.program y program x = s.program x := Function.update_of_ne own program s.program
    cases linkRun with
    | joined c challenge uId joins run =>
      refine .joined c challenge uId joins ?_
      simp only [link, same]
      exact run
    | unaccepted absent runs =>
      refine .unaccepted absent ?_
      simp only [same]
      exact runs

theorem linkRun_of_run
    (run : Transition.Run (step order) Reliable (start idCounter stdin) s)
    (x : ι) : LinkRun order s x := by
  refine run.invariant_of_reached (P := fun s => LinkRun order s x) ?_ fun s a t before linkRun works taken => ?_
  · exact .unaccepted List.not_mem_nil fun challenge uId => .start
  · have wired := wired_of_reachable before.reachable
    cases step_cases taken with
    | accept clock peer system new ran => exact linkRun.accept wired ran
    | server a system acts ran => exact linkRun.server wired works acts ran
    | client y a program acts ran => exact linkRun.client wired works acts ran

/-- Seen from the connection of a client, every run is one of the two ends of a lossless connection. -/
theorem refines_link
    (run : Transition.Run (step order) Reliable (start idCounter stdin) s)
    (x : ι) : LinkRun order s x := linkRun_of_run run x

def pingsCompleted : List (Action Unit) :=
  let time := (CArray.ofUInt64 .little 42).toList
  pings ++ [.client () (.handler (.writeOk (.payload time))), .server (.handler 0 (.writeOk (.validationData 7))),
    .server (.handler 0 (.writeOk (.payload time)))]

theorem pingsCompleted_undisturbed : Transition.Meets (step .little)
    (fun s a => FewClients s a ∧ s.Reliable a) (start 0 fun _ => [112]) pingsCompleted := by
  decide +kernel

theorem pingsCompleted_enabled :
    (Transition.perform (step .little) (start 0 fun _ => [112]) pingsCompleted).isSome = true := by
  decide +kernel

theorem refines_link_pingsCompleted : LinkRun .little
    ((Transition.perform (step .little) (start 0 fun _ => [112]) pingsCompleted).get pingsCompleted_enabled) () :=
  have run := Transition.Run.of_perform pingsCompleted _ pingsCompleted_undisturbed
    (Option.some_get pingsCompleted_enabled).symm
  refines_link (run.mono fun _ _ calm => calm.2) ()

theorem joined_of_undisturbed (run : Transition.Run (step order) Undisturbed (start idCounter stdin) s)
    (joins : s.Joins c x) : ∃ challenge, Link.Joined order challenge (s.link c x) := by
  exact (linkRun_of_run (run.mono fun _ _ => And.right) x).exists_joined (wired_of_reachable run.reachable) joins

theorem listed_of_undisturbed (run : Transition.Run (step order) Undisturbed (start idCounter stdin) s) :
    s.system.server.connectionsQueue = (List.range s.system.server.created).map some := by
  have among := run.mono fun _ _ => And.left
  have wired := wired_of_reachable among.reachable
  obtain ⟨refs, roster⟩ := System.exists_roster wired.system.reachable
  have all : refs = List.range s.system.server.created := by
    refine List.Pairwise.eq_of_mem_iff roster.ordered List.pairwise_lt_range fun c => ?_
    rw [List.mem_range]
    refine ⟨roster.created c, fun created => ?_⟩
    obtain ⟨x, joins⟩ := (populated_of_run among).joins wired created
    obtain ⟨challenge, joined⟩ := joined_of_undisturbed run joins
    exact roster.connected c joined.serverOpen
  rw [roster.entries, all]

theorem clear_of_undisturbed (run : Transition.Run (step order) Undisturbed (start idCounter stdin) s) :
    s.system.fault = none := by
  refine run.invariant_of_reached (P := fun s => s.system.fault = none) rfl fun s a t before clear calm taken => ?_
  cases failed : t.system.fault with
  | none => rfl
  | some fault =>
    have among := before.mono fun _ _ => And.left
    obtain ⟨_, c, h, rfl, created, unowned⟩ := fault_of_step among calm.1 taken clear failed
    have member : some c ∈ s.system.server.connectionsQueue := by
      rw [listed_of_undisturbed before]
      exact List.mem_map_of_mem (List.mem_range.mpr created)
    exact absurd (Or.inl member) unowned

end Network
end MyCQ
