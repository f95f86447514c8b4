import MyCQ.App.Network.Broadcasts
import MyCQ.App.Network.Reliable

/-! A connection at rest, when no operation on it has failed.

What is left on a connection is always an operation that can complete. So once
none can and the queues are empty, the server has handled all that the client
has sent, and the client has shown all that is due to it.
-/

set_option autoImplicit false

namespace MyCQ
open Octets (Endian)
open List (Forall₂)
open MyCQClient (Display)

/-- Nothing can complete: every read waits for more bytes than are left of what the other end has written. -/
@[mk_iff]
structure Endpoint.Idle (p : Endpoint) (stream : List Byte) : Prop where
  connecting : p.conn.socketConnection.connecting = false
  posted : p.conn.posted = []
  writes : p.conn.socketConnection.writes = []
  reads : ∀ op ∈ p.conn.socketConnection.reads, stream.length < p.conn.socketConnection.received.length + op.length

instance (p : Endpoint) (stream : List Byte) : Decidable (p.Idle stream) :=
  decidable_of_iff _ (Endpoint.idle_iff p stream).symm

theorem Frame.length_ofMessages (msgs : List Message) (agree : ∀ msg ∈ msgs, msg.Agrees) :
    (ofMessages msgs agree).length = msgs.length := List.length_pmap

variable {order : Endian}

theorem Link.quiescent_of_idle {link : Link} (client : link.client.Idle (link.server.sent order))
    (server : link.server.Idle (link.client.sent order)) : Quiescent order link := by
  intro side h
  have idle : (link.get side).Idle ((link.get side.other).sent order) := by
    cases side with
    | client => exact client
    | server => exact server
  cases taken : link.step order (side, .handler h) with
  | none => rfl
  | some after =>
    obtain ⟨permitted, q, moved, _⟩ := step_eq_some taken
    cases Endpoint.step_cases moved with
    | posted msg rest pending => cases idle.posted.symm.trans pending
    | readOk op bytes outstanding =>
      have next := (List.isPrefixOf_iff_prefix.mp permitted).length_le
      rw [List.length_append, bytes.length_eq] at next
      exact absurd next (Nat.not_le_of_lt (idle.reads op outstanding))
    | readFailed => cases permitted
    | writeOk op outstanding =>
      rw [idle.writes] at outstanding
      cases outstanding
    | writeFailed => cases permitted
    | connected pending => cases idle.connecting.symm.trans pending
    | connectFailed => cases permitted

namespace Network

variable {ι : Type} {idCounter : UInt32} {stdin : ι → List Byte} {s : Network ι} {c : ConnRef} {x : ι}

/-- Nothing is on its way between the client and the server, and the server has handled what it has enqueued. -/
@[mk_iff]
structure Settled (order : Endian) (s : Network ι) (c : ConnRef) (x : ι) : Prop where
  client : (s.program x).endpoint.Idle ((s.system.endpoint c).sent order)
  server : (s.system.endpoint c).Idle ((s.program x).endpoint.sent order)
  inMsgQueue : s.system.server.inMsgQueue = []
  unhandled : s.system.thread.unhandled = []

/-- The client has shown what it has enqueued, as well. -/
@[mk_iff]
structure AtRest (order : Endian) (s : Network ι) (c : ConnRef) (x : ι) : Prop extends Settled order s c x where
  incoming : (s.program x).incoming = []
  inHand : (s.program x).main.inHand = []

instance (s : Network ι) (c : ConnRef) (x : ι) : Decidable (s.Settled order c x) :=
  decidable_of_iff _ (settled_iff order s c x).symm

instance (s : Network ι) (c : ConnRef) (x : ι) : Decidable (s.AtRest order c x) :=
  decidable_of_iff _ (atRest_iff order s c x).symm

theorem Settled.quiescent (settled : s.Settled order c x) : Link.Quiescent order (s.link c x) :=
  Link.quiescent_of_idle settled.client settled.server

theorem Settled.calls (settled : s.Settled order c x) (wired : Wired order idCounter stdin s) :
    (s.system.calls.filter (System.fromClient c)).map OwnedMessage.msg = (s.system.endpoint c).enqueued := by
  have log := (System.wellFormed_of_reachable wired.system.reachable).log
  rw [settled.inMsgQueue, settled.unhandled, List.append_nil, List.append_nil] at log
  rw [log]
  rfl

theorem length_enqueued (wired : Wired order idCounter stdin s) {challenge : UInt64}
    (joined : Link.Joined order challenge (s.link c x)) (quiescent : Link.Quiescent order (s.link c x)) :
    (s.system.endpoint c).enqueued.length = (s.program x).sent.length := by
  obtain ⟨conn, connected⟩ := wired.exists_connected x
  have same : ((s.link c x).get .client).conn = conn := by
    rw [link, ClientProgram.endpoint_eq connected.current]
    rfl
  have agree : ∀ msg ∈ ((s.link c x).get .client).conn.sendDataCalls, msg.Agrees := by
    rw [same]
    intro msg member
    obtain ⟨r, _, builds⟩ := Relay.exists_of_mem connected.sends member
    exact builds.agrees
  have arrived : (s.system.endpoint c).enqueued = _ := quiescent.enqueued joined .client agree
  rw [arrived, Frame.length_enqueued, Frame.length_ofMessages, same, connected.sends.length_eq]

theorem Settled.asked (settled : s.Settled order c x) (wired : Wired order idCounter stdin s) (joins : s.Joins c x)
    {challenge : UInt64} (joined : Link.Joined order challenge (s.link c x)) :
    Forall₂ (Asked order) ((s.system.calls.filter (System.fromClient c)).map OwnedMessage.msg) (s.program x).sent := by
  refine (wired.handled joins).whole ?_
  rw [settled.calls wired, length_enqueued wired joined settled.quiescent]

theorem arrived_of_quiescent (wired : Wired order idCounter stdin s) (joins : s.Joins c x) {challenge : UInt64}
    (joined : Link.Joined order challenge (s.link c x)) (quiescent : Link.Quiescent order (s.link c x)) :
    Forall₂ (fun m msg => msg.Arrives m) (s.program x).enqueued (s.system.server.conn c).sendDataCalls := by
  have agree : ∀ msg ∈ ((s.link c x).get .server).conn.sendDataCalls, msg.Agrees := wired.agrees joins
  have arrived : (s.program x).enqueued = _ := quiescent.enqueued joined .server agree
  refine (wired.arrived joins).whole ?_
  rw [arrived, Frame.length_enqueued, Frame.length_ofMessages]
  exact Nat.le_refl _

theorem AtRest.shown (rest : s.AtRest order c x) (wired : Wired order idCounter stdin s) (joins : s.Joins c x)
    {challenge : UInt64} (joined : Link.Joined order challenge (s.link c x)) :
    Forall₂ (fun display msg => ∃ m, msg.Arrives m ∧ MyCQClient.dispatch order m = .ok display)
      (s.program x).shown (s.system.server.conn c).sendDataCalls := by
  obtain ⟨handled, related, accounted⟩ := (ClientProgram.accounts_of_reachable (wired.program x)).shown
  rw [rest.inHand, rest.incoming, List.append_nil, List.append_nil] at accounted
  subst accounted
  have passed := Relay.forall₂_comp related.flip (arrived_of_quiescent wired joins joined rest.quiescent)
  exact passed.imp fun display msg ⟨m, done, arrives⟩ => ⟨m, arrives, done⟩

variable [DecidableEq ι]

end Network
end MyCQ
