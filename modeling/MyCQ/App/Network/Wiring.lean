import MyCQ.App.Network

/-! The parts of the network are what they would be alone, and the connections do not lose or make up bytes. -/

set_option autoImplicit false

namespace MyCQ
open Octets (Endian)

namespace ClientProgram

variable {order : Endian} {s t : ClientProgram} {a : Action} {c : ConnectionInterface}

/-- What a step of the program is for its connection: none of its steps, or one that reads the same bytes. -/
theorem endpoint_cases (current : s.connectionModule = some c) (taken : s.step order a = some t) :
    ∃ c', t.connectionModule = some c' ∧ ((c' = c ∧ a.taken = []) ∨ ∃ e,
      (Endpoint.mk c s.enqueued).step order e = some ⟨c', t.enqueued⟩ ∧ e.taken = a.taken) := by
  cases step_cases taken with
  | inputCharacter key =>
    obtain ⟨main, begun, same, _⟩ := s.onInputCharacter_eq key
    rw [same]
    exact ⟨c, current, Or.inl ⟨rfl, rfl⟩⟩
  | returned now messageAll notifyOne request connectionModule _ performed =>
    obtain ⟨msg, rfl, _⟩ := MyCQClient.perform_returned performed
    rw [current]
    by_cases isOpen : c.isConnected = true
    · exact ⟨c.sendData msg, MyCQClient.send_connected isOpen msg, Or.inr ⟨.sendData msg, rfl, rfl⟩⟩
    · exact ⟨c, @MyCQClient.send_disconnected (some c) ((Bool.not_eq_true _).mp isOpen) msg, Or.inl ⟨rfl, rfl⟩⟩
  | handler h c' conn out found ran =>
    obtain rfl : c = c' := Option.some.inj (current.symm.trans found)
    exact ⟨conn, rfl, Or.inr ⟨.handler h, Endpoint.step_handler ran s.enqueued, rfl⟩⟩
  | _ => exact ⟨c, current, Or.inl ⟨rfl, rfl⟩⟩

theorem written_eq (order : Endian) (current : s.connectionModule = some c) :
    s.written order = (Endpoint.mk c s.enqueued).sent order := by rw [written, current]

theorem received_eq (current : s.connectionModule = some c) : s.received = c.socketConnection.received := by
  rw [received, current]

theorem written_step (current : s.connectionModule = some c) (taken : s.step order a = some t) :
    s.written order <+: t.written order := by
  obtain ⟨c', after, ⟨rfl, _⟩ | ⟨e, moved, _⟩⟩ := endpoint_cases current taken
  · rw [written_eq order current, written_eq order after]
    exact List.prefix_refl _
  · rw [written_eq order current, written_eq order after]
    exact Endpoint.sent_step moved

theorem received_step (current : s.connectionModule = some c) (taken : s.step order a = some t) :
    t.received = s.received ++ a.taken := by
  obtain ⟨c', after, ⟨rfl, none⟩ | ⟨e, moved, same⟩⟩ := endpoint_cases current taken
  · rw [received_eq current, received_eq after, none, List.append_nil]
  · rw [received_eq current, received_eq after, ← same]
    exact Endpoint.received_step moved

end ClientProgram

namespace System

variable {order : Endian} {s t : System} {a : Action}

theorem ConnStep.sent {p q : Endpoint} (moved : ConnStep order p q) : p.sent order <+: q.sent order :=
  moved.reachable.invariant (P := fun r => p.sent order <+: r.sent order) (List.prefix_refl _)
    fun _ _ _ grown _ taken => grown.trans (Endpoint.sent_step taken)

theorem received_cases (taken : s.step order a = some t) {c : ConnRef} (old : c ≠ s.server.created) :
    (t.server.conn c).socketConnection.received = (s.server.conn c).socketConnection.received ++ a.taken c ∨
      (t.server.conn c).socketConnection.received = (s.server.conn c).socketConnection.received := by
  have delivered : ∀ {server : MyCQServer} {out : ConnRef → List Message}, s.server.Delivers server out →
      (server.conn c).socketConnection.received = (s.server.conn c).socketConnection.received := by
    intro server out delivers
    rw [delivers.conn c]
    rfl
  cases step_cases taken with
  | accept clock =>
    refine Or.inr ?_
    simp only [MyCQServer.acceptConnection_conn, if_neg old]
  | handler d h conn out ran =>
    simp only [finishHandler, MyCQServer.setConn, Action.taken]
    by_cases target : c = d
    · subst target
      rw [Function.update_self, if_pos rfl]
      exact Or.inl (Endpoint.received_step (Endpoint.step_handler ran []))
    · rw [Function.update_of_ne target]
      exact Or.inr rfl
  | onMessage _ _ _ _ _ _ ran =>
    obtain ⟨_, delivers, _⟩ := (MyCQServer.handled_of_onMessage ran).delivers
    exact Or.inr (delivered delivers)
  | sendMessageToAllClients _ _ _ _ ran => exact Or.inr (delivered (MyCQServer.sendMessageToAllClients_ok ran).1)
  | sendMessageToClient _ _ _ _ _ ran =>
    obtain ⟨_, delivers, _⟩ := MyCQServer.sendMessageToClient_ok ran
    exact Or.inr (delivered delivers)
  | _ => exact Or.inr rfl

theorem created_of_ne_accept (taken : s.step order a = some t) (other : ∀ clock, a ≠ .accept clock) :
    t.server.created = s.server.created := by
  cases step_cases taken with
  | accept clock => exact absurd rfl (other clock)
  | onMessage _ _ _ _ _ _ ran =>
    obtain ⟨_, delivers, _⟩ := (MyCQServer.handled_of_onMessage ran).delivers
    exact delivers.created
  | sendMessageToAllClients _ _ _ _ ran => exact (MyCQServer.sendMessageToAllClients_ok ran).1.created
  | sendMessageToClient _ _ _ _ _ ran =>
    obtain ⟨_, delivers, _⟩ := MyCQServer.sendMessageToClient_ok ran
    exact delivers.created
  | _ => rfl

end System

namespace Network

variable {ι : Type} {order : Endian} {idCounter : UInt32} {stdin : ι → List Byte} {s t : Network ι}
  {a : Action ι}

def Joins (s : Network ι) (c : ConnRef) (x : ι) : Prop := s.peers[c]? = some (some x)

/-- The parts of the network, each as it would be alone, and what has been received at the ends of the
connections. -/
structure Wired (order : Endian) (idCounter : UInt32) (stdin : ι → List Byte) (s : Network ι) : Prop where
  system : Transition.Run (System.step order) System.OnlyUpdates (.start idCounter) s.system
  program : ∀ x, Transition.Reachable (ClientProgram.step order) (.start (stdin x) (some .connecting)) (s.program x)
  length : s.peers.length = s.system.server.created
  once : ∀ c d x, s.Joins c x → s.Joins d x → c = d
  atServer : ∀ c x, s.Joins c x →
    (s.system.server.conn c).socketConnection.received <+: (s.program x).written order
  atClient : ∀ c x, s.Joins c x → (s.program x).received <+: (s.system.endpoint c).sent order
  unaccepted : ∀ x, some x ∉ s.peers → (s.program x).received = []

theorem wired_start (order : Endian) (idCounter : UInt32) (stdin : ι → List Byte) :
    Wired order idCounter stdin (start idCounter stdin) where
  system := .start
  program _ := .start
  length := rfl
  once _ _ _ joins := by cases joins
  atServer _ _ joins := by cases joins
  atClient _ _ joins := by cases joins
  unaccepted _ _ := rfl

theorem joins_iff {c : ConnRef} {x : ι} : s.Joins c x ↔ s.peer c = some x := Option.join_eq_some_iff.symm

theorem Joins.created (wired : Wired order idCounter stdin s) {c : ConnRef} {x : ι} (joins : s.Joins c x) :
    c < s.system.server.created :=
  wired.length ▸ (List.getElem?_eq_some_iff.mp joins).1

theorem Joins.mem {c : ConnRef} {x : ι} (joins : s.Joins c x) : some x ∈ s.peers := List.mem_of_getElem? joins

theorem Wired.exists_connected (wired : Wired order idCounter stdin s) (x : ι) :
    ∃ c, (s.program x).Connected order c := ClientProgram.exists_connected (wired.program x)

theorem joins_append {peers : List (Option ι)} {peer : Option ι} {c : ConnRef} {x : ι}
    (entry : (peers ++ [peer])[c]? = some (some x)) :
    peers[c]? = some (some x) ∨ c = peers.length ∧ peer = some x := by
  rcases Nat.lt_or_ge c peers.length with old | later
  · exact Or.inl ((List.getElem?_append_left old).symm.trans entry)
  · have last := (List.getElem?_append_right later).symm.trans entry
    rw [List.getElem?_singleton] at last
    split at last
    · next first => exact Or.inr ⟨Nat.le_antisymm (Nat.le_of_sub_eq_zero first) later, Option.some.inj last⟩
    · cases last

theorem Wired.accept (wired : Wired order idCounter stdin s) {clock : UInt64} {peer : Option ι} {system : System}
    (new : ∀ x, peer = some x → some x ∉ s.peers) (taken : s.system.step order (.accept clock) = some system) :
    Wired order idCounter stdin { s with system, peers := s.peers ++ [peer] } := by
  have run : Transition.Run (System.step order) System.OnlyUpdates (.start idCounter) system :=
    wired.system.next (show System.OnlyUpdates s.system (.accept clock) from trivial) taken
  obtain rfl := System.accept_eq taken
  have kept : ∀ c x, s.Joins c x → (s.system.server.acceptConnection clock).conn c = s.system.server.conn c := by
    intro c x joins
    rw [MyCQServer.acceptConnection_conn, if_neg (Nat.ne_of_lt (joins.created wired))]
  constructor
  case system => exact run
  case program => exact wired.program
  case length =>
    rw [List.length_append, wired.length]
    rfl
  case once =>
    intro c d x left right
    rcases joins_append left with left | ⟨rfl, fresh⟩
    · rcases joins_append right with right | ⟨rfl, fresh⟩
      · exact wired.once c d x left right
      · exact absurd (Joins.mem left) (new x fresh)
    · rcases joins_append right with right | ⟨rfl, _⟩
      · exact absurd (Joins.mem right) (new x fresh)
      · rfl
  case atServer =>
    intro c x joins
    rcases joins_append joins with old | ⟨rfl, _⟩
    · simp only [kept c x old]
      exact wired.atServer c x old
    · simp only [MyCQServer.acceptConnection_conn, wired.length, if_true]
      exact List.nil_prefix
  case atClient =>
    intro c x joins
    rcases joins_append joins with old | ⟨rfl, fresh⟩
    · simp only [System.endpoint, Endpoint.sent, kept c x old]
      exact wired.atClient c x old
    · rw [wired.unaccepted x (new x fresh)]
      exact List.nil_prefix
  case unaccepted => exact fun x absent => wired.unaccepted x fun old => absent (List.mem_append_left _ old)

theorem onlyUpdates_of_serverActs {a : System.Action} (acts : s.serverActs order a = true) :
    System.OnlyUpdates s.system a := by
  cases a with
  | sendMessageToAllClients => cases acts
  | sendMessageToClient => cases acts
  | _ => trivial

theorem Wired.server (wired : Wired order idCounter stdin s) {a : System.Action} {system : System}
    (acts : s.serverActs order a = true) (taken : s.system.step order a = some system) :
    Wired order idCounter stdin { s with system } := by
  have only := onlyUpdates_of_serverActs acts
  have other : ∀ clock, a ≠ .accept clock := by
    rintro clock rfl
    cases acts
  have created := System.created_of_ne_accept taken other
  have wellFormed := System.wellFormed_of_reachable wired.system.reachable
  constructor
  case system => exact wired.system.next only taken
  case program => exact wired.program
  case length => exact wired.length.trans created.symm
  case once => exact wired.once
  case atServer =>
    intro c x joins
    have sofar := wired.atServer c x joins
    rcases System.received_cases taken (Nat.ne_of_lt (joins.created wired)) with grown | same
    · rw [grown]
      cases a with
      | handler d h =>
        simp only [System.Action.taken]
        split
        · next target =>
          subst target
          rw [serverActs, show s.peer d = some x from joins_iff.mp joins] at acts
          exact List.isPrefixOf_iff_prefix.mp acts
        · rwa [List.append_nil]
      | _ => simpa only [System.Action.taken, List.append_nil] using sofar
    · rw [same]
      exact sofar
  case atClient =>
    intro c x joins
    exact (wired.atClient c x joins).trans (System.endpoint_step wellFormed taken (joins.created wired)).sent
  case unaccepted => exact wired.unaccepted

variable [DecidableEq ι]

theorem Wired.toClient_eq (wired : Wired order idCounter stdin s) {c : ConnRef} {x : ι} (joins : s.Joins c x) :
    s.toClient order x = (s.system.endpoint c).sent order := by
  rw [toClient]
  cases found : s.peers.idxOf? (some x) with
  | none => exact absurd joins.mem (List.idxOf?_eq_none_iff.mp found)
  | some d =>
    obtain ⟨inside, entry, _⟩ := List.idxOf?_eq_some_iff.mp found
    rw [wired.once c d x joins (List.getElem?_eq_some_iff.mpr ⟨inside, entry⟩)]

theorem toClient_eq_nil {x : ι} (absent : some x ∉ s.peers) : s.toClient order x = [] := by
  rw [toClient, List.idxOf?_eq_none_iff.mpr absent]

theorem Wired.client (wired : Wired order idCounter stdin s) {x : ι} {a : ClientProgram.Action}
    {program : ClientProgram} (acts : s.clientActs order x a = true)
    (taken : (s.program x).step order a = some program) :
    Wired order idCounter stdin { s with program := Function.update s.program x program } := by
  obtain ⟨conn, connected⟩ := wired.exists_connected x
  have next : (s.program x).received ++ a.taken <+: s.toClient order x := List.isPrefixOf_iff_prefix.mp acts
  rw [← ClientProgram.received_step connected.current taken] at next
  constructor
  case system => exact wired.system
  case program =>
    refine (Function.forall_update_iff s.program fun y p => Transition.Reachable (ClientProgram.step order)
      (.start (stdin y) (some .connecting)) p).mpr ⟨?_, fun y _ => wired.program y⟩
    exact (wired.program x).next trivial taken
  case length => exact wired.length
  case once => exact wired.once
  case atServer =>
    intro c
    refine (Function.forall_update_iff s.program fun y p => s.Joins c y →
      (s.system.server.conn c).socketConnection.received <+: p.written order).mpr ⟨fun joins => ?_,
        fun y _ => wired.atServer c y⟩
    exact (wired.atServer c x joins).trans (ClientProgram.written_step connected.current taken)
  case atClient =>
    intro c
    refine (Function.forall_update_iff s.program fun y p => s.Joins c y →
      p.received <+: (s.system.endpoint c).sent order).mpr ⟨fun joins => ?_, fun y _ => wired.atClient c y⟩
    exact wired.toClient_eq joins ▸ next
  case unaccepted =>
    refine (Function.forall_update_iff s.program fun y p => some y ∉ s.peers → p.received = []).mpr
      ⟨fun absent => ?_, fun y _ => wired.unaccepted y⟩
    rw [toClient_eq_nil absent] at next
    exact List.prefix_nil.mp next

theorem Wired.step (wired : Wired order idCounter stdin s) (taken : s.step order a = some t) :
    Wired order idCounter stdin t := by
  cases step_cases taken with
  | accept clock peer system new ran => exact wired.accept new ran
  | server a system acts ran => exact wired.server acts ran
  | client x a program acts ran => exact wired.client acts ran

/-- A run of the network is one of the system. -/
theorem system_of_run {guard : Network ι → Action ι → Prop} {own : System → System.Action → Prop}
    (run : Transition.Run (step order) guard s t) (accepts : ∀ s clock, own s (.accept clock))
    (serves : ∀ s a, guard s (.server a) → s.serverActs order a = true → own s.system a) :
    Transition.Run (System.step order) own s.system t.system := by
  induction run with
  | start => exact .start
  | next _ met taken ih =>
    cases step_cases taken with
    | accept clock peer system new ran => exact ih.next (accepts _ clock) ran
    | server a system acts ran => exact ih.next (serves _ a met acts) ran
    | client => exact ih

theorem system_of_reachable (run : Transition.Reachable (step order) s t) :
    Transition.Run (System.step order) System.OnlyUpdates s.system t.system :=
  system_of_run run (fun _ _ => trivial) fun _ _ _ acts => onlyUpdates_of_serverActs acts

/-- The connection `d` is accepted on the way to a state, after so many calls of `onMessage`. -/
inductive AcceptedAfter (order : Endian) (idCounter : UInt32) (stdin : ι → List Byte) (s : Network ι) :
    ConnRef → Nat → Prop where
  | history {before after : Network ι} {clock : UInt64} {peer : Option ι} :
      Transition.Reachable (step order) (start idCounter stdin) before →
      before.step order (.accept clock peer) = some after → Transition.Reachable (step order) after s →
      AcceptedAfter order idCounter stdin s before.system.server.created before.system.calls.length

theorem AcceptedAfter.step {d : ConnRef} {k : Nat} (accepted : AcceptedAfter order idCounter stdin s d k)
    (taken : s.step order a = some t) : AcceptedAfter order idCounter stdin t d k := by
  obtain ⟨earlier, accept, onward⟩ := accepted
  exact .history earlier accept (onward.next trivial taken)

theorem exists_acceptedAfter (run : Transition.Reachable (step order) (start idCounter stdin) s) {d : ConnRef}
    (created : d < s.system.server.created) : ∃ k, AcceptedAfter order idCounter stdin s d k := by
  induction run with
  | start => exact absurd created (Nat.not_lt_zero d)
  | @next s t a before _ taken ih =>
    have old : d < s.system.server.created → ∃ k, AcceptedAfter order idCounter stdin t d k := fun old =>
      (ih old).imp fun k accepted => accepted.step taken
    cases step_cases taken with
    | accept clock peer system new ran =>
      obtain rfl := System.accept_eq ran
      rcases Nat.lt_succ_iff_lt_or_eq.mp created with earlier | rfl
      · exact old earlier
      · exact ⟨_, .history before taken .start⟩
    | server b system acts ran =>
      have other : ∀ clock, b ≠ .accept clock := by
        rintro clock rfl
        cases acts
      exact old (System.created_of_ne_accept ran other ▸ created)
    | client => exact old created

theorem AcceptedAfter.system {d : ConnRef} {k : Nat} (accepted : AcceptedAfter order idCounter stdin s d k) :
    System.AcceptedAfter order idCounter s.system d k := by
  obtain ⟨earlier, accept, onward⟩ := accepted
  cases step_cases accept with
  | accept clock peer system new ran =>
    exact .history (system_of_reachable earlier) ran (system_of_reachable onward)

theorem wired_of_reachable (run : Transition.Reachable (step order) (start idCounter stdin) s) :
    Wired order idCounter stdin s :=
  run.invariant (wired_start order idCounter stdin) fun _ _ _ wired _ taken => wired.step taken

end Network
end MyCQ
