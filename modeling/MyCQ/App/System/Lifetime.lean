import MyCQ.App.System.Connections
import MyCQ.App.System.Passes

/-! Which connections outlive their pending handlers.

Handlers capture a connection without owning it. They are safe as long as the
server drops its last reference only to connections that are idle. It drops one
when a broadcast resets an entry, when a call returns and when a handled message
is destroyed.
-/

set_option autoImplicit false

namespace MyCQ
open Octets (Endian)
open ConnectionInterface (Handler Pending)

@[simp] theorem ConnectionInterface.pending_sendAll (c : ConnectionInterface) (msgs : List Message) :
    (c.sendAll msgs).Pending ↔ c.Pending ∨ msgs ≠ [] := by
  unfold Pending
  simp only [sendAll, ne_eq, List.append_eq_nil_iff, not_and_or]
  constructor
  · rintro ((posted | sent) | rest)
    · exact Or.inl (Or.inl posted)
    · exact Or.inr sent
    · exact Or.inl (Or.inr rest)
  · rintro ((posted | rest) | sent)
    · exact Or.inl (Or.inl posted)
    · exact Or.inr rest
    · exact Or.inl (Or.inr sent)

namespace System

variable {order : Endian} {idCounter : UInt32} {s t : System} {a : Action}

def HandlersOwned (s : System) : Prop := ∀ c, (s.server.conn c).Pending → s.Owned c

def Mentioned (s : System) (c : ConnRef) : Prop :=
  ∃ m ∈ s.server.inMsgQueue ++ s.thread.held, m.remote = some c

instance (s : System) (c : ConnRef) : Decidable (s.Mentioned c) :=
  inferInstanceAs (Decidable (∃ m ∈ s.server.inMsgQueue ++ s.thread.held, m.remote = some c))

def LetsGo (s : System) : Prop :=
  ∀ msg ∈ s.thread.held, ∀ d ∈ msg.remote, (s.server.conn d).Pending →
    some d ∈ s.server.connectionsQueue ∨ ∃ m ∈ s.server.inMsgQueue, m.remote = some d

instance (s : System) : Decidable s.LetsGo :=
  inferInstanceAs (Decidable (∀ msg ∈ s.thread.held, ∀ d ∈ msg.remote, (s.server.conn d).Pending →
    some d ∈ s.server.connectionsQueue ∨ ∃ m ∈ s.server.inMsgQueue, m.remote = some d))

theorem HandlersOwned.operate (owned : HandlersOwned s) {server : MyCQServer} {thread : UpdateThread}
    {calls : List OwnedMessage} {out : ConnRef → List Message} (delivers : s.server.Delivers server out)
    (held : thread.held = s.thread.held)
    (recipients : ∀ d m, m ∈ out d → s.Mentioned d ∨ some d ∈ server.connectionsQueue)
    (kept : ∀ d, some d ∈ s.server.connectionsQueue → some d ∈ server.connectionsQueue) :
    HandlersOwned { s with server, thread, calls } := by
  have mentioned : ∀ {d}, s.Mentioned d → System.Owned { s with server, thread, calls } d := by
    intro d mentioned
    apply Or.inr
    rw [delivers.inMsgQueue, held]
    exact mentioned
  intro d pending
  -- A pending handler was pending before the operation or has been posted by it.
  have before : (s.server.conn d).Pending ∨ out d ≠ [] := by
    rwa [delivers.conn, ConnectionInterface.pending_sendAll] at pending
  rcases before with waiting | sent
  · rcases owned d waiting with listed | message
    · exact Or.inl (kept d listed)
    · exact mentioned message
  · obtain ⟨m, member⟩ := List.exists_mem_of_ne_nil _ sent
    rcases recipients d m member with message | listed
    · exact mentioned message
    · exact Or.inl listed

theorem owned_finishHandler {c d : ConnRef} {conn : ConnectionInterface} {out : Option Message} (holder : s.Owned d) :
    (s.finishHandler c conn out).Owned d := by
  refine holder.imp id fun ⟨m, member, remote⟩ => ⟨m, ?_, remote⟩
  rcases List.mem_append.mp member with queued | inHand
  · exact List.mem_append_left _ (List.mem_append_left _ queued)
  · exact List.mem_append_right _ (by rwa [finishHandler_held])

theorem pending_finishHandler {c d : ConnRef} {conn : ConnectionInterface} {out : Option Message}
    (pending : ((s.finishHandler c conn out).server.conn d).Pending) : d = c ∨ (s.server.conn d).Pending := by
  by_cases same : d = c
  · exact Or.inl same
  · simp only [finishHandler, MyCQServer.setConn, Function.update_of_ne same] at pending
    exact Or.inr pending

theorem pending_acceptConnection {c : ConnRef} {clock : UInt64}
    (pending : ((s.server.acceptConnection clock).conn c).Pending) :
    c = s.server.created ∨ (s.server.conn c).Pending := by
  by_cases new : c = s.server.created
  · exact Or.inl new
  · rw [MyCQServer.acceptConnection_conn, if_neg new] at pending
    exact Or.inr pending

theorem HandlersOwned.transfer (owned : HandlersOwned s)
    (pending : ∀ c, (t.server.conn c).Pending →
      (s.server.conn c).Pending ∨ s.Owned c ∨ some c ∈ t.server.connectionsQueue)
    (entries : ∀ entry ∈ s.server.connectionsQueue, entry ∈ t.server.connectionsQueue)
    (messages : ∀ m ∈ s.server.inMsgQueue ++ s.thread.held, m ∈ t.server.inMsgQueue ++ t.thread.held) :
    HandlersOwned t := by
  have kept : ∀ c, s.Owned c → t.Owned c := by
    rintro c (listed | ⟨m, member, remote⟩)
    · exact Or.inl (entries _ listed)
    · exact Or.inr ⟨m, messages m member, remote⟩
  intro c waiting
  rcases pending c waiting with before | holder | listed
  · exact kept c (owned c before)
  · exact kept c holder
  · exact Or.inl listed

theorem HandlersOwned.onMessage (owned : HandlersOwned s) {uninitialized : ClientsListDescription}
    {numMaxMessages msgCount : UInt64} {msg : OwnedMessage} {server : MyCQServer} {calls : List OwnedMessage}
    (other : MyCQMessages.ofUInt32 msg.msg.header.id ≠ some .messageAll)
    (point : s.thread = .received numMaxMessages msgCount msg)
    (ran : s.server.onMessage order uninitialized msg.remote msg.msg = .ok server) :
    HandlersOwned { s with server, thread := .handled numMaxMessages msgCount msg, calls } := by
  have held : s.thread.held = [msg] := by rw [point]; rfl
  have inHand : msg ∈ s.thread.held := held ▸ List.mem_singleton.mpr rfl
  have handled := MyCQServer.handled_of_onMessage ran
  obtain ⟨out, delivers, sent, queue⟩ := handled.delivers
  rw [if_neg other] at queue
  refine owned.operate delivers held.symm (fun d m member => ?_) fun d listed => queue ▸ listed
  rcases (sent d m member).recipient with requester | ⟨listed, _⟩
  · exact Or.inl ⟨msg, List.mem_append_right _ inHand, requester⟩
  · exact Or.inr (queue ▸ listed)

theorem HandlersOwned.sendMessageToClient (owned : HandlersOwned s) {client : Option ConnRef} {msg : Message}
    {server : MyCQServer} (held : ∀ d, client = some d → s.Owned d)
    (ran : s.server.sendMessageToClient client msg = .ok server) : HandlersOwned { s with server } := by
  obtain ⟨out, delivers, sent, queue⟩ := MyCQServer.sendMessageToClient_ok ran
  have kept : ∀ d, some d ∈ s.server.connectionsQueue → some d ∈ server.connectionsQueue := by
    intro d listed
    rcases queue with same | filtered
    · rwa [same]
    · rw [filtered]
      exact List.mem_filter.mpr ⟨listed, rfl⟩
  refine owned.operate delivers rfl (fun d m member => ?_) kept
  rcases held d (sent d m member).2.1 with listed | message
  · exact Or.inr (kept d listed)
  · exact Or.inl message

theorem HandlersOwned.step (owned : HandlersOwned s) (letsGo : a = .endIteration → s.LetsGo)
    (begun : Interleaved.begins order s a = none) (taken : s.step order a = some t) : HandlersOwned t := by
  cases step_cases taken with
  | accept clock =>
    refine owned.transfer (fun c pending => ?_) (fun entry listed => List.mem_append_left _ listed)
      fun m member => member
    rcases pending_acceptConnection pending with rfl | before
    · exact Or.inr (Or.inr (List.mem_append_right _ (List.mem_singleton.mpr rfl)))
    · exact Or.inl before
  | handler c h conn out ran held =>
    intro d pending
    rcases pending_finishHandler pending with rfl | before
    · exact owned_finishHandler held
    · exact owned_finishHandler (owned d before)
  | dangling => exact owned
  | moves _ thread moved =>
    refine owned.transfer (fun c pending => Or.inl pending) (fun entry listed => listed) fun m member => ?_
    have none : s.thread.held = [] := by
      generalize s.thread = before at moved
      cases moved <;> rfl
    rw [none, List.append_nil] at member
    exact List.mem_append_left _ member
  | emptyPop => exact owned
  | popFront numMaxMessages msgCount msg rest point queue =>
    refine owned.transfer (fun c pending => Or.inl pending) (fun entry listed => listed) fun m member => ?_
    have none : s.thread.held = [] := by rw [point]; rfl
    rw [queue, none, List.append_nil] at member
    rcases List.mem_cons.mp member with rfl | later
    · exact List.mem_append_right _ (List.mem_singleton.mpr rfl)
    · exact List.mem_append_left _ later
  | onMessage uninitialized numMaxMessages msgCount msg server point ran =>
    simp only [Interleaved.begins, point, Option.map_eq_none_iff] at begun
    exact owned.onMessage (MyCQServer.not_messageAll_of_broadcastOf begun ran) point ran
  | onMessageFault uninitialized numMaxMessages msgCount msg fault point =>
    refine owned.transfer (fun c pending => Or.inl pending) (fun entry listed => listed) fun m member => ?_
    rw [point] at member
    exact member
  | endIteration numMaxMessages msgCount msg point =>
    intro c pending
    rcases owned c pending with listed | ⟨m, member, remote⟩
    · exact Or.inl listed
    · rcases List.mem_append.mp member with queued | inHand
      · exact Or.inr ⟨m, List.mem_append_left _ queued, remote⟩
      · rcases letsGo rfl m inHand c remote pending with listed | ⟨m', queued, remote'⟩
        · exact Or.inl listed
        · exact Or.inr ⟨m', List.mem_append_left _ queued, remote'⟩
  | sendMessageToAllClients msg ignoreClient server point =>
    rw [Interleaved.begins, if_pos point] at begun
    cases begun
  | sendMessageToClient client msg server point held ran => exact owned.sendMessageToClient held ran
  | sendFault => exact owned

end System

namespace Interleaved

variable {order : Endian} {idCounter : UInt32} {p q : Interleaved} {a : Action} {b : BroadcastCall}

def HandlersOwned (p : Interleaved) : Prop := ∀ c, (p.server.conn c).Pending → p.Owned c

/-- The entry that is reset, or the parameter of the call that returns, is not the last reference to a connection
with pending handlers. -/
def PassLetsGo (p : Interleaved) (b : BroadcastCall) : Prop :=
  match b.tested with
  | some true => True
  | some false => ∀ d ∈ p.server.connectionsQueue.getD b.connIt none, (p.server.conn d).Pending →
      p.toSystem.Mentioned d ∨ b.ignoreClient = some d
  | none => b.last ≤ b.connIt → ∀ d ∈ b.ignoreClient, (p.server.conn d).Pending → p.toSystem.Owned d

/-- No step drops the last reference to a connection with pending handlers. -/
def ReleasesIdle (p : Interleaved) : Action → Prop
  | .pass => ∀ b ∈ p.broadcast, p.PassLetsGo b
  | .system .endIteration => p.toSystem.LetsGo
  | .system _ => True

instance (p : Interleaved) : (b : BroadcastCall) → Decidable (p.PassLetsGo b)
  | ⟨_, _, _, _, some true, _⟩ => isTrue trivial
  | ⟨_, ignoreClient, connIt, _, some false, _⟩ =>
    inferInstanceAs (Decidable (∀ d ∈ p.server.connectionsQueue.getD connIt none, (p.server.conn d).Pending →
      p.toSystem.Mentioned d ∨ ignoreClient = some d))
  | ⟨_, ignoreClient, connIt, last, none, _⟩ =>
    inferInstanceAs (Decidable (last ≤ connIt → ∀ d ∈ ignoreClient, (p.server.conn d).Pending → p.toSystem.Owned d))

instance (p : Interleaved) : (a : Action) → Decidable (p.ReleasesIdle a)
  | .pass => inferInstanceAs (Decidable (∀ b ∈ p.broadcast, p.PassLetsGo b))
  | .system .endIteration => inferInstanceAs (Decidable p.toSystem.LetsGo)
  | .system (.accept _) | .system (.handler _ _) | .system (.update _ _) | .system .waitReturns | .system .seesEmpty
  | .system .block | .system .spuriousWakeUp | .system .test | .system .popFront | .system (.onMessage _)
  | .system (.sendMessageToAllClients _ _) | .system (.sendMessageToClient _ _) => isTrue trivial

theorem HandlersOwned.transfer (owned : HandlersOwned p)
    (pending : ∀ c, (q.server.conn c).Pending → (p.server.conn c).Pending ∨ q.Owned c)
    (kept : ∀ c, (p.server.conn c).Pending → p.Owned c → q.Owned c) : HandlersOwned q := by
  intro c waiting
  rcases pending c waiting with before | holder
  · exact kept c before (owned c before)
  · exact holder

theorem Owned.mono {c : ConnRef} (owned : p.Owned c) (system : p.toSystem.Owned c → q.toSystem.Owned c)
    (call : ∀ b ∈ p.broadcast, ∃ b' ∈ q.broadcast, b'.ignoreClient = b.ignoreClient) : q.Owned c := by
  rcases owned with holder | ⟨b, running, ignored⟩
  · exact Or.inl (system holder)
  · obtain ⟨b', running', same⟩ := call b running
    exact Or.inr ⟨b', running', same.trans ignored⟩

theorem mem_of_getD {entries : List (Option ConnRef)} {c : ConnRef} {i : Nat} (found : entries.getD i none = some c) :
    some c ∈ entries := by
  have bound : i < entries.length := by
    refine Nat.lt_of_not_le fun past => ?_
    rw [List.getD_eq_getElem?_getD, List.getElem?_eq_none past] at found
    cases found
  rw [List.getD_eq_getElem?_getD, List.getElem?_eq_getElem bound, Option.getD_some] at found
  exact List.mem_of_getElem found

theorem mem_set_none {entries : List (Option ConnRef)} {c : ConnRef} {i : Nat} (listed : some c ∈ entries)
    (other : entries.getD i none ≠ some c) : some c ∈ entries.set i none := by
  obtain ⟨j, bound, found⟩ := List.mem_iff_getElem.mp listed
  have apart : i ≠ j := by
    rintro rfl
    rw [List.getD_eq_getElem?_getD, List.getElem?_eq_getElem bound, Option.getD_some] at other
    exact other found
  refine List.mem_iff_getElem.mpr ⟨j, by rwa [List.length_set], ?_⟩
  rw [List.getElem_set_ne apart]
  exact found

theorem visit_cases {s server : MyCQServer} {isOpen : Bool} (visited : s.visit b isOpen = .ok server) :
    isOpen = true ∧ server = s ∨
    (∃ c, s.connectionsQueue.getD b.connIt none = some c ∧ server = s.sendData c b.msg) ∨
    isOpen = false ∧ server.conn = s.conn ∧ server.inMsgQueue = s.inMsgQueue ∧
      server.connectionsQueue = s.connectionsQueue.set b.connIt none := by
  unfold MyCQServer.visit at visited
  cases isOpen with
  | true =>
    dsimp only at visited
    rw [if_pos rfl] at visited
    split at visited
    · obtain ⟨c, found, sent⟩ := bind_eq_ok visited
      cases sent
      exact Or.inr (Or.inl ⟨c, MyCQServer.deref_ok found, rfl⟩)
    · cases visited
      exact Or.inl ⟨rfl, rfl⟩
  | false =>
    obtain ⟨hooked, hook, reset⟩ := bind_eq_ok visited
    obtain ⟨c, _, rfl⟩ := MyCQServer.onClientDisconnect_ok hook
    cases reset
    exact Or.inr (Or.inr ⟨rfl, rfl, rfl, rfl⟩)

theorem HandlersOwned.sends (owned : HandlersOwned p) {after : BroadcastCall} {c : ConnRef}
    (running : p.broadcast = some b) (same : after.ignoreClient = b.ignoreClient)
    (found : p.server.connectionsQueue.getD b.connIt none = some c) :
    HandlersOwned { p with server := p.server.sendData c b.msg, broadcast := some after } := by
  have delivers := MyCQServer.delivers_sendData p.server c b.msg
  refine owned.transfer (fun d pending => ?_) fun d _ holder =>
    holder.mono id fun b' running' => ⟨after, rfl, by rw [same, Option.some.inj (running.symm.trans running')]⟩
  dsimp only at pending
  rw [delivers.conn, ConnectionInterface.pending_sendAll] at pending
  rcases pending with before | sent
  · exact Or.inl before
  · obtain rfl : d = c := Decidable.of_not_not fun other => sent (if_neg other)
    exact Or.inr (Or.inl (Or.inl (mem_of_getD found)))

/-- The connection whose entry is reset is idle, or something else refers to it. -/
theorem HandlersOwned.resets (owned : HandlersOwned p) {after : BroadcastCall} {server : MyCQServer}
    (running : p.broadcast = some b) (same : after.ignoreClient = b.ignoreClient) (conn : server.conn = p.server.conn)
    (queue : server.inMsgQueue = p.server.inMsgQueue)
    (entries : server.connectionsQueue = p.server.connectionsQueue.set b.connIt none)
    (letsGo : ∀ d ∈ p.server.connectionsQueue.getD b.connIt none, (p.server.conn d).Pending →
      p.toSystem.Mentioned d ∨ b.ignoreClient = some d) :
    HandlersOwned { p with server, broadcast := some after } := by
  have mentioned : ∀ d, p.toSystem.Mentioned d → System.Owned { p.toSystem with server } d := by
    intro d mention
    rw [System.Owned, queue]
    exact Or.inr mention
  refine owned.transfer (fun d pending => Or.inl (conn ▸ pending)) fun d pending holder => ?_
  rcases holder with (listed | mention) | ⟨b', running', ignored⟩
  · by_cases reset : p.server.connectionsQueue.getD b.connIt none = some d
    · rcases letsGo d reset pending with mention | ignored
      · exact Or.inl (mentioned d mention)
      · exact Or.inr ⟨after, rfl, same.trans ignored⟩
    · exact Or.inl (Or.inl (entries ▸ mem_set_none listed reset))
  · exact Or.inl (mentioned d mention)
  · cases running.symm.trans running'
    exact Or.inr ⟨after, rfl, same.trans ignored⟩

theorem HandlersOwned.returns (owned : HandlersOwned p) {entries : List (Option ConnRef)}
    (running : p.broadcast = some b)
    (same : entries = p.server.connectionsQueue ∨ entries = p.server.connectionsQueue.filter (· ≠ none))
    (letsGo : ∀ d ∈ b.ignoreClient, (p.server.conn d).Pending → p.toSystem.Owned d) :
    HandlersOwned { p with server := { p.server with connectionsQueue := entries }, broadcast := none } := by
  have kept : ∀ c, some c ∈ p.server.connectionsQueue → some c ∈ entries := by
    intro c listed
    rcases same with rfl | rfl
    · exact listed
    · exact List.mem_filter.mpr ⟨listed, rfl⟩
  refine owned.transfer (fun c pending => Or.inl pending) fun c pending holder => Or.inl ?_
  have before : p.toSystem.Owned c := by
    rcases holder with holder | ⟨b', running', ignored⟩
    · exact holder
    · cases running.symm.trans running'
      exact letsGo c ignored pending
  exact before.imp (kept c) id

theorem HandlersOwned.step (owned : HandlersOwned p) (idle : ReleasesIdle p a) (taken : p.step order a = some q) :
    HandlersOwned q := by
  cases step_cases taken with
  | accept clock =>
    refine owned.transfer (fun c pending => ?_) fun c _ holder =>
      holder.mono (fun holder => ?_) fun b running => ⟨b, running, rfl⟩
    · rcases System.pending_acceptConnection pending with rfl | before
      · exact Or.inr (Or.inl (Or.inl (List.mem_append_right _ (List.mem_singleton.mpr rfl))))
      · exact Or.inl before
    · exact holder.imp (fun listed => List.mem_append_left _ listed) id
  -- A handler that runs belongs to an owned connection.
  | handler c h conn out ran held =>
    have kept : ∀ d, p.Owned d → Interleaved.Owned { p with toSystem := p.toSystem.finishHandler c conn out } d :=
      fun d holder => holder.mono System.owned_finishHandler fun b running => ⟨b, running, rfl⟩
    intro d pending
    rcases System.pending_finishHandler pending with rfl | before
    · exact kept d held
    · exact kept d (owned d before)
  | dangling => exact owned
  | begin a s b none begun =>
    obtain ⟨msg, ignoreClient, _, same, held, _⟩ := begins_cases begun
    intro c pending
    rw [same] at pending
    refine (owned c pending).mono (fun holder => ?_) fun b running => ?_
    · rw [System.Owned, same, held]
      exact holder
    · rw [none] at running
      cases running
  | system a s none begun ran =>
    obtain ⟨system, broadcast⟩ := p
    subst none
    have alone : System.HandlersOwned system := fun c pending => owned_of_idle.mp (owned c pending)
    intro c pending
    refine owned_of_idle.mpr (alone.step (fun ends => ?_) begun ran c pending)
    subst ends
    exact idle
  | test b running =>
    exact owned.transfer (fun c pending => Or.inl pending) fun c _ holder =>
      holder.mono id fun b' running' => ⟨_, rfl, by rw [Option.some.inj (running.symm.trans running')]⟩
  | finish b entries running untested last same =>
    have letsGo := idle b running
    rw [PassLetsGo, untested] at letsGo
    exact owned.returns running same (letsGo last)
  | visit b after isOpen server running tested visited same =>
    rcases visit_cases visited with ⟨_, rfl⟩ | ⟨c, found, rfl⟩ | ⟨rfl, conn, queue, entries⟩
    · exact owned.transfer (fun d pending => Or.inl pending) fun d _ holder =>
        holder.mono id fun b' running' => ⟨after, rfl, by rw [same, Option.some.inj (running.symm.trans running')]⟩
    · exact owned.sends running same found
    · have letsGo := idle b running
      rw [PassLetsGo, tested] at letsGo
      exact owned.resets running same conn queue entries letsGo
  | visitFault b after fault running same =>
    exact owned.transfer (fun c pending => Or.inl pending) fun c _ holder =>
      holder.mono id fun b' running' => ⟨after, rfl, by rw [same, Option.some.inj (running.symm.trans running')]⟩

/-- Handlers are owned in every state of a run that releases only idle connections. -/
theorem handlers_owned (run : Transition.Run (step order) ReleasesIdle (start idCounter) p) : HandlersOwned p := by
  refine run.invariant (fun c pending => ?_) fun _ _ _ owned idle taken => owned.step idle taken
  rcases pending with posted | reads | writes | connecting
  · exact absurd rfl posted
  · exact absurd rfl reads
  · exact absurd rfl writes
  · cases connecting

/-- A connection fails while a broadcast sends to the other one; its last handlers run before its entry is reset. -/
def drainedRun : List Action :=
  [.system (.accept 7), .system (.accept 8), .system (.handler 1 .posted),
    .system (.sendMessageToAllClients (.ofId 0) none), .pass, .pass,
    .system (.handler 1 (.readFailed .checkValidation [])), .pass,
    .system (.handler 1 (.writeFailed (.validationData 8))), .system (.handler 1 (.writeFailed (.header ⟨4, 0⟩))),
    .pass, .pass]

theorem drainedRun_meets : Transition.Meets (step .little) ReleasesIdle (start 0) drainedRun := by
  decide +kernel

theorem handlers_owned_drainedRun :
    HandlersOwned ((Transition.perform (step .little) (start 0) drainedRun).get (by decide +kernel)) :=
  handlers_owned (.of_perform drainedRun _ drainedRun_meets (Option.some_get _).symm)

def saysToAll : List Action :=
  [.system (.accept 7), .system (.accept 8),
    .system (.handler 0 (.readOk .checkValidation (CArray.ofUInt64 .little (encryptHandshakeData 7)).toList)),
    .system (.handler 0 (.readOk .header ((MessageHeader.mk 0 2056).bytes .little).toList)),
    .system (.handler 0 (.readOk (.payload 2056) (List.replicate 2056 65))),
    .system (.update 1 true), .system .waitReturns, .system .test, .system .popFront]

/-- The read on the second connection fails before the broadcast; its challenge is still being written when its entry
is reset. -/
def prunedWhileWriting : List Action :=
  saysToAll ++ [.system (.handler 1 (.readFailed .checkValidation [])),
    .system (.onMessage ⟨0, 0, .replicate 1000 0⟩), .pass, .pass, .pass, .pass]

/-- The read fails when the message has been passed to the first entry. -/
def prunedDuringLoop : List Action :=
  saysToAll ++ [.system (.onMessage ⟨0, 0, .replicate 1000 0⟩), .pass, .pass,
    .system (.handler 1 (.readFailed .checkValidation [])), .pass, .pass]

def Orphaned (p : Interleaved) : Prop := (p.server.conn 1).socketConnection.writes ≠ [] ∧ ¬ p.Owned 1

instance (p : Interleaved) : Decidable p.Orphaned := inferInstanceAs (Decidable (_ ∧ _))

theorem Orphaned.not_owned (orphaned : p.Orphaned) : ¬ HandlersOwned p := fun owned =>
  orphaned.2 (owned 1 (Or.inr (Or.inr (Or.inl orphaned.1))))

theorem not_owned_of_perform {actions : List Action}
    (ends : (Transition.perform (step .little) (start 0) actions).any (·.Orphaned) = true) :
    ∃ p, Transition.perform (step .little) (start 0) actions = some p ∧
      Transition.Reachable (step .little) (start 0) p ∧ ¬ HandlersOwned p := by
  obtain ⟨p, done, orphaned⟩ := (Option.any_eq_true _ _).mp ends
  exact ⟨p, done, .of_perform actions _ done, (of_decide_eq_true orphaned).not_owned⟩

theorem pruned_with_pending_write :
    (∃ p, Transition.perform (step .little) (start 0) prunedWhileWriting = some p ∧
      Transition.Reachable (step .little) (start 0) p ∧ ¬ HandlersOwned p) ∧
    ∃ p, Transition.perform (step .little) (start 0) prunedDuringLoop = some p ∧
      Transition.Reachable (step .little) (start 0) p ∧ ¬ HandlersOwned p :=
  ⟨not_owned_of_perform (by decide +kernel), not_owned_of_perform (by decide +kernel)⟩

end Interleaved
end MyCQ
