import MyCQ.App.Server.Requests
import MyCQ.App.System.Steps

/-! The running server, with a broadcast one entry at a time.

The loop of `sendMessageToAllClients` runs on the update thread, and the
handlers of the io thread may run between its tests, its sends and its resets.
A broadcast that is left alone does what it does in the one step of `System`.
-/

set_option autoImplicit false

namespace MyCQ
open Octets (Endian)
open ConnectionInterface (Handler)

/-- A running call of `sendMessageToAllClients`. -/
structure BroadcastCall where
  msg : Message
  ignoreClient : Option ConnRef
  -- Positions stand for the iterators of the loop, which fetches the end once.
  connIt : Nat
  last : Nat
  -- What the condition on the entry was found to be, until the loop acts on it.
  tested : Option Bool
  invalidClientExistFlag : Bool
  deriving DecidableEq, Repr

def BroadcastCall.call (msg : Message) (ignoreClient : Option ConnRef) (entries : List (Option ConnRef)) :
    BroadcastCall := ⟨msg, ignoreClient, 0, entries.length, none, false⟩

namespace MyCQServer

/-- The message for which `onMessage` calls `sendMessageToAllClients`, if it gets there. -/
def broadcastOf (order : Endian) (s : MyCQServer) (client : Option ConnRef) (msgInput : Message) : Option Message :=
  if MyCQMessages.ofUInt32 msgInput.header.id = some .messageAll then
    match client, msgInput.pop MessageAllDescription.sizeof with
    | some c, some (bytes, _) => some (s.messageAllReply order c bytes)
    | _, _ => none
  else none

def visit (s : MyCQServer) (b : BroadcastCall) (isOpen : Bool) : Except Fault MyCQServer :=
  let connIt := s.connectionsQueue.getD b.connIt none
  if isOpen then
    if connIt ≠ b.ignoreClient then do
      let c ← deref connIt
      .ok (s.sendData c b.msg)
    else .ok s
  else do
    let s ← s.onClientDisconnect connIt
    .ok { s with connectionsQueue := s.connectionsQueue.set b.connIt none }

variable {order : Endian} {s t : MyCQServer} {client : Option ConnRef} {msgInput msg : Message}

theorem onMessage_of_broadcastOf (found : s.broadcastOf order client msgInput = some msg)
    (uninitialized : ClientsListDescription) :
    s.onMessage order uninitialized client msgInput = s.sendMessageToAllClients msg client := by
  unfold broadcastOf at found
  split at found
  · next known =>
    split at found
    · next c bytes rest popped =>
      cases found
      simp only [onMessage, known, extract, popped, deref, bind, Except.bind, messageAllReply]
    · cases found
  · cases found

theorem not_messageAll_of_broadcastOf {uninitialized : ClientsListDescription}
    (found : s.broadcastOf order client msgInput = none)
    (ran : s.onMessage order uninitialized client msgInput = .ok t) :
    MyCQMessages.ofUInt32 msgInput.header.id ≠ some .messageAll := by
  intro known
  obtain ⟨c, bytes, rest, rfl, popped, _⟩ := (handled_of_onMessage ran).of_messageAll known
  simp only [broadcastOf, known, popped, if_true] at found
  cases found

end MyCQServer

structure Interleaved extends System where
  broadcast : Option BroadcastCall

namespace Interleaved

def start (idCounter : UInt32) : Interleaved := ⟨.start idCounter, none⟩

def Owned (p : Interleaved) (c : ConnRef) : Prop :=
  p.toSystem.Owned c ∨ ∃ b ∈ p.broadcast, b.ignoreClient = some c

instance (p : Interleaved) (c : ConnRef) : Decidable (p.Owned c) := inferInstanceAs (Decidable (_ ∨ _))

inductive Action where
  | system (a : System.Action)
  | pass
  deriving DecidableEq, Repr

/-- The call of `sendMessageToAllClients` that an action begins. -/
def begins (order : Endian) (s : System) : System.Action → Option (System × BroadcastCall)
  | .onMessage _ =>
    match s.thread with
    | .received numMaxMessages msgCount msg =>
      (s.server.broadcastOf order msg.remote msg.msg).map fun m =>
        ({ s with thread := .handled numMaxMessages msgCount msg, calls := s.calls ++ [msg] },
          .call m msg.remote s.server.connectionsQueue)
    | _ => none
  | .sendMessageToAllClients msg ignoreClient =>
    if s.thread = .outside then some (s, .call msg ignoreClient s.server.connectionsQueue) else none
  | _ => none

def enter (order : Endian) (p : Interleaved) (a : System.Action) : Option Interleaved :=
  match p.broadcast, begins order p.toSystem a with
  | some _, _ => none
  | none, some (s, b) => some ⟨s, some b⟩
  | none, none => (p.toSystem.step order a).map fun s => ⟨s, none⟩

def pass (p : Interleaved) (b : BroadcastCall) : Interleaved :=
  match b.tested with
  | none =>
    if b.connIt < b.last then
      { p with broadcast := some { b with
          tested := some (p.server.live (p.server.connectionsQueue.getD b.connIt none)) } }
    else
      let entries := p.server.connectionsQueue
      { p with
        server := { p.server with
          connectionsQueue := if b.invalidClientExistFlag then entries.filter (· ≠ none) else entries }
        broadcast := none }
  | some isOpen =>
    { toSystem := p.toSystem.settle (p.server.visit b isOpen)
      broadcast := some { b with
        connIt := b.connIt + 1
        tested := none
        invalidClientExistFlag := b.invalidClientExistFlag || !isOpen } }

def act (order : Endian) (p : Interleaved) : Action → Option Interleaved
  -- The handlers of the io thread run at any time.
  | .system (.accept clock) =>
    some { p with server := p.server.acceptConnection clock, challenges := p.challenges ++ [clock] }
  | .system (.handler c h) =>
    match (p.server.conn c).runHandler order h with
    | none => none
    | some (conn, out) =>
      if p.Owned c then some { p with toSystem := p.toSystem.finishHandler c conn out }
      else some { p with fault := some .useAfterFree }
  | .system a => p.enter order a
  | .pass => p.broadcast.map p.pass

def step (order : Endian) (p : Interleaved) (a : Action) : Option Interleaved :=
  match p.fault with
  | some _ => none
  | none => p.act order a

inductive StepCases (order : Endian) (p : Interleaved) : Action → Interleaved → Prop where
  | accept (clock : UInt64) : StepCases order p (.system (.accept clock))
      { p with server := p.server.acceptConnection clock, challenges := p.challenges ++ [clock] }
  | handler (c : ConnRef) (h : Handler) (conn : ConnectionInterface) (out : Option Message) :
      (p.server.conn c).runHandler order h = some (conn, out) → p.Owned c →
      StepCases order p (.system (.handler c h)) { p with toSystem := p.toSystem.finishHandler c conn out }
  | dangling (c : ConnRef) (h : Handler) : ¬ p.Owned c →
      StepCases order p (.system (.handler c h)) { p with fault := some .useAfterFree }
  | begin (a : System.Action) (s : System) (b : BroadcastCall) : p.broadcast = none →
      begins order p.toSystem a = some (s, b) → StepCases order p (.system a) ⟨s, some b⟩
  | system (a : System.Action) (s : System) : p.broadcast = none → begins order p.toSystem a = none →
      p.toSystem.step order a = some s → StepCases order p (.system a) ⟨s, none⟩
  | test (b : BroadcastCall) : p.broadcast = some b → b.tested = none → b.connIt < b.last →
      StepCases order p .pass { p with broadcast := some { b with
        tested := some (p.server.live (p.server.connectionsQueue.getD b.connIt none)) } }
  | finish (b : BroadcastCall) (entries : List (Option ConnRef)) : p.broadcast = some b → b.tested = none →
      b.last ≤ b.connIt →
      entries = p.server.connectionsQueue ∨ entries = p.server.connectionsQueue.filter (· ≠ none) →
      StepCases order p .pass
        { p with server := { p.server with connectionsQueue := entries }, broadcast := none }
  | visit (b after : BroadcastCall) (isOpen : Bool) (server : MyCQServer) : p.broadcast = some b →
      b.tested = some isOpen → p.server.visit b isOpen = .ok server → after.ignoreClient = b.ignoreClient →
      StepCases order p .pass { p with server, broadcast := some after }
  | visitFault (b after : BroadcastCall) (fault : Fault) : p.broadcast = some b →
      after.ignoreClient = b.ignoreClient →
      StepCases order p .pass { p with fault := some fault, broadcast := some after }

variable {order : Endian} {idCounter : UInt32} {p q : Interleaved} {s t : System} {a : Action}

theorem begins_cases {a : System.Action} {b : BroadcastCall} (begun : begins order s a = some (t, b)) :
    ∃ msg ignoreClient, b = .call msg ignoreClient s.server.connectionsQueue ∧ t.server = s.server ∧
      t.thread.held = s.thread.held ∧ t.fault = s.fault ∧
        s.act order a = some (t.settle (t.server.sendMessageToAllClients msg ignoreClient)) := by
  cases a with
  | onMessage uninitialized =>
    simp only [begins] at begun
    split at begun
    · next msg point =>
      obtain ⟨m, found, same⟩ := Option.map_eq_some_iff.mp begun
      cases same
      refine ⟨m, msg.remote, rfl, rfl, by rw [point]; rfl, rfl, ?_⟩
      simp only [System.act, point, MyCQServer.onMessage_of_broadcastOf found]
    · cases begun
  | sendMessageToAllClients msg ignoreClient =>
    simp only [begins] at begun
    obtain ⟨point, same⟩ := Option.ite_none_right_eq_some.mp begun
    cases same
    exact ⟨msg, ignoreClient, rfl, rfl, rfl, rfl, by simp only [System.act, point]⟩
  | _ => cases begun

theorem enter_cases {a : System.Action} (entered : p.enter order a = some q) : StepCases order p (.system a) q := by
  unfold enter at entered
  split at entered
  · cases entered
  · next b idle begun =>
    cases entered
    exact .begin a _ b idle begun
  · next idle begun =>
    obtain ⟨s, taken, rfl⟩ := Option.map_eq_some_iff.mp entered
    exact .system a s idle begun taken

theorem pass_cases {b : BroadcastCall} (running : p.broadcast = some b) : StepCases order p .pass (p.pass b) := by
  unfold pass
  split
  · next untested =>
    split
    · next more => exact .test b running untested more
    · next last =>
      refine .finish b _ running untested (Nat.le_of_not_lt last) ?_
      split
      · exact Or.inr rfl
      · exact Or.inl rfl
  · next isOpen tested =>
    cases visited : p.server.visit b isOpen with
    | ok server => exact .visit b _ isOpen server running tested visited rfl
    | error fault => exact .visitFault b _ fault running rfl

theorem step_cases (taken : p.step order a = some q) : StepCases order p a q := by
  unfold step at taken
  split at taken
  · cases taken
  cases a with
  | pass =>
    obtain ⟨b, running, rfl⟩ := Option.map_eq_some_iff.mp taken
    exact pass_cases running
  | system a =>
    cases a with
    | accept clock =>
      cases taken
      exact .accept clock
    | handler c h =>
      simp only [act] at taken
      split at taken
      · cases taken
      · next conn out ran =>
        split at taken
        · next owned =>
          cases taken
          exact .handler c h conn out ran owned
        · next unowned =>
          cases taken
          exact .dangling c h unowned
    | _ => exact enter_cases taken

theorem passes_entry {msg : Message} {ignoreClient connIt entry : Option ConnRef} {done todo : List (Option ConnRef)}
    {server after : MyCQServer} {last : Nat} {isOpen flag invalid : Bool} (clear : s.fault = none)
    (more : done.length < last) (found : server.live connIt = isOpen) (marks : (flag || !isOpen) = invalid)
    (visited : { server with connectionsQueue := done ++ connIt :: todo : MyCQServer }.visit
      ⟨msg, ignoreClient, done.length, last, some isOpen, flag⟩ isOpen =
        .ok { after with connectionsQueue := done ++ entry :: todo }) :
    Transition.Reachable (step order)
      ⟨{ s with server := { server with connectionsQueue := done ++ connIt :: todo } },
        some ⟨msg, ignoreClient, done.length, last, none, flag⟩⟩
      ⟨{ s with server := { after with connectionsQueue := done ++ entry :: todo } },
        some ⟨msg, ignoreClient, (done ++ [entry]).length, last, none, invalid⟩⟩ := by
  have here : (done ++ connIt :: todo).getD done.length none = connIt := by simp
  have tests : step order
      ⟨{ s with server := { server with connectionsQueue := done ++ connIt :: todo } },
        some ⟨msg, ignoreClient, done.length, last, none, flag⟩⟩ .pass = some
      ⟨{ s with server := { server with connectionsQueue := done ++ connIt :: todo } },
        some ⟨msg, ignoreClient, done.length, last, some isOpen, flag⟩⟩ := by
    subst found
    simp only [step, clear, act, Option.map_some, pass, if_pos more, here]
    rfl
  refine (Transition.Run.start.next trivial tests).next (a := .pass) trivial ?_
  simp only [step, clear, act, Option.map_some, pass, visited, System.settle, marks, List.length_append,
    List.length_singleton]

/-- By induction on the entries that are left; those before them are as the loop has left them. -/
theorem passes_loop {msg : Message} {ignoreClient : Option ConnRef} {todo rest : List (Option ConnRef)}
    {server after : MyCQServer} {invalid : Bool}
    (ran : MyCQServer.broadcastLoop msg ignoreClient todo server = .ok (after, rest, invalid))
    (clear : s.fault = none) (flag : Bool) (done : List (Option ConnRef)) {last : Nat}
    (long : done.length + todo.length = last) :
    Transition.Reachable (step order)
      ⟨{ s with server := { server with connectionsQueue := done ++ todo } },
        some ⟨msg, ignoreClient, done.length, last, none, flag⟩⟩
      ⟨{ s with server := { after with connectionsQueue := done ++ rest } },
        some ⟨msg, ignoreClient, last, last, none, flag || invalid⟩⟩ := by
  induction todo generalizing server rest invalid flag done with
  | nil =>
    cases ran
    rw [← long, Bool.or_false]
    exact .start
  | cons connIt todo ih =>
    rw [List.length_cons] at long
    have more : done.length < last := by omega
    have here : (done ++ connIt :: todo).getD done.length none = connIt := by simp
    simp only [MyCQServer.broadcastLoop] at ran
    split at ran
    · next c found =>
      obtain ⟨rfl, isOpen⟩ := Option.filter_eq_some_iff.mp found
      obtain ⟨⟨after, others, invalid⟩, looped, built⟩ := bind_eq_ok ran
      cases built
      have live : server.live (some c) = true := isOpen
      have onward := ih looped flag (done ++ [some c]) (by rw [List.length_append, List.length_singleton]; omega)
      rw [List.append_assoc, List.append_assoc] at onward
      refine (passes_entry clear more live (Bool.or_false flag) ?_).trans onward
      simp only [MyCQServer.visit, here, if_true]
      split
      · rfl
      · rfl
    · next found =>
      obtain ⟨hooked, hook, ran⟩ := bind_eq_ok ran
      obtain ⟨c, rfl, rfl⟩ := MyCQServer.onClientDisconnect_ok hook
      obtain ⟨⟨after, others, invalid⟩, looped, built⟩ := bind_eq_ok ran
      cases built
      have closed : server.live (some c) = false := by simpa [Option.filter, MyCQServer.live] using found
      have onward := ih looped true (done ++ [none]) (by rw [List.length_append, List.length_singleton]; omega)
      rw [List.append_assoc, List.append_assoc, Bool.true_or] at onward
      rw [Bool.or_true]
      refine (passes_entry clear more closed (Bool.or_true flag) ?_).trans onward
      simp [MyCQServer.visit, MyCQServer.onClientDisconnect, MyCQServer.deref, bind, Except.bind]

theorem passes_broadcast {msg : Message} {ignoreClient : Option ConnRef} {server : MyCQServer} (clear : s.fault = none)
    (ran : s.server.sendMessageToAllClients msg ignoreClient = .ok server) :
    Transition.Reachable (step order) ⟨s, some (.call msg ignoreClient s.server.connectionsQueue)⟩
      ⟨{ s with server }, none⟩ := by
  obtain ⟨⟨after, rest, invalid⟩, looped, built⟩ := bind_eq_ok ran
  have passed : Transition.Reachable (step order) _ _ :=
    passes_loop looped clear false [] (Nat.zero_add s.server.connectionsQueue.length)
  rw [List.nil_append, List.nil_append, Bool.false_or] at passed
  refine passed.next (a := .pass) trivial ?_
  simp only [step, clear, act, Option.map_some, pass, Nat.lt_irrefl, if_false]
  dsimp only at built
  split at built
  · next found =>
    cases built
    rw [if_pos found]
  · next found =>
    cases built
    rw [if_neg found]

theorem owned_of_idle {c : ConnRef} : Owned ⟨s, none⟩ c ↔ s.Owned c := by
  simp [Owned]

/-- A step without a broadcast. -/
theorem step_of_system {a : System.Action} (taken : s.step order a = some t) (defined : t.fault = none)
    (begun : begins order s a = none) : step order ⟨s, none⟩ (.system a) = some ⟨t, none⟩ := by
  have clear := System.clear_of_step taken
  cases a with
  | accept clock =>
    rw [System.accept_eq taken]
    simp only [step, clear, act]
  | handler c h =>
    simp only [System.step, clear, System.act] at taken
    split at taken
    · cases taken
    · next conn out ran =>
      split at taken
      · next owned =>
        cases taken
        simp only [step, clear, act, ran, if_pos (owned_of_idle.mpr owned)]
      · cases taken
        cases defined
  | _ => simp only [step, clear, act, enter, begun, taken, Option.map_some]

theorem step_of_begins {a : System.Action} {b : BroadcastCall} (clear : s.fault = none)
    (begun : begins order s a = some (t, b)) : step order ⟨s, none⟩ (.system a) = some ⟨t, some b⟩ := by
  cases a with
  | onMessage | sendMessageToAllClients => simp only [step, clear, act, enter, begun]
  | _ => cases begun

/-- Every step of the server that is defined is made up of such steps. -/
theorem reachable_of_step {a : System.Action} (taken : s.step order a = some t) (defined : t.fault = none) :
    Transition.Reachable (step order) ⟨s, none⟩ ⟨t, none⟩ := by
  have clear := System.clear_of_step taken
  cases begun : begins order s a with
  | none => exact Transition.Run.start.next trivial (step_of_system taken defined begun)
  | some call =>
    obtain ⟨u, b⟩ := call
    obtain ⟨msg, ignoreClient, rfl, same, _, clear', acted⟩ := begins_cases begun
    simp only [System.step, clear, acted, Option.some.injEq] at taken
    have first : Transition.Reachable (step order) ⟨s, none⟩ ⟨u, some (.call msg ignoreClient _)⟩ :=
      Transition.Run.start.next trivial (step_of_begins clear begun)
    cases ran : u.server.sendMessageToAllClients msg ignoreClient with
    | ok server =>
      rw [ran] at taken
      rw [← taken]
      exact first.trans (same ▸ passes_broadcast (clear'.trans clear) ran)
    | error fault =>
      rw [ran] at taken
      rw [← taken] at defined
      cases defined

/-- What is reached in `System` without undefined behaviour is reached here. -/
theorem reachable_of_system (run : Transition.Reachable (System.step order) (.start idCounter) s)
    (defined : s.fault = none) : Transition.Reachable (step order) (start idCounter) ⟨s, none⟩ := by
  induction run with
  | start => exact .start
  | next _ _ taken ih => exact (ih (System.clear_of_step taken)).trans (reachable_of_step taken defined)

end Interleaved
end MyCQ
