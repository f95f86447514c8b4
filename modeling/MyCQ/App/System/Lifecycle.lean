import MyCQ.App.Client.Lifecycle
import MyCQ.App.System.BroadcastOrder

/-! `Start` and `Stop` of the server, and the io thread between them.

`Start` begins to accept and starts the thread that runs the `io_context`. The
accept handler begins to accept again, whatever has become of the connection,
unless the peer is gone before its address is printed. As in the client, nothing
ever restarts a stopped `io_context`.
-/

set_option autoImplicit false

namespace MyCQ
open Octets (Endian)
open ConnectionInterface (Handler)

/-- Where the program's thread is, named after what it does next. -/
inductive StartPoint where
  | outside
  | startThread
  | returnTrue
  | join
  deriving DecidableEq, Repr

structure ServerInterfaceClass where
  system : System
  accepting : Nat
  stopped : Bool
  thrIoServ : IoThread
  point : StartPoint
  -- `ioserv_.stopped()` at each return of `Start` with `true`.
  startReturns : List Bool
  terminated : Bool

namespace ServerInterfaceClass

def start (idCounter : UInt32) : ServerInterfaceClass := ⟨.start idCounter, 0, false, .none, .outside, [], false⟩

inductive Action where
  -- `Start` up to the start of the thread.
  | start
  -- The thread is started, or its constructor throws and `Start` returns `false`.
  | startThread (started : Bool)
  | returnTrue
  | stop
  | join
  -- The accept handler, with a new connection or with an error.
  | accept (clock : UInt64)
  | acceptFails
  -- `remote_endpoint()` throws in the accept handler, and nothing catches it.
  | acceptThrows
  | handler (c : ConnRef) (h : Handler)
  | runReturns
  | program (a : System.Action)
  deriving DecidableEq, Repr

def Runs (s : ServerInterfaceClass) : Prop := s.thrIoServ = .running ∧ s.stopped = false

instance (s : ServerInterfaceClass) : Decidable s.Runs := inferInstanceAs (Decidable (_ ∧ _))

/-- The steps of the system that belong to the io thread. -/
def onIoThread : System.Action → Bool
  | .accept _ | .handler _ _ => true
  | _ => false

def act (order : Endian) (s : ServerInterfaceClass) : Action → Option ServerInterfaceClass
  | .start =>
    if s.point = .outside ∧ s.system.thread = .outside then
      some { s with accepting := s.accepting + 1, point := .startThread }
    else none
  | .startThread started =>
    if s.point = .startThread then
      if started then
        -- A thread that is still joinable cannot be replaced.
        if s.thrIoServ = .none then some { s with thrIoServ := .running, point := .returnTrue }
        else some { s with terminated := true }
      else some { s with point := .outside }
    else none
  | .returnTrue =>
    if s.point = .returnTrue then
      some { s with startReturns := s.startReturns ++ [s.stopped], point := .outside }
    else none
  | .stop =>
    if s.point = .outside ∧ s.system.thread = .outside then some { s with stopped := true, point := .join } else none
  | .join =>
    if s.point = .join ∧ s.thrIoServ ≠ .running then some { s with thrIoServ := .none, point := .outside } else none
  | .accept clock =>
    -- The handler has used up its operation and begins another one.
    if s.Runs ∧ 0 < s.accepting then (s.system.step order (.accept clock)).map fun system => { s with system }
    else none
  | .acceptFails => if s.Runs ∧ 0 < s.accepting then some s else none
  | .acceptThrows => if s.Runs ∧ 0 < s.accepting then some { s with terminated := true } else none
  | .handler c h =>
    if s.Runs then (s.system.step order (.handler c h)).map fun system => { s with system } else none
  | .runReturns =>
    -- Without work, `run()` stops the context itself.
    if s.thrIoServ = .running ∧ (s.stopped = true ∨ s.accepting = 0) then
      some { s with thrIoServ := .finished, stopped := true }
    else none
  | .program a =>
    if s.point = .outside ∧ onIoThread a = false then (s.system.step order a).map fun system => { s with system }
    else none

def step (order : Endian) (s : ServerInterfaceClass) (a : Action) : Option ServerInterfaceClass :=
  if s.terminated then none else s.act order a

inductive StepCases (order : Endian) (s : ServerInterfaceClass) : Action → ServerInterfaceClass → Prop where
  | start : s.point = .outside → StepCases order s .start { s with accepting := s.accepting + 1, point := .startThread }
  | startThread : s.point = .startThread → s.thrIoServ = .none →
      StepCases order s (.startThread true) { s with thrIoServ := .running, point := .returnTrue }
  | terminates : s.thrIoServ ≠ .none → StepCases order s (.startThread true) { s with terminated := true }
  | threadFails : StepCases order s (.startThread false) { s with point := .outside }
  | returnTrue : s.point = .returnTrue →
      StepCases order s .returnTrue { s with startReturns := s.startReturns ++ [s.stopped], point := .outside }
  | stop : StepCases order s .stop { s with stopped := true, point := .join }
  | join : s.point = .join → StepCases order s .join { s with thrIoServ := .none, point := .outside }
  | accept (clock : UInt64) (system : System) : s.Runs → s.system.step order (.accept clock) = some system →
      StepCases order s (.accept clock) { s with system }
  | acceptFails : StepCases order s .acceptFails s
  | acceptThrows : s.Runs → StepCases order s .acceptThrows { s with terminated := true }
  | handler (c : ConnRef) (h : Handler) (system : System) : s.Runs →
      s.system.step order (.handler c h) = some system → StepCases order s (.handler c h) { s with system }
  | runReturns : s.thrIoServ = .running → s.stopped = true ∨ s.accepting = 0 →
      StepCases order s .runReturns { s with thrIoServ := .finished, stopped := true }
  | program (a : System.Action) (system : System) : onIoThread a = false → s.system.step order a = some system →
      StepCases order s (.program a) { s with system }

theorem step_cases {order : Endian} {s t : ServerInterfaceClass} {a : Action} (taken : s.step order a = some t) :
    StepCases order s a t := by
  obtain ⟨_, taken⟩ := Option.ite_none_left_eq_some.mp taken
  cases a with
  | start =>
    obtain ⟨⟨point, _⟩, same⟩ := Option.ite_none_right_eq_some.mp taken
    obtain rfl := Option.some.inj same
    exact .start point
  | startThread started =>
    obtain ⟨point, taken⟩ := Option.ite_none_right_eq_some.mp taken
    cases started with
    | false =>
      obtain rfl := Option.some.inj taken
      exact .threadFails
    | true =>
      by_cases free : s.thrIoServ = .none
      · simp only [if_true, if_pos free, Option.some.injEq] at taken
        exact taken ▸ .startThread point free
      · simp only [if_true, if_neg free, Option.some.injEq] at taken
        exact taken ▸ .terminates free
  | returnTrue =>
    obtain ⟨point, same⟩ := Option.ite_none_right_eq_some.mp taken
    obtain rfl := Option.some.inj same
    exact .returnTrue point
  | stop =>
    obtain ⟨_, same⟩ := Option.ite_none_right_eq_some.mp taken
    obtain rfl := Option.some.inj same
    exact .stop
  | join =>
    obtain ⟨⟨point, _⟩, same⟩ := Option.ite_none_right_eq_some.mp taken
    obtain rfl := Option.some.inj same
    exact .join point
  | accept clock =>
    obtain ⟨⟨runs, _⟩, taken⟩ := Option.ite_none_right_eq_some.mp taken
    obtain ⟨system, ran, rfl⟩ := Option.map_eq_some_iff.mp taken
    exact .accept clock system runs ran
  | acceptFails =>
    obtain ⟨_, same⟩ := Option.ite_none_right_eq_some.mp taken
    obtain rfl := Option.some.inj same
    exact .acceptFails
  | acceptThrows =>
    obtain ⟨⟨runs, _⟩, same⟩ := Option.ite_none_right_eq_some.mp taken
    obtain rfl := Option.some.inj same
    exact .acceptThrows runs
  | handler c h =>
    obtain ⟨runs, taken⟩ := Option.ite_none_right_eq_some.mp taken
    obtain ⟨system, ran, rfl⟩ := Option.map_eq_some_iff.mp taken
    exact .handler c h system runs ran
  | runReturns =>
    obtain ⟨⟨running, done⟩, same⟩ := Option.ite_none_right_eq_some.mp taken
    obtain rfl := Option.some.inj same
    exact .runReturns running done
  | program a =>
    obtain ⟨⟨_, other⟩, taken⟩ := Option.ite_none_right_eq_some.mp taken
    obtain ⟨system, ran, rfl⟩ := Option.map_eq_some_iff.mp taken
    exact .program a system other ran

variable {order : Endian} {idCounter : UInt32} {s t : ServerInterfaceClass} {a : Action}

theorem system_step (taken : s.step order a = some t) :
    t.system = s.system ∨ ∃ b, s.system.step order b = some t.system := by
  cases step_cases taken with
  | accept clock system _ ran => exact Or.inr ⟨_, ran⟩
  | handler c h system _ ran => exact Or.inr ⟨_, ran⟩
  | program b system _ ran => exact Or.inr ⟨b, ran⟩
  | _ => exact Or.inl rfl

/-- Whatever holds in every run of the two threads holds for a server that is started and stopped. -/
theorem system_of_reachable (run : Transition.Reachable (step order) (start idCounter) s) :
    Transition.Reachable (System.step order) (.start idCounter) s.system := by
  refine run.invariant (P := fun s => Transition.Reachable (System.step order) (.start idCounter) s.system) .start
    fun s a t reached _ taken => ?_
  rcases system_step taken with same | ⟨b, ran⟩
  · exact same ▸ reached
  · exact reached.next trivial ran

def NoStop (_ : ServerInterfaceClass) (a : Action) : Prop := a ≠ .stop

instance (s : ServerInterfaceClass) (a : Action) : Decidable (NoStop s a) := inferInstanceAs (Decidable (_ ≠ _))

structure Listening (s : ServerInterfaceClass) : Prop where
  stopped : s.stopped = false
  accepting : s.thrIoServ = .running ∨ s.point = .startThread → 0 < s.accepting
  returning : s.point = .returnTrue → s.thrIoServ = .running
  returned : ∀ stopped ∈ s.startReturns, stopped = false ∧ s.thrIoServ = .running
  point : s.point ≠ .join

theorem Listening.step (listening : Listening s) (noStop : NoStop s a) (taken : s.step order a = some t) :
    Listening t := by
  obtain ⟨stopped, accepting, returning, returned, point⟩ := listening
  cases step_cases taken with
  | start => exact ⟨stopped, fun _ => Nat.succ_pos _, nofun, returned, nofun⟩
  | startThread begun =>
    exact ⟨stopped, fun _ => accepting (Or.inr begun), fun _ => rfl,
      fun b member => ⟨(returned b member).1, rfl⟩, nofun⟩
  | terminates => exact ⟨stopped, accepting, returning, returned, point⟩
  | threadFails =>
    exact ⟨stopped, fun either => accepting (either.imp_right nofun), nofun, returned, nofun⟩
  | returnTrue begun =>
    refine ⟨stopped, fun either => accepting (either.imp_right nofun), nofun, fun b member => ?_, nofun⟩
    rcases List.mem_append.mp member with old | new
    · exact returned b old
    · exact ⟨(List.mem_singleton.mp new).trans stopped, returning begun⟩
  | stop => exact absurd rfl noStop
  | join waits => exact absurd waits point
  | accept => exact ⟨stopped, accepting, returning, returned, point⟩
  | acceptFails => exact ⟨stopped, accepting, returning, returned, point⟩
  | acceptThrows => exact ⟨stopped, accepting, returning, returned, point⟩
  | handler => exact ⟨stopped, accepting, returning, returned, point⟩
  | program => exact ⟨stopped, accepting, returning, returned, point⟩
  | runReturns running done =>
    rcases done with ended | none
    · cases stopped.symm.trans ended
    · exact absurd none (Nat.ne_of_gt (accepting (Or.inl running)))

theorem listening_of_run (run : Transition.Run (step order) NoStop (start idCounter) s) : Listening s :=
  run.invariant ⟨rfl, nofun, nofun, nofun, nofun⟩ fun _ _ _ listening noStop taken =>
    listening.step noStop taken

structure KeepsListening (order : Endian) (s : ServerInterfaceClass) : Prop where
  returned : ∀ stopped ∈ s.startReturns, stopped = false
  accepts : s.startReturns ≠ [] → s.terminated = false → s.system.fault = none → ∀ clock,
    ∃ t, s.step order (.accept clock) = some t ∧ t.system.server.created = s.system.server.created + 1

/-- In every run in which `Stop` is not called. -/
theorem keeps_listening (run : Transition.Run (step order) NoStop (start idCounter) s) : KeepsListening order s where
  returned b member := ((listening_of_run run).returned b member).1
  accepts started alive clear clock := by
    have listening := listening_of_run run
    obtain ⟨b, member⟩ := List.exists_mem_of_ne_nil _ started
    have running := (listening.returned b member).2
    have ready : s.Runs ∧ 0 < s.accepting := ⟨⟨running, listening.stopped⟩, listening.accepting (Or.inl running)⟩
    refine ⟨{ s with system := { s.system with
      server := s.system.server.acceptConnection clock
      challenges := s.system.challenges ++ [clock] } }, ?_, MyCQServer.acceptConnection_created _ _⟩
    simp only [step, alive, Bool.false_eq_true, if_false, act, if_pos ready, System.step, clear, System.act,
      Option.map_some]

def startedServer : List Action :=
  [.start, .startThread true, .acceptFails, .returnTrue, .accept 7, .acceptFails, .accept 8]

theorem keeps_listening_startedServer : KeepsListening .little
    ((Transition.perform (step .little) (start 0) startedServer).get (by decide)) :=
  keeps_listening (.of_perform startedServer (start 0) (by decide) (Option.some_get _).symm)

theorem program_step {system system' : System} {b : System.Action} (other : onIoThread b = false)
    (taken : system.step order b = some system') : system'.server.created = system.server.created ∧
      (∀ c, (system'.server.conn c).socketConnection = (system.server.conn c).socketConnection) ∧
        system'.pushed = system.pushed := by
  have delivered : ∀ {server : MyCQServer} {out : ConnRef → List Message}, system.server.Delivers server out →
      server.created = system.server.created ∧
        ∀ c, (server.conn c).socketConnection = (system.server.conn c).socketConnection := by
    intro server out delivers
    refine ⟨delivers.created, fun c => ?_⟩
    rw [delivers.conn c]
    rfl
  cases System.step_cases taken with
  | accept => cases other
  | handler => cases other
  | onMessage _ _ _ _ _ _ ran =>
    obtain ⟨_, delivers, _⟩ := (MyCQServer.handled_of_onMessage ran).delivers
    exact ⟨(delivered delivers).1, (delivered delivers).2, rfl⟩
  | sendMessageToAllClients _ _ _ _ ran =>
    have delivers := (MyCQServer.sendMessageToAllClients_ok ran).1
    exact ⟨(delivered delivers).1, (delivered delivers).2, rfl⟩
  | sendMessageToClient _ _ _ _ _ ran =>
    obtain ⟨_, delivers, _⟩ := MyCQServer.sendMessageToClient_ok ran
    exact ⟨(delivered delivers).1, (delivered delivers).2, rfl⟩
  | _ => exact ⟨rfl, fun _ => rfl, rfl⟩

/-- What is left of a server that has been stopped in the state `s`. -/
structure StoppedForGood (s t : ServerInterfaceClass) : Prop where
  stopped : t.stopped = true
  created : t.system.server.created = s.system.server.created
  sockets : ∀ c, (t.system.server.conn c).socketConnection = (s.system.server.conn c).socketConnection
  pushed : t.system.pushed = s.system.pushed
  returned : ∃ returns, t.startReturns = s.startReturns ++ returns ∧ ∀ stopped ∈ returns, stopped = true

theorem StoppedForGood.step {u : ServerInterfaceClass} (good : StoppedForGood s t) (taken : t.step order a = some u) :
    StoppedForGood s u := by
  obtain ⟨stopped, created, sockets, pushed, returns, split, all⟩ := good
  cases step_cases taken with
  | returnTrue =>
    refine ⟨stopped, created, sockets, pushed, returns ++ [t.stopped], ?_, fun b member => ?_⟩
    · rw [split, List.append_assoc]
    · rcases List.mem_append.mp member with old | new
      · exact all b old
      · exact (List.mem_singleton.mp new).trans stopped
  | stop => exact ⟨rfl, created, sockets, pushed, returns, split, all⟩
  | runReturns => exact ⟨rfl, created, sockets, pushed, returns, split, all⟩
  | accept clock system runs => cases stopped.symm.trans runs.2
  | handler c h system runs => cases stopped.symm.trans runs.2
  | program b system other ran =>
    obtain ⟨count, same, log⟩ := program_step other ran
    exact ⟨stopped, count.trans created, fun c => (same c).trans (sockets c), log.trans pushed, returns, split, all⟩
  | _ => exact ⟨stopped, created, sockets, pushed, returns, split, all⟩

/-- In every run from a state in which the server has been stopped, whether it is started again or not. -/
theorem stops_for_good (halted : s.stopped = true) (onward : Transition.Reachable (step order) s t) :
    StoppedForGood s t :=
  onward.invariant (P := StoppedForGood s) ⟨halted, rfl, fun _ => rfl, rfl, [], (List.append_nil _).symm, nofun⟩
    fun _ _ _ good _ taken => good.step taken

def stoppedServer : List Action := startedServer ++ [.stop, .runReturns, .join]

theorem stoppedServer_enabled : (Transition.perform (step .little) (start 0) stoppedServer).isSome = true := by decide

theorem restarted_enabled : (Transition.perform (step .little) ((Transition.perform (step .little) (start 0)
    stoppedServer).get stoppedServer_enabled) [.start, .startThread true, .returnTrue, .runReturns]).isSome = true := by
  decide

theorem stops_for_good_restarted : ∃ s t, Transition.Reachable (step .little) (start 0) s ∧ StoppedForGood s t ∧
    t.startReturns = [false, true] :=
  ⟨_, _, .of_isSome stoppedServer (start 0) stoppedServer_enabled, stops_for_good (by decide)
    (.of_isSome [.start, .startThread true, .returnTrue, .runReturns] _ restarted_enabled), by decide⟩

end ServerInterfaceClass
end MyCQ
