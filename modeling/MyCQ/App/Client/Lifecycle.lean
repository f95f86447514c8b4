import MyCQ.App.Client.Requests
import MyCQ.Net.Link.Handshake

/-! `Connect` and `Disconnect` of the client, and the io thread between them.

`Disconnect` posts the close of the socket to the `io_context` that it stops
right after, and gives up the connection object without deleting it. A stopped
`io_context` runs no handlers, and nothing ever restarts it. The program's
thread and the io thread take their steps in any order.
-/

set_option autoImplicit false

namespace MyCQ
open Octets (Endian)
open ConnectionInterface (Handler)
open Endpoint (ClientEnd Unbroken)

inductive IoThread where
  | none
  | running
  | finished
  deriving DecidableEq, Repr

/-- Where the program's thread is, named after what it does next. -/
inductive CallPoint where
  | outside
  | startThread
  | returnTrue
  | disconnect
  | stop
  | join
  | release
  deriving DecidableEq, Repr

structure ClientBaseInterface where
  -- The connection objects, and how many have been created; none is ever deleted.
  conn : ConnRef → ConnectionInterface
  created : Nat
  connectionModule : Option ConnRef
  inputMessageQueue : List OwnedMessage
  -- The posted handlers that close a socket.
  posted : List ConnRef
  stopped : Bool
  thrIoServ : IoThread
  point : CallPoint
  -- `ioserv_.stopped()` at each return of `Connect` with `true`.
  connectReturns : List Bool
  dropped : List ConnRef
  -- How often a `Disconnect` has stopped the context.
  stopCalls : Nat

namespace ClientBaseInterface

def start : ClientBaseInterface := ⟨fun _ => default, 0, none, [], [], false, .none, .outside, [], [], 0⟩

def setConn (s : ClientBaseInterface) (c : ConnRef) (conn : ConnectionInterface) : ClientBaseInterface :=
  { s with conn := Function.update s.conn c conn }

@[simp] theorem setConn_self (s : ClientBaseInterface) (c : ConnRef) (conn : ConnectionInterface) :
    (s.setConn c conn).conn c = conn := by
  simp only [setConn, Function.update_self]

theorem setConn_of_ne (s : ClientBaseInterface) {c d : ConnRef} (apart : d ≠ c) (conn : ConnectionInterface) :
    (s.setConn c conn).conn d = s.conn d := by
  simp only [setConn, Function.update_of_ne apart]

def isConnected (s : ClientBaseInterface) : Bool := MyCQClient.isConnected (s.connectionModule.map s.conn)

def HasWork (s : ClientBaseInterface) : Prop := s.posted ≠ [] ∨ ∃ c < s.created, (s.conn c).Pending

instance (s : ClientBaseInterface) : Decidable s.HasWork := inferInstanceAs (Decidable (_ ∨ _))

inductive Action where
  -- `Connect` up to the start of the thread; it returns `false` when the name cannot be resolved.
  | connect (resolved : Bool)
  -- The thread is started, or its constructor throws and `Connect` returns `false`.
  | startThread (started : Bool)
  | returnTrue
  | disconnect
  | postClose
  | stop
  | join
  | release
  | send (msg : Message)
  | handler (c : ConnRef) (h : Handler)
  | close (c : ConnRef)
  | runReturns
  deriving DecidableEq, Repr

def step (order : Endian) (s : ClientBaseInterface) : Action → Option ClientBaseInterface
  | .connect resolved =>
    -- Another `Connect` without a `Disconnect` would replace a connection whose handlers are pending
    -- and a thread that has not been joined.
    if s.point = .outside ∧ s.connectionModule = none ∧ s.thrIoServ = .none then
      if resolved then
        let s := s.setConn s.created (ConnectionInterface.create .client (.fresh false) 0).connectToServer
        some { s with created := s.created + 1, connectionModule := some s.created, point := .startThread }
      else some s
    else none
  | .startThread started =>
    if s.point = .startThread then
      if started then some { s with thrIoServ := .running, point := .returnTrue }
      else some { s with point := .outside }
    else none
  | .returnTrue =>
    if s.point = .returnTrue then
      some { s with connectReturns := s.connectReturns ++ [s.stopped], point := .outside }
    else none
  | .disconnect =>
    if s.point = .outside then some { s with point := if s.isConnected then .disconnect else .stop } else none
  | .postClose =>
    match s.point, s.connectionModule with
    | .disconnect, some c =>
      -- The connection tests its socket again before it posts the close.
      some { s with posted := if (s.conn c).isConnected then s.posted ++ [c] else s.posted, point := .stop }
    | _, _ => none
  | .stop =>
    if s.point = .stop then some { s with stopped := true, stopCalls := s.stopCalls + 1, point := .join } else none
  | .join =>
    if s.point = .join ∧ s.thrIoServ ≠ .running then some { s with thrIoServ := .none, point := .release } else none
  | .release =>
    if s.point = .release then
      some { s with
        connectionModule := none
        dropped := s.dropped ++ s.connectionModule.toList
        point := .outside }
    else none
  | .send msg =>
    if s.point = .outside then
      match s.connectionModule.filter fun c => (s.conn c).isConnected with
      | some c => some (s.setConn c ((s.conn c).sendData msg))
      | none => some s
    else none
  | .handler c h =>
    -- A handler that is queued when the context is stopped does not run any more.
    if s.thrIoServ = .running ∧ s.stopped = false then
      ((s.conn c).runHandler order h).map fun r =>
        { s.setConn c r.1 with
          inputMessageQueue := s.inputMessageQueue ++ r.2.toList.map fun msg => ⟨none, msg⟩ }
    else none
  | .close c =>
    if s.thrIoServ = .running ∧ s.stopped = false ∧ c ∈ s.posted then
      some { s.setConn c (s.conn c).close with posted := s.posted.erase c }
    else none
  | .runReturns =>
    -- Without work, `run()` stops the context itself.
    if s.thrIoServ = .running ∧ (s.stopped = true ∨ ¬ s.HasWork) then
      some { s with thrIoServ := .finished, stopped := true }
    else none

inductive StepCases (order : Endian) (s : ClientBaseInterface) : Action → ClientBaseInterface → Prop where
  | unresolved : StepCases order s (.connect false) s
  | connect : s.point = .outside → StepCases order s (.connect true)
      { s.setConn s.created (ConnectionInterface.create .client (.fresh false) 0).connectToServer with
        created := s.created + 1, connectionModule := some s.created, point := .startThread }
  | startThread : s.point = .startThread →
      StepCases order s (.startThread true) { s with thrIoServ := .running, point := .returnTrue }
  | threadFails : s.point = .startThread → StepCases order s (.startThread false) { s with point := .outside }
  | returnTrue : s.point = .returnTrue → StepCases order s .returnTrue
      { s with connectReturns := s.connectReturns ++ [s.stopped], point := .outside }
  | disconnect : s.point = .outside → StepCases order s .disconnect
      { s with point := if s.isConnected then .disconnect else .stop }
  | postClose (c : ConnRef) : s.point = .disconnect → s.connectionModule = some c → StepCases order s .postClose
      { s with posted := if (s.conn c).isConnected then s.posted ++ [c] else s.posted, point := .stop }
  | stop : s.point = .stop →
      StepCases order s .stop { s with stopped := true, stopCalls := s.stopCalls + 1, point := .join }
  | join : s.point = .join → StepCases order s .join { s with thrIoServ := .none, point := .release }
  | release : s.point = .release → StepCases order s .release
      { s with
        connectionModule := none
        dropped := s.dropped ++ s.connectionModule.toList
        point := .outside }
  | send (msg : Message) (c : ConnRef) : StepCases order s (.send msg) (s.setConn c ((s.conn c).sendData msg))
  | notSent (msg : Message) : StepCases order s (.send msg) s
  | handler (c : ConnRef) (h : Handler) (conn : ConnectionInterface) (out : Option Message) :
      (s.conn c).runHandler order h = some (conn, out) → StepCases order s (.handler c h)
        { s.setConn c conn with
          inputMessageQueue := s.inputMessageQueue ++ out.toList.map fun msg => ⟨none, msg⟩ }
  | close (c : ConnRef) : c ∈ s.posted → StepCases order s (.close c)
      { s.setConn c (s.conn c).close with posted := s.posted.erase c }
  | runReturns : s.thrIoServ = .running → s.stopped = true ∨ ¬ s.HasWork →
      StepCases order s .runReturns { s with thrIoServ := .finished, stopped := true }

theorem step_cases {order : Endian} {s t : ClientBaseInterface} {a : Action} (taken : s.step order a = some t) :
    StepCases order s a t := by
  cases a with
  | connect resolved =>
    obtain ⟨⟨point, _⟩, taken⟩ := Option.ite_none_right_eq_some.mp taken
    cases resolved with
    | false =>
      cases taken
      exact .unresolved
    | true =>
      cases taken
      exact .connect point
  | startThread started =>
    obtain ⟨point, taken⟩ := Option.ite_none_right_eq_some.mp taken
    cases started with
    | false =>
      cases taken
      exact .threadFails point
    | true =>
      cases taken
      exact .startThread point
  | returnTrue =>
    obtain ⟨point, taken⟩ := Option.ite_none_right_eq_some.mp taken
    cases taken
    exact .returnTrue point
  | disconnect =>
    obtain ⟨point, taken⟩ := Option.ite_none_right_eq_some.mp taken
    cases taken
    exact .disconnect point
  | postClose =>
    simp only [step] at taken
    split at taken
    · next c point current =>
      cases taken
      exact .postClose c point current
    · cases taken
  | stop =>
    obtain ⟨point, taken⟩ := Option.ite_none_right_eq_some.mp taken
    cases taken
    exact .stop point
  | join =>
    obtain ⟨⟨point, _⟩, taken⟩ := Option.ite_none_right_eq_some.mp taken
    cases taken
    exact .join point
  | release =>
    obtain ⟨point, taken⟩ := Option.ite_none_right_eq_some.mp taken
    cases taken
    exact .release point
  | send msg =>
    obtain ⟨_, taken⟩ := Option.ite_none_right_eq_some.mp taken
    split at taken
    · next c _ =>
      cases taken
      exact .send msg c
    · cases taken
      exact .notSent msg
  | handler c h =>
    obtain ⟨_, taken⟩ := Option.ite_none_right_eq_some.mp taken
    obtain ⟨⟨conn, out⟩, ran, rfl⟩ := Option.map_eq_some_iff.mp taken
    exact .handler c h conn out ran
  | close c =>
    obtain ⟨⟨_, _, queued⟩, taken⟩ := Option.ite_none_right_eq_some.mp taken
    cases taken
    exact .close c queued
  | runReturns =>
    obtain ⟨⟨running, idle⟩, taken⟩ := Option.ite_none_right_eq_some.mp taken
    cases taken
    exact .runReturns running idle

variable {order : Endian} {s t : ClientBaseInterface} {a : Action}

theorem current_of_isConnected (connected : s.isConnected = true) : s.connectionModule ≠ none := by
  intro none
  rw [isConnected, none] at connected
  cases connected

structure CallInvariant (s : ClientBaseInterface) : Prop where
  current : s.point = .startThread ∨ s.point = .returnTrue ∨ s.point = .disconnect → s.connectionModule ≠ none
  stopped : s.point = .join → s.stopped = true
  stopCalls : s.point = .join ∨ s.point = .release → s.stopCalls ≠ 0
  started : s.point = .returnTrue → s.thrIoServ ≠ .none
  joined : s.point = .release → s.thrIoServ = .none
  idle : s.point = .outside → s.connectionModule = none → s.thrIoServ = .none

theorem CallInvariant.step (inv : CallInvariant s) (taken : s.step order a = some t) : CallInvariant t := by
  cases step_cases taken with
  | unresolved => exact inv
  | connect _ => exact ⟨fun _ => Option.some_ne_none _, nofun, by simp, nofun, nofun, nofun⟩
  | startThread point => exact ⟨fun _ => inv.current (Or.inl point), nofun, by simp, fun _ => nofun, nofun, nofun⟩
  | threadFails point =>
    exact ⟨by simp, nofun, by simp, nofun, nofun, fun _ released => absurd released (inv.current (Or.inl point))⟩
  | returnTrue point =>
    refine ⟨by simp, nofun, by simp, nofun, nofun, fun _ released => ?_⟩
    exact absurd released (inv.current (Or.inr (Or.inl point)))
  | disconnect point =>
    by_cases connected : s.isConnected = true
    · refine ⟨fun _ => current_of_isConnected connected, ?_, ?_, ?_, ?_, ?_⟩ <;> simp [connected]
    · refine ⟨?_, ?_, ?_, ?_, ?_, ?_⟩ <;> simp [connected]
  | postClose => exact ⟨by simp, nofun, by simp, nofun, nofun, nofun⟩
  | stop => exact ⟨by simp, fun _ => rfl, fun _ => Nat.succ_ne_zero _, nofun, nofun, nofun⟩
  | join point => exact ⟨by simp, nofun, fun _ => inv.stopCalls (Or.inl point), nofun, fun _ => rfl, nofun⟩
  | release point => exact ⟨by simp, nofun, by simp, nofun, nofun, fun _ _ => inv.joined point⟩
  | send | notSent | handler | close =>
    exact ⟨inv.current, inv.stopped, inv.stopCalls, inv.started, inv.joined, inv.idle⟩
  | runReturns running =>
    refine ⟨inv.current, fun _ => rfl, inv.stopCalls, fun _ => nofun, fun point => ?_, fun point released => ?_⟩
    · cases running.symm.trans (inv.joined point)
    · cases running.symm.trans (inv.idle point released)

theorem callInvariant_of_reachable (run : Transition.Reachable (step order) start s) : CallInvariant s := by
  apply run.invariant ⟨by simp [start], nofun, by simp [start], nofun, nofun, fun _ _ => rfl⟩
  exact fun _ _ _ inv _ taken => inv.step taken

theorem connect_enabled (run : Transition.Reachable (step order) start s) (outside : s.point = .outside)
    (released : s.connectionModule = none) (resolved : Bool) :
    (s.step order (.connect resolved)).isSome = true := by
  have inv := callInvariant_of_reachable run
  cases resolved <;> simp [step, outside, released, inv.idle outside released]

/-- A call that has begun can always go on; a `join` waits for nothing but the return of `run()`. -/
theorem call_proceeds (run : Transition.Reachable (step order) start s) (inside : s.point ≠ .outside) :
    ∃ a t, s.step order a = some t ∧ (t.point ≠ s.point ∨ s.point = .join ∧ a = .runReturns) := by
  have inv := callInvariant_of_reachable run
  cases point : s.point with
  | outside => exact absurd point inside
  | startThread => exact ⟨.startThread false, _, by rw [step, if_pos point]; rfl, by simp⟩
  | returnTrue => exact ⟨.returnTrue, _, by rw [step, if_pos point], by simp⟩
  | disconnect =>
    obtain ⟨c, current⟩ := Option.ne_none_iff_exists'.mp (inv.current (Or.inr (Or.inr point)))
    have taken : s.step order .postClose = some { s with
        posted := if (s.conn c).isConnected then s.posted ++ [c] else s.posted, point := .stop } := by
      simp only [step, point, current]
    exact ⟨.postClose, _, taken, by simp⟩
  | stop => exact ⟨.stop, _, by rw [step, if_pos point], by simp⟩
  | join =>
    by_cases running : s.thrIoServ = .running
    · exact ⟨.runReturns, _, by rw [step, if_pos ⟨running, Or.inl (inv.stopped point)⟩], by simp⟩
    · exact ⟨.join, _, by rw [step, if_pos ⟨point, running⟩], by simp⟩
  | release => exact ⟨.release, _, by rw [step, if_pos point], by simp⟩

/-- `Connect` has returned `true`, and `Disconnect` has not been called since. -/
def Connected (s : ClientBaseInterface) : Prop := s.point = .outside ∧ s.thrIoServ ≠ .none

/-- What `Connect` and `Disconnect` are to leave behind: every dropped connection is closed, and from the return
of `Connect` on the context runs handlers. -/
structure Lifecycle (s : ClientBaseInterface) : Prop where
  closed : ∀ c ∈ s.dropped, (s.conn c).isConnected = false
  returned : ∀ stopped ∈ s.connectReturns, stopped = false
  running : s.Connected → s.stopped = false ∧ s.thrIoServ = .running

/-- The program's thread is not inside `Disconnect`. -/
def Attached (s : ClientBaseInterface) : Prop :=
  s.point = .outside ∨ s.point = .startThread ∨ s.point = .returnTrue

instance (s : ClientBaseInterface) : Decidable s.Attached := inferInstanceAs (Decidable (_ ∨ _))

/-- `Disconnect` stops the context only when no close of an open socket is queued any more. No `Disconnect` comes
before a `Connect`, and outside of it `run()` never looks for work in vain. -/
def Unhurried (s : ClientBaseInterface) : Action → Prop
  | .stop => ∀ c ∈ s.posted, (s.conn c).isConnected = false
  | .startThread true => s.stopCalls = 0
  | .runReturns => s.Attached → s.HasWork
  | _ => True

instance (s : ClientBaseInterface) : (a : Action) → Decidable (Unhurried s a)
  | .stop => inferInstanceAs (Decidable (∀ c ∈ s.posted, (s.conn c).isConnected = false))
  | .startThread true => inferInstanceAs (Decidable (s.stopCalls = 0))
  | .runReturns => inferInstanceAs (Decidable (s.Attached → s.HasWork))
  | .startThread false | .connect _ | .returnTrue | .disconnect | .postClose | .join | .release | .send _
  | .handler _ _ | .close _ => isTrue trivial

structure LifecycleInvariant (s : ClientBaseInterface) : Prop where
  current : ∀ c, s.connectionModule = some c → c < s.created
  dropped : ∀ c ∈ s.dropped, c < s.created ∧ (s.conn c).isConnected = false
  returned : ∀ stopped ∈ s.connectReturns, stopped = false
  fresh : s.Attached → s.stopCalls = 0 → s.stopped = false
  running : s.Attached → s.thrIoServ ≠ .none → s.stopCalls = 0 ∧ s.thrIoServ = .running
  posted : s.point = .stop → ∀ c, s.connectionModule = some c → (s.conn c).isConnected = true → c ∈ s.posted
  closed : s.point = .join ∨ s.point = .release → ∀ c, s.connectionModule = some c → (s.conn c).isConnected = false

structure LeavesCalls (s t : ClientBaseInterface) : Prop where
  created : t.created = s.created
  connectionModule : t.connectionModule = s.connectionModule
  dropped : t.dropped = s.dropped
  connectReturns : t.connectReturns = s.connectReturns
  point : t.point = s.point
  stopped : t.stopped = s.stopped
  thrIoServ : t.thrIoServ = s.thrIoServ
  stopCalls : t.stopCalls = s.stopCalls
  closes : ∀ c, (t.conn c).isConnected = true → (s.conn c).isConnected = true
  posted : ∀ c ∈ s.posted, (t.conn c).isConnected = true → c ∈ t.posted

theorem LifecycleInvariant.leaves (inv : LifecycleInvariant s) (leaves : LeavesCalls s t) : LifecycleInvariant t := by
  have shut : ∀ c, (s.conn c).isConnected = false → (t.conn c).isConnected = false := by
    intro c closed
    rw [← Bool.not_eq_true] at closed ⊢
    exact fun isOpen => closed (leaves.closes c isOpen)
  constructor
  · rw [leaves.connectionModule, leaves.created]
    exact inv.current
  · rw [leaves.dropped, leaves.created]
    exact fun c member => ⟨(inv.dropped c member).1, shut c (inv.dropped c member).2⟩
  · rw [leaves.connectReturns]
    exact inv.returned
  · rw [Attached, leaves.point, leaves.stopCalls, leaves.stopped]
    exact inv.fresh
  · rw [Attached, leaves.point, leaves.thrIoServ, leaves.stopCalls]
    exact inv.running
  · rw [leaves.point, leaves.connectionModule]
    exact fun point c current isOpen => leaves.posted c (inv.posted point c current (leaves.closes c isOpen)) isOpen
  · rw [leaves.point, leaves.connectionModule]
    exact fun point c current => shut c (inv.closed point c current)

theorem leavesCalls_setConn {c : ConnRef} {conn : ConnectionInterface}
    (closes : conn.isConnected = true → (s.conn c).isConnected = true) : LeavesCalls s (s.setConn c conn) where
  created := rfl
  connectionModule := rfl
  dropped := rfl
  connectReturns := rfl
  point := rfl
  stopped := rfl
  thrIoServ := rfl
  stopCalls := rfl
  closes d isOpen := by
    by_cases same : d = c
    · subst same
      rw [setConn_self] at isOpen
      exact closes isOpen
    · rwa [setConn_of_ne s same] at isOpen
  posted _ member _ := member

theorem leavesCalls_close (s : ClientBaseInterface) (c : ConnRef) :
    LeavesCalls s { s.setConn c (s.conn c).close with posted := s.posted.erase c } := by
  have leaves : LeavesCalls s (s.setConn c (s.conn c).close) := leavesCalls_setConn fun isOpen => by cases isOpen
  refine ⟨rfl, rfl, rfl, rfl, rfl, rfl, rfl, rfl, leaves.closes, fun d member isOpen => ?_⟩
  by_cases same : d = c
  · subst same
    rw [setConn_self] at isOpen
    cases isOpen
  · exact (List.mem_erase_of_ne same).mpr member

theorem Attached.of_outside (point : s.point = .outside) : s.Attached := Or.inl point

theorem Attached.of_startThread (point : s.point = .startThread) : s.Attached := Or.inr (Or.inl point)

theorem Attached.of_returnTrue (point : s.point = .returnTrue) : s.Attached := Or.inr (Or.inr point)

theorem not_attached (point : s.point = .disconnect ∨ s.point = .stop ∨ s.point = .join ∨ s.point = .release) :
    ¬ s.Attached := by
  unfold Attached
  rcases point with point | point | point | point <;> simp [point]

theorem LifecycleInvariant.step (inv : LifecycleInvariant s) (calls : CallInvariant s) (unhurried : Unhurried s a)
    (taken : s.step order a = some t) : LifecycleInvariant t := by
  cases step_cases taken with
  | unresolved => exact inv
  | connect point =>
    have attached := Attached.of_outside point
    refine ⟨?_, ?_, inv.returned, fun _ => inv.fresh attached, fun _ => inv.running attached, nofun, by simp⟩
    · intro c current
      cases current
      exact Nat.lt_succ_self _
    · intro c member
      obtain ⟨old, closed⟩ := inv.dropped c member
      refine ⟨Nat.lt_succ_of_lt old, ?_⟩
      rw [setConn_of_ne s (Nat.ne_of_lt old)]
      exact closed
  | startThread point =>
    have attached := Attached.of_startThread point
    exact ⟨inv.current, inv.dropped, inv.returned, fun _ => inv.fresh attached, fun _ _ => ⟨unhurried, rfl⟩,
      nofun, by simp⟩
  | threadFails point =>
    have attached := Attached.of_startThread point
    exact ⟨inv.current, inv.dropped, inv.returned, fun _ => inv.fresh attached, fun _ => inv.running attached,
      nofun, by simp⟩
  | returnTrue point =>
    have attached := Attached.of_returnTrue point
    refine ⟨inv.current, inv.dropped, ?_, fun _ => inv.fresh attached, fun _ => inv.running attached, nofun, by simp⟩
    intro stopped member
    rcases List.mem_append.mp member with old | new
    · exact inv.returned stopped old
    · have first := (inv.running attached (calls.started point)).1
      exact (List.mem_singleton.mp new).trans (inv.fresh attached first)
  | disconnect point =>
    -- Without an open connection the call goes on to stop the context.
    have inside : ¬ Attached { s with point := if s.isConnected then .disconnect else .stop } := by
      refine not_attached ?_
      dsimp only
      split
      · exact Or.inl rfl
      · exact Or.inr (Or.inl rfl)
    refine ⟨inv.current, inv.dropped, inv.returned, fun attached => absurd attached inside,
      fun attached => absurd attached inside, ?_, ?_⟩
    · intro point c current isOpen
      have connected : s.isConnected = true := by
        rw [isConnected, current]
        exact isOpen
      simp [connected] at point
    · intro other
      dsimp only at other
      split at other <;> simp at other
  | postClose c point current =>
    have inside : ¬ Attached { s with
        posted := if (s.conn c).isConnected then s.posted ++ [c] else s.posted, point := .stop } :=
      not_attached (Or.inr (Or.inl rfl))
    refine ⟨inv.current, inv.dropped, inv.returned, fun attached => absurd attached inside,
      fun attached => absurd attached inside, ?_, by simp⟩
    intro _ d same isOpen
    cases current.symm.trans same
    dsimp only at isOpen ⊢
    rw [if_pos isOpen]
    exact List.mem_append_right _ (List.mem_singleton_self c)
  | stop point =>
    refine ⟨inv.current, inv.dropped, inv.returned, fun _ => nofun, by simp [Attached], nofun, ?_⟩
    intro _ c current
    rw [← Bool.not_eq_true]
    intro isOpen
    have closed := unhurried c (inv.posted point c current isOpen)
    cases closed.symm.trans isOpen
  | join point =>
    exact ⟨inv.current, inv.dropped, inv.returned, by simp [Attached], by simp [Attached], nofun,
      fun _ => inv.closed (Or.inl point)⟩
  | release point =>
    refine ⟨nofun, ?_, inv.returned, fun _ none => absurd none (calls.stopCalls (Or.inr point)),
      fun _ started => absurd (calls.joined point) started, nofun, by simp⟩
    intro c member
    rcases List.mem_append.mp member with old | new
    · exact inv.dropped c old
    · have current := Option.mem_toList.mp new
      exact ⟨inv.current c current, inv.closed (Or.inr point) c current⟩
  | send msg c => exact inv.leaves (leavesCalls_setConn id)
  | notSent => exact inv
  | handler c h conn out ran =>
    have leaves := leavesCalls_setConn (Endpoint.isOpen_handler (Endpoint.step_handler ran []))
    exact inv.leaves ⟨rfl, rfl, rfl, rfl, rfl, rfl, rfl, rfl, leaves.closes, leaves.posted⟩
  | close c => exact inv.leaves (leavesCalls_close s c)
  | runReturns running idle =>
    -- Outside of `Disconnect` the context is not stopped and has work.
    have inside : ¬ s.Attached := by
      intro attached
      have first := (inv.running attached (by rw [running]; nofun)).1
      rcases idle with stopped | idle
      · cases (inv.fresh attached first).symm.trans stopped
      · exact idle (unhurried attached)
    exact ⟨inv.current, inv.dropped, inv.returned, fun attached => absurd attached inside,
      fun attached => absurd attached inside, inv.posted, inv.closed⟩

theorem lifecycleInvariant_start : LifecycleInvariant start :=
  ⟨nofun, nofun, nofun, fun _ _ => rfl, fun _ started => absurd rfl started, nofun, by simp [start]⟩

/-- In every run in which the context is never stopped too early, whatever the interleaving. -/
theorem lifecycle (run : Transition.Run (step order) Unhurried start s) : Lifecycle s := by
  have inv : LifecycleInvariant s := run.invariant_of_reached lifecycleInvariant_start
    fun _ _ _ before inv unhurried taken => inv.step (callInvariant_of_reachable before.reachable) unhurried taken
  refine ⟨fun c member => (inv.dropped c member).2, inv.returned, fun ⟨outside, started⟩ => ?_⟩
  have attached := Attached.of_outside outside
  obtain ⟨first, running⟩ := inv.running attached started
  exact ⟨inv.fresh attached first, running⟩

def OperationsSucceed (_ : ClientBaseInterface) : Action → Prop
  | .handler _ h => h.succeeds = true
  | _ => True

structure Unfailing (order : Endian) (s : ClientBaseInterface) : Prop where
  posted : s.Attached → s.stopCalls = 0 → s.posted = []
  current : s.Attached → s.stopCalls = 0 → ∀ c, s.connectionModule = some c → c < s.created ∧
    ∃ enqueued, ClientEnd order ⟨s.conn c, enqueued⟩ ∧ Unbroken ⟨s.conn c, enqueued⟩

theorem Unfailing.setConn (inv : Unfailing order s) {c : ConnRef} {conn : ConnectionInterface}
    {a : Endpoint.Action} {out : List Message} (succeeds : ∀ h, a = .handler h → h.succeeds = true)
    (moved : ∀ enqueued, (Endpoint.mk (s.conn c) enqueued).step order a = some ⟨conn, enqueued ++ out⟩) :
    Unfailing order (s.setConn c conn) := by
  refine ⟨inv.posted, fun attached first d current => ?_⟩
  obtain ⟨created, enqueued, client, unbroken⟩ := inv.current attached first d current
  refine ⟨created, ?_⟩
  by_cases same : d = c
  · subst same
    rw [setConn_self]
    have taken := moved enqueued
    refine ⟨_, client.step taken, unbroken.step client ?_ ?_ ?_ taken⟩
    · rintro op bytes rfl
      cases succeeds _ rfl
    · rintro op rfl
      cases succeeds _ rfl
    · rintro rfl
      cases succeeds _ rfl
  · rw [setConn_of_ne s same]
    exact ⟨enqueued, client, unbroken⟩

theorem Unfailing.step (inv : Unfailing order s) (calls : CallInvariant s) (succeed : OperationsSucceed s a)
    (taken : s.step order a = some t) : Unfailing order t := by
  cases step_cases taken with
  | unresolved => exact inv
  | connect point =>
    refine ⟨fun _ => inv.posted (.of_outside point), fun _ _ c current => ?_⟩
    cases current
    refine ⟨Nat.lt_succ_self _, [], ?_⟩
    dsimp only
    rw [setConn_self]
    exact ⟨Endpoint.clientEnd_connecting order, Or.inl rfl⟩
  | startThread point | threadFails point =>
    have attached := Attached.of_startThread point
    exact ⟨fun _ => inv.posted attached, fun _ => inv.current attached⟩
  | returnTrue point =>
    have attached := Attached.of_returnTrue point
    exact ⟨fun _ => inv.posted attached, fun _ => inv.current attached⟩
  | disconnect point =>
    by_cases connected : s.isConnected = true <;>
      exact ⟨by simp [Attached, connected], by simp [Attached, connected]⟩
  | postClose => exact ⟨by simp [Attached], by simp [Attached]⟩
  | stop => exact ⟨fun _ => nofun, fun _ => nofun⟩
  | join => exact ⟨by simp [Attached], by simp [Attached]⟩
  | release point =>
    have stopped := calls.stopCalls (Or.inr point)
    exact ⟨fun _ first => absurd first stopped, fun _ first => absurd first stopped⟩
  | send msg c => exact inv.setConn (a := .sendData msg) nofun fun enqueued => by rw [List.append_nil]; rfl
  | notSent => exact inv
  | handler c h conn out ran =>
    have moved := inv.setConn (a := .handler h) (fun _ same => by cases same; exact succeed)
      (Endpoint.step_handler ran)
    exact ⟨moved.posted, moved.current⟩
  | close c queued =>
    have late : s.Attached → s.stopCalls ≠ 0 := by
      intro attached first
      rw [inv.posted attached first] at queued
      cases queued
    exact ⟨fun attached first => absurd first (late attached), fun attached first => absurd first (late attached)⟩
  | runReturns => exact ⟨inv.posted, inv.current⟩

/-- The context runs out of work only after an operation has failed. -/
theorem hasWork_of_run (run : Transition.Run (step order) OperationsSucceed start s) (attached : s.Attached)
    (first : s.stopCalls = 0) (connected : s.connectionModule ≠ none) : s.HasWork := by
  have inv : Unfailing order s := run.invariant_of_reached ⟨fun _ _ => rfl, fun _ _ => nofun⟩
    fun _ _ _ before inv succeed taken => inv.step (callInvariant_of_reachable before.reachable) succeed taken
  obtain ⟨c, current⟩ := Option.ne_none_iff_exists'.mp connected
  obtain ⟨created, _, _, unbroken⟩ := inv.current attached first c current
  refine Or.inr ⟨c, created, ?_⟩
  rcases unbroken with connecting | reads | answering
  · exact Or.inr (Or.inr (Or.inr connecting))
  · exact Or.inr (Or.inl reads)
  · refine Or.inr (Or.inr (Or.inl fun none => answering ?_))
    exact List.filter_eq_nil_iff.mpr fun op member => absurd (none ▸ member) List.not_mem_nil

def unhurriedCalls : List Action :=
  [.connect true, .startThread true, .returnTrue, .disconnect, .postClose, .close 0, .stop, .runReturns, .join,
    .release]

theorem lifecycle_unhurriedCalls :
    Lifecycle ((Transition.perform (step .little) start unhurriedCalls).get (by decide)) :=
  lifecycle (.of_perform unhurriedCalls start (by decide) (Option.some_get _).symm)

/-- `Disconnect` stops the context right after it has posted the close; then the client connects again. -/
def hastyCalls : List Action :=
  [.connect true, .startThread true, .returnTrue, .disconnect, .postClose, .stop, .runReturns, .join, .release,
    .connect true, .startThread true, .returnTrue]

theorem hastyCalls_enabled : (Transition.perform (step .little) start hastyCalls).isSome = true := by decide

/-- `Connect` returns before the connection is refused; then the context has no work any more. -/
def refusedCalls : List Action :=
  [.connect true, .startThread true, .returnTrue, .handler 0 .connectFailed, .runReturns]

theorem refusedCalls_enabled : (Transition.perform (step .little) start refusedCalls).isSome = true := by decide

/-- The dropped socket stays open, and the second `Connect` returns `true` with a stopped context; a refused client
stops its own context, so that a later `Send` writes nothing. -/
theorem dropped_connection_open :
    (∃ s, Transition.Reachable (step .little) start s ∧ (∃ c ∈ s.dropped, (s.conn c).isConnected = true) ∧
      true ∈ s.connectReturns ∧ ¬ Lifecycle s) ∧
    ∃ s, Transition.Reachable (step .little) start s ∧ s.Connected ∧ s.stopCalls = 0 ∧ s.stopped = true ∧
      ¬ Lifecycle s := by
  have isOpen : (((Transition.perform (step .little) start hastyCalls).get hastyCalls_enabled).conn 0).isConnected =
      true := by decide
  have listed : 0 ∈ ((Transition.perform (step .little) start hastyCalls).get hastyCalls_enabled).dropped := by decide
  have stopped : ((Transition.perform (step .little) start refusedCalls).get refusedCalls_enabled).stopped = true := by
    decide
  have connected : ((Transition.perform (step .little) start refusedCalls).get refusedCalls_enabled).Connected :=
    ⟨by decide, by decide⟩
  refine ⟨⟨_, .of_isSome hastyCalls start hastyCalls_enabled, ⟨0, listed, isOpen⟩, by decide, fun lifecycle => ?_⟩,
    _, .of_isSome refusedCalls start refusedCalls_enabled, connected, by decide, stopped, fun lifecycle => ?_⟩
  · cases (lifecycle.closed 0 listed).symm.trans isOpen
  · cases (lifecycle.running connected).1.symm.trans stopped

end ClientBaseInterface
end MyCQ
