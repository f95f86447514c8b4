import MyCQ.App.Server.Requests
import MyCQ.Foundation.Transition

/-! The running server: the io thread and the thread that calls `update`.

A step is one handler on the io thread, one critical section or one call of
`onMessage` on the update thread, or an explicit send between two updates. The
steps of the two threads interleave freely. Undefined behaviour is recorded in
`fault` and ends the run.
-/

set_option autoImplicit false

namespace MyCQ
open Octets (Endian)
open ConnectionInterface (Handler)

/-- Where the thread that calls `update` is, with `numMaxMessages`, `msg_count` and the local variable
that holds the message. -/
inductive UpdateThread where
  | outside
  -- `wait`: before its test, after a test that has found the queue empty, asleep.
  | waiting (numMaxMessages : UInt64)
  | blocking (numMaxMessages : UInt64)
  | blocked (numMaxMessages : UInt64)
  | testing (numMaxMessages msgCount : UInt64)
  | popping (numMaxMessages msgCount : UInt64)
  | received (numMaxMessages msgCount : UInt64) (msg : OwnedMessage)
  | handled (numMaxMessages msgCount : UInt64) (msg : OwnedMessage)
  deriving DecidableEq, Repr

def UpdateThread.held : UpdateThread → List OwnedMessage
  | received _ _ msg | handled _ _ msg => [msg]
  | _ => []

def UpdateThread.notified : UpdateThread → UpdateThread
  | blocked numMaxMessages => waiting numMaxMessages
  | thread => thread

structure System where
  server : MyCQServer
  thread : UpdateThread
  challenges : List UInt64
  -- Every message ever pushed to `inMsgQueue`.
  pushed : List OwnedMessage
  -- Every message that `onMessage` has been called for.
  calls : List OwnedMessage
  fault : Option Fault

namespace System

def start (idCounter : UInt32) : System := ⟨.start idCounter, .outside, [], [], [], none⟩

/-- Some `shared_ptr` refers to the connection: an entry of the list, a queued message, or the message
in the hands of the update thread. -/
def Owned (s : System) (c : ConnRef) : Prop :=
  some c ∈ s.server.connectionsQueue ∨ ∃ m ∈ s.server.inMsgQueue ++ s.thread.held, m.remote = some c

instance (s : System) (c : ConnRef) : Decidable (s.Owned c) :=
  inferInstanceAs (Decidable (_ ∨ _))

inductive Action where
  | accept (clock : UInt64)
  | handler (c : ConnRef) (h : Handler)
  | update (numMaxMessages : UInt64) (enableWaiting : Bool)
  | waitReturns
  | seesEmpty
  | block
  | spuriousWakeUp
  | test
  | popFront
  -- The call of `onMessage`, and the content of uninitialised memory during it.
  | onMessage (uninitialized : ClientsListDescription)
  -- The end of the loop body: the message is destroyed and counted.
  | endIteration
  | sendMessageToAllClients (msg : Message) (ignoreClient : Option ConnRef)
  | sendMessageToClient (client : Option ConnRef) (msg : Message)
  deriving DecidableEq, Repr

def settle (s : System) : Except Fault MyCQServer → System
  | .ok server => { s with server }
  | .error fault => { s with fault := some fault }

/-- A handler of `c` has run and may have pushed a message, with a notification. -/
def finishHandler (s : System) (c : ConnRef) (conn : ConnectionInterface) (out : Option Message) : System :=
  let pushed := out.toList.map fun msg => OwnedMessage.mk (some c) msg
  let server := s.server.setConn c conn
  { s with
    server := { server with inMsgQueue := server.inMsgQueue ++ pushed }
    thread := if out.isSome then s.thread.notified else s.thread
    pushed := s.pushed ++ pushed }

def act (order : Endian) (s : System) : Action → Option System
  | .accept clock =>
    some { s with server := s.server.acceptConnection clock, challenges := s.challenges ++ [clock] }
  | .handler c h =>
    -- The handler has captured the connection without owning it.
    match (s.server.conn c).runHandler order h with
    | none => none
    | some (conn, out) =>
      if s.Owned c then some (s.finishHandler c conn out)
      else some { s with fault := some .useAfterFree }
  | .update numMaxMessages enableWaiting =>
    match s.thread with
    | .outside =>
      some { s with thread := if enableWaiting then .waiting numMaxMessages else .testing numMaxMessages 0 }
    | _ => none
  | .waitReturns =>
    match s.thread with
    -- The consumer is alone, so the queue it has found non-empty stays so.
    | .waiting numMaxMessages =>
      if s.server.inMsgQueue ≠ [] then some { s with thread := .testing numMaxMessages 0 } else none
    | _ => none
  | .seesEmpty =>
    match s.thread with
    | .waiting numMaxMessages =>
      if s.server.inMsgQueue = [] then some { s with thread := .blocking numMaxMessages } else none
    | _ => none
  | .block =>
    match s.thread with
    -- The queue is not tested again, so a notification since `seesEmpty` is lost.
    | .blocking numMaxMessages => some { s with thread := .blocked numMaxMessages }
    | _ => none
  | .spuriousWakeUp =>
    match s.thread with
    | .blocked numMaxMessages => some { s with thread := .waiting numMaxMessages }
    | _ => none
  | .test =>
    match s.thread with
    -- The test and the pop are separate critical sections.
    | .testing numMaxMessages msgCount =>
      if msgCount < numMaxMessages ∧ s.server.inMsgQueue ≠ [] then
        some { s with thread := .popping numMaxMessages msgCount }
      else some { s with thread := .outside }
    | _ => none
  | .popFront =>
    match s.thread, s.server.inMsgQueue with
    | .popping _ _, [] => some { s with fault := some .emptyQueue }
    | .popping numMaxMessages msgCount, msg :: rest =>
      some { s with
        server := { s.server with inMsgQueue := rest }
        thread := .received numMaxMessages msgCount msg }
    | _, _ => none
  | .onMessage uninitialized =>
    match s.thread with
    | .received numMaxMessages msgCount msg =>
      some ({ s with thread := .handled numMaxMessages msgCount msg, calls := s.calls ++ [msg] }.settle
        (s.server.onMessage order uninitialized msg.remote msg.msg))
    | _ => none
  | .endIteration =>
    match s.thread with
    | .handled numMaxMessages msgCount _ => some { s with thread := .testing numMaxMessages (msgCount + 1) }
    | _ => none
  | .sendMessageToAllClients msg ignoreClient =>
    match s.thread with
    | .outside => some (s.settle (s.server.sendMessageToAllClients msg ignoreClient))
    | _ => none
  | .sendMessageToClient client msg =>
    -- A caller gets its pointer from the server, which holds it as well.
    match s.thread with
    | .outside =>
      if client.all fun d => s.Owned d then some (s.settle (s.server.sendMessageToClient client msg)) else none
    | _ => none

def step (order : Endian) (s : System) (a : Action) : Option System :=
  match s.fault with
  | some _ => none
  | none => s.act order a

end System
end MyCQ
