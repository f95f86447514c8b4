import MyCQ.App.System.Gate
import MyCQ.Net.Endpoint.Framing

/-! Whether the server's output to each client consists of frames.

Replies that the server builds agree with their headers. A ping is echoed as it
lies in the receive buffer, and an empty ping agrees with its header only if
the buffer holds no payload of an earlier frame.
-/

set_option autoImplicit false

namespace MyCQ
open Octets (Endian)
open Endpoint (ServerEnd)

variable {order : Endian} {idCounter : UInt32}

theorem Endpoint.pushed_agrees {challenge : UInt64} {p : Endpoint} (server : ServerEnd order challenge p)
    {h : ConnectionInterface.Handler} {conn : ConnectionInterface} {msg : Message}
    (ran : p.conn.runHandler order h = some (conn, some msg)) :
    msg.Agrees ∨ ∃ octets : CArray Byte 8, h = .readOk .header octets.toList ∧
      (MessageHeader.ofBytes order octets).size = 0 ∧
      msg = ⟨MessageHeader.ofBytes order octets, p.conn.tmpInputMsg.payload⟩ := by
  have taken : (Endpoint.mk p.conn []).step order (.handler h) = some ⟨conn, [msg]⟩ := step_handler ran []
  generalize result : Endpoint.mk conn [msg] = q at taken
  cases step_cases taken with
  | readOk op bytes outstanding =>
    simp only [List.nil_append] at result
    cases op with
    | serverValidationRequest => cases congrArg Endpoint.enqueued result
    | checkValidation => cases congrArg Endpoint.enqueued result
    | header =>
      refine Or.inr ⟨bytes, rfl, ?_⟩
      simp only [ConnectionInterface.onRead, ConnectionInterface.onReadHeader] at result
      split at result
      · cases congrArg Endpoint.enqueued result
      · next empty =>
        cases congrArg Endpoint.enqueued result
        exact ⟨UInt32.le_zero_iff.mp (UInt32.not_lt.mp empty), rfl⟩
    | payload size =>
      cases congrArg Endpoint.enqueued result
      cases server.inbound with
      | awaiting reads => simp [reads] at outstanding
      | serving _ _ _ serving =>
        cases serving with
        | idle _ reads => simp [reads] at outstanding
        | announced frames header _ reads _ tmp =>
          apply Or.inl
          simp [Message.Agrees, ConnectionInterface.finishRead, tmp]
        | ended _ _ _ reads => simp [reads] at outstanding
      | refused reads => simp [reads] at outstanding
  | posted => cases congrArg Endpoint.enqueued result
  | readFailed => cases congrArg Endpoint.enqueued result
  | writeOk => cases congrArg Endpoint.enqueued result
  | writeFailed => cases congrArg Endpoint.enqueued result
  | connected => cases congrArg Endpoint.enqueued result
  | connectFailed => cases congrArg Endpoint.enqueued result

theorem MyCQServer.Sent.agrees {s : MyCQServer} {client : Option ConnRef} {msg m : Message} {d : ConnRef}
    (sent : Sent order s client msg d m)
    (ping : MyCQMessages.ofUInt32 msg.header.id = some .serverPing → msg.Agrees) : m.Agrees := by
  have built : ∀ (id : UInt32) {n : Nat} (bytes : CArray Byte n), n < 2 ^ 32 →
      ((Message.ofId id).push bytes.toList).Agrees := by
    intro id n bytes bound
    apply Message.agrees_push _ _
    rw [bytes.length_eq]
    exact Nat.lt_of_le_of_lt (Nat.le_of_eq (Nat.zero_add n)) bound
  cases sent with
  | echo known _ same => exact same ▸ ping known
  | broadcast _ _ _ _ _ _ _ _ _ same => exact same ▸ built _ _ (by decide)
  | list _ _ _ same => exact same ▸ built _ _ (by decide)
  | notify _ _ _ _ _ _ _ _ same => exact same ▸ built _ _ (by decide)

namespace System

variable {s t : System} {a : Action}

/-- No empty ping is read into a buffer that still holds a payload; explicit sends are of messages
that agree with their headers. -/
def NoStalePing (order : Endian) (s : System) : Action → Prop
  | .handler c (.readOk .header bytes) => ∀ octets : CArray Byte 8, octets.toList = bytes →
      MyCQMessages.ofUInt32 (MessageHeader.ofBytes order octets).id = some .serverPing →
      (MessageHeader.ofBytes order octets).size = 0 → (s.server.conn c).tmpInputMsg.payload.size = 0
  | .sendMessageToAllClients msg _ => msg.Agrees
  | .sendMessageToClient _ msg => msg.Agrees
  | _ => True

structure Echoable (s : System) : Prop where
  calls : ∀ c, ∀ m ∈ (s.server.conn c).sendDataCalls, m.Agrees
  pings : ∀ m ∈ s.pushed, MyCQMessages.ofUInt32 m.msg.header.id = some .serverPing → m.msg.Agrees

theorem Echoable.operate (echoable : Echoable s) {server : MyCQServer} {thread : UpdateThread}
    {calls : List OwnedMessage} {out : ConnRef → List Message} (delivers : s.server.Delivers server out)
    (agrees : ∀ c m, m ∈ out c → m.Agrees) : Echoable { s with server, thread, calls } where
  calls c m sent := by
    have appended : (server.conn c).sendDataCalls = (s.server.conn c).sendDataCalls ++ out c := by
      rw [delivers.conn]
      rfl
    rw [appended] at sent
    rcases List.mem_append.mp sent with old | new
    · exact echoable.calls c m old
    · exact agrees c m new
  pings := echoable.pings

theorem Echoable.handler (run : Transition.Reachable (System.step order) (.start idCounter) s)
    (echoable : Echoable s) {c : ConnRef} {h : ConnectionInterface.Handler} {conn : ConnectionInterface}
    {out : Option Message} (guard : NoStalePing order s (.handler c h))
    (ran : (s.server.conn c).runHandler order h = some (conn, out)) :
    Echoable (s.finishHandler c conn out) where
  calls d m sent := by
    by_cases same : d = c
    · subst same
      simp only [finishHandler, MyCQServer.setConn, Function.update_self] at sent
      rw [Endpoint.sendDataCalls_handler (Endpoint.step_handler ran [])] at sent
      exact echoable.calls d m sent
    · simp only [finishHandler, MyCQServer.setConn, Function.update_of_ne same] at sent
      exact echoable.calls d m sent
  pings m pushed ping := by
    rcases List.mem_append.mp pushed with old | new
    · exact echoable.pings m old ping
    · obtain ⟨msg, member, rfl⟩ := List.mem_map.mp new
      obtain rfl : out = some msg := Option.mem_toList.mp member
      have wellFormed := wellFormed_of_reachable run
      obtain ⟨challenge, accepted⟩ := exists_challenge wellFormed (wellFormed.created_of_ran ran)
      -- What disagrees with its header can only be an empty frame over an old payload.
      rcases Endpoint.pushed_agrees (serverEnd_of_reachable run accepted) ran with
        agrees | ⟨octets, rfl, empty, rfl⟩
      · exact agrees
      · have drained := guard octets rfl ping empty
        simp only [Message.Agrees, empty, endpoint, drained]
        rfl

theorem Echoable.step (run : Transition.Reachable (System.step order) (.start idCounter) s)
    (echoable : Echoable s) (guard : NoStalePing order s a) (taken : s.step order a = some t) :
    Echoable t := by
  have wellFormed := wellFormed_of_reachable run
  cases step_cases taken with
  | accept clock =>
    refine ⟨fun c m sent => ?_, echoable.pings⟩
    simp only [MyCQServer.acceptConnection_conn] at sent
    split at sent
    · have only : m = MyCQServer.serverAccept := List.mem_singleton.mp sent
      exact only ▸ Message.agrees_ofId _
    · exact echoable.calls c m sent
  | handler c h conn out ran owned => exact echoable.handler run guard ran
  | dangling => exact ⟨echoable.calls, echoable.pings⟩
  | moves => exact ⟨echoable.calls, echoable.pings⟩
  | emptyPop => exact ⟨echoable.calls, echoable.pings⟩
  | popFront => exact ⟨echoable.calls, echoable.pings⟩
  | onMessage uninitialized numMaxMessages msgCount msg server point ran =>
    have inHand : msg ∈ s.thread.unhandled := by simp [point, UpdateThread.unhandled]
    obtain ⟨out, operates, sent⟩ := operates_onMessage wellFormed inHand ran
    exact echoable.operate operates.delivers fun c m member =>
      (sent c m member).agrees (echoable.pings msg (wellFormed.unhandled_pushed inHand))
  | onMessageFault => exact ⟨echoable.calls, echoable.pings⟩
  | endIteration => exact ⟨echoable.calls, echoable.pings⟩
  | sendMessageToAllClients msg ignoreClient server point ran =>
    obtain ⟨delivers, _⟩ := MyCQServer.sendMessageToAllClients_ok ran
    exact echoable.operate delivers fun c m member => (MyCQServer.mem_broadcastTo member).2.2.2 ▸ guard
  | sendMessageToClient client msg server point held ran =>
    obtain ⟨out, delivers, sent, _⟩ := MyCQServer.sendMessageToClient_ok ran
    exact echoable.operate delivers fun c m member => (sent c m member).1 ▸ guard
  | sendFault => exact ⟨echoable.calls, echoable.pings⟩

/-- The output to every client is framed, in every state of a run without stale pings. -/
theorem output_well_framed
    (run : Transition.Run (System.step order) (NoStalePing order) (.start idCounter) s) (c : ConnRef)
    (challenge : UInt64) (accepted : s.challenges[c]? = some challenge) :
    WellFramed order challenge (s.server.conn c) := by
  have initial : Echoable (.start idCounter) :=
    ⟨fun _ _ none => absurd none List.not_mem_nil, fun _ none => absurd none List.not_mem_nil⟩
  have echoable : Echoable s := run.invariant_of_reached initial fun _ _ _ before echoable guard taken =>
    echoable.step before.reachable guard taken
  obtain ⟨_, reached⟩ := endpoint_of_reachable run.reachable c challenge accepted
  exact wellFramed_of_agrees reached (echoable.calls c)

def freshPing : List Action :=
  [.accept 7,
    .handler 0 (.readOk .checkValidation (CArray.ofUInt64 .little (encryptHandshakeData 7)).toList),
    .handler 0 (.readOk .header ((MessageHeader.mk 2 0).bytes .little).toList),
    .update 1 true, .waitReturns, .test, .popFront, .onMessage ⟨0, 0, .replicate 1000 0⟩,
    .handler 0 .posted, .handler 0 .posted, .handler 0 (.writeOk (.header ⟨4, 0⟩))]

theorem freshPing_meets :
    Transition.Meets (System.step .little) (NoStalePing .little) (.start 0) freshPing := by
  refine ⟨trivial, fun _ first => ⟨trivial, fun _ second => ⟨fun _ _ _ _ => ?_, fun _ _ =>
    ⟨trivial, fun _ _ => ⟨trivial, fun _ _ => ⟨trivial, fun _ _ => ⟨trivial, fun _ _ => ⟨trivial, fun _ _ =>
    ⟨trivial, fun _ _ => ⟨trivial, fun _ _ => ⟨trivial, fun _ _ => trivial⟩⟩⟩⟩⟩⟩⟩⟩⟩⟩⟩
  cases first
  cases second
  rfl

theorem output_well_framed_freshPing :
    WellFramed .little 7 (((Transition.perform (System.step .little) (.start 0) freshPing).get
      (by decide)).server.conn 0) :=
  output_well_framed (.of_perform freshPing _ freshPing_meets (Option.some_get _).symm) 0 7 (by decide)

def stalePing : List Action :=
  [.accept 7,
    .handler 0 (.readOk .checkValidation (CArray.ofUInt64 .little (encryptHandshakeData 7)).toList),
    .handler 0 (.readOk .header ((MessageHeader.mk 2 4).bytes .little).toList),
    .handler 0 (.readOk (.payload 4) [1, 2, 3, 4]),
    .handler 0 (.readOk .header ((MessageHeader.mk 2 0).bytes .little).toList),
    .update 2 true, .waitReturns,
    .test, .popFront, .onMessage ⟨0, 0, .replicate 1000 0⟩, .endIteration,
    .test, .popFront, .onMessage ⟨0, 0, .replicate 1000 0⟩, .endIteration,
    .handler 0 .posted, .handler 0 .posted, .handler 0 .posted,
    .handler 0 (.writeOk (.header ⟨4, 0⟩)), .handler 0 (.writeOk (.header ⟨2, 4⟩)),
    .handler 0 (.writeOk (.payload [1, 2, 3, 4])), .handler 0 (.writeOk (.header ⟨2, 0⟩)),
    .handler 0 (.writeOk (.payload [1, 2, 3, 4]))]

theorem stalePing_enabled :
    (Transition.perform (System.step .little) (start 0) stalePing).isSome = true := by
  decide +kernel

theorem stale_ping_misframed : ∃ s, Transition.Reachable (System.step .little) (.start 0) s ∧
    s.challenges[0]? = some 7 ∧ (s.server.conn 0).outMsgQueue = [] ∧
    ¬ WellFramed .little 7 (s.server.conn 0) := by
  refine ⟨_, .of_isSome stalePing (start 0) stalePing_enabled, by decide +kernel, by decide +kernel,
    fun framed => ?_⟩
  have misaligned : aligned ((Transition.perform (System.step .little) (start 0) stalePing).get
      stalePing_enabled |>.server.conn 0).framesStarted = false := by
    decide +kernel
  rw [framed.aligned] at misaligned
  cases misaligned

end System
end MyCQ
