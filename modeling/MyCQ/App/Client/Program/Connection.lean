import MyCQ.App.Client.Dispatch
import MyCQ.App.Client.Program
import MyCQ.Net.Arrival

/-! The client program seen from its connection.

The connection makes steps of its own, as every endpoint does; what is passed to
`sendData` is what the requests build, and what it has enqueued is shown, in
hand or still queued.
-/

set_option autoImplicit false

namespace MyCQ
open Octets (Endian)
open List (Forall₂)

namespace MyCQClient

variable {order : Endian} {connectionModule : Option ConnectionInterface}

/-- The message that a request becomes, with the clock reading for it. Fields that the request does not
set keep what the memory held before. -/
inductive Builds (order : Endian) : Request × UInt64 → Message → Prop where
  | pingServer (now : UInt64) : Builds order (.pingServer, now)
      ((Message.ofId MyCQMessages.serverPing.toUInt32).push (CArray.ofUInt64 order now).toList)
  | messageAll (inputStr : List Byte) (now : UInt64) (d : MessageAllDescription) :
      cString d.message = .ok (CString.text inputStr) → Builds order (.messageAll inputStr, now)
        ((Message.ofId MyCQMessages.messageAll.toUInt32).push (d.toBytes order).toList)
  | requestConnectedClientsList (now : UInt64) : Builds order (.requestConnectedClientsList, now)
      (.ofId MyCQMessages.listAllClients.toUInt32)
  | notifyOne (receiverId writtenMsg : List Byte) (now id : UInt64) (d : NotifyOneDescription) :
      Numeral.stoul receiverId = some id → d.receiverId = id.toUInt32 →
      cString d.message = .ok (CString.text writtenMsg) → Builds order (.notifyOne receiverId writtenMsg, now)
        ((Message.ofId MyCQMessages.notifyOneClient.toUInt32).push (d.toBytes order).toList)

theorem cString_of_strcpy {n : Nat} {field copied : CArray Byte n} {inputStr : List Byte}
    (done : CString.strcpy field inputStr = some copied) : cString copied = .ok (CString.text inputStr) := by
  rw [cString, if_pos (CString.zero_mem_strcpy done), ← CString.text_strcpy done]
  rfl

theorem perform_returned {now : UInt64} {messageAll : MessageAllDescription} {notifyOne : NotifyOneDescription}
    {request : Request} {after : Option ConnectionInterface}
    (returned : request.perform order now messageAll notifyOne connectionModule = .returned after) :
    ∃ msg, after = send connectionModule msg ∧ Builds order (request, now) msg := by
  cases request with
  | pingServer => exact ⟨_, (Outcome.returned.inj returned).symm, .pingServer now⟩
  | messageAll inputStr =>
    simp only [Request.perform, MyCQClient.messageAll] at returned
    split at returned
    · cases returned
    · split at returned
      · cases returned
      · next message copied =>
        exact ⟨_, (Outcome.returned.inj returned).symm, .messageAll inputStr now _ (cString_of_strcpy copied)⟩
  | requestConnectedClientsList => exact ⟨_, (Outcome.returned.inj returned).symm, .requestConnectedClientsList now⟩
  | notifyOne receiverId writtenMsg =>
    simp only [Request.perform, MyCQClient.notifyOne] at returned
    split at returned
    · cases returned
    · next id numeral =>
      split at returned
      · cases returned
      · next message copied =>
        exact ⟨_, (Outcome.returned.inj returned).symm,
          .notifyOne receiverId writtenMsg now id _ numeral rfl (cString_of_strcpy copied)⟩

theorem Builds.agrees {request : Request × UInt64} {msg : Message} (builds : Builds order request msg) :
    msg.Agrees := by
  cases builds with
  | pingServer => exact Message.agrees_push_value _ _ (by decide)
  | messageAll => exact Message.agrees_push_value _ _ (by decide)
  | requestConnectedClientsList => exact Message.agrees_ofId _
  | notifyOne => exact Message.agrees_push_value _ _ (by decide)

def requestHeaders : List MessageHeader := [⟨2, 8⟩, ⟨0, 2056⟩, ⟨1, 0⟩, ⟨3, 2056⟩]

theorem Builds.header {request : Request × UInt64} {msg : Message} (builds : Builds order request msg) :
    msg.header ∈ requestHeaders := by
  have sized : ∀ {n : Nat} (id : UInt32) (value : CArray Byte n),
      ((Message.ofId id).push value.toList).header = ⟨id, UInt32.ofNat n⟩ := by
    intro n id value
    have length := congrArg UInt32.ofNat ((Nat.zero_add _).trans value.length_eq)
    exact congrArg (MessageHeader.mk id) length
  cases builds with
  | pingServer => exact sized _ (CArray.ofUInt64 order _) ▸ by decide
  | messageAll _ _ d => exact sized _ (d.toBytes order) ▸ by decide
  | requestConnectedClientsList => decide
  | notifyOne _ _ _ _ d => exact sized _ (d.toBytes order) ▸ by decide

/-- No request is taken for an answer to a challenge: the top bits of its id and its size are clear. -/
theorem requestHeader_ne_answer {header : MessageHeader} (known : header ∈ requestHeaders) (challenge : UInt64) :
    (header.bytes order).toUInt64 order ≠ encryptHandshakeData challenge := by
  have below : ∀ order : Endian, ∀ header ∈ requestHeaders,
      ((header.bytes order).toUInt64 order).toNat < 0x8000000000000000 := by
    intro order
    cases order <;> decide +kernel
  intro same
  exact Nat.not_le_of_lt (below order header known) (same ▸ le_encryptHandshakeData challenge)

end MyCQClient

def MainThread.inHand : MainThread → List Message
  | .dispatch msg => [msg]
  | _ => []

namespace ClientProgram
open MyCQClient (Builds)

variable {order : Endian} {input : List Byte} {s t : ClientProgram} {a : Action}

structure Connected (order : Endian) (s : ClientProgram) (c : ConnectionInterface) : Prop where
  current : s.connectionModule = some c
  endpoint : Transition.Reachable (Endpoint.step order) ⟨.connecting, []⟩ ⟨c, s.enqueued⟩
  sends : Forall₂ (Builds order) s.sent c.sendDataCalls

structure Accounts (order : Endian) (s : ClientProgram) : Prop where
  sent : (s.sent.map fun r => Command.call r.1).Sublist s.commands
  shown : ∃ handled, Forall₂ (fun msg display => MyCQClient.dispatch order msg = .ok display) handled s.shown ∧
    handled ++ (s.main.inHand ++ s.incoming) = s.enqueued

theorem onInputCharacter_eq (s : ClientProgram) (c : Byte) : ∃ main begun,
    s.onInputCharacter c = { s with main, commands := s.commands ++ begun } ∧ main.inHand = [] := by
  unfold onInputCharacter
  split_ifs
  · exact ⟨_, [.quit], rfl, rfl⟩
  · exact ⟨_, [], by rw [List.append_nil], rfl⟩
  · exact ⟨_, [], by rw [List.append_nil], rfl⟩
  · exact ⟨_, [], by rw [List.append_nil], rfl⟩
  · exact ⟨_, [], by rw [List.append_nil], rfl⟩
  · exact ⟨_, [.quit], rfl, rfl⟩
  · exact ⟨_, [], by rw [List.append_nil], rfl⟩

theorem Connected.step {c : ConnectionInterface} (connected : Connected order s c)
    (taken : s.step order a = some t) : ∃ c', Connected order t c' := by
  obtain ⟨current, endpoint, sends⟩ := connected
  cases step_cases taken with
  | inputCharacter key point =>
    obtain ⟨main, begun, same, _⟩ := s.onInputCharacter_eq key
    rw [same]
    exact ⟨c, current, endpoint, sends⟩
  | returned now messageAll notifyOne request connectionModule point performed =>
    obtain ⟨msg, rfl, builds⟩ := MyCQClient.perform_returned performed
    by_cases isOpen : c.isConnected = true
    · have passed : MyCQClient.isConnected s.connectionModule = true := by
        rw [current]
        exact isOpen
      refine ⟨c.sendData msg, ?_, endpoint.next trivial (a := .sendData msg) rfl, ?_⟩
      · rw [current]
        exact MyCQClient.send_connected isOpen msg
      · rw [if_pos passed]
        exact List.rel_append sends (.cons builds .nil)
    · have closed : MyCQClient.isConnected s.connectionModule = false := by
        rw [current]
        exact (Bool.not_eq_true _).mp isOpen
      refine ⟨c, ?_, endpoint, ?_⟩
      · rw [MyCQClient.send_disconnected closed]
        exact current
      · rw [closed, if_neg Bool.false_ne_true, List.append_nil]
        exact sends
  | handler h c' conn out found ran =>
    obtain rfl : c = c' := Option.some.inj (current.symm.trans found)
    refine ⟨conn, rfl, endpoint.next trivial (Endpoint.step_handler ran s.enqueued), ?_⟩
    have same := Endpoint.sendDataCalls_handler (Endpoint.step_handler ran s.enqueued)
    rw [← same] at sends
    exact sends
  | _ => exact ⟨c, current, endpoint, sends⟩

theorem exists_connected
    (run : Transition.Reachable (step order) (start input (some .connecting)) s) : ∃ c, Connected order s c :=
  run.invariant (P := fun s => ∃ c, Connected order s c) ⟨.connecting, rfl, .start, .nil⟩
    fun _ _ _ ⟨_, connected⟩ _ taken => connected.step taken

theorem Accounts.step (accounts : Accounts order s) (taken : s.step order a = some t) : Accounts order t := by
  obtain ⟨sent, handled, shown, accounted⟩ := accounts
  -- A step between two points at which no message is in hand.
  have stays : ∀ main incoming, s.main.inHand = [] → main.inHand = [] → incoming = s.incoming →
      handled ++ (MainThread.inHand main ++ incoming) = s.enqueued := by
    intro main incoming before after same
    rw [before] at accounted
    rw [after, same]
    exact accounted
  cases step_cases taken with
  | isReady point =>
    refine ⟨sent, handled, shown, stays _ _ (by rw [point]; rfl) ?_ rfl⟩
    cases s.promise <;> rfl
  | get _ point => exact ⟨sent, handled, shown, stays _ _ (by rw [point]; rfl) rfl rfl⟩
  | noState => exact ⟨sent, handled, shown, accounted⟩
  | inputCharacter key point =>
    obtain ⟨main, begun, same, after⟩ := s.onInputCharacter_eq key
    rw [same]
    refine ⟨sent.trans (List.sublist_append_left _ _), handled, shown, stays _ _ (by rw [point]; rfl) after rfl⟩
  | getlineAll _ _ point => exact ⟨sent, handled, shown, stays _ _ (by rw [point]; rfl) rfl rfl⟩
  | getlineReceiver _ _ point => exact ⟨sent, handled, shown, stays _ _ (by rw [point]; rfl) rfl rfl⟩
  | getlineMessage _ _ _ point => exact ⟨sent, handled, shown, stays _ _ (by rw [point]; rfl) rfl rfl⟩
  | join quits point =>
    refine ⟨sent, handled, shown, stays _ _ (by rw [point]; rfl) ?_ rfl⟩
    cases quits <;> rfl
  | notJoinable => exact ⟨sent, handled, shown, accounted⟩
  | listenAgain point => exact ⟨sent, handled, shown, stays _ _ (by rw [point]; rfl) rfl rfl⟩
  | stillJoinable => exact ⟨sent, handled, shown, accounted⟩
  | incoming point => exact ⟨sent, handled, shown, stays _ _ (by rw [point]; rfl) rfl rfl⟩
  | nothing point => exact ⟨sent, handled, shown, stays _ _ (by rw [point]; rfl) rfl rfl⟩
  | popFront msg rest point queue =>
    rw [point, queue] at accounted
    exact ⟨sent, handled, shown, accounted⟩
  | emptyQueue => exact ⟨sent, handled, shown, accounted⟩
  | dispatch msg display point done =>
    rw [point] at accounted
    refine ⟨sent, handled ++ [msg], List.rel_append shown (.cons done .nil), ?_⟩
    rw [List.append_assoc]
    exact accounted
  | dispatchFault => exact ⟨sent, handled, shown, accounted⟩
  | returned now messageAll notifyOne request connectionModule point =>
    refine ⟨?_, handled, shown, stays _ _ (by rw [point]; rfl) rfl rfl⟩
    rw [List.map_append]
    refine sent.append ?_
    split
    · exact List.Sublist.refl _
    · exact List.nil_sublist _
  | ended now messageAll notifyOne request how point =>
    exact ⟨sent.trans (List.sublist_append_left _ _), handled, shown, stays _ _ (by rw [point]; rfl) rfl rfl⟩
  | setRaw => exact ⟨sent, handled, shown, accounted⟩
  | getchar => exact ⟨sent, handled, shown, accounted⟩
  | setCooked => exact ⟨sent, handled, shown, accounted⟩
  | setValue => exact ⟨sent, handled, shown, accounted⟩
  | alreadySatisfied => exact ⟨sent, handled, shown, accounted⟩
  | handler h c conn out =>
    refine ⟨sent, handled, shown, ?_⟩
    rw [← accounted, List.append_assoc, List.append_assoc]

theorem accounts_of_reachable {connectionModule : Option ConnectionInterface}
    (run : Transition.Reachable (step order) (start input connectionModule) s) : Accounts order s :=
  run.invariant ⟨List.nil_sublist _, [], .nil, rfl⟩ fun _ _ _ accounts _ taken => accounts.step taken

theorem exists_failed {connectionModule : Option ConnectionInterface}
    (run : Transition.Reachable (step order) (start input connectionModule) s) {reason : Fault}
    (failed : s.fault = some (.dispatch reason)) :
    ∃ msg ∈ s.enqueued, MyCQClient.dispatch order msg = .error reason := by
  refine run.invariant_of_reached (P := fun s => s.fault = some (.dispatch reason) →
    ∃ msg ∈ s.enqueued, MyCQClient.dispatch order msg = .error reason) nofun
    (fun s a t before _ _ taken failed => ?_) failed
  have clear : s.fault = none := (Option.ite_none_right_eq_some.mp taken).1.1
  cases step_cases taken with
  | dispatchFault msg fault point outcome =>
    obtain rfl : fault = reason := ProgramFault.dispatch.inj (Option.some.inj failed)
    obtain ⟨handled, _, accounted⟩ := (accounts_of_reachable before).shown
    refine ⟨msg, ?_, outcome⟩
    rw [point] at accounted
    have inHand : msg ∈ handled ++ (MainThread.inHand (.dispatch msg) ++ s.incoming) :=
      List.mem_append_right handled List.mem_cons_self
    exact accounted ▸ inHand
  | inputCharacter key =>
    obtain ⟨main, begun, same, _⟩ := s.onInputCharacter_eq key
    rw [same] at failed
    cases clear.symm.trans failed
  | noState | notJoinable | stillJoinable | emptyQueue | alreadySatisfied => cases failed
  | _ => cases clear.symm.trans failed

end ClientProgram
end MyCQ
