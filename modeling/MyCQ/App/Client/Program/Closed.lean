import MyCQ.App.Client.Program.Connection
import MyCQ.App.Client.Program.Keyboard

/-! The client program after its connection has closed.

The main loop looks at the incoming queue only while the client is connected.
What has arrived by then and is still queued is never shown, except for the
message that the main thread has already decided to take. Nothing connects again.
-/

set_option autoImplicit false

namespace MyCQ
open Octets (Endian)
open List (Forall₂)
open MyCQClient (isConnected)
open ConnectionInterface (Handler)

def MainThread.takes : MainThread → Bool
  | .popFront | .dispatch _ => true
  | _ => false

namespace ClientProgram

variable {order : Endian} {input : List Byte} {connectionModule : Option ConnectionInterface}
  {s t u : ClientProgram} {a : Action}

def due (s : ClientProgram) : List Message :=
  match s.main with
  | .popFront => s.incoming.take 1
  | .dispatch msg => [msg]
  | _ => []

def queued (s : ClientProgram) : List Message :=
  match s.main with
  | .popFront => s.incoming.tail
  | _ => s.incoming

theorem length_due_le (s : ClientProgram) : s.due.length ≤ 1 := by
  unfold due
  split
  · exact List.length_take_le 1 s.incoming
  · exact Nat.le_refl 1
  · exact Nat.zero_le 1

theorem due_eq_nil (idle : s.main.takes = false) : s.due = [] := by
  unfold due
  split
  · next point => cases point ▸ idle
  · next msg point => cases point ▸ idle
  · rfl

theorem queued_eq_incoming (idle : s.main.takes = false) : s.queued = s.incoming := by
  unfold queued
  split
  · next point => cases point ▸ idle
  · rfl

theorem takes_onInputCharacter (s : ClientProgram) (c : Byte) : (s.onInputCharacter c).main.takes = false := by
  unfold onInputCharacter
  split_ifs <;> rfl

/-- What may happen on the way from `s` to `t` when the connection is closed in `s`. -/
structure Silent (order : Endian) (s t : ClientProgram) : Prop where
  closed : isConnected t.connectionModule = false
  sent : t.sent = s.sent
  shown : ∃ front displays, t.shown = s.shown ++ displays ∧
    Forall₂ (fun msg display => MyCQClient.dispatch order msg = .ok display) front displays ∧ front ++ t.due = s.due
  queued : s.queued <+: t.queued

theorem Silent.refl (closed : isConnected s.connectionModule = false) : Silent order s s :=
  ⟨closed, rfl, ⟨[], [], (List.append_nil _).symm, .nil, rfl⟩, List.prefix_refl _⟩

theorem Silent.trans (first : Silent order s t) (second : Silent order t u) : Silent order s u := by
  obtain ⟨_, sent, ⟨front, displays, shown, related, due⟩, queued⟩ := first
  obtain ⟨closed, sent', ⟨front', displays', shown', related', due'⟩, queued'⟩ := second
  refine ⟨closed, sent'.trans sent, ⟨front ++ front', displays ++ displays', ?_, List.rel_append related related', ?_⟩,
    queued.trans queued'⟩
  · rw [shown', shown, List.append_assoc]
  · rw [List.append_assoc, due', due]

theorem isConnected_handler {h : Handler} {c conn : ConnectionInterface} {out : Option Message}
    (current : s.connectionModule = some c) (closed : isConnected s.connectionModule = false)
    (ran : c.runHandler order h = some (conn, out)) : conn.isConnected = false := by
  rw [current] at closed
  refine (Bool.not_eq_true _).mp fun isOpen => ?_
  cases closed.symm.trans (Endpoint.isOpen_handler (Endpoint.step_handler ran s.enqueued) isOpen)

theorem queued_handler (nonempty : s.main = .popFront → s.incoming ≠ []) (more enqueued : List Message)
    (connectionModule : Option ConnectionInterface) :
    let t := { s with connectionModule, incoming := s.incoming ++ more, enqueued }
    t.due = s.due ∧ s.queued <+: t.queued := by
  cases point : s.main with
  | popFront =>
    obtain ⟨msg, rest, queue⟩ := List.exists_cons_of_ne_nil (nonempty point)
    simp only [due, queued, point, queue, List.cons_append, List.take_succ_cons, List.take_zero,
      List.tail_cons, List.prefix_append, and_self]
  | _ => simp only [due, queued, point, List.prefix_append, and_self]

theorem silent_of_step (nonempty : s.main = .popFront → s.incoming ≠ [])
    (closed : isConnected s.connectionModule = false) (taken : s.step order a = some t) : Silent order s t := by
  -- A step that leaves alone what the client shows and has to show.
  have aside : ∀ u : ClientProgram, u.connectionModule = s.connectionModule → u.sent = s.sent → u.shown = s.shown →
      u.due = s.due → u.queued = s.queued → Silent order s u := by
    intro u same sent shown due queued
    exact ⟨same ▸ closed, sent, ⟨[], [], shown.trans (List.append_nil _).symm, .nil, due⟩, queued ▸ List.prefix_refl _⟩
  have moves : ∀ u : ClientProgram, s.main.takes = false → u.main.takes = false → u.incoming = s.incoming →
      u.connectionModule = s.connectionModule → u.sent = s.sent → u.shown = s.shown → Silent order s u := by
    intro u before after same connection sent shown
    refine aside u connection sent shown ?_ ?_
    · rw [due_eq_nil before, due_eq_nil after]
    · rw [queued_eq_incoming before, queued_eq_incoming after, same]
  cases step_cases taken with
  | isReady point =>
    refine moves _ (by rw [point]; rfl) ?_ rfl rfl rfl rfl
    cases s.promise <;> rfl
  | get _ point => exact moves _ (by rw [point]; rfl) rfl rfl rfl rfl rfl
  | noState => exact aside _ rfl rfl rfl rfl rfl
  | inputCharacter key point =>
    obtain ⟨main, begun, same, _⟩ := s.onInputCharacter_eq key
    have idle := s.takes_onInputCharacter key
    rw [same] at idle ⊢
    exact moves _ (by rw [point]; rfl) idle rfl rfl rfl rfl
  | getlineAll _ _ point => exact moves _ (by rw [point]; rfl) rfl rfl rfl rfl rfl
  | getlineReceiver _ _ point => exact moves _ (by rw [point]; rfl) rfl rfl rfl rfl rfl
  | getlineMessage _ _ _ point => exact moves _ (by rw [point]; rfl) rfl rfl rfl rfl rfl
  | join quits point =>
    refine moves _ (by rw [point]; rfl) ?_ rfl rfl rfl rfl
    cases quits <;> rfl
  | notJoinable => exact aside _ rfl rfl rfl rfl rfl
  | listenAgain point => exact moves _ (by rw [point]; rfl) rfl rfl rfl rfl rfl
  | stillJoinable => exact aside _ rfl rfl rfl rfl rfl
  | incoming _ connected => cases closed.symm.trans connected
  | nothing point => exact moves _ (by rw [point]; rfl) rfl rfl rfl rfl rfl
  | popFront msg rest point queue =>
    refine aside _ rfl rfl rfl ?_ ?_
    · simp only [due, point, queue, List.take_succ_cons, List.take_zero]
    · simp only [ClientProgram.queued, point, queue, List.tail_cons]
  | emptyQueue => exact aside _ rfl rfl rfl rfl rfl
  | dispatch msg display point done =>
    refine ⟨closed, rfl, ⟨[msg], [display], rfl, .cons done .nil, ?_⟩, ?_⟩
    · simp only [due, point, List.append_nil]
    · simp only [ClientProgram.queued, point, List.prefix_refl]
  | dispatchFault => exact aside _ rfl rfl rfl rfl rfl
  | returned now messageAll notifyOne request connectionModule point performed =>
    obtain ⟨msg, rfl, _⟩ := MyCQClient.perform_returned performed
    rw [MyCQClient.send_disconnected closed]
    refine moves _ (by rw [point]; rfl) rfl rfl rfl ?_ rfl
    rw [closed, if_neg Bool.false_ne_true, List.append_nil]
  | ended now messageAll notifyOne request how point => exact moves _ (by rw [point]; rfl) rfl rfl rfl rfl rfl
  | setRaw => exact aside _ rfl rfl rfl rfl rfl
  | getchar => exact aside _ rfl rfl rfl rfl rfl
  | setCooked => exact aside _ rfl rfl rfl rfl rfl
  | setValue => exact aside _ rfl rfl rfl rfl rfl
  | alreadySatisfied => exact aside _ rfl rfl rfl rfl rfl
  | handler h c conn out current ran =>
    obtain ⟨due, queued⟩ := queued_handler nonempty out.toList (s.enqueued ++ out.toList) conn
    exact ⟨isConnected_handler current closed ran, rfl, ⟨[], [], (List.append_nil _).symm, .nil, due⟩, queued⟩

theorem Silent.length_shown (silent : Silent order s t) : t.shown.length ≤ s.shown.length + 1 := by
  obtain ⟨front, displays, shown, related, due⟩ := silent.shown
  have bound : front.length + t.due.length ≤ 1 := by
    rw [← List.length_append, due]
    exact s.length_due_le
  rw [shown, List.length_append, ← related.length_eq]
  omega

/-- In every run from a reachable state with a closed connection. -/
theorem falls_silent (run : Transition.Reachable (step order) (start input connectionModule) s)
    (closed : isConnected s.connectionModule = false) (onward : Transition.Reachable (step order) s t) :
    Silent order s t ∧ t.shown.length ≤ s.shown.length + 1 := by
  have silent : Silent order s t :=
    onward.invariant_of_reached (.refl closed) fun _ _ _ between silent _ taken =>
      have nonempty := (inputInvariant_of_reachable (run.trans between)).queue
      silent.trans (silent_of_step nonempty silent.closed taken)
  exact ⟨silent, silent.length_shown⟩

def failsEarly : List Action :=
  [.handler .connected, .handler (.readOk .serverValidationRequest (CArray.ofUInt64 .little 7).toList),
    .handler (.writeOk (.validationData (encryptHandshakeData 7))),
    .handler (.readOk .header ((MessageHeader.mk 4 0).bytes .little).toList),
    .handler (.readOk .header ((MessageHeader.mk 4 0).bytes .little).toList),
    .main, .main, .handler (.readFailed .header [])]

theorem failsEarly_enabled :
    (Transition.perform (step .little) (start [] (some .connecting)) failsEarly).isSome = true := by decide

def goesOn : List Action := List.replicate 6 .main

theorem goesOn_enabled : (Transition.perform (step .little) ((Transition.perform (step .little)
    (start [] (some .connecting)) failsEarly).get failsEarly_enabled) goesOn).isSome = true := by decide

theorem falls_silent_failsEarly : ∃ s t, (Silent .little s t ∧ t.shown.length ≤ s.shown.length + 1) ∧
    t.shown = [.nothing] ∧ t.incoming = [.ofId 4] :=
  ⟨_, _, falls_silent (.of_isSome failsEarly (start [] (some .connecting)) failsEarly_enabled) (by decide)
    (.of_isSome goesOn _ goesOn_enabled), by decide, by decide⟩

end ClientProgram
end MyCQ
