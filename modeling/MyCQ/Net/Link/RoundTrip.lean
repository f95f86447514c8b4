import Mathlib.Data.List.Forall2
import MyCQ.Net.Contents
import MyCQ.Net.Link.Settling

/-! Whether the values of a message come out at the other end.

`<<` and `>>` count elements of the payload vector, the transport counts bytes.
Of a message only the first quarter of the storage is transmitted; a value
behind it comes out again only if the receive buffer happens to hold it.
-/

set_option autoImplicit false

namespace MyCQ
open Octets (Endian)

structure Contents where
  id : UInt32
  values : List (List Byte)
  nonempty : ∀ value ∈ values, value ≠ []
  bounded : total values < 2 ^ 32

namespace Contents

def message (x : Contents) : Message := Message.build x.id x.values

theorem agrees (x : Contents) : x.message.Agrees := by
  have size : x.message.header.size = UInt32.ofNat (total x.values) :=
    congrArg MessageHeader.size (Message.build_header x.id x.values)
  rw [Message.Agrees, size, UInt32.toNat_ofNat', Nat.mod_eq_of_lt x.bounded]
  exact (Message.build_size x.id x.values).symm

def frame (x : Contents) : Frame where
  header := ⟨x.id, UInt32.ofNat (total x.values)⟩
  body := (image x.values).take (total x.values)
  complete := by
    rw [List.length_take, length_image, UInt32.toNat_ofNat', Nat.mod_eq_of_lt x.bounded]
    omega

theorem frame_size (x : Contents) : x.frame.size = total x.values := by
  rw [Frame.size, frame, UInt32.toNat_ofNat', Nat.mod_eq_of_lt x.bounded]

theorem ofMessage_message (x : Contents) : Frame.ofMessage x.message x.agrees = x.frame := by
  have header : x.message.header = x.frame.header := Message.build_header x.id x.values
  have body : x.message.payload.transmitted = x.frame.body := by
    rw [Payload.transmitted, message, Message.build_storage, Message.build_size, frame]
  simp only [Frame.ofMessage, header, body]

theorem ofMessages_map (msgs : List Contents) (agree : ∀ msg ∈ msgs.map message, msg.Agrees) :
    Frame.ofMessages (msgs.map message) agree = msgs.map frame := by
  induction msgs with
  | nil => rfl
  | cons x rest ih =>
    have others : ∀ msg ∈ rest.map message, msg.Agrees := fun msg member =>
      agree msg (List.mem_cons_of_mem x.message member)
    have cut : Frame.ofMessages ((x :: rest).map message) agree =
        Frame.ofMessage x.message x.agrees :: Frame.ofMessages (rest.map message) others := rfl
    rw [cut, ofMessage_message, ih others, List.map_cons]

structure Restored (x : Contents) (msg : Message) : Prop where
  header : msg.header = x.message.header
  values : msg.popAll (x.values.map List.length).reverse = some x.values.reverse

/-- Each byte of the values is among those transmitted, or the receive buffer holds it already. -/
def Carried (history : List Frame) (x : Contents) : Prop :=
  ∀ b ∈ layout 0 x.values, total x.values ≤ b.2 → Frame.residue history b.2 = b.1

theorem body_getD (x : Contents) {b : Byte × Nat} (member : b ∈ layout 0 x.values)
    (transmitted : b.2 < total x.values) : x.frame.body.getD b.2 0 = b.1 := by
  have bound : total x.values < 2 ^ 64 := Nat.lt_trans x.bounded (by decide)
  have put := (Message.popAll_iff x.message x.values (Message.build_size x.id x.values) bound).mp
    (Message.popAll_build x.id x.values bound) b member
  rw [message, Message.build_storage] at put
  rw [frame, List.getD_eq_getElem?_getD, List.getElem?_take_of_lt transmitted, ← List.getD_eq_getElem?_getD]
  exact put

theorem total_pos (x : Contents) {value : List Byte} {rest : List (List Byte)}
    (some : x.values = value :: rest) : 0 < total x.values := by
  have nonempty := x.nonempty value (some ▸ List.mem_cons_self)
  rw [some, total_cons]
  exact Nat.add_pos_left (List.length_pos_iff.mpr nonempty) _

/-- The values come out of the receive buffer exactly when all their bytes are in it. -/
theorem restored_iff (history : List Frame) (x : Contents) :
    Restored x (Frame.buffer (history ++ [x.frame])) ↔ Carried history x := by
  have header : (Frame.buffer (history ++ [x.frame])).header = x.message.header := by
    rw [Frame.buffer_concat_header, message, Message.build_header, frame]
  refine (Iff.intro Restored.values fun values => ⟨header, values⟩).trans ?_
  cases contents : x.values with
  -- Nothing is popped, so an older payload in the buffer does no harm.
  | nil => simp [Message.popAll, Carried, contents, layout]
  | cons value rest =>
    have pos := x.total_pos contents
    rw [← contents]
    have nonempty : ¬ x.frame.size = 0 := by
      rw [frame_size]
      omega
    have size : (Frame.buffer (history ++ [x.frame])).payload.size = total x.values := by
      rw [Frame.buffer_concat_size, if_neg nonempty, frame_size]
    have bound : total x.values < 2 ^ 64 := Nat.lt_trans x.bounded (by decide)
    rw [Message.popAll_iff _ _ size bound]
    refine forall₂_congr fun b member => ?_
    have inside := layout_bound member
    rw [Nat.zero_add] at inside
    rw [Frame.buffer_contents, Frame.residue_concat, Frame.overlay, if_neg nonempty, frame_size,
      if_pos inside]
    -- A transmitted byte is right in any case; another one has to be left over.
    by_cases transmitted : b.2 < total x.values
    · rw [if_pos transmitted]
      exact iff_of_true (x.body_getD member transmitted) fun behind =>
        absurd transmitted (Nat.not_lt.mpr behind)
    · rw [if_neg transmitted]
      exact ⟨fun same _ => same, fun behind => behind (Nat.le_of_not_lt transmitted)⟩

def AllCarried (msgs : List Contents) : Prop :=
  ∀ front x rest, msgs = front ++ x :: rest → Carried (front.map frame) x

theorem carried_single (history : List Frame) {x : Contents} (few : x.values.length ≤ 1) : Carried history x := by
  intro b member behind
  match contents : x.values with
  | [] => rw [contents] at member; cases member
  | [value] =>
    rw [contents, layout, layout, List.append_nil] at member
    have inside := List.snd_lt_add_of_mem_zipIdx member
    rw [contents, total_cons, total_nil] at behind
    omega
  | value :: next :: rest =>
    rw [contents] at few
    exact absurd few (by simp)

theorem allCarried_single {msgs : List Contents} (few : ∀ x ∈ msgs, x.values.length ≤ 1) : AllCarried msgs := by
  rintro front x rest rfl
  exact carried_single _ (few x (List.mem_append_right front List.mem_cons_self))

end Contents

/-- As many messages have been enqueued as were sent; each is restored, in the same order. -/
def RoundTrip (msgs : List Contents) (enqueued : List Message) : Prop :=
  List.Forall₂ Contents.Restored msgs enqueued

theorem roundTrip_from (history : List Frame) (msgs : List Contents) :
    RoundTrip msgs (Frame.enqueuedFrom (Frame.buffer history) (msgs.map Contents.frame)) ↔
      ∀ front x rest, msgs = front ++ x :: rest → Contents.Carried (history ++ front.map Contents.frame) x := by
  induction msgs generalizing history with
  | nil => simp [RoundTrip, Frame.enqueuedFrom]
  | cons x rest ih =>
    rw [List.map_cons, Frame.enqueuedFrom, ← Frame.buffer_concat, RoundTrip, List.forall₂_cons,
      Contents.restored_iff]
    refine (and_congr_right fun _ => ih (history ++ [x.frame])).trans ⟨?_, ?_⟩
    · rintro ⟨first, others⟩ front y tail same
      cases front with
      | nil =>
        cases same
        rw [List.map_nil, List.append_nil]
        exact first
      | cons z front =>
        cases same
        have carried := others front y tail rfl
        rwa [List.append_assoc] at carried
    · intro all
      refine ⟨?_, fun front y tail same => ?_⟩
      · have carried := all [] x rest rfl
        rwa [List.map_nil, List.append_nil] at carried
      · have carried := all (x :: front) y tail (congrArg (x :: ·) same)
        rw [List.append_assoc]
        exact carried

/-- What reading the frames yields is a round trip exactly when all messages are carried. -/
theorem roundTrip_enqueued_iff (msgs : List Contents) :
    RoundTrip msgs (Frame.enqueued (msgs.map Contents.frame)) ↔ Contents.AllCarried msgs :=
  roundTrip_from [] msgs

namespace Link

variable {order : Endian} {challenge : UInt64} {uId : UInt32} {link settled : Link}

theorem exists_calls (order : Endian) (challenge : UInt64) (uId : UInt32) (side : Side) (msgs : List Message) :
    ∃ link, Transition.Run (Link.step order) AnswersFirst (start challenge uId) link ∧
      (link.get side).conn.sendDataCalls = msgs ∧ link.client.conn.isConnected = true := by
  induction msgs using List.reverseRecOn with
  | nil => exact ⟨_, .start, by cases side <;> rfl, rfl⟩
  | append_singleton msgs msg ih =>
    obtain ⟨link, run, calls, isOpen⟩ := ih
    have permitted : link.allowed order side (.sendData msg) = true := by simp [allowed, isOpen]
    have guarded : AnswersFirst link (side, .sendData msg) := by cases side <;> trivial
    refine ⟨_, run.next guarded (step_of permitted rfl), ?_, ?_⟩
    · rw [get_set, ← calls]
      rfl
    · cases side <;> exact isOpen

theorem sendDataCalls_handling (run : Transition.Run (Link.step order) Handling link settled) (side : Side) :
    (settled.get side).conn.sendDataCalls = (link.get side).conn.sendDataCalls := by
  refine run.invariant (P := fun l => (l.get side).conn.sendDataCalls = (link.get side).conn.sendDataCalls) rfl
    fun before a after calls handling taken => ?_
  obtain ⟨acting, _⟩ := a
  obtain ⟨_, h, rfl⟩ := handling
  obtain ⟨_, q, moved, rfl⟩ := step_eq_some taken
  have kept := Endpoint.sendDataCalls_handler moved
  cases side <;> cases acting <;> first | exact kept.trans calls | exact calls

theorem enqueued_of_settled {side : Side} {msgs : List Contents}
    (run : Transition.Run (Link.step order) AnswersFirst (start challenge uId) link)
    (calls : (link.get side).conn.sendDataCalls = msgs.map Contents.message)
    (handled : Transition.Run (Link.step order) Handling link settled) (quiescent : Quiescent order settled) :
    (settled.get side.other).enqueued = Frame.enqueued (msgs.map Contents.frame) := by
  have joined := joined_of_run (run.trans (handled.mono fun _ _ handling => handling.1))
  have sent : (settled.get side).conn.sendDataCalls = msgs.map Contents.message :=
    (sendDataCalls_handling handled side).trans calls
  have agree : ∀ msg ∈ msgs.map Contents.message, msg.Agrees := by
    intro msg member
    obtain ⟨x, _, rfl⟩ := List.mem_map.mp member
    exact x.agrees
  have enqueued := quiescent.enqueued joined side (sent ▸ agree)
  simp only [sent] at enqueued
  rw [enqueued, Contents.ofMessages_map]

/-- Once the messages have been sent, the handlers run to an end, and then the messages have been
enqueued at the other end and their values come out of them. -/
def Transports (order : Endian) (side : Side) (msgs : List Contents) : Prop :=
  ∀ challenge uId link, Transition.Run (Link.step order) AnswersFirst (start challenge uId) link →
    (link.get side).conn.sendDataCalls = msgs.map Contents.message →
    (∃ settled, Transition.Run (Link.step order) Handling link settled ∧ Quiescent order settled) ∧
    ∀ settled, Transition.Run (Link.step order) Handling link settled → Quiescent order settled →
      RoundTrip msgs (settled.get side.other).enqueued

/-- Messages are transported exactly when each of their bytes is transmitted or left over from the
messages before. -/
theorem transports_iff (order : Endian) (side : Side) (msgs : List Contents) :
    Transports order side msgs ↔ Contents.AllCarried msgs := by
  rw [← roundTrip_enqueued_iff]
  constructor
  · intro transports
    obtain ⟨link, run, calls, _⟩ := exists_calls order 0 0 side (msgs.map Contents.message)
    obtain ⟨⟨settled, handled, quiescent⟩, restored⟩ := transports 0 0 link run calls
    rw [← enqueued_of_settled run calls handled quiescent]
    exact restored settled handled quiescent
  · intro restored challenge uId link run calls
    refine ⟨?_, fun settled handled quiescent => ?_⟩
    · obtain ⟨settled, handled, _, quiescent⟩ := settles (joined_of_run run)
      exact ⟨settled, handled, quiescent⟩
    · rwa [enqueued_of_settled run calls handled quiescent]

def twoNumbers : Contents := ⟨1, [[1, 0, 0, 0], [2, 0, 0, 0]], by decide, by decide⟩

/-- The second number is not transmitted. -/
theorem second_value_lost : ¬ Transports .little .client [twoNumbers] := by
  intro transports
  obtain ⟨link, run, calls, _⟩ := exists_calls .little 0 0 .client [twoNumbers.message]
  obtain ⟨⟨settled, handled, quiescent⟩, restored⟩ := transports 0 0 link run calls
  have enqueued := @enqueued_of_settled .little 0 0 link settled .client [twoNumbers] run calls handled quiescent
  have pair := restored settled handled quiescent
  rw [enqueued] at pair
  have lost := (List.forall₂_cons.mp pair).1.values
  exact absurd lost (by decide)

end Link
end MyCQ
