import MyCQ.Net.Endpoint.Validation

/-! Whether a message depends on the frames that were received before it.

All frames of a connection are read into one buffer. `frame_isolation_iff` says
when the message enqueued for a frame is the same after two histories.
-/

set_option autoImplicit false

namespace MyCQ
open Octets (Endian)

namespace Endpoint
open ConnectionInterface

variable {order : Endian}

inductive HasReceived (order : Endian) (history : List Frame) (p : Endpoint) : Prop where
  | intro (challenge : UInt64) (uId : UInt32) (answer : CArray Byte 8) :
      Transition.Reachable (Endpoint.step order) ⟨.accepted challenge uId, []⟩ p →
      answer.toUInt64 order = encryptHandshakeData challenge →
      p.conn.socketConnection.received = answer.toList ++ history.flatMap (Frame.bytes order) →
      HasReceived order history p

theorem HasReceived.enqueued {history : List Frame} {p : Endpoint} (received : HasReceived order history p) :
    p.enqueued = Frame.enqueued history := by
  obtain ⟨challenge, uId, answer, run, solved, stream⟩ := received
  cases (serverEnd_of_reachable run).inbound with
  | awaiting _ _ nothing =>
    have lengths := congrArg List.length (nothing.symm.trans stream)
    rw [List.length_append, answer.length_eq, List.length_nil] at lengths
    omega
  | serving first _ _ serving =>
    obtain ⟨parsed, rest, cut, _, _⟩ := serving.frames
    rw [stream, List.append_assoc] at cut
    have same : answer.toList = first.toList :=
      List.append_inj_left cut (answer.length_eq.trans first.length_eq.symm)
    exact serving.enqueued_of_received (same ▸ stream)
  | refused _ _ _ wrong => exact absurd ⟨answer, _, stream, solved⟩ wrong

theorem exists_hasReceived (order : Endian) (history : List Frame) : ∃ p, HasReceived order history p := by
  let answer := CArray.ofUInt64 order (encryptHandshakeData 0)
  have solved : answer.toUInt64 order = encryptHandshakeData 0 := CArray.toUInt64_ofUInt64 _ _
  have validated := @step_readOk_of_mem order ⟨.accepted 0 0, []⟩ .checkValidation answer
    (List.mem_singleton.mpr rfl)
  let serving := { (accepted 0 0).finishRead .checkValidation answer.toList with
    handshakeIn := answer.toUInt64 order, handshakeFlag := true }.readHeader
  have ran : ((accepted 0 0).finishRead .checkValidation answer.toList).onRead order .checkValidation answer =
      (serving, none) := congrArg (fun c => (c, none)) (if_pos solved)
  rw [ran] at validated
  obtain ⟨p, run, _, received⟩ := @exists_takeFrames order ⟨serving, []⟩ rfl history
  exact ⟨p, 0, 0, answer, (Transition.Run.next .start trivial validated).trans run, solved, received⟩

/-- After either history the next frame yields the same message, whose payload has the announced
size. -/
def FrameIsolation (order : Endian) (left right : List Frame) (f : Frame) : Prop :=
  ∀ p q m n, HasReceived order (left ++ [f]) p → HasReceived order (right ++ [f]) q →
    p.enqueued.getLast? = some m → q.enqueued.getLast? = some n →
    m = n ∧ m.payload.size = m.header.size.toNat ∧ n.payload.size = n.header.size.toNat

-- Header and body are the frame's own. An earlier frame can show only in the size
-- of the payload and in the elements that the body does not fill.
/-- The histories leave nothing that shows through the frame: an empty frame follows only empty
ones, and behind the body of a frame both have left the same bytes. -/
def Unaffected (left right : List Frame) (f : Frame) : Prop :=
  (f.size = 0 → ∀ g ∈ left ++ right, g.size = 0) ∧
    ∀ position, f.size ≤ position → position < 4 * f.size →
      Frame.residue left position = Frame.residue right position

/-- The size agrees with the header unless an empty frame follows a non-empty one. -/
theorem buffer_concat_agrees_iff (history : List Frame) (f : Frame) :
    (Frame.buffer (history ++ [f])).payload.size = f.header.size.toNat ↔
      (f.size = 0 → ∀ g ∈ history, g.size = 0) := by
  rw [Frame.buffer_concat_size, ← Frame.bufferSize_eq_zero_iff]
  have header : f.header.size.toNat = f.size := rfl
  rw [header]
  by_cases empty : f.size = 0
  · simp [empty]
  · simp [empty]

theorem buffer_concat_eq_iff (left right : List Frame) (f : Frame)
    (leftAgrees : (Frame.buffer (left ++ [f])).payload.size = f.size)
    (rightAgrees : (Frame.buffer (right ++ [f])).payload.size = f.size) :
    Frame.buffer (left ++ [f]) = Frame.buffer (right ++ [f]) ↔
      ∀ position, f.size ≤ position → position < 4 * f.size →
        Frame.residue left position = Frame.residue right position := by
  have overlays : ∀ position, f.size ≤ position → position < 4 * f.size →
      (Frame.residue (left ++ [f]) position = Frame.residue (right ++ [f]) position ↔
        Frame.residue left position = Frame.residue right position) := by
    intro position behind inside
    have nonempty : ¬ f.size = 0 := by omega
    have beyond : ¬ position < f.size := Nat.not_lt.mpr behind
    simp only [Frame.residue_concat, Frame.overlay, nonempty, beyond, inside, if_true, if_false]
  constructor
  · intro same position behind inside
    rw [← overlays position behind inside, ← Frame.buffer_contents, ← Frame.buffer_contents, same]
  · intro residues
    have length : ∀ history, (Frame.buffer (history ++ [f])).payload.size = f.size →
        (Frame.buffer (history ++ [f])).payload.storage.length = 4 * f.size := by
      intro history agrees
      rw [Payload.length_eq, agrees]
    have payload : (Frame.buffer (left ++ [f])).payload = (Frame.buffer (right ++ [f])).payload := by
      apply Payload.ext
      apply Buffer.ext_getD 0 _ _ ((length left leftAgrees).trans (length right rightAgrees).symm)
      intro position inside
      rw [length left leftAgrees] at inside
      rw [Frame.buffer_contents, Frame.buffer_contents]
      by_cases behind : f.size ≤ position
      · exact (overlays position behind inside).mpr (residues position behind inside)
      · have nonempty : ¬ f.size = 0 := by omega
        have front : position < f.size := Nat.lt_of_not_le behind
        simp only [Frame.residue_concat, Frame.overlay, nonempty, front, if_true, if_false]
    refine Message.ext ?_ payload
    rw [Frame.buffer_concat_header, Frame.buffer_concat_header]

theorem last_enqueued {history : List Frame} {f : Frame} {p : Endpoint} {m : Message}
    (received : HasReceived order (history ++ [f]) p) (last : p.enqueued.getLast? = some m) :
    m = Frame.buffer (history ++ [f]) := by
  rw [received.enqueued, Frame.enqueued_concat, List.getLast?_concat] at last
  exact (Option.some.inj last).symm

theorem isolation_iff_buffer (order : Endian) (left right : List Frame) (f : Frame) :
    FrameIsolation order left right f ↔
      Frame.buffer (left ++ [f]) = Frame.buffer (right ++ [f]) ∧
        (Frame.buffer (left ++ [f])).payload.size = f.size ∧
        (Frame.buffer (right ++ [f])).payload.size = f.size := by
  constructor
  · intro isolated
    obtain ⟨p, receivedLeft⟩ := exists_hasReceived order (left ++ [f])
    obtain ⟨q, receivedRight⟩ := exists_hasReceived order (right ++ [f])
    have outcome := isolated p q _ _ receivedLeft receivedRight
      (by rw [receivedLeft.enqueued, Frame.enqueued_concat, List.getLast?_concat])
      (by rw [receivedRight.enqueued, Frame.enqueued_concat, List.getLast?_concat])
    rwa [Frame.buffer_concat_header, Frame.buffer_concat_header] at outcome
  · rintro ⟨same, leftAgrees, rightAgrees⟩ p q m n receivedLeft receivedRight lastLeft lastRight
    rw [last_enqueued receivedLeft lastLeft, last_enqueued receivedRight lastRight,
      Frame.buffer_concat_header, Frame.buffer_concat_header]
    exact ⟨same, leftAgrees, rightAgrees⟩

/-- A message is independent of what was received before exactly when the earlier frames leave
nothing that shows through it. -/
theorem frame_isolation_iff (order : Endian) (left right : List Frame) (f : Frame) :
    FrameIsolation order left right f ↔ Unaffected left right f := by
  rw [isolation_iff_buffer]
  have agrees := fun history => buffer_concat_agrees_iff history f
  have sizes : (f.size = 0 → ∀ g ∈ left ++ right, g.size = 0) ↔
      (Frame.buffer (left ++ [f])).payload.size = f.size ∧
        (Frame.buffer (right ++ [f])).payload.size = f.size := by
    rw [show f.size = f.header.size.toNat from rfl, agrees left, agrees right]
    simp only [List.forall_mem_append]
    exact forall_and
  rw [Unaffected, sizes]
  constructor
  · rintro ⟨same, leftAgrees, rightAgrees⟩
    exact ⟨⟨leftAgrees, rightAgrees⟩, (buffer_concat_eq_iff left right f leftAgrees rightAgrees).mp same⟩
  · rintro ⟨⟨leftAgrees, rightAgrees⟩, residues⟩
    exact ⟨(buffer_concat_eq_iff left right f leftAgrees rightAgrees).mpr residues, leftAgrees, rightAgrees⟩

/-- An empty request behind one with a body inherits the body. -/
theorem empty_frame_inherits :
    ¬ FrameIsolation .little [⟨⟨2, 4⟩, [1, 2, 3, 4], rfl⟩] [] ⟨⟨2, 0⟩, [], rfl⟩ := by
  rw [isolation_iff_buffer]
  decide

end Endpoint
end MyCQ
