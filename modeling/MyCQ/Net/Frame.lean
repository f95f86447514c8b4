import MyCQ.Net.Message

/-! Frames on the wire, and what the shared receive buffer makes of them.

A connection reads all frames into one message object. `Frame.into` is the
effect of one frame on it; `residue` describes the resulting payload bytes as
an overlay of the frames' bodies, without reference to the buffer.
-/

set_option autoImplicit false

namespace MyCQ
open Octets (Endian)

structure Frame where
  header : MessageHeader
  body : List Byte
  complete : body.length = header.size.toNat
  deriving DecidableEq, Repr

theorem MessageHeader.size_pos_iff (header : MessageHeader) :
    0 < header.size ↔ 0 < header.size.toNat := UInt32.lt_iff_toNat_lt

namespace Frame

def size (f : Frame) : Nat := f.header.size.toNat

def bytes (order : Endian) (f : Frame) : List Byte := (f.header.bytes order).toList ++ f.body

def ofMessage (msg : Message) (agree : msg.header.size.toNat = msg.payload.size) : Frame :=
  ⟨msg.header, msg.payload.transmitted, by rw [Payload.length_transmitted, agree]⟩

def into (f : Frame) (buffer : Message) : Message where
  header := f.header
  payload := if 0 < f.size then (buffer.payload.resize f.size).memcpy 0 f.body else buffer.payload

/-- The receive buffer of a connection that has read `history`, oldest frame first. -/
def buffer (history : List Frame) : Message := history.foldl (fun msg f => f.into msg) (.ofId 0)

def enqueuedFrom (msg : Message) : List Frame → List Message
  | [] => []
  | f :: rest => f.into msg :: enqueuedFrom (f.into msg) rest

def enqueued (frames : List Frame) : List Message := enqueuedFrom (.ofId 0) frames

/-- How a frame changes the bytes visible through the buffer. An empty frame leaves them alone; any
other one writes its body, keeps what lies behind it up to four times its size and clears the
rest. -/
def overlay (f : Frame) (old : Nat → Byte) (position : Nat) : Byte :=
  if f.size = 0 then old position
  else if position < f.size then f.body.getD position 0
  else if position < 4 * f.size then old position
  else 0

def residue (history : List Frame) : Nat → Byte := history.foldl (fun old f => f.overlay old) fun _ => 0

def bufferSize (history : List Frame) : Nat :=
  history.foldl (fun old f => if f.size = 0 then old else f.size) 0

theorem length_bytes (order : Endian) (f : Frame) : (f.bytes order).length = 8 + f.size := by
  rw [bytes, List.length_append, CArray.length_eq, f.complete, size]

theorem into_size (f : Frame) (buffer : Message) :
    (f.into buffer).payload.size = if f.size = 0 then buffer.payload.size else f.size := by
  rw [into]
  by_cases empty : f.size = 0
  · simp [empty]
  · simp [empty, Nat.pos_of_ne_zero empty]

theorem into_contents (f : Frame) (buffer : Message) (position : Nat) :
    (f.into buffer).payload.storage.getD position 0 =
      f.overlay (fun p => buffer.payload.storage.getD p 0) position := by
  unfold into overlay
  by_cases empty : f.size = 0
  · simp only [empty, Nat.lt_irrefl, if_false, if_true]
  · have body : f.body.length = f.size := f.complete
    have fits : 4 * 0 + f.body.length ≤ (buffer.payload.resize f.size).storage.length := by
      rw [Payload.length_eq, Payload.size_resize]
      omega
    simp only [Nat.pos_of_ne_zero empty, empty, if_true, if_false, Payload.memcpy]
    rw [Buffer.getD_overwrite 0 _ _ _ _ fits, body]
    simp only [Payload.resize, Buffer.getD_resize, Nat.mul_zero, Nat.zero_le, Nat.zero_add, true_and,
      Nat.sub_zero]

theorem buffer_contents (history : List Frame) (position : Nat) :
    (buffer history).payload.storage.getD position 0 = residue history position := by
  have hom := @List.foldl_hom Message (Nat → Byte) Frame (fun msg p => msg.payload.storage.getD p 0)
    (fun msg f => into f msg) (fun old f => overlay f old) history (.ofId 0)
    fun msg f => (funext (into_contents f msg)).symm
  exact (congrFun hom position).symm

theorem buffer_size (history : List Frame) : (buffer history).payload.size = bufferSize history :=
  (@List.foldl_hom Message Nat Frame (fun msg => msg.payload.size) (fun msg f => into f msg)
    (fun old f => if f.size = 0 then old else f.size) history (.ofId 0)
    fun msg f => (into_size f msg).symm).symm

theorem buffer_concat (history : List Frame) (f : Frame) :
    buffer (history ++ [f]) = f.into (buffer history) := by
  simp [buffer, List.foldl_append]

@[simp] theorem buffer_concat_header (history : List Frame) (f : Frame) :
    (buffer (history ++ [f])).header = f.header := by
  rw [buffer_concat, into]

theorem buffer_concat_size (history : List Frame) (f : Frame) :
    (buffer (history ++ [f])).payload.size = if f.size = 0 then bufferSize history else f.size := by
  rw [buffer_concat, into_size, buffer_size]

theorem residue_concat (history : List Frame) (f : Frame) :
    residue (history ++ [f]) = f.overlay (residue history) := by
  simp only [residue, List.foldl_append, List.foldl_cons, List.foldl_nil]

theorem enqueuedFrom_concat (msg : Message) (frames : List Frame) (f : Frame) :
    enqueuedFrom msg (frames ++ [f]) =
      enqueuedFrom msg frames ++ [f.into (frames.foldl (fun msg f => f.into msg) msg)] := by
  induction frames generalizing msg with
  | nil => rfl
  | cons g rest ih => simp only [List.cons_append, enqueuedFrom, ih, List.foldl_cons]

theorem enqueued_concat (frames : List Frame) (f : Frame) :
    enqueued (frames ++ [f]) = enqueued frames ++ [buffer (frames ++ [f])] := by
  rw [buffer_concat]
  exact enqueuedFrom_concat _ _ _

@[simp] theorem length_enqueued (frames : List Frame) : (enqueued frames).length = frames.length := by
  suffices each : ∀ msg, (enqueuedFrom msg frames).length = frames.length from each _
  induction frames with
  | nil => exact fun _ => rfl
  | cons f rest ih => exact fun msg => by simp only [enqueuedFrom, List.length_cons, ih]

theorem bytes_append_inj (order : Endian) (f g : Frame) (left right : List Byte)
    (same : f.bytes order ++ left = g.bytes order ++ right) : f = g ∧ left = right := by
  simp only [bytes, List.append_assoc] at same
  obtain ⟨heads, rest⟩ := List.append_inj same
    ((f.header.bytes order).length_eq.trans (g.header.bytes order).length_eq.symm)
  have header : f.header = g.header := by
    rw [← MessageHeader.ofBytes_bytes order f.header, CArray.ext heads, MessageHeader.ofBytes_bytes]
  obtain ⟨body, tail⟩ := List.append_inj rest (by rw [f.complete, g.complete, header])
  obtain ⟨header, body, complete⟩ := f
  cases header
  cases body
  exact ⟨rfl, tail⟩

def Incomplete (order : Endian) (rest : List Byte) : Prop :=
  rest.length < 8 ∨ ∃ (header : MessageHeader) (tail : List Byte),
    rest = (header.bytes order).toList ++ tail ∧ tail.length < header.size.toNat

theorem incomplete_nil (order : Endian) : Incomplete order [] := Or.inl (by decide)

theorem not_incomplete_cons (order : Endian) (f : Frame) (rest : List Byte) :
    ¬ Incomplete order (f.bytes order ++ rest) := by
  rintro (short | ⟨header, tail, same, short⟩)
  · rw [List.length_append, length_bytes] at short
    omega
  · rw [bytes, List.append_assoc] at same
    obtain ⟨heads, rest_eq⟩ := List.append_inj same
      ((f.header.bytes order).length_eq.trans (header.bytes order).length_eq.symm)
    have header_eq : f.header = header := by
      rw [← MessageHeader.ofBytes_bytes order f.header, CArray.ext heads, MessageHeader.ofBytes_bytes]
    -- The incomplete rest would announce as many bytes as follow.
    rw [← rest_eq, List.length_append, f.complete, header_eq] at short
    omega

/-- There is one way to cut a stream into frames and an incomplete rest. -/
theorem parse_unique (order : Endian) (frames other : List Frame) (rest : List Byte)
    (incomplete : Incomplete order rest)
    (same : frames.flatMap (bytes order) = other.flatMap (bytes order) ++ rest) :
    other = frames ∧ rest = [] := by
  induction other generalizing frames with
  | nil =>
    cases frames with
    | nil => exact ⟨rfl, same.symm⟩
    | cons f frames =>
      rw [List.flatMap_nil, List.nil_append] at same
      rw [← same, List.flatMap_cons] at incomplete
      exact absurd incomplete (not_incomplete_cons order f _)
  | cons g other ih =>
    cases frames with
    | nil =>
      have lengths := congrArg List.length same
      simp only [List.flatMap_nil, List.flatMap_cons, List.length_nil, List.length_append,
        length_bytes] at lengths
      omega
    | cons f frames =>
      simp only [List.flatMap_cons, List.append_assoc] at same
      -- Both sides begin with a frame, and the bytes determine it.
      obtain ⟨rfl, tail⟩ := bytes_append_inj order f g _ _ same
      obtain ⟨rfl, none⟩ := ih frames tail
      exact ⟨rfl, none⟩

theorem flatMap_bytes_eq_nil (order : Endian) (frames : List Frame)
    (none : frames.flatMap (bytes order) = []) : frames = [] := by
  obtain ⟨same, _⟩ := parse_unique order frames [] [] (incomplete_nil order) none
  exact same.symm

theorem bufferSize_eq_zero_iff (history : List Frame) : bufferSize history = 0 ↔ ∀ f ∈ history, f.size = 0 := by
  suffices general : ∀ old : Nat, history.foldl (fun old f => if f.size = 0 then old else f.size) old = 0 ↔
      old = 0 ∧ ∀ f ∈ history, f.size = 0 by
    rw [bufferSize, general]
    exact and_iff_right rfl
  induction history with
  | nil => simp
  | cons f rest ih =>
    intro old
    rw [List.foldl_cons, ih, List.forall_mem_cons]
    by_cases empty : f.size = 0
    · simp [empty]
    · simp [empty]

end Frame
end MyCQ
