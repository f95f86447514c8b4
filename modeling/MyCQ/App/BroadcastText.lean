import MyCQ.App.Client.Dispatch
import MyCQ.App.Client.Requests

/-! The text of a broadcast, from the line that is typed to the line that is shown.

The sender copies the line into a field of fixed size, the server overwrites the
identifier behind that field, and the receivers read up to the first zero. The
line arrives whenever the sender's copy stays inside the field.
-/

set_option autoImplicit false

namespace MyCQ
open Octets (Endian)

variable {order : Endian}

theorem MyCQServer.passed_messageAll {uninitialized : ClientsListDescription} {s t : MyCQServer} {c d : ConnRef}
    {msg m : Message} {bytes : CArray Byte MessageAllDescription.sizeof}
    (known : msg.header.id = MyCQMessages.messageAll.toUInt32) (carries : msg.Carries bytes)
    (handled : s.onMessage order uninitialized (some c) msg = .ok t) (passed : m ∈ s.passed t d) :
    m = s.messageAllReply order c bytes := by
  obtain ⟨out, delivers, sent, _⟩ := (handled_of_onMessage handled).delivers
  obtain ⟨_, popped⟩ := carries.pop (by decide)
  have id : MyCQMessages.ofUInt32 msg.header.id = some .messageAll := by
    rw [known, MyCQMessages.ofUInt32_toUInt32]
  rw [delivers.passed] at passed
  cases sent d m passed with
  | echo other => simp [id] at other
  | broadcast requester payload _ _ found taken _ _ _ same =>
    cases found
    cases popped.symm.trans taken
    exact same
  | list _ other => simp [id] at other
  | notify _ _ _ other => simp [id] at other

/-- The line reaches every receiver of the broadcast: it is copied inside the field, whatever the
structure held before, and every client that receives the forwarded message shows the line. -/
structure TextSurvives (order : Endian) (inputStr : List Byte) : Prop where
  copied : ∀ uninitialized connectionModule,
    MyCQClient.messageAll order uninitialized connectionModule inputStr ≠ .overrun
  shown : ∀ uninitialized (sender after : ConnectionInterface),
    MyCQClient.messageAll order uninitialized (some sender) inputStr = .returned (some after) →
    ∀ request ∈ sender.passed after, ∃ agrees : request.Agrees,
      ∀ (buffer : Message) (memory : ClientsListDescription) (s t : MyCQServer) (c : ConnRef),
      s.onMessage order memory (some c) (request.delivered agrees buffer) = .ok t →
      ∀ d, ∀ m ∈ s.passed t d, ∃ agrees : m.Agrees, ∀ buffer,
        MyCQClient.dispatch order (m.delivered agrees buffer) = .ok (.messageAll (s.getID c) inputStr)

theorem shown_of_copied {inputStr : List Byte} {payload : MessageAllDescription}
    (text : MyCQClient.cString payload.message = .ok inputStr) (buffer : Message)
    (agrees : ((Message.ofId MyCQMessages.messageAll.toUInt32).push (payload.toBytes order).toList).Agrees)
    {memory : ClientsListDescription} {s t : MyCQServer} {c d : ConnRef} {m : Message}
    (handled : s.onMessage order memory (some c) (Message.delivered _ agrees buffer) = .ok t)
    (passed : m ∈ s.passed t d) : ∃ agrees : m.Agrees, ∀ buffer,
      MyCQClient.dispatch order (m.delivered agrees buffer) = .ok (.messageAll (s.getID c) inputStr) := by
  have arrived := (Message.carries_push MyCQMessages.messageAll.toUInt32 (payload.toBytes order)).delivered
    agrees (by decide) buffer
  have reply := MyCQServer.passed_messageAll rfl arrived handled passed
  -- Only the identifier of the sender is overwritten.
  rw [MyCQServer.messageAllReply, MessageAllDescription.ofBytes_toBytes] at reply
  subst reply
  refine ⟨Message.agrees_push_value _ _ (by decide), fun buffer => ?_⟩
  have forwarded := (Message.carries_push MyCQMessages.messageAll.toUInt32
    ({ payload with senderId := s.getID c }.toBytes order)).delivered
      (Message.agrees_push_value _ _ (by decide)) (by decide) buffer
  rw [MyCQClient.dispatch_messageAll rfl forwarded]
  simp only [text]
  rfl

/-- An accepted line survives exactly when it leaves room for the terminating zero. -/
theorem text_survives_iff (order : Endian) (inputStr : List Byte) (noZero : 0 ∉ inputStr)
    (accepted : inputStr.length ≤ 2048) : TextSurvives order inputStr ↔ inputStr.length < 2048 := by
  have whole : CString.text inputStr = inputStr := CString.text_of_not_mem inputStr noZero
  constructor
  · intro survives
    apply Nat.lt_of_not_le
    intro long
    apply survives.copied ⟨0, .replicate 2048 0, 0⟩ none
    exact MyCQClient.messageAll_overrun _ accepted (whole.symm ▸ long)
  · intro short
    have copies : ∀ uninitialized : MessageAllDescription, ∃ message,
        CString.strcpy uninitialized.message inputStr = some message :=
      fun uninitialized => CString.exists_strcpy uninitialized.message (whole.symm ▸ short)
    constructor
    · intro uninitialized connectionModule overrun
      obtain ⟨message, copied⟩ := copies uninitialized
      rw [MyCQClient.messageAll_copied accepted copied] at overrun
      cases overrun
    · intro uninitialized sender after returned request passed
      obtain ⟨message, copied⟩ := copies uninitialized
      rw [MyCQClient.messageAll_copied accepted copied] at returned
      by_cases connected : sender.isConnected = true
      · rw [MyCQClient.send_connected connected] at returned
        cases returned
        rw [ConnectionInterface.passed_sendData, List.mem_singleton] at passed
        subst passed
        refine ⟨Message.agrees_push_value _ _ (by decide), ?_⟩
        intro buffer memory s t c handled d m forwarded
        exact shown_of_copied (MyCQClient.cString_strcpy noZero copied) buffer _ handled forwarded
      · rw [MyCQClient.send_disconnected (Bool.not_eq_true _ ▸ connected)] at returned
        cases returned
        simp [ConnectionInterface.passed] at passed

theorem text_survives_hello : TextSurvives .little [104, 101, 108, 108, 111] :=
  (text_survives_iff .little [104, 101, 108, 108, 111] (by decide) (by decide)).mpr (by decide)

/-- A line that fills the field is accepted, and its terminating zero is written behind the field. -/
theorem longest_line_overruns : MyCQClient.messageAll .little ⟨0, .replicate 2048 0, 0⟩ none
      (List.replicate 2048 97) ≠ .exited ∧ (0 : Byte) ∉ List.replicate 2048 97 ∧
    ¬ TextSurvives .little (List.replicate 2048 97) := by
  have noZero : (0 : Byte) ∉ List.replicate 2048 97 := by
    intro member
    exact absurd (List.eq_of_mem_replicate member) (by decide)
  have length : (List.replicate 2048 (97 : Byte)).length = 2048 := List.length_replicate
  have whole := CString.text_of_not_mem _ noZero
  have overruns := @MyCQClient.messageAll_overrun .little none ⟨0, .replicate 2048 0, 0⟩ _
    (Nat.le_of_eq length) (whole.symm ▸ Nat.le_of_eq length.symm)
  refine ⟨?_, noZero, fun survives => survives.copied _ _ overruns⟩
  rw [overruns]
  intro exited
  cases exited

end MyCQ
