import MyCQ.App.Client.Dispatch
import MyCQ.App.Client.Requests
import MyCQ.Net.Endpoint.Client

/-! A private message, from the two lines that are typed to the connections it is passed to.

The first line is read as a number, which is narrowed to the 32 bits of an
identifier. The second is copied into a field of fixed size, and here nothing
compares its length with the field.
-/

set_option autoImplicit false

namespace MyCQ
open Octets (Endian)

variable {order : Endian}

theorem MyCQServer.passed_notifyOne {uninitialized : ClientsListDescription} {s t : MyCQServer}
    {client : Option ConnRef} {request : Message} {d : NotifyOneDescription} {e : ConnRef}
    (known : request.header.id = MyCQMessages.notifyOneClient.toUInt32) (carries : request.Carries (d.toBytes order))
    (handled : s.onMessage order uninitialized client request = .ok t) (passed : s.passed t e ≠ []) :
    some e ∈ s.connectionsQueue ∧ s.getID e = d.receiverId := by
  have id : MyCQMessages.ofUInt32 request.header.id = some .notifyOneClient := by
    rw [known, MyCQMessages.ofUInt32_toUInt32]
  obtain ⟨_, _, _, _, taken, passes⟩ := passed_notifyOneClient id handled
  obtain ⟨_, popped⟩ := carries.pop (by decide)
  cases popped.symm.trans taken
  obtain ⟨m, member⟩ := List.exists_mem_of_ne_nil _ passed
  rw [passes, NotifyOneDescription.ofBytes_toBytes] at member
  obtain ⟨listed, meant, _⟩ := mem_notifyTo member
  exact ⟨listed, meant⟩

namespace MyCQClient

def notifyOneRequest (order : Endian) (d : NotifyOneDescription) : Message :=
  (Message.ofId MyCQMessages.notifyOneClient.toUInt32).push (d.toBytes order).toList

theorem notifyOneRequest_inj {d e : NotifyOneDescription}
    (same : notifyOneRequest order d = notifyOneRequest order e) : d = e := by
  have left : (notifyOneRequest order d).Carries (d.toBytes order) := Message.carries_push _ _
  have right : (notifyOneRequest order e).Carries (e.toBytes order) := Message.carries_push _ _
  rw [← same] at right
  rw [← NotifyOneDescription.ofBytes_toBytes order d, left.inj right, NotifyOneDescription.ofBytes_toBytes]

/-- The structure holds what was typed, and the server passes the message to no one whose identifier is
another number. -/
structure AsTyped (order : Endian) (receiverId writtenMsg : List Byte) (d : NotifyOneDescription) : Prop where
  address : (d.receiverId.toNat : Int) = Numeral.value receiverId
  message : writtenMsg ++ [0] <+: d.message.toList
  reaches : ∀ (request : Message) uninitialized (s t : MyCQServer) client,
    request.header.id = MyCQMessages.notifyOneClient.toUInt32 → request.Carries (d.toBytes order) →
    s.onMessage order uninitialized client request = .ok t → ∀ e, s.passed t e ≠ [] →
      some e ∈ s.connectionsQueue ∧ ((s.getID e).toNat : Int) = Numeral.value receiverId

theorem AsTyped.of_fields {receiverId writtenMsg : List Byte} {d : NotifyOneDescription}
    (same : (d.receiverId.toNat : Int) = Numeral.value receiverId) (message : writtenMsg ++ [0] <+: d.message.toList) :
    AsTyped order receiverId writtenMsg d where
  address := same
  message := message
  reaches _ _ _ _ _ known carries handled _ passed := by
    obtain ⟨listed, meant⟩ := MyCQServer.passed_notifyOne known carries handled passed
    exact ⟨listed, meant ▸ same⟩

def SendsTyped (order : Endian) (connectionModule : Option ConnectionInterface) (receiverId writtenMsg : List Byte) :
    Outcome → Prop
  | .returned after => after = connectionModule ∨
    ∃ d, after = connectionModule.map (fun c => c.sendData (notifyOneRequest order d)) ∧
      AsTyped order receiverId writtenMsg d
  | .exited | .thrown => True
  | .overrun => False

variable {connectionModule : Option ConnectionInterface} {receiverId writtenMsg : List Byte} {id : UInt64}
  {c : ConnectionInterface}

theorem sendData_ne (c : ConnectionInterface) (msg : Message) : c.sendData msg ≠ c := by
  intro same
  have calls := congrArg (fun c => c.sendDataCalls.length) same
  simp [ConnectionInterface.sendData] at calls

theorem sendData_inj {first second : Message} (same : c.sendData first = c.sendData second) : first = second := by
  have passed := c.passed_sendData first
  rw [same, c.passed_sendData second] at passed
  exact (List.singleton_inj.mp passed).symm

theorem SendsTyped.fits (uninitialized : NotifyOneDescription) {message : CArray Byte 2048}
    (connected : c.isConnected = true) (numeral : Numeral.stoul receiverId = some id)
    (copied : CString.strcpy uninitialized.message writtenMsg = some message)
    (typed : SendsTyped order (some c) receiverId writtenMsg
      (notifyOne order uninitialized (some c) receiverId writtenMsg)) :
    0 ≤ Numeral.value receiverId ∧ Numeral.value receiverId < UInt32.size := by
  rw [notifyOne_copied numeral copied, send_connected connected] at typed
  rcases typed with nothing | ⟨d, sent, asTyped⟩
  · exact absurd (Option.some.inj nothing) (sendData_ne c _)
  · have same := notifyOneRequest_inj (sendData_inj (Option.some.inj sent))
    apply (Numeral.toUInt32_stoul_eq_iff numeral).mp
    rw [← asTyped.address, ← same]

theorem not_sendsTyped_overrun (uninitialized : NotifyOneDescription) (numeral : Numeral.stoul receiverId = some id)
    (long : 2048 ≤ (CString.text writtenMsg).length) : ¬ SendsTyped order connectionModule receiverId writtenMsg
      (notifyOne order uninitialized connectionModule receiverId writtenMsg) := by
  rw [notifyOne_overrun uninitialized numeral long]
  exact not_false

theorem sendsTyped_of_fits (uninitialized : NotifyOneDescription) {message : CArray Byte 2048}
    (noZero : 0 ∉ writtenMsg) (numeral : Numeral.stoul receiverId = some id)
    (copied : CString.strcpy uninitialized.message writtenMsg = some message)
    (fits : 0 ≤ Numeral.value receiverId ∧ Numeral.value receiverId < UInt32.size) :
    SendsTyped order (some c) receiverId writtenMsg
      (notifyOne order uninitialized (some c) receiverId writtenMsg) := by
  rw [notifyOne_copied numeral copied]
  by_cases connected : c.isConnected = true
  · rw [send_connected connected]
    refine Or.inr ⟨_, rfl, AsTyped.of_fields ((Numeral.toUInt32_stoul_eq_iff numeral).mpr fits) ?_⟩
    rw [CString.toList_strcpy copied, CString.text_of_not_mem writtenMsg noZero]
    exact ⟨_, by rw [List.append_assoc]; rfl⟩
  · have disconnected : isConnected (some c) = false := (Bool.not_eq_true _).mp connected
    exact Or.inl (send_disconnected disconnected _)

/-- Whatever is typed and whatever the structure held before: `NotifyOne` sends nothing or what was typed
exactly when it throws, or the message leaves room for its zero and the number fits 32 bits or is not sent. -/
theorem private_message_iff (order : Endian) (uninitialized : NotifyOneDescription)
    (connectionModule : Option ConnectionInterface) (receiverId writtenMsg : List Byte) (noZero : 0 ∉ writtenMsg) :
    SendsTyped order connectionModule receiverId writtenMsg
        (notifyOne order uninitialized connectionModule receiverId writtenMsg) ↔
      Numeral.stoul receiverId = none ∨ writtenMsg.length < 2048 ∧
        (isConnected connectionModule = false ∨
          0 ≤ Numeral.value receiverId ∧ Numeral.value receiverId < UInt32.size) := by
  have whole : CString.text writtenMsg = writtenMsg := CString.text_of_not_mem writtenMsg noZero
  cases numeral : Numeral.stoul receiverId with
  | none =>
    apply iff_of_true _ (Or.inl rfl)
    simp only [notifyOne, numeral]
    trivial
  | some id =>
    by_cases short : writtenMsg.length < 2048
    · obtain ⟨message, copied⟩ := CString.exists_strcpy uninitialized.message (whole.symm ▸ short)
      simp only [reduceCtorEq, false_or, short, true_and]
      constructor
      · intro typed
        cases connectionModule with
        | none => exact Or.inl rfl
        | some c =>
          by_cases connected : c.isConnected = true
          · exact Or.inr (typed.fits uninitialized connected numeral copied)
          · exact Or.inl ((Bool.not_eq_true _).mp connected)
      · rintro (disconnected | fits)
        · rw [notifyOne_copied numeral copied, send_disconnected disconnected]
          exact Or.inl rfl
        · cases connectionModule with
          | none =>
            rw [notifyOne_copied numeral copied]
            exact Or.inl rfl
          | some c => exact sendsTyped_of_fits uninitialized noZero numeral copied fits
    · apply iff_of_false
      · exact not_sendsTyped_overrun uninitialized numeral (whole.symm ▸ Nat.le_of_not_lt short)
      · rintro (none | ⟨less, _⟩)
        · cases none
        · exact short less

theorem private_message_hello : SendsTyped .little (some .connecting) [55] [104, 105]
    (notifyOne .little ⟨0, 0, .replicate 2048 0⟩ (some .connecting) [55] [104, 105]) :=
  (private_message_iff .little ⟨0, 0, .replicate 2048 0⟩ (some .connecting) [55] [104, 105] (by decide)).mpr
    (by decide)

/-- A message for `4294967296` is addressed to the client `0`, and a message of 2048 characters is copied
beyond its field. -/
theorem private_message_misdirected :
    ¬ SendsTyped .little (some .connecting) [52, 50, 57, 52, 57, 54, 55, 50, 57, 54] [104, 105]
      (notifyOne .little ⟨0, 0, .replicate 2048 0⟩ (some .connecting) [52, 50, 57, 52, 57, 54, 55, 50, 57, 54]
        [104, 105]) ∧
    ¬ SendsTyped .little (some .connecting) [55] (List.replicate 2048 97)
      (notifyOne .little ⟨0, 0, .replicate 2048 0⟩ (some .connecting) [55] (List.replicate 2048 97)) := by
  have parsed : Numeral.stoul [52, 50, 57, 52, 57, 54, 55, 50, 57, 54] = some 4294967296 := by decide
  have seven : Numeral.stoul [55] = some 7 := by decide
  constructor
  · intro typed
    obtain ⟨message, copied⟩ := CString.exists_strcpy (.replicate 2048 0)
      (by decide : (CString.text [104, 105]).length < 2048)
    have fits := typed.fits ⟨0, 0, .replicate 2048 0⟩ rfl parsed copied
    exact absurd fits (by decide)
  · apply not_sendsTyped_overrun ⟨0, 0, .replicate 2048 0⟩ seven
    have noZero : (0 : Byte) ∉ List.replicate 2048 97 := by
      intro member
      exact absurd (List.eq_of_mem_replicate member) (by decide)
    rw [CString.text_of_not_mem _ noZero, List.length_replicate]

end MyCQClient
end MyCQ
