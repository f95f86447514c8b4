import MyCQ.App.Client
import MyCQ.App.Server.Requests
import MyCQ.Foundation.CString
import MyCQ.Net.Transfer

/-! What the client shows for messages that carry the structure it expects. -/

set_option autoImplicit false

namespace MyCQ
open Octets (Endian)

theorem MyCQServer.extract_of_carries {n : Nat} {msg : Message} {value : CArray Byte n}
    (carries : msg.Carries value) (bound : n < 2 ^ 64) : extract msg n = .ok value := by
  obtain ⟨rest, popped⟩ := carries.pop bound
  simp only [extract, popped]

namespace MyCQClient

theorem map_eq_ok {ε α β : Type} {x : Except ε α} {f : α → β} {result : β} (done : x.map f = .ok result) :
    ∃ value, x = .ok value ∧ result = f value := by
  cases x with
  | error => cases done
  | ok value => exact ⟨value, rfl, (Except.ok.inj done).symm⟩

variable {order : Endian} {msg : Message}

theorem dispatch_messageAll {d : MessageAllDescription}
    (known : msg.header.id = MyCQMessages.messageAll.toUInt32) (carries : msg.Carries (d.toBytes order)) :
    dispatch order msg = (cString d.message).map fun text => .messageAll d.senderId text := by
  have extracted := MyCQServer.extract_of_carries carries (by decide)
  simp only [dispatch, known, MyCQMessages.ofUInt32_toUInt32, extracted]
  simp only [bind, Except.bind, MessageAllDescription.ofBytes_toBytes]
  cases cString d.message <;> rfl

theorem dispatch_listAllClients {d : ClientsListDescription}
    (known : msg.header.id = MyCQMessages.listAllClients.toUInt32) (carries : msg.Carries (d.toBytes order)) :
    dispatch order msg = (otherClients d.ownId d.clientIds 0 d.numActiveIds.toNat).map fun others =>
      .listAllClients d.ownId others := by
  have extracted := MyCQServer.extract_of_carries carries (by decide)
  simp only [dispatch, known, MyCQMessages.ofUInt32_toUInt32, extracted]
  simp only [bind, Except.bind, ClientsListDescription.ofBytes_toBytes]
  cases otherClients d.ownId d.clientIds 0 d.numActiveIds.toNat <;> rfl

theorem dispatch_notifyOneClient {d : NotifyOneDescription}
    (known : msg.header.id = MyCQMessages.notifyOneClient.toUInt32) (carries : msg.Carries (d.toBytes order)) :
    dispatch order msg = (cString d.message).map fun text => .notifyOneClient d.senderId text := by
  have extracted := MyCQServer.extract_of_carries carries (by decide)
  simp only [dispatch, known, MyCQMessages.ofUInt32_toUInt32, extracted]
  simp only [bind, Except.bind, NotifyOneDescription.ofBytes_toBytes]
  cases cString d.message <;> rfl

theorem dispatch_serverPing {display : Display}
    (known : MyCQMessages.ofUInt32 msg.header.id = some .serverPing) (done : dispatch order msg = .ok display) :
    ∃ bytes : CArray Byte 8, MyCQServer.extract msg timePointSize = .ok bytes ∧
      display = .serverPing (bytes.toUInt64 order) := by
  simp only [dispatch, known] at done
  obtain ⟨bytes, extracted, shown⟩ := bind_eq_ok done
  exact ⟨bytes, extracted, (Except.ok.inj shown).symm⟩

theorem dispatch_serverAccept {display : Display}
    (known : msg.header.id = MyCQMessages.serverAccept.toUInt32) (done : dispatch order msg = .ok display) :
    display = .nothing := by
  simp only [dispatch, known, MyCQMessages.ofUInt32_toUInt32] at done
  exact (Except.ok.inj done).symm

theorem otherClients_ok (ownId : UInt32) (ids : CArray UInt32 1000) (i remaining : Nat)
    (inside : i + remaining ≤ 1000) :
    otherClients ownId ids i remaining =
      .ok (((ids.toList.drop i).take remaining).filter (· ≠ ownId)) := by
  induction remaining generalizing i with
  | zero => simp [otherClients]
  | succ remaining ih =>
    have present : i < ids.toList.length := by
      rw [ids.length_eq]
      omega
    simp only [otherClients, List.getElem?_eq_getElem present]
    rw [ih (i + 1) (by omega), List.drop_eq_getElem_cons present, List.take_succ_cons, List.filter_cons]
    by_cases own : ids.toList[i] = ownId
    · simp [own, bind, Except.bind]
    · simp [own, bind, Except.bind]

theorem cString_strcpy {n : Nat} {field copied : CArray Byte n} {inputStr : List Byte}
    (noZero : 0 ∉ inputStr) (done : CString.strcpy field inputStr = some copied) :
    cString copied = .ok inputStr := by
  have text : copied.toList.takeWhile (· ≠ 0) = inputStr :=
    (CString.text_strcpy done).trans (CString.text_of_not_mem inputStr noZero)
  rw [cString, if_pos (CString.zero_mem_strcpy done), text]

end MyCQClient
end MyCQ
