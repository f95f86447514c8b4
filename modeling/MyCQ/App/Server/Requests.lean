import MyCQ.App.Server.Delivery

/-! What `onMessage` does with a request.

`Handled` has one case for each enumerator that the switch distinguishes. It
names the message that is sent, the connections it is passed to, and what
becomes of the connection list.
-/

set_option autoImplicit false

namespace MyCQ
open Octets (Endian)

namespace MyCQServer

def messageAllReply (order : Endian) (s : MyCQServer) (c : ConnRef)
    (bytes : CArray Byte MessageAllDescription.sizeof) : Message :=
  (Message.ofId MyCQMessages.messageAll.toUInt32).push
    ({ MessageAllDescription.ofBytes order bytes with senderId := s.getID c }.toBytes order).toList

def notifyOneReply (order : Endian) (s : MyCQServer) (c : ConnRef)
    (bytes : CArray Byte NotifyOneDescription.sizeof) : Message :=
  (Message.ofId MyCQMessages.notifyOneClient.toUInt32).push
    ({ NotifyOneDescription.ofBytes order bytes with senderId := s.getID c }.toBytes order).toList

def listAllClientsReply (order : Endian) (s : MyCQServer) (c : ConnRef) (ids : CArray UInt32 1000) : Message :=
  (Message.ofId MyCQMessages.listAllClients.toUInt32).push
    ((ClientsListDescription.mk (UInt32.ofNat s.connectionsQueue.length) (s.getID c) ids).toBytes order).toList

def notifyTo (s : MyCQServer) (entries : List (Option ConnRef)) (msg : Message) (receiverId : UInt32)
    (c : ConnRef) : List Message :=
  if s.getID c = receiverId then List.replicate (entries.count (some c)) msg else []

theorem notifyLoop_ok {msg : Message} {receiverId : UInt32} {entries : List (Option ConnRef)}
    {s t : MyCQServer} (done : notifyLoop msg receiverId entries s = .ok t) :
    Delivers s t (s.notifyTo entries msg receiverId) ∧ t.connectionsQueue = s.connectionsQueue ∧
      t.disconnectCalls = s.disconnectCalls := by
  induction entries generalizing s with
  | nil =>
    cases done
    refine ⟨(Delivers.nothing rfl rfl rfl rfl).congr fun c => ?_, rfl, rfl⟩
    simp [notifyTo]
  | cons it rest ih =>
    simp only [notifyLoop] at done
    obtain ⟨c, found, ran⟩ := bind_eq_ok done
    cases it with
    | none => cases found
    | some entry =>
      cases found
      have share : ∀ d, s.notifyTo (some c :: rest) msg receiverId d =
          (if d = c ∧ s.getID c = receiverId then [msg] else []) ++ s.notifyTo rest msg receiverId d := by
        intro d
        simp only [notifyTo, List.count_cons, beq_iff_eq, Option.some.injEq]
        by_cases same : c = d
        · subst same
          by_cases meant : s.getID c = receiverId
          · simp [meant, List.replicate_succ]
          · simp [meant]
        · have other : ¬ d = c := fun back => same back.symm
          simp [same, other]
      split at ran
      · next meant =>
        obtain ⟨delivers, queue, calls⟩ := ih ran
        refine ⟨((delivers_sendData s c msg).trans delivers).congr fun d => ?_, queue, calls⟩
        have ids : (s.sendData c msg).getID = s.getID := (delivers_sendData s c msg).getID
        rw [share, notifyTo, notifyTo, ids]
        simp only [meant, and_true]
      · next meant =>
        obtain ⟨delivers, queue, calls⟩ := ih ran
        refine ⟨delivers.congr fun d => ?_, queue, calls⟩
        rw [share]
        simp [meant]

theorem notifyLoop_total (msg : Message) (receiverId : UInt32) (refs : List ConnRef) (s : MyCQServer) :
    ∃ t, notifyLoop msg receiverId (refs.map some) s = .ok t := by
  induction refs generalizing s with
  | nil => exact ⟨s, rfl⟩
  | cons c rest ih =>
    simp only [List.map_cons, notifyLoop, deref, bind, Except.bind]
    split
    · exact ih (s.sendData c msg)
    · exact ih s

inductive Handled (order : Endian) (uninitialized : ClientsListDescription) (s : MyCQServer)
    (client : Option ConnRef) (msg : Message) (t : MyCQServer) : Prop where
  | ignored : MyCQMessages.ofUInt32 msg.header.id ∈ [none, some .serverAccept] → t = s →
      Handled order uninitialized s client msg t
  | serverPing (c : ConnRef) : MyCQMessages.ofUInt32 msg.header.id = some .serverPing → client = some c →
      t = s.sendData c msg → Handled order uninitialized s client msg t
  | messageAll (c : ConnRef) (bytes : CArray Byte MessageAllDescription.sizeof) (rest : Message) :
      MyCQMessages.ofUInt32 msg.header.id = some .messageAll → client = some c →
      msg.pop MessageAllDescription.sizeof = some (bytes, rest) →
      s.sendMessageToAllClients (s.messageAllReply order c bytes) client = .ok t →
      Handled order uninitialized s client msg t
  | listAllClients (c : ConnRef) (ids : CArray UInt32 1000) :
      MyCQMessages.ofUInt32 msg.header.id = some .listAllClients → client = some c →
      s.fillClientIds 0 s.connectionsQueue uninitialized.clientIds = .ok ids →
      t = s.sendData c (s.listAllClientsReply order c ids) → Handled order uninitialized s client msg t
  | notifyOneClient (c : ConnRef) (bytes : CArray Byte NotifyOneDescription.sizeof) (rest : Message) :
      MyCQMessages.ofUInt32 msg.header.id = some .notifyOneClient → client = some c →
      msg.pop NotifyOneDescription.sizeof = some (bytes, rest) →
      notifyLoop (s.notifyOneReply order c bytes) (NotifyOneDescription.ofBytes order bytes).receiverId
        s.connectionsQueue s = .ok t →
      Handled order uninitialized s client msg t

theorem deref_ok {ptr : Option ConnRef} {c : ConnRef} (done : deref ptr = .ok c) : ptr = some c := by
  cases ptr with
  | none => cases done
  | some d =>
    cases done
    rfl

theorem extract_ok {msg : Message} {sizeof : Nat} {bytes : CArray Byte sizeof}
    (done : extract msg sizeof = .ok bytes) : ∃ rest, msg.pop sizeof = some (bytes, rest) := by
  unfold extract at done
  split at done
  · cases done
  · next found rest popped =>
    cases done
    exact ⟨rest, popped⟩

variable {order : Endian} {uninitialized : ClientsListDescription}

theorem handled_of_onMessage {s t : MyCQServer} {client : Option ConnRef} {msg : Message}
    (done : s.onMessage order uninitialized client msg = .ok t) :
    Handled order uninitialized s client msg t := by
  unfold onMessage at done
  split at done
  · next known =>
    obtain ⟨c, found, done⟩ := bind_eq_ok done
    cases done
    exact .serverPing c known (deref_ok found) rfl
  · next known =>
    obtain ⟨bytes, extracted, done⟩ := bind_eq_ok done
    obtain ⟨c, found, done⟩ := bind_eq_ok done
    obtain ⟨rest, popped⟩ := extract_ok extracted
    exact .messageAll c bytes rest known (deref_ok found) popped done
  · next known =>
    obtain ⟨c, found, done⟩ := bind_eq_ok done
    obtain ⟨ids, filled, done⟩ := bind_eq_ok done
    cases done
    exact .listAllClients c ids known (deref_ok found) filled rfl
  · next known =>
    obtain ⟨bytes, extracted, done⟩ := bind_eq_ok done
    obtain ⟨c, found, done⟩ := bind_eq_ok done
    obtain ⟨rest, popped⟩ := extract_ok extracted
    exact .notifyOneClient c bytes rest known (deref_ok found) popped done
  · next known =>
    cases done
    exact .ignored (by simp [known]) rfl
  · next known =>
    cases done
    exact .ignored (by simp [known]) rfl

theorem Handled.of_messageAll {s t : MyCQServer} {client : Option ConnRef} {msg : Message}
    (handled : Handled order uninitialized s client msg t)
    (known : MyCQMessages.ofUInt32 msg.header.id = some .messageAll) :
    ∃ c bytes rest, client = some c ∧ msg.pop MessageAllDescription.sizeof = some (bytes, rest) ∧
      s.sendMessageToAllClients (s.messageAllReply order c bytes) client = .ok t := by
  cases handled with
  | ignored other => simp [known] at other
  | serverPing _ other => simp [known] at other
  | messageAll c bytes rest _ found popped ran => exact ⟨c, bytes, rest, found, popped, ran⟩
  | listAllClients _ _ other => simp [known] at other
  | notifyOneClient _ _ _ other => simp [known] at other

theorem passed_notifyOneClient {s t : MyCQServer} {client : Option ConnRef} {msg : Message}
    (known : MyCQMessages.ofUInt32 msg.header.id = some .notifyOneClient)
    (done : s.onMessage order uninitialized client msg = .ok t) :
    ∃ c bytes rest, client = some c ∧ msg.pop NotifyOneDescription.sizeof = some (bytes, rest) ∧
      ∀ d, s.passed t d = s.notifyTo s.connectionsQueue (s.notifyOneReply order c bytes)
        (NotifyOneDescription.ofBytes order bytes).receiverId d := by
  cases handled_of_onMessage done with
  | ignored other => simp [known] at other
  | serverPing _ other => simp [known] at other
  | messageAll _ _ _ other => simp [known] at other
  | listAllClients _ _ other => simp [known] at other
  | notifyOneClient c bytes rest _ found popped ran =>
    exact ⟨c, bytes, rest, found, popped, fun d => (notifyLoop_ok ran).1.passed d⟩

/-- Why a request makes the server pass `m` to the connection `d`. -/
inductive Sent (order : Endian) (s : MyCQServer) (client : Option ConnRef) (msg : Message) (d : ConnRef)
    (m : Message) : Prop where
  | echo : MyCQMessages.ofUInt32 msg.header.id = some .serverPing → client = some d → m = msg →
      Sent order s client msg d m
  | broadcast (c : ConnRef) (bytes : CArray Byte MessageAllDescription.sizeof) (rest : Message) :
      MyCQMessages.ofUInt32 msg.header.id = some .messageAll → client = some c →
      msg.pop MessageAllDescription.sizeof = some (bytes, rest) → some d ∈ s.connectionsQueue →
      s.isConnected d = true → d ≠ c → m = s.messageAllReply order c bytes →
      Sent order s client msg d m
  | list (ids : CArray UInt32 1000) : MyCQMessages.ofUInt32 msg.header.id = some .listAllClients →
      client = some d → m = s.listAllClientsReply order d ids → Sent order s client msg d m
  | notify (c : ConnRef) (bytes : CArray Byte NotifyOneDescription.sizeof) (rest : Message) :
      MyCQMessages.ofUInt32 msg.header.id = some .notifyOneClient → client = some c →
      msg.pop NotifyOneDescription.sizeof = some (bytes, rest) → some d ∈ s.connectionsQueue →
      s.getID d = (NotifyOneDescription.ofBytes order bytes).receiverId → m = s.notifyOneReply order c bytes →
      Sent order s client msg d m

theorem Sent.recipient {s : MyCQServer} {client : Option ConnRef} {msg m : Message} {d : ConnRef}
    (sent : Sent order s client msg d m) :
    client = some d ∨ some d ∈ s.connectionsQueue ∧
      (MyCQMessages.ofUInt32 msg.header.id = some .messageAll → s.isConnected d = true) := by
  cases sent with
  | echo _ found => exact Or.inl found
  | broadcast _ _ _ _ _ _ listed isOpen => exact Or.inr ⟨listed, fun _ => isOpen⟩
  | list _ _ found => exact Or.inl found
  | notify _ _ _ known _ _ listed =>
    refine Or.inr ⟨listed, fun other => ?_⟩
    rw [known] at other
    cases other

theorem mem_broadcastTo {s : MyCQServer} {entries : List (Option ConnRef)} {msg m : Message}
    {ignoreClient : Option ConnRef} {c : ConnRef} (sent : m ∈ s.broadcastTo entries msg ignoreClient c) :
    some c ∈ entries ∧ s.isConnected c = true ∧ some c ≠ ignoreClient ∧ m = msg := by
  unfold broadcastTo at sent
  split at sent
  · next meant =>
    obtain ⟨positive, rfl⟩ := List.mem_replicate.mp sent
    exact ⟨List.count_pos_iff.mp (Nat.pos_of_ne_zero positive), meant.1, meant.2, rfl⟩
  · cases sent

theorem mem_notifyTo {s : MyCQServer} {entries : List (Option ConnRef)} {msg m : Message} {receiverId : UInt32}
    {c : ConnRef} (sent : m ∈ s.notifyTo entries msg receiverId c) :
    some c ∈ entries ∧ s.getID c = receiverId ∧ m = msg := by
  unfold notifyTo at sent
  split at sent
  · next meant =>
    obtain ⟨positive, rfl⟩ := List.mem_replicate.mp sent
    exact ⟨List.count_pos_iff.mp (Nat.pos_of_ne_zero positive), meant, rfl⟩
  · cases sent

/-- A request delivers messages and may prune the list; nothing else changes on the server. -/
theorem Handled.delivers {s t : MyCQServer} {client : Option ConnRef} {msg : Message}
    (handled : Handled order uninitialized s client msg t) :
    ∃ out, Delivers s t out ∧ (∀ d m, m ∈ out d → Sent order s client msg d m) ∧
      t.connectionsQueue = if MyCQMessages.ofUInt32 msg.header.id = some .messageAll then
        s.connectionsQueue.filter s.live else s.connectionsQueue := by
  cases handled with
  | ignored known same =>
    subst same
    have other : MyCQMessages.ofUInt32 msg.header.id ≠ some .messageAll := by
      intro id
      simp [id] at known
    exact ⟨_, .nothing rfl rfl rfl rfl, fun _ _ sent => absurd sent List.not_mem_nil, (if_neg other).symm⟩
  | serverPing c known found same =>
    subst same
    refine ⟨_, delivers_sendData s c msg, fun d m sent => ?_, by simp [known]; rfl⟩
    split at sent
    · next target =>
      exact .echo known (target ▸ found) (List.mem_singleton.mp sent)
    · cases sent
  | messageAll c bytes rest known found popped ran =>
    obtain ⟨delivers, queue, _⟩ := sendMessageToAllClients_ok ran
    refine ⟨_, delivers, fun d m sent => ?_, by rw [if_pos known, queue]⟩
    obtain ⟨listed, isOpen, other, same⟩ := mem_broadcastTo sent
    exact .broadcast c bytes rest known found popped listed isOpen (fun self => other (self ▸ found.symm)) same
  | listAllClients c ids known found filled same =>
    subst same
    refine ⟨_, delivers_sendData s c _, fun d m sent => ?_, by simp [known]; rfl⟩
    split at sent
    · next target =>
      subst target
      exact .list ids known found (List.mem_singleton.mp sent)
    · cases sent
  | notifyOneClient c bytes rest known found popped ran =>
    obtain ⟨delivers, queue, _⟩ := notifyLoop_ok ran
    refine ⟨_, delivers, fun d m sent => ?_, by simp [known, queue]⟩
    obtain ⟨listed, meant, same⟩ := mem_notifyTo sent
    exact .notify c bytes rest known found popped listed meant same

theorem sendMessageToClient_ok {s t : MyCQServer} {client : Option ConnRef} {msg : Message}
    (done : s.sendMessageToClient client msg = .ok t) :
    ∃ out, Delivers s t out ∧
      (∀ d m, m ∈ out d → m = msg ∧ client = some d ∧ s.isConnected d = true) ∧
      (t.connectionsQueue = s.connectionsQueue ∨ t.connectionsQueue = s.connectionsQueue.filter (· ≠ none)) := by
  unfold sendMessageToClient at done
  split at done
  · next c found =>
    obtain ⟨rfl, isOpen⟩ := Option.filter_eq_some_iff.mp found
    cases done
    refine ⟨_, delivers_sendData s c msg, fun d m sent => ?_, Or.inl rfl⟩
    split at sent
    · next target =>
      subst target
      exact ⟨List.mem_singleton.mp sent, rfl, isOpen⟩
    · cases sent
  · obtain ⟨s', hook, ran⟩ := bind_eq_ok done
    obtain ⟨c, rfl, rfl⟩ := onClientDisconnect_ok hook
    cases ran
    exact ⟨_, .nothing rfl rfl rfl rfl, fun _ _ sent => absurd sent List.not_mem_nil, Or.inr rfl⟩

end MyCQServer
end MyCQ
