import Mathlib.Data.List.Induction
import MyCQ.App.Client
import MyCQ.App.Server.Requests
import MyCQ.Net.Endpoint.Client
import MyCQ.Net.Endpoint.Isolation

/-! Whether the values that the programs extract lie inside the payloads.

The size of a payload is what the peer announced, or what an earlier frame
left when the peer announced nothing; neither program compares it with the
structure it extracts.
-/

set_option autoImplicit false

namespace MyCQ
open Octets (Endian)

namespace Frame

theorem mem_enqueued_iff (frames : List Frame) (m : Message) :
    m ∈ enqueued frames ↔ ∃ history f, history ++ [f] <+: frames ∧ m = buffer (history ++ [f]) := by
  induction frames using List.reverseRecOn with
  | nil =>
    constructor
    · intro none
      cases none
    · rintro ⟨history, f, sub, _⟩
      simp at sub
  | append_singleton frames f ih =>
    rw [enqueued_concat, List.mem_append, ih, List.mem_singleton]
    constructor
    · rintro (⟨history, g, sub, same⟩ | same)
      · exact ⟨history, g, sub.trans (List.prefix_append frames [f]), same⟩
      · exact ⟨frames, f, List.prefix_refl _, same⟩
    · rintro ⟨history, g, sub, same⟩
      rcases List.prefix_concat_iff.mp sub with whole | shorter
      · exact Or.inr (same.trans (congrArg buffer whole))
      · exact Or.inl ⟨history, g, shorter, same⟩

theorem size_lt (f : Frame) : f.size < 2 ^ 64 :=
  Nat.lt_trans f.header.size.toNat_lt (by decide)

theorem bufferSize_lt (history : List Frame) : bufferSize history < 2 ^ 64 := by
  suffices general : ∀ old, old < 2 ^ 64 →
      history.foldl (fun old f => if f.size = 0 then old else f.size) old < 2 ^ 64 from general 0 (by decide)
  induction history with
  | nil => exact fun _ bound => bound
  | cons f rest ih =>
    intro old bound
    apply ih _
    dsimp only
    split
    · exact bound
    · exact f.size_lt

end Frame

theorem MyCQServer.extract_error {msg : Message} {sizeof : Nat} {fault : Fault}
    (failed : extract msg sizeof = .error fault) : fault = .extraction := by
  unfold extract at failed
  split at failed
  · cases failed
    rfl
  · cases failed

theorem extract_error_iff (msg : Message) (sizeof : Nat) (size : msg.payload.size < 2 ^ 64)
    (bound : sizeof < 2 ^ 64) :
    MyCQServer.extract msg sizeof = .error .extraction ↔ msg.payload.size < sizeof := by
  have found := msg.pop_isSome_iff sizeof size bound
  unfold MyCQServer.extract
  cases popped : msg.pop sizeof with
  | none =>
    rw [popped] at found
    simpa using found
  | some result =>
    rw [popped] at found
    simpa using found

theorem extract_bind_error_iff {β : Type} {msg : Message} {sizeof : Nat} (size : msg.payload.size < 2 ^ 64)
    (bound : sizeof < 2 ^ 64) {next : CArray Byte sizeof → Except Fault β}
    (later : ∀ bytes, next bytes ≠ .error .extraction) :
    (MyCQServer.extract msg sizeof >>= next) = .error .extraction ↔
      ∃ n, some sizeof = some n ∧ msg.payload.size < n := by
  simp only [Option.some.injEq, exists_eq_left']
  rw [← extract_error_iff msg sizeof size bound]
  constructor
  · intro failed
    rcases bind_eq_error failed with outside | ⟨bytes, _, impossible⟩
    · exact outside
    · exact absurd impossible (later bytes)
  · intro outside
    rw [outside]
    rfl

theorem no_extraction_iff {β : Type} {msg : Message} {outcome : Except Fault β}
    (other : outcome ≠ .error .extraction) :
    outcome = .error .extraction ↔ ∃ n : Nat, none = some n ∧ msg.payload.size < n := by
  apply iff_of_false other
  rintro ⟨_, none, _⟩
  cases none

namespace MyCQServer

def requestPayload (id : UInt32) : Option Nat :=
  match MyCQMessages.ofUInt32 id with
  | some .messageAll => some MessageAllDescription.sizeof
  | some .notifyOneClient => some NotifyOneDescription.sizeof
  | _ => none

theorem deref_error {ptr : Option ConnRef} {fault : Fault} (failed : deref ptr = .error fault) :
    fault = .nullDereference := by
  cases ptr with
  | none =>
    cases failed
    rfl
  | some c => cases failed

theorem onClientDisconnect_error {s : MyCQServer} {ptr : Option ConnRef} {fault : Fault}
    (failed : s.onClientDisconnect ptr = .error fault) : fault = .nullDereference := by
  rcases bind_eq_error failed with null | ⟨_, _, impossible⟩
  · exact deref_error null
  · cases impossible

theorem broadcastLoop_error {msg : Message} {ignoreClient : Option ConnRef} {entries : List (Option ConnRef)}
    {s : MyCQServer} {fault : Fault} (failed : broadcastLoop msg ignoreClient entries s = .error fault) :
    fault = .nullDereference := by
  induction entries generalizing s with
  | nil => cases failed
  | cons connIt rest ih =>
    simp only [broadcastLoop] at failed
    split at failed
    · rcases bind_eq_error failed with later | ⟨_, _, impossible⟩
      · exact ih later
      · cases impossible
    · rcases bind_eq_error failed with hook | ⟨_, _, failed⟩
      · exact onClientDisconnect_error hook
      · rcases bind_eq_error failed with later | ⟨_, _, impossible⟩
        · exact ih later
        · cases impossible

theorem sendMessageToAllClients_error {s : MyCQServer} {msg : Message} {ignoreClient : Option ConnRef}
    {fault : Fault} (failed : s.sendMessageToAllClients msg ignoreClient = .error fault) :
    fault = .nullDereference := by
  rcases bind_eq_error failed with loop | ⟨_, _, finish⟩
  · exact broadcastLoop_error loop
  · dsimp only at finish
    split at finish <;> cases finish

theorem sendMessageToClient_error {s : MyCQServer} {client : Option ConnRef} {msg : Message} {fault : Fault}
    (failed : s.sendMessageToClient client msg = .error fault) : fault = .nullDereference := by
  unfold sendMessageToClient at failed
  split at failed
  · cases failed
  · rcases bind_eq_error failed with hook | ⟨_, _, impossible⟩
    · exact onClientDisconnect_error hook
    · cases impossible

theorem notifyLoop_error {msg : Message} {receiverId : UInt32} {entries : List (Option ConnRef)}
    {s : MyCQServer} {fault : Fault} (failed : notifyLoop msg receiverId entries s = .error fault) :
    fault = .nullDereference := by
  induction entries generalizing s with
  | nil => cases failed
  | cons it rest ih =>
    simp only [notifyLoop] at failed
    rcases bind_eq_error failed with null | ⟨_, _, later⟩
    · exact deref_error null
    · split at later
      · exact ih later
      · exact ih later

theorem fillClientIds_error {s : MyCQServer} {i : Nat} {entries : List (Option ConnRef)}
    {ids : CArray UInt32 1000} {fault : Fault} (failed : s.fillClientIds i entries ids = .error fault) :
    fault = .nullDereference ∨ fault = .clientIdsOverflow := by
  induction entries generalizing i ids with
  | nil => cases failed
  | cons entry rest ih =>
    simp only [fillClientIds] at failed
    rcases bind_eq_error failed with null | ⟨_, _, later⟩
    · exact Or.inl (deref_error null)
    · split at later
      · exact ih later
      · cases later
        exact Or.inr rfl

theorem onMessage_extraction_iff {order : Endian} {uninitialized : ClientsListDescription} (s : MyCQServer)
    (c : ConnRef) (msg : Message) (size : msg.payload.size < 2 ^ 64) :
    s.onMessage order uninitialized (some c) msg = .error .extraction ↔
      ∃ sizeof, requestPayload msg.header.id = some sizeof ∧ msg.payload.size < sizeof := by
  unfold onMessage requestPayload
  split
  · next known =>
    simp only [known]
    refine no_extraction_iff fun failed => ?_
    cases failed
  · next known =>
    simp only [known]
    refine extract_bind_error_iff size (by decide) fun bytes failed => ?_
    cases sendMessageToAllClients_error failed
  · next known =>
    simp only [known]
    refine no_extraction_iff fun failed => ?_
    rcases bind_eq_error failed with null | ⟨_, _, later⟩
    · cases null
    · rcases bind_eq_error later with filling | ⟨_, _, impossible⟩
      · rcases fillClientIds_error filling with other | other <;> cases other
      · cases impossible
  · next known =>
    simp only [known]
    refine extract_bind_error_iff size (by decide) fun bytes failed => ?_
    cases notifyLoop_error failed
  · next known =>
    simp only [known]
    refine no_extraction_iff fun failed => ?_
    cases failed
  · next known =>
    simp only [known]
    refine no_extraction_iff fun failed => ?_
    cases failed

/-- The server handles the request without reading outside the payload; one that is too short for
its structure changes nothing and the next message is handled. -/
def HandlesSafely (order : Endian) (msg : Message) : Prop :=
  ∀ (uninitialized : ClientsListDescription) (s : MyCQServer) (c : ConnRef), none ∉ s.connectionsQueue →
    s.onMessage order uninitialized (some c) msg ≠ .error .extraction ∧
      ∀ sizeof, requestPayload msg.header.id = some sizeof → msg.header.size.toNat < sizeof →
        ∃ t, s.onMessage order uninitialized (some c) msg = .ok t ∧
          t.connectionsQueue = s.connectionsQueue ∧ t.conn = s.conn

def withListener (id : UInt32) : MyCQServer :=
  { start 0 with
    conn := fun _ => { (default : ConnectionInterface) with socketConnection := .fresh true, id := id }
    created := 2
    connectionsQueue := [some 1] }

theorem withListener_forwards {order : Endian} {uninitialized : ClientsListDescription} {msg : Message}
    {sizeof : Nat} {bytes : CArray Byte NotifyOneDescription.sizeof} {t : MyCQServer} {rest : Message}
    (known : requestPayload msg.header.id = some sizeof)
    (popped : msg.pop NotifyOneDescription.sizeof = some (bytes, rest))
    (done : (withListener (NotifyOneDescription.ofBytes order bytes).receiverId).onMessage order uninitialized
      (some 0) msg = .ok t) :
    t.conn ≠ (withListener (NotifyOneDescription.ofBytes order bytes).receiverId).conn := by
  let s := withListener (NotifyOneDescription.ofBytes order bytes).receiverId
  have reached : ∀ reply, t.conn 1 = (s.conn 1).sendAll [reply] → t.conn ≠ s.conn := by
    intro reply sent same
    have calls := congrArg ConnectionInterface.sendDataCalls ((congrFun same 1).symm.trans sent)
    cases calls
  cases handled_of_onMessage done with
  | ignored other =>
    unfold requestPayload at known
    split at known
    · next id => simp [id] at other
    · next id => simp [id] at other
    · cases known
  | serverPing _ id => simp [requestPayload, id] at known
  | listAllClients _ _ id => simp [requestPayload, id] at known
  | messageAll c payload left id found taken ran =>
    cases found
    obtain ⟨delivers, _⟩ := sendMessageToAllClients_ok ran
    exact reached _ (delivers.conn 1)
  | notifyOneClient c payload left id found taken ran =>
    cases found
    cases popped.symm.trans taken
    obtain ⟨delivers, _⟩ := notifyLoop_ok ran
    have share : s.notifyTo s.connectionsQueue (s.notifyOneReply order 0 bytes)
        (NotifyOneDescription.ofBytes order bytes).receiverId 1 = [s.notifyOneReply order 0 bytes] := if_pos rfl
    exact reached _ ((delivers.conn 1).trans (congrArg _ share))

theorem requestPayload_eq {id : UInt32} {sizeof : Nat} (known : requestPayload id = some sizeof) :
    sizeof = 2056 := by
  unfold requestPayload at known
  split at known <;> cases known <;> rfl

/-- A request is handled safely exactly when its own frame is long enough; what an earlier frame
left in the buffer does not help. -/
theorem handlesSafely_buffer_iff (order : Endian) (history : List Frame) (f : Frame) :
    HandlesSafely order (Frame.buffer (history ++ [f])) ↔
      ∀ sizeof, requestPayload f.header.id = some sizeof → sizeof ≤ f.size := by
  have header := Frame.buffer_concat_header history f
  have bound : (Frame.buffer (history ++ [f])).payload.size < 2 ^ 64 := by
    rw [Frame.buffer_size]
    exact Frame.bufferSize_lt _
  have contents := Frame.buffer_concat_size history f
  generalize Frame.buffer (history ++ [f]) = msg at header bound contents
  constructor
  · intro safe sizeof known
    refine Nat.le_of_not_lt fun short => ?_
    rw [← header] at known
    have small : sizeof = 2056 := requestPayload_eq known
    have fits : ¬ msg.payload.size < sizeof := by
      intro outside
      refine (safe ⟨0, 0, .replicate 1000 0⟩ (start 0) 0 List.not_mem_nil).1 ?_
      exact (onMessage_extraction_iff (start 0) 0 msg bound).mpr ⟨sizeof, known, outside⟩
    have enough : (msg.pop NotifyOneDescription.sizeof).isSome = true := by
      apply (msg.pop_isSome_iff _ bound (by decide)).mpr
      rw [small] at fits
      exact Nat.le_of_not_lt fits
    -- The buffer holds enough from an earlier frame, so the request is forwarded to a
    -- listener although it is too short.
    obtain ⟨⟨bytes, rest⟩, popped⟩ := Option.isSome_iff_exists.mp enough
    have announced : msg.header.size.toNat < sizeof := by
      rw [header]
      exact short
    have listener : none ∉ (withListener (NotifyOneDescription.ofBytes order bytes).receiverId).connectionsQueue := by
      simp [withListener]
    obtain ⟨t, done, _, same⟩ := (safe ⟨0, 0, .replicate 1000 0⟩ _ 0 listener).2 sizeof known announced
    exact withListener_forwards known popped done same
  · intro longEnough uninitialized s c _
    have own : ∀ sizeof, requestPayload msg.header.id = some sizeof → sizeof ≤ f.size := by
      rw [header]
      exact longEnough
    refine ⟨fun failed => ?_, fun sizeof known announced => ?_⟩
    · obtain ⟨sizeof, known, outside⟩ := (onMessage_extraction_iff s c msg bound).mp failed
      have room := own sizeof known
      have small := requestPayload_eq known
      rw [contents, if_neg (by omega)] at outside
      omega
    · rw [header] at announced
      exact absurd announced (Nat.not_lt.mpr (own sizeof known))

end MyCQServer

namespace MyCQClient

def replyPayload (id : UInt32) : Option Nat :=
  match MyCQMessages.ofUInt32 id with
  | some .serverPing => some timePointSize
  | some .messageAll => some MessageAllDescription.sizeof
  | some .listAllClients => some ClientsListDescription.sizeof
  | some .notifyOneClient => some NotifyOneDescription.sizeof
  | _ => none

theorem otherClients_error {ownId : UInt32} {ids : CArray UInt32 1000} {i remaining : Nat} {fault : Fault}
    (failed : otherClients ownId ids i remaining = .error fault) : fault = .clientIdsOverflow := by
  induction remaining generalizing i with
  | zero => cases failed
  | succ remaining ih =>
    simp only [otherClients] at failed
    split at failed
    · cases failed
      rfl
    · rcases bind_eq_error failed with later | ⟨_, _, impossible⟩
      · exact ih later
      · cases impossible

theorem cString_error {n : Nat} {field : CArray Byte n} {fault : Fault}
    (failed : cString field = .error fault) : fault = .stringOverread := by
  unfold cString at failed
  split at failed
  · cases failed
  · cases failed
    rfl

theorem dispatch_extraction_iff {order : Endian} (msg : Message) (size : msg.payload.size < 2 ^ 64) :
    dispatch order msg = .error .extraction ↔
      ∃ sizeof, replyPayload msg.header.id = some sizeof ∧ msg.payload.size < sizeof := by
  unfold dispatch replyPayload
  split
  · next known =>
    simp only [known]
    refine extract_bind_error_iff size (by decide) fun bytes failed => ?_
    cases failed
  · next known =>
    simp only [known]
    refine extract_bind_error_iff size (by decide) fun bytes failed => ?_
    rcases bind_eq_error failed with string | ⟨_, _, impossible⟩
    · cases cString_error string
    · cases impossible
  · next known =>
    simp only [known]
    refine extract_bind_error_iff size (by decide) fun bytes failed => ?_
    rcases bind_eq_error failed with list | ⟨_, _, impossible⟩
    · cases otherClients_error list
    · cases impossible
  · next known =>
    simp only [known]
    refine extract_bind_error_iff size (by decide) fun bytes failed => ?_
    rcases bind_eq_error failed with string | ⟨_, _, impossible⟩
    · cases cString_error string
    · cases impossible
  · next known =>
    simp only [known]
    refine no_extraction_iff fun failed => ?_
    cases failed
  · next known =>
    simp only [known]
    refine no_extraction_iff fun failed => ?_
    cases failed

end MyCQClient

/-- Both programs extract safely from whatever a peer may send: the server from requests of a
validated client, the client from messages of the server. -/
structure ExtractionSafe (order : Endian) (frames : List Frame) : Prop where
  server : ∀ p, Endpoint.HasReceived order frames p → ∀ msg ∈ p.enqueued, MyCQServer.HandlesSafely order msg
  client : ∀ p, Endpoint.ReceivedFromServer order frames p → ∀ msg ∈ p.enqueued,
    MyCQClient.dispatch order msg ≠ .error .extraction

/-- Extraction is safe exactly when every request announces at least the size of its structure and
every message to the client finds that much in the buffer. -/
theorem extraction_safe_iff (order : Endian) (frames : List Frame) :
    ExtractionSafe order frames ↔
      (∀ f ∈ frames, ∀ sizeof, MyCQServer.requestPayload f.header.id = some sizeof → sizeof ≤ f.size) ∧
        ∀ history f, history ++ [f] <+: frames → ∀ sizeof,
          MyCQClient.replyPayload f.header.id = some sizeof → sizeof ≤ Frame.bufferSize (history ++ [f]) := by
  constructor
  · intro safe
    refine ⟨fun f member => ?_, fun history f sub sizeof known => ?_⟩
    · obtain ⟨p, received⟩ := Endpoint.exists_hasReceived order frames
      obtain ⟨history, rest, cut⟩ := List.append_of_mem member
      refine (MyCQServer.handlesSafely_buffer_iff order history f).mp (safe.server p received _ ?_)
      rw [received.enqueued, Frame.mem_enqueued_iff]
      exact ⟨history, f, ⟨rest, by rw [cut, List.append_assoc, List.singleton_append]⟩, rfl⟩
    · obtain ⟨p, received⟩ := Endpoint.exists_receivedFromServer order frames
      refine Nat.le_of_not_lt fun short => safe.client p received (Frame.buffer (history ++ [f])) ?_ ?_
      · rw [received.enqueued, Frame.mem_enqueued_iff]
        exact ⟨history, f, sub, rfl⟩
      · refine (MyCQClient.dispatch_extraction_iff _ ?_).mpr ⟨sizeof, ?_, ?_⟩
        · rw [Frame.buffer_size]
          exact Frame.bufferSize_lt _
        · rwa [Frame.buffer_concat_header]
        · rwa [Frame.buffer_size]
  · rintro ⟨requests, replies⟩
    refine ⟨fun p received msg member => ?_, fun p received msg member failed => ?_⟩
    · rw [received.enqueued, Frame.mem_enqueued_iff] at member
      obtain ⟨history, f, sub, rfl⟩ := member
      refine (MyCQServer.handlesSafely_buffer_iff order history f).mpr (requests f ?_)
      exact sub.subset (List.mem_append_right _ (List.mem_singleton.mpr rfl))
    · rw [received.enqueued, Frame.mem_enqueued_iff] at member
      obtain ⟨history, f, sub, rfl⟩ := member
      rw [MyCQClient.dispatch_extraction_iff _ (by rw [Frame.buffer_size]; exact Frame.bufferSize_lt _),
        Frame.buffer_concat_header, Frame.buffer_size] at failed
      obtain ⟨sizeof, known, short⟩ := failed
      exact Nat.not_lt.mpr (replies history f sub sizeof known) short

/-- An empty `MessageAll` request makes the server read outside the payload. -/
theorem empty_request_unsafe : ¬ ExtractionSafe .little [⟨⟨0, 0⟩, [], rfl⟩] := by
  intro safe
  obtain ⟨p, received⟩ := Endpoint.exists_hasReceived .little [⟨⟨0, 0⟩, [], rfl⟩]
  have handled := safe.server p received (Message.ofId 0)
    (by rw [received.enqueued]; exact List.mem_singleton.mpr rfl)
    ⟨0, 0, .replicate 1000 0⟩ (.start 0) 0 List.not_mem_nil
  exact handled.1 ((MyCQServer.onMessage_extraction_iff (.start 0) 0 _ (by decide)).mpr ⟨2056, rfl, by decide⟩)

end MyCQ
