import MyCQ.App.Client.Program.Keyboard
import MyCQ.App.Network.Wiring
import MyCQ.App.System.Gate

/-! What arrives at the two ends of a client's connection. -/

set_option autoImplicit false

namespace MyCQ
open Octets (Endian)
open MyCQClient (Builds)
open MyCQServer (Reply serverAccept)

variable {order : Endian}

/-- The message that the server enqueues for a request of the client program. -/
inductive Asked (order : Endian) (m : Message) : Request × UInt64 → Prop where
  | pingServer (now : UInt64) : m.header.id = MyCQMessages.serverPing.toUInt32 →
      m.Carries (CArray.ofUInt64 order now) → m.Agrees → Asked order m (.pingServer, now)
  | messageAll (inputStr : List Byte) (now : UInt64) (d : MessageAllDescription) :
      m.header.id = MyCQMessages.messageAll.toUInt32 → m.Carries (d.toBytes order) →
      MyCQClient.cString d.message = .ok (CString.text inputStr) → Asked order m (.messageAll inputStr, now)
  | requestConnectedClientsList (now : UInt64) : m.header.id = MyCQMessages.listAllClients.toUInt32 →
      Asked order m (.requestConnectedClientsList, now)
  | notifyOne (receiverId writtenMsg : List Byte) (now id : UInt64) (d : NotifyOneDescription) :
      m.header.id = MyCQMessages.notifyOneClient.toUInt32 → m.Carries (d.toBytes order) →
      Numeral.stoul receiverId = some id → d.receiverId = id.toUInt32 →
      MyCQClient.cString d.message = .ok (CString.text writtenMsg) →
      Asked order m (.notifyOne receiverId writtenMsg, now)

theorem Message.Arrives.agrees {msg m : Message} (arrives : msg.Arrives m) (positive : 0 < msg.payload.size) :
    m.Agrees := by
  obtain ⟨agrees, buffer, rfl⟩ := arrives
  have size : (Frame.ofMessage msg agrees).size = msg.payload.size := agrees
  rw [Message.Agrees, Message.delivered, Frame.into_size, if_neg (size ▸ Nat.ne_of_gt positive)]
  rfl

theorem MyCQClient.Builds.asked {request : Request × UInt64} {msg m : Message} (builds : Builds order request msg)
    (arrives : msg.Arrives m) : Asked order m request := by
  cases builds with
  | pingServer now =>
    exact .pingServer now (congrArg MessageHeader.id arrives.header) (arrives.carries (Message.carries_push _ _) (by decide))
      (arrives.agrees (by rw [Message.push_payload_size, CArray.length_eq]; decide))
  | messageAll inputStr now d text =>
    exact .messageAll inputStr now d (congrArg MessageHeader.id arrives.header)
      (arrives.carries (Message.carries_push _ _) (by decide)) text
  | requestConnectedClientsList now =>
    exact .requestConnectedClientsList now (congrArg MessageHeader.id arrives.header)
  | notifyOne receiverId writtenMsg now id d numeral receiver text =>
    exact .notifyOne receiverId writtenMsg now id d (congrArg MessageHeader.id arrives.header)
      (arrives.carries (Message.carries_push _ _) (by decide)) numeral receiver text

def Request.kind : Request → MyCQMessages
  | .pingServer => .serverPing
  | .messageAll _ => .messageAll
  | .requestConnectedClientsList => .listAllClients
  | .notifyOne _ _ => .notifyOneClient

theorem Asked.kind {m : Message} {request : Request × UInt64} (asked : Asked order m request) :
    MyCQMessages.ofUInt32 m.header.id = some request.1.kind := by
  cases asked with
  | pingServer _ known => rw [known, MyCQMessages.ofUInt32_toUInt32, Request.kind]
  | messageAll _ _ _ known => rw [known, MyCQMessages.ofUInt32_toUInt32, Request.kind]
  | requestConnectedClientsList _ known => rw [known, MyCQMessages.ofUInt32_toUInt32, Request.kind]
  | notifyOne _ _ _ _ _ known => rw [known, MyCQMessages.ofUInt32_toUInt32, Request.kind]

theorem Asked.of_ping {m : Message} {request : Request × UInt64} (asked : Asked order m request)
    (known : MyCQMessages.ofUInt32 m.header.id = some .serverPing) :
    request.1 = .pingServer ∧ m.Carries (CArray.ofUInt64 order request.2) ∧ m.Agrees := by
  have kind := Option.some.inj (asked.kind.symm.trans known)
  cases asked with
  | pingServer now _ carries agrees => exact ⟨rfl, carries, agrees⟩
  | _ => cases kind

namespace Network

variable {ι : Type} {idCounter : UInt32} {stdin : ι → List Byte} {s : Network ι} {c d : ConnRef} {x y : ι}

theorem Wired.asked (wired : Wired order idCounter stdin s) (joins : s.Joins c x) :
    Relay.Follows (Asked order) (s.system.endpoint c).enqueued (s.program x).sent := by
  obtain ⟨conn, connected⟩ := wired.exists_connected x
  have reached := wired.system.reachable
  obtain ⟨challenge, accepted⟩ := System.exists_challenge (System.wellFormed_of_reachable reached) (joins.created wired)
  obtain ⟨uId, server⟩ := System.endpoint_of_reachable reached c challenge accepted
  have built : ∀ msg ∈ conn.sendDataCalls, ∃ r ∈ (s.program x).sent, Builds order r msg :=
    fun msg member => Relay.exists_of_mem connected.sends member
  have lossless := wired.atServer c x joins
  rw [ClientProgram.written_eq order connected.current] at lossless
  have arrived := Endpoint.arrived_at_server server connected.endpoint
    (fun msg member => (built msg member).elim fun _ r => r.2.agrees)
    (fun msg member => (built msg member).elim fun _ r =>
      MyCQClient.requestHeader_ne_answer r.2.header challenge) lossless
  refine (arrived.comp (.of_forall connected.sends.flip)).imp fun m r => ?_
  rintro ⟨msg, arrives, builds⟩
  exact builds.asked arrives

theorem Wired.handled (wired : Wired order idCounter stdin s) (joins : s.Joins c x) :
    Relay.Follows (Asked order) ((s.system.calls.filter (System.fromClient c)).map OwnedMessage.msg)
      (s.program x).sent :=
  (wired.asked joins).earlier
    (System.calls_prefix_enqueued (System.wellFormed_of_reachable wired.system.reachable) c)

theorem Wired.exists_asked (wired : Wired order idCounter stdin s) (joins : s.Joins c x) {request : OwnedMessage}
    (called : request ∈ s.system.calls) (remote : request.remote = some c) :
    ∃ r ∈ (s.program x).sent, Asked order request.msg r := by
  obtain ⟨front, sub, related⟩ := wired.handled joins
  have member : request.msg ∈ (s.system.calls.filter (System.fromClient c)).map OwnedMessage.msg :=
    List.mem_map_of_mem (List.mem_filter.mpr ⟨called, decide_eq_true remote⟩)
  obtain ⟨r, kept, asked⟩ := Relay.exists_of_mem related.flip member
  exact ⟨r, sub.subset kept, asked⟩

theorem Wired.agrees (wired : Wired order idCounter stdin s) (joins : s.Joins d y) :
    ∀ m ∈ (s.system.server.conn d).sendDataCalls, m.Agrees := by
  obtain ⟨replies, calls, relayed⟩ := System.repliesInOrder_of_run wired.system (joins.created wired)
  rw [calls]
  intro m member
  rcases List.mem_cons.mp member with rfl | member
  · exact Message.agrees_ofId _
  · obtain ⟨kept, related, sub⟩ := List.sublistForall₂_iff.mp relayed
    obtain ⟨request, handled, reply⟩ := Relay.exists_of_mem related.flip member
    cases reply with
    | echo known remote same =>
      obtain ⟨r, _, asked⟩ := wired.exists_asked joins (sub.subset handled) remote
      exact same ▸ (asked.of_ping known).2.2
    | broadcast _ _ _ _ _ _ _ same => exact same ▸ Message.agrees_push_value _ _ (by decide)
    | list _ _ _ _ _ same => exact same ▸ Message.agrees_push_value _ _ (by decide)
    | notify _ _ _ _ _ _ _ same => exact same ▸ Message.agrees_push_value _ _ (by decide)

theorem Wired.arrived (wired : Wired order idCounter stdin s) (joins : s.Joins d y) :
    Arrived (s.system.server.conn d).sendDataCalls (s.program y).enqueued := by
  obtain ⟨conn, connected⟩ := wired.exists_connected y
  obtain ⟨challenge, uId, server⟩ := System.exists_accepted_endpoint wired.system.reachable (joins.created wired)
  have lossless := wired.atClient d y joins
  rw [ClientProgram.received_eq connected.current] at lossless
  exact Endpoint.arrived_at_client server connected.endpoint (wired.agrees joins) lossless

theorem Wired.shown (wired : Wired order idCounter stdin s) (joins : s.Joins d y) :
    Relay.Follows (fun display msg => ∃ m, msg.Arrives m ∧ MyCQClient.dispatch order m = .ok display)
      (s.program y).shown (s.system.server.conn d).sendDataCalls := by
  obtain ⟨handled, related, accounted⟩ := (ClientProgram.accounts_of_reachable (wired.program y)).shown
  have shows : Relay.Follows (fun display m => MyCQClient.dispatch order m = .ok display) (s.program y).shown
      (s.program y).enqueued := ⟨handled, ⟨_, accounted⟩, related.flip⟩
  refine (shows.comp (wired.arrived joins)).imp fun display msg => ?_
  rintro ⟨m, done, arrives⟩
  exact ⟨m, arrives, done⟩

theorem Wired.sent_sublist (wired : Wired order idCounter stdin s) (x : ι) :
    ((s.program x).sent.map fun request => Command.call request.1).Sublist (Console.interpret .key (stdin x)) := by
  have sent := (ClientProgram.accounts_of_reachable (wired.program x)).sent
  have follows := (ClientProgram.inputInvariant_of_reachable (wired.program x)).follows
  exact sent.trans (follows ▸ List.sublist_append_left _ _)

theorem Wired.requested (wired : Wired order idCounter stdin s) (x : ι) {δ : Type} (f : Command → Option δ) :
    ((s.program x).sent.filterMap fun request => f (.call request.1)).Sublist
      ((Console.interpret .key (stdin x)).filterMap f) := by
  have commands := (wired.sent_sublist x).filterMap f
  rwa [List.filterMap_map] at commands

theorem Wired.sent_typed (wired : Wired order idCounter stdin s) (x : ι) {request : Request × UInt64}
    (sent : request ∈ (s.program x).sent) : .call request.1 ∈ Console.interpret .key (stdin x) :=
  (wired.sent_sublist x).subset (List.mem_map_of_mem sent)

end Network
end MyCQ
