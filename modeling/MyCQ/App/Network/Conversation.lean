import MyCQ.App.Network.Delivery

/-! What the users hear of what others have typed.

A line that a client shows under the identifier of another client was typed
there, for all or for this client, and such lines come in the order in which
they were typed. Other peers can do nothing about it, whatever they send.
-/

set_option autoImplicit false

namespace MyCQ
open Octets (Endian)
open Console (interpret)
open List (SublistForall₂)
open MyCQClient (Display)
open MyCQServer (Reply serverAccept)

inductive Line where
  | toAll (text : List Byte)
  | toOne (text : List Byte)
  deriving DecidableEq, Repr

def MyCQClient.Display.heardFrom (id : UInt32) : Display → Option Line
  | .messageAll senderId text => if senderId = id then some (.toAll text) else none
  | .notifyOneClient senderId text => if senderId = id then some (.toOne text) else none
  | _ => none

/-- What is typed to be said to the client with the given identifier. -/
def Request.saidTo (id : UInt32) : Request → Option Line
  | .messageAll inputStr => some (.toAll (CString.text inputStr))
  | .notifyOne receiverId writtenMsg =>
    if (Numeral.stoul receiverId).map UInt64.toNat = some id.toNat then some (.toOne (CString.text writtenMsg))
    else none
  | _ => none

def Command.saidTo (id : UInt32) : Command → Option Line
  | .call request => request.saidTo id
  | .quit => none

variable {order : Endian}

/-- What the client at `d` shows, by the request that it is due to. -/
inductive Origin (order : Endian) (id : ConnRef → UInt32) (d : ConnRef) (request : OwnedMessage) : Display → Prop where
  | ping (time : UInt64) : MyCQMessages.ofUInt32 request.msg.header.id = some .serverPing →
      request.remote = some d → Origin order id d request (.serverPing time)
  | broadcast (c : ConnRef) (bytes : CArray Byte MessageAllDescription.sizeof) (rest : Message) (text : List Byte) :
      MyCQMessages.ofUInt32 request.msg.header.id = some .messageAll → request.remote = some c → d ≠ c →
      request.msg.pop MessageAllDescription.sizeof = some (bytes, rest) →
      MyCQClient.cString (MessageAllDescription.ofBytes order bytes).message = .ok text →
      Origin order id d request (.messageAll (id c) text)
  | list (others : List UInt32) : MyCQMessages.ofUInt32 request.msg.header.id = some .listAllClients →
      request.remote = some d → Origin order id d request (.listAllClients (id d) others)
  | notify (c : ConnRef) (bytes : CArray Byte NotifyOneDescription.sizeof) (rest : Message) (text : List Byte) :
      MyCQMessages.ofUInt32 request.msg.header.id = some .notifyOneClient → request.remote = some c →
      (NotifyOneDescription.ofBytes order bytes).receiverId = id d →
      request.msg.pop NotifyOneDescription.sizeof = some (bytes, rest) →
      MyCQClient.cString (NotifyOneDescription.ofBytes order bytes).message = .ok text →
      Origin order id d request (.notifyOneClient (id c) text)

theorem MyCQServer.Reply.origin {id : ConnRef → UInt32} {d : ConnRef} {msg m : Message} {request : OwnedMessage}
    {display : Display} (reply : Reply order id d msg request) (arrives : msg.Arrives m)
    (done : MyCQClient.dispatch order m = .ok display) : Origin order id d request display := by
  cases reply with
  | echo known remote same =>
    subst same
    rw [← arrives.header] at known
    obtain ⟨bytes, _, rfl⟩ := MyCQClient.dispatch_serverPing known done
    exact .ping _ (arrives.header ▸ known) remote
  | broadcast c bytes rest known remote other popped same =>
    subst same
    have carries := arrives.carries (Message.carries_push _ _) (by decide)
    rw [MyCQClient.dispatch_messageAll (congrArg MessageHeader.id arrives.header) carries] at done
    obtain ⟨text, found, rfl⟩ := MyCQClient.map_eq_ok done
    exact .broadcast c bytes rest text known remote other popped found
  | list reply known remote own few same =>
    subst same
    have carries := arrives.carries (Message.carries_push _ _) (by decide)
    rw [MyCQClient.dispatch_listAllClients (congrArg MessageHeader.id arrives.header) carries] at done
    obtain ⟨others, _, rfl⟩ := MyCQClient.map_eq_ok done
    exact own ▸ .list others known remote
  | notify c bytes rest known remote meant popped same =>
    subst same
    have carries := arrives.carries (Message.carries_push _ _) (by decide)
    rw [MyCQClient.dispatch_notifyOneClient (congrArg MessageHeader.id arrives.header) carries] at done
    obtain ⟨text, found, rfl⟩ := MyCQClient.map_eq_ok done
    exact .notify c bytes rest text known remote meant popped found

theorem Origin.said {id : ConnRef → UInt32} {c d : ConnRef} {m : Message} {display : Display} {line : Line}
    {request : Request × UInt64} (origin : Origin order id d ⟨some c, m⟩ display)
    (heard : display.heardFrom (id c) = some line) (asked : Asked order m request) (fits : request.1.NumberFits) :
    request.1.saidTo (id d) = some line := by
  have kind := asked.kind
  cases origin with
  | ping => cases heard
  | list => cases heard
  | broadcast c' bytes rest text known remote other popped shown =>
    obtain rfl := Option.some.inj remote
    rw [MyCQClient.Display.heardFrom, if_pos rfl] at heard
    have same := Option.some.inj (kind.symm.trans known)
    cases asked with
    | messageAll inputStr now structured _ carries typed =>
      obtain ⟨_, whole⟩ := carries.pop (by decide)
      obtain ⟨rfl, _⟩ := Prod.mk.inj (Option.some.inj (popped.symm.trans whole))
      rw [MessageAllDescription.ofBytes_toBytes, typed] at shown
      rw [Request.saidTo, Except.ok.inj shown]
      exact heard
    | _ => cases same
  | notify c' bytes rest text known remote meant popped shown =>
    obtain rfl := Option.some.inj remote
    rw [MyCQClient.Display.heardFrom, if_pos rfl] at heard
    have same := Option.some.inj (kind.symm.trans known)
    cases asked with
    | notifyOne receiverId writtenMsg now number structured _ carries numeral receiver typed =>
      obtain ⟨_, whole⟩ := carries.pop (by decide)
      obtain ⟨rfl, _⟩ := Prod.mk.inj (Option.some.inj (popped.symm.trans whole))
      rw [NotifyOneDescription.ofBytes_toBytes] at shown meant
      rw [typed] at shown
      have exact : (id d).toNat = number.toNat := by
        rw [← meant, receiver]
        exact fits number numeral
      rw [Request.saidTo, numeral, Option.map_some, exact, if_pos rfl, Except.ok.inj shown]
      exact heard
    | _ => cases same

theorem Origin.speaker {id : ConnRef → UInt32} {d : ConnRef} {request : OwnedMessage} {display : Display}
    {line : Line} {name : UInt32} (origin : Origin order id d request display)
    (heard : display.heardFrom name = some line) :
    ∃ c, request.remote = some c ∧ id c = name ∧ (c = d → ∃ text, line = .toOne text) := by
  cases origin with
  | ping => cases heard
  | list => cases heard
  | broadcast c bytes rest text known remote other =>
    obtain ⟨named, _⟩ := Option.ite_none_right_eq_some.mp heard
    exact ⟨c, remote, named, fun own => absurd own.symm other⟩
  | notify c bytes rest text known remote =>
    obtain ⟨named, said⟩ := Option.ite_none_right_eq_some.mp heard
    exact ⟨c, remote, named, fun _ => ⟨text, (Option.some.inj said).symm⟩⟩

namespace Network

variable {ι : Type} {idCounter : UInt32} {stdin : ι → List Byte} {s : Network ι} {c d : ConnRef} {x y : ι}

theorem Wired.origins (wired : Wired order idCounter stdin s) (joins : s.Joins d y) {δ : Type}
    {f : Display → Option δ} (silent : f .nothing = none) :
    ∃ shown, shown.filterMap f = (s.program y).shown.filterMap f ∧
      SublistForall₂ (fun display request => request ∈ s.system.calls ∧
        Origin order (System.number idCounter) d request display) shown s.system.calls := by
  obtain ⟨replies, calls, relayed⟩ := System.repliesInOrder_of_run wired.system (joins.created wired)
  have shows := (wired.shown joins).relayed
  rw [calls] at shows
  have greeting : ∀ display, (∃ m, serverAccept.Arrives m ∧ MyCQClient.dispatch order m = .ok display) →
      f display = none := by
    rintro display ⟨m, arrives, done⟩
    rw [MyCQClient.dispatch_serverAccept (congrArg MessageHeader.id arrives.header) done]
    exact silent
  obtain ⟨shown, behind, same⟩ := Relay.skip_head greeting shows
  refine ⟨shown, same, Relay.with_mem (Relay.mono (Relay.comp behind relayed) fun display request => ?_)⟩
  rintro ⟨msg, ⟨m, arrives, done⟩, reply⟩
  exact reply.origin arrives done

theorem Wired.number_inj (wired : Wired order idCounter stdin s) (few : s.system.server.created ≤ 2 ^ 32)
    (left : c < s.system.server.created) (right : d < s.system.server.created)
    (same : System.number idCounter c = System.number idCounter d) : c = d := by
  have numbered := System.numbered_of_reachable wired.system.reachable
  have ids : s.system.server.getID c = s.system.server.getID d := by
    rw [numbered.ids c left, numbered.ids d right]
    exact same
  have words := (numbered.getID_eq_iff left right).mp ids
  rwa [Nat.mod_eq_of_lt (Nat.lt_of_lt_of_le left few), Nat.mod_eq_of_lt (Nat.lt_of_lt_of_le right few)] at words

theorem Wired.speaker (wired : Wired order idCounter stdin s) (joins : s.Joins d y) {display : Display}
    (shown : display ∈ (s.program y).shown) {name : UInt32} {line : Line}
    (heard : display.heardFrom name = some line) : ∃ c, c < s.system.server.created ∧
      s.system.server.getID c = name ∧ (c = d → ∃ text, line = .toOne text) := by
  have silent : Display.heardFrom name .nothing = none := rfl
  obtain ⟨due, same, relayed⟩ := wired.origins joins silent
  have member : line ∈ due.filterMap (Display.heardFrom name) :=
    same ▸ List.mem_filterMap.mpr ⟨display, shown, heard⟩
  obtain ⟨original, among, heard⟩ := List.mem_filterMap.mp member
  obtain ⟨kept, related, _⟩ := List.sublistForall₂_iff.mp relayed
  obtain ⟨request, _, called, origin⟩ := Relay.exists_of_mem related.flip among
  obtain ⟨c, remote, named, own⟩ := origin.speaker heard
  have reached := wired.system.reachable
  have wellFormed := System.wellFormed_of_reachable reached
  obtain ⟨e, found, created⟩ := wellFormed.remotes request (System.pushed_of_called wellFormed called)
  obtain rfl : e = c := Option.some.inj (found.symm.trans remote)
  exact ⟨e, created, ((System.numbered_of_reachable reached).ids e created).trans named, own⟩

theorem filterMap_fromClient (calls : List OwnedMessage) (c : ConnRef) :
    (calls.filterMap fun request => if System.fromClient c request then some request.msg else none) =
      (calls.filter (System.fromClient c)).map OwnedMessage.msg := by
  rw [← List.filterMap_eq_map, List.filterMap_filter]
  rfl

theorem Wired.typed (wired : Wired order idCounter stdin s) (few : s.system.server.created ≤ 2 ^ 32)
    (speaker : s.Joins c x) (listener : s.Joins d y) (fits : Console.NumbersFit (stdin x)) :
    ((s.program y).shown.filterMap (Display.heardFrom (System.number idCounter c))).Sublist
      ((interpret .key (stdin x)).filterMap (Command.saidTo (System.number idCounter d))) := by
  have silent : Display.heardFrom (System.number idCounter c) .nothing = none := rfl
  obtain ⟨due, same, relayed⟩ := wired.origins listener silent
  have wellFormed := System.wellFormed_of_reachable wired.system.reachable
  -- What is heard from the client is due to requests of its own.
  have own : SublistForall₂ (fun line m => ∃ display,
      Origin order (System.number idCounter) d ⟨some c, m⟩ display ∧
        display.heardFrom (System.number idCounter c) = some line)
      ((s.program y).shown.filterMap (Display.heardFrom (System.number idCounter c)))
      ((s.system.calls.filter (System.fromClient c)).map OwnedMessage.msg) := by
    rw [← same, ← filterMap_fromClient]
    refine Relay.filterMap (fun display request line => ?_) relayed
    rintro ⟨called, origin⟩ heard
    obtain ⟨sender, remote, named, _⟩ := origin.speaker heard
    obtain ⟨e, found, created⟩ := wellFormed.remotes request (System.pushed_of_called wellFormed called)
    have known : e = sender := Option.some.inj (found.symm.trans remote)
    have same : sender = c := wired.number_inj few (known ▸ created) (speaker.created wired) named
    subst same
    obtain ⟨client, m⟩ := request
    obtain rfl : client = some sender := remote
    exact ⟨m, if_pos (decide_eq_true rfl), display, origin, heard⟩
  -- These are requests that the client has sent.
  have said : SublistForall₂ (fun line request => request.1.saidTo (System.number idCounter d) = some line)
      ((s.program y).shown.filterMap (Display.heardFrom (System.number idCounter c))) (s.program x).sent := by
    have handled := Relay.with_mem (wired.handled speaker).relayed
    refine Relay.mono (Relay.comp own handled) fun line request => ?_
    rintro ⟨m, ⟨display, origin, heard⟩, sent, asked⟩
    exact origin.said heard asked (fits request.1 (wired.sent_typed x sent))
  have lines : ((s.program y).shown.filterMap (Display.heardFrom (System.number idCounter c))).Sublist
      ((s.program x).sent.filterMap fun request => request.1.saidTo (System.number idCounter d)) := by
    rw [← List.filterMap_some (l := (s.program y).shown.filterMap _)]
    refine Relay.sublist_of_eq (Relay.filterMap (fun line request found matched heard => ?_) said)
    exact ⟨found, (Option.some.inj heard) ▸ matched, rfl⟩
  exact lines.trans (wired.requested x (Command.saidTo (System.number idCounter d)))

def saysHi : List (Action Bool) :=
  let joining (x : Bool) (c : ConnRef) (clock : UInt64) : List (Action Bool) :=
    [.accept clock (some x), .client x (.handler .connected),
      .client x (.handler (.readOk .serverValidationRequest (CArray.ofUInt64 .little clock).toList)),
      .client x (.handler (.writeOk (.validationData (encryptHandshakeData clock)))),
      .server (.handler c (.readOk .checkValidation (CArray.ofUInt64 .little (encryptHandshakeData clock)).toList))]
  let announced := ((MessageHeader.mk 0 2056).bytes .little).toList
  let payload : List Byte := List.replicate 4 0 ++ [104, 105] ++ List.replicate 2050 0
  joining false 0 7 ++ joining true 1 8 ++ List.replicate 4 (Action.client false .keyboard) ++
    List.replicate 4 (Action.client false .main) ++
    ([.client false (.call 0 ⟨0, .replicate 2048 0, 0⟩ ⟨0, 0, .replicate 2048 0⟩), .client false (.handler .posted),
      .client false (.handler (.writeOk (.header ⟨0, 2056⟩))), .server (.handler 0 (.readOk .header announced)),
      .server (.handler 0 (.readOk (.payload 2056) payload)), .server (.update 1 true), .server .waitReturns,
      .server .test, .server .popFront, .server (.onMessage ⟨0, 0, .replicate 1000 0⟩),
      .server (.handler 1 .posted), .server (.handler 1 (.writeOk (.header ⟨4, 0⟩))), .server (.handler 1 .posted),
      .server (.handler 1 (.writeOk (.header ⟨0, 2056⟩))),
      .client true (.handler (.readOk .header ((MessageHeader.mk 4 0).bytes .little).toList)),
      .client true (.handler (.readOk .header announced)),
      .client true (.handler (.readOk (.payload 2056) payload))] : List (Action Bool)) ++
    List.replicate 8 (Action.client true .main)

def hiTyped (x : Bool) : List Byte := if x then [] else [109, 104, 105, 10]

theorem saysHi_shown : ((Transition.perform (step .little) (start 0 hiTyped) saysHi).any fun s =>
    s.peers = [some false, some true] ∧ s.system.server.created = 2 ∧
      (s.program true).shown = [.nothing, .messageAll 0 [104, 105]]) = true := by
  decide +kernel

end Network
end MyCQ
