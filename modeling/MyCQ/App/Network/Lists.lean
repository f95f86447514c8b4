import Mathlib.Data.List.Sort
import MyCQ.App.Network.Feeds
import MyCQ.App.System.Lists

/-! What a client shows as the list of the other clients.

The names on it are those of connections that have been accepted, in the order
of their acceptance, and the client's own is not among them. Closed connections
stay on the list until the server finds them closed in a broadcast.
-/

set_option autoImplicit false

namespace MyCQ
open Octets (Endian)
open MyCQClient (Display)
open MyCQServer (listReply)

variable {order : Endian}

theorem Listing.dispatched {id : ConnRef → UInt32} {created : Nat} {d : ConnRef} {refs : List ConnRef}
    {reply : ClientsListDescription} (listing : Listing id created d refs reply) {m : Message}
    (arrives : (listReply order reply).Arrives m) : MyCQClient.dispatch order m =
      .ok (.listAllClients (id d) ((refs.map id).filter (· ≠ id d))) := by
  have carries := arrives.carries (Message.carries_push _ _) (by decide)
  have inside : 0 + reply.numActiveIds.toNat ≤ 1000 := by
    rw [Nat.zero_add, listing.announced]
    exact listing.few
  rw [MyCQClient.dispatch_listAllClients (congrArg MessageHeader.id arrives.header) carries,
    MyCQClient.otherClients_ok _ _ _ _ inside, List.drop_zero, listing.announced, listing.clientIds, listing.ownId]
  rfl

theorem MyCQClient.known_of_shown {m : Message} {ownId : UInt32} {others : List UInt32}
    (done : dispatch order m = .ok (.listAllClients ownId others)) :
    MyCQMessages.ofUInt32 m.header.id = some .listAllClients := by
  have isOf : m.isOf (fun kind => decide (kind = .listAllClients)) = true := (kind_of_dispatch done rfl).symm
  obtain ⟨kind, known, same⟩ := (Option.any_eq_true _ _).mp isOf
  rw [known, of_decide_eq_true same]

namespace Network

variable {ι : Type} {idCounter : UInt32} {stdin : ι → List Byte} {s : Network ι} {d : ConnRef} {y : ι}

structure ShowsList (s : Network ι) (d : ConnRef) (ownId : UInt32) (others : List UInt32) : Prop where
  ownId : ownId = s.system.server.getID d
  others : ∃ refs : List ConnRef, refs.Sublist (List.range s.system.server.created) ∧ d ∉ refs ∧
    others = refs.map s.system.server.getID

theorem sublist_range {refs : List ConnRef} {count : Nat} (ordered : refs.Pairwise (· < ·))
    (accepted : ∀ c ∈ refs, c < count) : refs.Sublist (List.range count) :=
  List.sublist_of_subperm_of_pairwise
    (List.subperm_of_subset (ordered.imp Nat.ne_of_lt) fun c member => List.mem_range.mpr (accepted c member))
    ordered List.pairwise_lt_range

theorem Wired.filter_names (wired : Wired order idCounter stdin s) (few : s.system.server.created ≤ 2 ^ 32)
    (joins : s.Joins d y) {refs : List ConnRef} (accepted : ∀ c ∈ refs, c < s.system.server.created) :
    (refs.map (System.number idCounter)).filter (· ≠ System.number idCounter d) =
      (refs.filter (· ≠ d)).map s.system.server.getID := by
  have ids := (System.numbered_of_reachable wired.system.reachable).ids
  rw [List.filter_map]
  have same : refs.filter ((fun name => decide (name ≠ System.number idCounter d)) ∘ System.number idCounter) =
      refs.filter (· ≠ d) := by
    refine List.filter_congr fun c member => ?_
    refine decide_eq_decide.mpr (not_congr ⟨fun same => ?_, fun same => same ▸ rfl⟩)
    exact wired.number_inj few (accepted c member) (joins.created wired) same
  rw [same]
  exact List.map_congr_left fun c member => (ids c (accepted c (List.mem_of_mem_filter member))).symm

/-- Whatever the users type, the other peers send and the operating system fails to do, while at most `2 ^ 32`
connections are accepted. -/
theorem lists_connections [DecidableEq ι]
    (run : Transition.Reachable (step order) (start idCounter stdin) s)
    (few : s.system.server.created ≤ 2 ^ 32) (joins : s.Joins d y) {ownId : UInt32} {others : List UInt32}
    (shown : .listAllClients ownId others ∈ (s.program y).shown) : s.ShowsList d ownId others := by
  have wired := wired_of_reachable run
  have created := joins.created wired
  obtain ⟨front, before, related⟩ := wired.shown joins
  obtain ⟨msg, member, m, arrives, done⟩ := Relay.exists_of_mem related.flip shown
  have known := MyCQClient.known_of_shown done
  rw [Message.Arrives.header arrives] at known
  obtain ⟨refs, reply, rfl, listing⟩ :=
    System.lists_of_run wired.system d created msg (before.subset member) known
  rw [listing.dispatched arrives] at done
  obtain ⟨rfl, rfl⟩ := Display.listAllClients.inj (Except.ok.inj done)
  refine ⟨((System.numbered_of_reachable wired.system.reachable).ids d created).symm, refs.filter (· ≠ d), ?_, ?_, ?_⟩
  · exact List.filter_sublist.trans (sublist_range listing.ordered listing.accepted)
  · exact fun own => absurd rfl (of_decide_eq_true (List.mem_filter.mp own).2)
  · exact wired.filter_names few joins listing.accepted

def listTyped : Bool → List Byte
  | false => [108]
  | true => []

def asksForList : List (Action Bool) :=
  let reply : ClientsListDescription := ⟨2, 0, (CArray.replicate 1000 0).set 1 1⟩
  ([.accept 7 (some false), .accept 9 (some true), .client false (.handler .connected),
      .client false (.handler (.readOk .serverValidationRequest (CArray.ofUInt64 .little 7).toList)),
      .client false (.handler (.writeOk (.validationData (encryptHandshakeData 7)))),
      .server (.handler 0 (.readOk .checkValidation (CArray.ofUInt64 .little (encryptHandshakeData 7)).toList))] :
        List (Action Bool)) ++
    List.replicate 4 (Action.client false .keyboard) ++ List.replicate 3 (Action.client false .main) ++
    ([.client false (.call 42 ⟨0, .replicate 2048 0, 0⟩ ⟨0, 0, .replicate 2048 0⟩), .client false (.handler .posted),
      .server (.handler 0 (.readOk .header ((MessageHeader.mk 1 0).bytes .little).toList)), .server (.update 1 true),
      .server .waitReturns, .server .test, .server .popFront, .server (.onMessage ⟨0, 0, .replicate 1000 0⟩),
      .server (.handler 0 .posted), .server (.handler 0 (.writeOk (.header ⟨4, 0⟩))), .server (.handler 0 .posted),
      .server (.handler 0 (.writeOk (.header ⟨1, 4008⟩))),
      .client false (.handler (.readOk .header ((MessageHeader.mk 4 0).bytes .little).toList))] : List (Action Bool)) ++
    List.replicate 7 (Action.client false .main) ++
    ([.client false (.handler (.readOk .header ((MessageHeader.mk 1 4008).bytes .little).toList)),
      .client false (.handler (.readOk (.payload 4008) (reply.toBytes .little).toList))] : List (Action Bool)) ++
    List.replicate 3 (Action.client false .main)

theorem asksForList_shown : ((Transition.perform (step .little) (start 0 listTyped) asksForList).any fun s =>
    s.peers = [some false, some true] ∧ s.system.server.created ≤ 2 ^ 32 ∧
      (s.program false).shown = [.nothing, .listAllClients 0 [1]]) = true := by
  decide +kernel

theorem lists_connections_asksForList : ∃ s : Network Bool, s.ShowsList 0 0 [1] := by
  obtain ⟨s, done, facts⟩ := (Option.any_eq_true _ _).mp asksForList_shown
  obtain ⟨peers, few, shown⟩ := of_decide_eq_true facts
  have joins : s.Joins 0 false := by
    rw [Joins, peers]
    rfl
  have member : Display.listAllClients 0 [1] ∈ (s.program false).shown := by
    rw [shown]
    exact List.mem_cons_of_mem _ List.mem_cons_self
  exact ⟨s, lists_connections (.of_perform asksForList _ done) few
    joins member⟩

end Network
end MyCQ
