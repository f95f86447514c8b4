import MyCQ.App.System.Relaying

/-! What is in the lists that the server sends.

A list is taken from the connections as they are when the request is handled.
The memory behind the listed identifiers is sent as well, but it is not
announced.
-/

set_option autoImplicit false

namespace MyCQ
open Octets (Endian)
open MyCQServer (listReply serverAccept)

/-- Connections that have been accepted, each once and in the order of their acceptance, as a list for `d`. -/
structure Listing (id : ConnRef → UInt32) (created : Nat) (d : ConnRef) (refs : List ConnRef)
    (reply : ClientsListDescription) : Prop where
  ordered : refs.Pairwise (· < ·)
  accepted : ∀ c ∈ refs, c < created
  announced : reply.numActiveIds.toNat = refs.length
  few : refs.length ≤ 1000
  ownId : reply.ownId = id d
  clientIds : reply.clientIds.toList.take refs.length = refs.map id

variable {order : Endian}

theorem Listing.mono {id : ConnRef → UInt32} {created more : Nat} {d : ConnRef} {refs : List ConnRef}
    {reply : ClientsListDescription} (listing : Listing id created d refs reply) (grown : created ≤ more) :
    Listing id more d refs reply :=
  ⟨listing.ordered, fun c member => Nat.lt_of_lt_of_le (listing.accepted c member) grown, listing.announced,
    listing.few, listing.ownId, listing.clientIds⟩

namespace System

variable {idCounter : UInt32} {s t : System} {a : Action} {d : ConnRef} {m : Message}

def Lists (order : Endian) (idCounter : UInt32) (s : System) : Prop :=
  ∀ d < s.server.created, ∀ m ∈ (s.server.conn d).sendDataCalls,
    MyCQMessages.ofUInt32 m.header.id = some .listAllClients →
      ∃ refs reply, m = listReply order reply ∧ Listing (number idCounter) s.server.created d refs reply

theorem listing_of_passed (run : Transition.Reachable (System.step order) (.start idCounter) s)
    {uninitialized : ClientsListDescription} {msg : OwnedMessage} {server : MyCQServer}
    (inHand : msg ∈ s.thread.unhandled)
    (ran : s.server.onMessage order uninitialized msg.remote msg.msg = .ok server) (created : d < s.server.created)
    (passed : m ∈ s.server.passed server d) (known : MyCQMessages.ofUInt32 m.header.id = some .listAllClients) :
    ∃ refs reply, m = listReply order reply ∧ Listing (number idCounter) s.server.created d refs reply := by
  obtain ⟨refs, roster⟩ := exists_roster run
  have wellFormed := wellFormed_of_reachable run
  have ids := (numbered_of_reachable run).ids
  obtain ⟨c, remote, _⟩ := wellFormed.remotes msg (wellFormed.unhandled_pushed inHand)
  rw [remote] at ran
  -- The request is one for a list.
  have asked : MyCQMessages.ofUInt32 msg.msg.header.id = some .listAllClients := by
    cases roster.relays (MyCQServer.handled_of_onMessage ran) d with
    | nothing _ none =>
      rw [none] at passed
      cases passed
    | message other _ one kind =>
      rw [one, List.mem_singleton] at passed
      rw [← kind, ← passed, known]
  have few : refs.length ≤ 1000 := by
    refine Nat.le_of_not_lt fun many => ?_
    rw [MyCQServer.onMessage_listAllClients_overflow roster.entries many asked c] at ran
    cases ran
  obtain ⟨reply, answered, list⟩ :=
    @MyCQServer.onMessage_listAllClients order uninitialized s.server refs msg.msg roster.entries few asked c
  rw [ran] at answered
  cases answered
  rw [MyCQServer.passed_sendData] at passed
  split at passed
  · next own =>
    subst own
    have named : refs.map s.server.getID = refs.map (number idCounter) :=
      List.map_congr_left fun e member => ids e (roster.created e member)
    refine ⟨refs, reply, List.mem_singleton.mp passed, roster.ordered, roster.created, list.numActiveIds, few,
      list.ownId.trans (ids d created), ?_⟩
    rw [← list.numActiveIds, list.listed, named]
  · cases passed

theorem Lists.step (run : Transition.Reachable (System.step order) (.start idCounter) s) (only : OnlyUpdates s a)
    (taken : s.step order a = some t) (lists : Lists order idCounter s) : Lists order idCounter t := by
  intro d born m sent known
  have old : d < s.server.created →
      ∃ refs reply, m = listReply order reply ∧ Listing (number idCounter) s.server.created d refs reply := by
    intro created
    have grown : (t.server.conn d).sendDataCalls = (s.server.conn d).sendDataCalls ++ s.server.passed t.server d :=
      sendDataCalls_step (wellFormed_of_reachable run) taken d
    rw [grown] at sent
    rcases List.mem_append.mp sent with before | passed
    · exact lists d created m before known
    · rcases handles_of_passed only taken created with none | ⟨uninitialized, msg, inHand, ran, _⟩
      · rw [none] at passed
        cases passed
      · exact listing_of_passed run inHand ran created passed known
  rcases created_step run taken with same | ⟨grown, greeted⟩
  · rw [same] at born ⊢
    exact old born
  · rw [grown] at born ⊢
    rcases Nat.lt_succ_iff_lt_or_eq.mp born with created | rfl
    · obtain ⟨refs, reply, same, listing⟩ := old created
      exact ⟨refs, reply, same, listing.mono (Nat.le_succ _)⟩
    · rw [greeted, List.mem_singleton] at sent
      subst sent
      cases known

/-- In every run of a server that only calls `update`. -/
theorem lists_of_run (run : Transition.Run (System.step order) OnlyUpdates (.start idCounter) s) :
    Lists order idCounter s :=
  run.invariant_of_reached (P := Lists order idCounter) (fun _ born => absurd born (Nat.not_lt_zero _))
    fun _ _ _ before lists only taken => lists.step before.reachable only taken

end System
end MyCQ
