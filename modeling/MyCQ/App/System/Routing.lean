import Mathlib.Data.List.Nodup
import Mathlib.Data.Option.Basic
import MyCQ.App.System.Senders

/-! Private messages find their receiver by its identifier.

Identifiers come from a counter of 32 bits that starts anywhere and wraps
around. Two entries of the list share one only when the counter went once around
between their acceptance, whatever has been removed in the meantime.
-/

set_option autoImplicit false

namespace MyCQ
open Octets (Endian)

namespace MyCQServer

variable {order : Endian} {first : UInt32} {s : MyCQServer} {refs : List ConnRef}

def acceptedSince (s : MyCQServer) (c : ConnRef) : Nat := s.created - (c + 1)

structure RoutesUniquely (order : Endian) (s : MyCQServer) : Prop where
  ids : (s.connectionsQueue.map fun entry => entry.map s.getID).Nodup
  receiver : ∀ uninitialized client msg t, MyCQMessages.ofUInt32 msg.header.id = some .notifyOneClient →
    s.onMessage order uninitialized client msg = .ok t →
    ∃ c, ∀ d, s.passed t d ≠ [] → d = c ∧ (s.passed t d).length = 1

theorem eq_of_recent {n a b : Nat} (older : a < n) (newer : b < n) (fromOlder : n - (a + 1) < 2 ^ 32)
    (fromNewer : n - (b + 1) < 2 ^ 32) (same : a % 2 ^ 32 = b % 2 ^ 32) : a = b := by
  omega

theorem Roster.nodup_getID (roster : Roster s refs) (numbered : Numbered first s)
    (recent : ∀ c ∈ refs, s.acceptedSince c < 2 ^ 32) : (refs.map s.getID).Nodup := by
  rw [List.nodup_map_iff_inj_on roster.nodup]
  intro c left d right same
  have older := roster.created c left
  have newer := roster.created d right
  exact eq_of_recent older newer (recent c left) (recent d right) ((numbered.getID_eq_iff older newer).mp same)

theorem Roster.routesUniquely (roster : Roster s refs) (distinct : (refs.map s.getID).Nodup) :
    RoutesUniquely order s where
  ids := by
    rw [roster.entries, List.map_map]
    have ids : refs.map ((fun entry => entry.map s.getID) ∘ some) = (refs.map s.getID).map some := by
      rw [List.map_map]
      rfl
    rw [ids]
    exact distinct.map (Option.some_injective _)
  receiver uninitialized client msg t known handled := by
    obtain ⟨_, bytes, _, _, _, passed⟩ := passed_notifyOneClient known handled
    have listed : ∀ d, s.passed t d ≠ [] → d ∈ refs ∧
        s.getID d = (NotifyOneDescription.ofBytes order bytes).receiverId ∧ (s.passed t d).length = 1 := by
      intro d received
      rw [passed, roster.notifyTo] at received ⊢
      split at received
      · next meant => exact ⟨(roster.mem_iff d).mp meant.1, meant.2, by rw [if_pos meant]; rfl⟩
      · exact absurd rfl received
    by_cases received : ∃ c, s.passed t c ≠ []
    · obtain ⟨c, received⟩ := received
      refine ⟨c, fun d also => ?_⟩
      obtain ⟨left, meant, _⟩ := listed c received
      obtain ⟨right, same, once⟩ := listed d also
      exact ⟨(List.nodup_map_iff_inj_on roster.nodup).mp distinct d right c left (same.trans meant.symm), once⟩
    · exact ⟨0, fun d also => absurd ⟨d, also⟩ received⟩

end MyCQServer

namespace System

variable {order : Endian} {idCounter : UInt32} {s : System}

/-- Whatever the counter starts with: identifiers are unique in every reachable state in which fewer than
`2 ^ 32` connections have been accepted since the oldest entry of the list. -/
theorem routes_uniquely (run : Transition.Reachable (System.step order) (.start idCounter) s)
    (recent : ∀ c, some c ∈ s.server.connectionsQueue → s.server.acceptedSince c < 2 ^ 32) :
    MyCQServer.RoutesUniquely order s.server := by
  obtain ⟨refs, roster⟩ := exists_roster run
  apply roster.routesUniquely
  apply roster.nodup_getID (numbered_of_reachable run)
  intro c listed
  exact recent c ((roster.mem_iff c).mpr listed)

def wrappedCounter : List Action :=
  [.accept 7, .accept 8, .handler 0 (.readFailed .checkValidation []),
    .sendMessageToAllClients (.ofId 4) none, .accept 9]

theorem wrappedCounter_enabled :
    (Transition.perform (System.step .little) (start 4294967295) wrappedCounter).isSome = true := by
  decide +kernel

theorem routes_uniquely_wrappedCounter : MyCQServer.RoutesUniquely .little
    ((Transition.perform (System.step .little) (start 4294967295) wrappedCounter).get wrappedCounter_enabled).server := by
  apply routes_uniquely (.of_isSome wrappedCounter (start 4294967295) wrappedCounter_enabled)
  have created : ((Transition.perform (System.step .little) (start 4294967295) wrappedCounter).get
      wrappedCounter_enabled).server.created = 3 := by decide +kernel
  intro c _
  rw [MyCQServer.acceptedSince, created]
  omega

end System
end MyCQ
