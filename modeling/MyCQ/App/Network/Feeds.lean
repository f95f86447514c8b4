import MyCQ.App.Network.Conversation
import MyCQ.App.System.Relaying

/-! What a client shows of a feed: nothing is left out before something that is shown. -/

set_option autoImplicit false

namespace MyCQ
open Octets (Endian)
open List (Forall₂)
open MyCQClient (Display)
open MyCQServer (Reply)

def MyCQClient.Display.kind : Display → Option MyCQMessages
  | .nothing => none
  | .serverPing _ => some .serverPing
  | .messageAll _ _ => some .messageAll
  | .listAllClients _ _ => some .listAllClients
  | .notifyOneClient _ _ => some .notifyOneClient

variable {order : Endian}

theorem MyCQClient.kind_of_dispatch {m : Message} {display : Display} (done : dispatch order m = .ok display)
    {kinds : MyCQMessages → Bool} (greeting : kinds .serverAccept = false) :
    display.kind.any kinds = m.isOf kinds := by
  cases known : MyCQMessages.ofUInt32 m.header.id with
  | none =>
    simp only [dispatch, known] at done
    rw [Message.isOf, known, ← Except.ok.inj done]
    rfl
  | some kind =>
    rw [Message.isOf_of_known known]
    cases kind with
    | serverAccept =>
      simp only [dispatch, known] at done
      rw [← Except.ok.inj done, greeting]
      rfl
    | serverPing =>
      simp only [dispatch, known] at done
      obtain ⟨bytes, _, shown⟩ := bind_eq_ok done
      rw [← Except.ok.inj shown]
      rfl
    | messageAll | listAllClients | notifyOneClient =>
      simp only [dispatch, known] at done
      obtain ⟨bytes, _, done⟩ := bind_eq_ok done
      obtain ⟨found, _, shown⟩ := bind_eq_ok done
      rw [← Except.ok.inj shown]
      rfl

theorem Message.Arrives.isOf {msg m : Message} (arrives : msg.Arrives m) (kinds : MyCQMessages → Bool) :
    m.isOf kinds = msg.isOf kinds := by
  rw [Message.isOf, arrives.header, Message.isOf]

inductive Shows (order : Endian) (id : ConnRef → UInt32) (d : ConnRef) (display : Display) (request : OwnedMessage) :
    Prop where
  | reply (msg m : Message) : Reply order id d msg request → msg.Arrives m →
      MyCQClient.dispatch order m = .ok display → Shows order id d display request

theorem Shows.origin {id : ConnRef → UInt32} {d : ConnRef} {display : Display} {request : OwnedMessage}
    (shows : Shows order id d display request) : Origin order id d request display := by
  obtain ⟨msg, m, reply, arrives, done⟩ := shows
  exact reply.origin arrives done

theorem Shows.of_comp {id : ConnRef → UInt32} {d : ConnRef} {display : Display} {request : OwnedMessage}
    (passed : Relation.Comp (fun display msg => ∃ m, msg.Arrives m ∧ MyCQClient.dispatch order m = .ok display)
      (Reply order id d) display request) : Shows order id d display request := by
  obtain ⟨msg, ⟨m, arrives, done⟩, reply⟩ := passed
  exact .reply msg m reply arrives done

theorem Feed.any_kind (feed : Feed order) {display : Display} {msg : Message}
    (shown : ∃ m, msg.Arrives m ∧ MyCQClient.dispatch order m = .ok display) :
    display.kind.any feed.kinds = msg.isOf feed.kinds := by
  obtain ⟨m, arrives, done⟩ := shown
  exact (MyCQClient.kind_of_dispatch done feed.greeting).trans (arrives.isOf feed.kinds)

theorem filterMap_of_isSome {α δ : Type} {f : α → Option δ} {p : α → Bool} (l : List α)
    (silent : ∀ a ∈ l, p a = false → f a = none) : (l.filter p).filterMap f = l.filterMap f := by
  rw [List.filterMap_filter]
  refine List.filterMap_congr fun a member => ?_
  cases matters : p a with
  | false => rw [silent a member matters, if_neg Bool.false_ne_true]
  | true => rw [if_pos rfl]

/-- What is shown of a feed, when it has shown what is due to some requests. -/
theorem Feed.filterMap_eq (feed : Feed order) {id : ConnRef → UInt32} {d : ConnRef} {displays : List Display}
    {requests : List OwnedMessage} (shows : Forall₂ (Shows order id d)
      (displays.filter fun display => display.kind.any feed.kinds) requests)
    (due : ∀ request ∈ requests, feed.due d (id d) request = true) {δ : Type} {f : Display → Option δ}
    {g : OwnedMessage → Option δ} (silent : ∀ display, display.kind.any feed.kinds = false → f display = none)
    (same : ∀ display request, feed.due d (id d) request = true → Origin order id d request display →
      f display = g request) : displays.filterMap f = requests.filterMap g := by
  rw [← filterMap_of_isSome displays fun display _ => silent display]
  exact Relay.filterMap_eq (Relay.forall₂_with_mem shows) fun display request both =>
    same display request (due request both.1) both.2.origin

namespace Network

variable {ι : Type} {idCounter : UInt32} {stdin : ι → List Byte} {s : Network ι} {d : ConnRef} {y : ι}

theorem Wired.follows_segment (wired : Wired order idCounter stdin s) (joins : s.Joins d y) {feed : Feed order} {k : Nat}
    (segment : System.Segment order idCounter feed s.system d k) :
    Relay.Follows (Shows order (System.number idCounter) d)
      ((s.program y).shown.filter fun display => display.kind.any feed.kinds)
      ((s.system.calls.drop k).filter (feed.due d (System.number idCounter d))) := by
  have shows := (wired.shown joins).filter (q := Message.isOf feed.kinds) fun display msg => feed.any_kind
  exact (shows.comp segment.inOrder).imp fun display request => Shows.of_comp

end Network
end MyCQ
