import MyCQ.App.Network.Feeds

/-! One conversation: what is said to all has one order, and every client shows it in that order.

The order is that in which the server handles the requests. From its acceptance
on, a client shows everything that the others say, without a gap; so it does
with what is said to it alone. What a client has in the conversation is what was
typed there.
-/

set_option autoImplicit false

namespace MyCQ
open Octets (Endian)
open Console (interpret)
open List (SublistForall₂)
open MyCQClient (Display)

def MyCQClient.Display.toAll : Display → Option (UInt32 × List Byte)
  | .messageAll senderId text => some (senderId, text)
  | _ => none

def OwnedMessage.toAll (order : Endian) (id : ConnRef → UInt32) (request : OwnedMessage) :
    Option (UInt32 × List Byte) :=
  if MyCQMessages.ofUInt32 request.msg.header.id = some .messageAll then do
    let c ← request.remote
    let (bytes, _) ← request.msg.pop MessageAllDescription.sizeof
    let text ← (MyCQClient.cString (MessageAllDescription.ofBytes order bytes).message).toOption
    some (id c, text)
  else none

def Request.toAll (id : UInt32) : Request → Option (UInt32 × List Byte)
  | .messageAll inputStr => some (id, CString.text inputStr)
  | _ => none

def Command.toAll (id : UInt32) : Command → Option (UInt32 × List Byte)
  | .call request => request.toAll id
  | .quit => none

variable {order : Endian}

def MyCQClient.Display.toOne : Display → Option (UInt32 × List Byte)
  | .notifyOneClient senderId text => some (senderId, text)
  | _ => none

theorem MyCQClient.Display.toAll_of_kind (display : Display)
    (other : display.kind.any (fun kind => decide (kind = .messageAll)) = false) : display.toAll = none := by
  cases display with
  | messageAll => cases other
  | _ => rfl

theorem MyCQClient.Display.toOne_of_kind (display : Display)
    (other : display.kind.any (fun kind => decide (kind = .notifyOneClient)) = false) : display.toOne = none := by
  cases display with
  | notifyOneClient => cases other
  | _ => rfl

def OwnedMessage.toOne (order : Endian) (id : ConnRef → UInt32) (name : UInt32) (request : OwnedMessage) :
    Option (UInt32 × List Byte) :=
  if MyCQMessages.ofUInt32 request.msg.header.id = some .notifyOneClient ∧
      request.msg.receiver order = some name then do
    let c ← request.remote
    let (bytes, _) ← request.msg.pop NotifyOneDescription.sizeof
    let text ← (MyCQClient.cString (NotifyOneDescription.ofBytes order bytes).message).toOption
    some (id c, text)
  else none

theorem Origin.toAll {id : ConnRef → UInt32} {d : ConnRef} {request : OwnedMessage} {display : Display}
    (origin : Origin order id d request display)
    (kind : request.msg.isOf (fun kind => decide (kind = .messageAll)) = true) :
    display.toAll = request.toAll order id := by
  have other : ∀ {kind : MyCQMessages}, MyCQMessages.ofUInt32 request.msg.header.id = some kind →
      kind = .messageAll := fun known => of_decide_eq_true ((Message.isOf_of_known known).symm.trans kind)
  cases origin with
  | ping _ known => cases other known
  | list _ known => cases other known
  | notify _ _ _ _ known => cases other known
  | broadcast c bytes rest text known remote _ popped found =>
    rw [OwnedMessage.toAll, if_pos known, remote, popped]
    simp only [bind, Option.bind, found, Except.toOption]
    rfl

theorem Origin.toOne {id : ConnRef → UInt32} {d : ConnRef} {request : OwnedMessage} {display : Display}
    (origin : Origin order id d request display)
    (kind : request.msg.isOf (fun kind => decide (kind = .notifyOneClient)) = true) :
    display.toOne = request.toOne order id (id d) := by
  have other : ∀ {kind : MyCQMessages}, MyCQMessages.ofUInt32 request.msg.header.id = some kind →
      kind = .notifyOneClient := fun known => of_decide_eq_true ((Message.isOf_of_known known).symm.trans kind)
  cases origin with
  | ping _ known => cases other known
  | list _ known => cases other known
  | broadcast _ _ _ _ known => cases other known
  | notify c bytes rest text known remote meant popped found =>
    have receiver : request.msg.receiver order = some (id d) := by rw [Message.receiver, popped, Option.map_some, meant]
    rw [OwnedMessage.toOne, if_pos ⟨known, receiver⟩, remote, popped]
    simp only [bind, Option.bind, found, Except.toOption]
    rfl

theorem Asked.toAll {m : Message} {request : Request × UInt64} (asked : Asked order m request)
    (id : ConnRef → UInt32) (c : ConnRef) : OwnedMessage.toAll order id ⟨some c, m⟩ = request.1.toAll (id c) := by
  have kind := asked.kind
  rw [OwnedMessage.toAll]
  cases asked with
  | messageAll inputStr now d _ carries typed =>
    obtain ⟨_, whole⟩ := carries.pop (by decide)
    have known : MyCQMessages.ofUInt32 m.header.id = some .messageAll := kind
    simp only [if_pos known, whole]
    simp only [bind, Option.bind, MessageAllDescription.ofBytes_toBytes, typed, Except.toOption, Request.toAll]
  | _ => exact if_neg fun other => by cases kind.symm.trans other

theorem OwnedMessage.toAll_congr {request : OwnedMessage} {id id' : ConnRef → UInt32}
    (requester : ∀ c, request.remote = some c → id c = id' c) : request.toAll order id = request.toAll order id' := by
  rw [toAll, toAll]
  cases remote : request.remote with
  | none => rfl
  | some c => simp only [bind, Option.bind, requester c remote]

theorem OwnedMessage.toOne_congr {request : OwnedMessage} {id id' : ConnRef → UInt32} (name : UInt32)
    (requester : ∀ c, request.remote = some c → id c = id' c) :
    request.toOne order id name = request.toOne order id' name := by
  rw [toOne, toOne]
  cases remote : request.remote with
  | none => rfl
  | some c => simp only [bind, Option.bind, requester c remote]

namespace Network

variable {ι : Type} {idCounter : UInt32} {stdin : ι → List Byte} {s : Network ι} {c d : ConnRef} {x y : ι}

def spoken (order : Endian) (s : Network ι) (calls : List OwnedMessage) : List (UInt32 × List Byte) :=
  calls.filterMap (OwnedMessage.toAll order s.system.server.getID)

def whispered (order : Endian) (s : Network ι) (name : UInt32) (calls : List OwnedMessage) :
    List (UInt32 × List Byte) :=
  calls.filterMap (OwnedMessage.toOne order s.system.server.getID name)

/-- What the client `y` at the connection `d` shows: the lines of the requests behind the first `k`, without a gap. -/
structure Listens (order : Endian) (s : Network ι) (d : ConnRef) (y : ι) (k : Nat) : Prop where
  toAll : (s.program y).shown.filterMap Display.toAll <+:
    s.spoken order ((s.system.calls.drop k).filter fun request => !System.fromClient d request)
  toOne : (s.program y).shown.filterMap Display.toOne <+:
    s.whispered order (s.system.server.getID d) (s.system.calls.drop k)

structure OneConversation [DecidableEq ι] (order : Endian) (idCounter : UInt32) (stdin : ι → List Byte)
    (s : Network ι) : Prop where
  accepted : ∀ d y, s.Joins d y → ∃ k, AcceptedAfter order idCounter stdin s d k
  shown : ∀ d y k, s.Joins d y → AcceptedAfter order idCounter stdin s d k → s.Listens order d y k
  typed : ∀ c x, s.Joins c x → Console.LinesFit (stdin x) →
    (s.spoken order (s.system.calls.filter (System.fromClient c))).Sublist
      ((interpret .key (stdin x)).filterMap (Command.toAll (s.system.server.getID c)))

theorem Wired.named (wired : Wired order idCounter stdin s) {request : OwnedMessage} (called : request ∈ s.system.calls)
    (c : ConnRef) (remote : request.remote = some c) : s.system.server.getID c = System.number idCounter c := by
  have reached := wired.system.reachable
  have wellFormed := System.wellFormed_of_reachable reached
  obtain ⟨e, found, created⟩ := wellFormed.remotes request (System.pushed_of_called wellFormed called)
  obtain rfl : e = c := Option.some.inj (found.symm.trans remote)
  exact (System.numbered_of_reachable reached).ids e created

theorem Wired.spoken_eq (wired : Wired order idCounter stdin s) {calls : List OwnedMessage}
    (called : ∀ request ∈ calls, request ∈ s.system.calls) :
    s.spoken order calls = calls.filterMap (OwnedMessage.toAll order (System.number idCounter)) :=
  List.filterMap_congr fun request member => OwnedMessage.toAll_congr (wired.named (called request member))

theorem Wired.whispered_eq (wired : Wired order idCounter stdin s) (name : UInt32) {calls : List OwnedMessage}
    (called : ∀ request ∈ calls, request ∈ s.system.calls) :
    s.whispered order name calls = calls.filterMap (OwnedMessage.toOne order (System.number idCounter) name) :=
  List.filterMap_congr fun request member => OwnedMessage.toOne_congr name (wired.named (called request member))

theorem Wired.shows_feed (wired : Wired order idCounter stdin s) (joins : s.Joins d y) {feed : Feed order} {k : Nat}
    (segment : System.Segment order idCounter feed s.system d k) {δ : Type} {f : Display → Option δ}
    {g : OwnedMessage → Option δ} (silent : ∀ display, display.kind.any feed.kinds = false → f display = none)
    (same : ∀ display request, feed.due d (System.number idCounter d) request = true →
      Origin order (System.number idCounter) d request display → f display = g request) :
    (s.program y).shown.filterMap f <+:
      ((s.system.calls.drop k).filter (feed.due d (System.number idCounter d))).filterMap g := by
  obtain ⟨front, before, shows⟩ := wired.follows_segment joins segment
  rw [feed.filterMap_eq shows (fun request member => List.of_mem_filter (before.subset member)) silent same]
  exact before.filterMap g

theorem Wired.spoken_due (wired : Wired order idCounter stdin s) (d : ConnRef) {calls : List OwnedMessage}
    (called : ∀ request ∈ calls, request ∈ s.system.calls) :
    s.spoken order (calls.filter fun request => !System.fromClient d request) =
      (calls.filter ((Feed.broadcasts order).due d (System.number idCounter d))).filterMap
        (OwnedMessage.toAll order (System.number idCounter)) := by
  have nested : calls.filter ((Feed.broadcasts order).due d (System.number idCounter d)) =
      (calls.filter fun request => !System.fromClient d request).filter fun request =>
        request.msg.isOf fun kind => decide (kind = .messageAll) := by
    rw [List.filter_filter]
    rfl
  rw [wired.spoken_eq fun request member => called request (List.mem_of_mem_filter member), nested]
  refine (filterMap_of_isSome _ fun request _ other => if_neg fun known => ?_).symm
  rw [Message.isOf_of_known known] at other
  cases other

theorem Wired.whispered_due (wired : Wired order idCounter stdin s) (created : d < s.system.server.created)
    {calls : List OwnedMessage} (called : ∀ request ∈ calls, request ∈ s.system.calls) :
    s.whispered order (s.system.server.getID d) calls =
      (calls.filter ((Feed.privates order).due d (System.number idCounter d))).filterMap
        (OwnedMessage.toOne order (System.number idCounter) (System.number idCounter d)) := by
  rw [wired.whispered_eq _ called, (System.numbered_of_reachable wired.system.reachable).ids d created]
  refine (filterMap_of_isSome calls fun request _ other => if_neg fun ⟨known, receiver⟩ => ?_).symm
  have due : (Feed.privates order).due d (System.number idCounter d) request = true :=
    Bool.and_eq_true_iff.mpr ⟨Message.isOf_of_known known, decide_eq_true receiver⟩
  exact Bool.false_ne_true (other.symm.trans due)

theorem Wired.listens (wired : Wired order idCounter stdin s) (joins : s.Joins d y) {k : Nat}
    (accepted : System.AcceptedAfter order idCounter s.system d k) : s.Listens order d y k := by
  have created := joins.created wired
  obtain ⟨_, broadcasts, privates⟩ := System.relayed_of_accepted accepted
  have behind : ∀ request ∈ s.system.calls.drop k, request ∈ s.system.calls := fun _ => List.mem_of_mem_drop
  refine ⟨?_, ?_⟩
  · rw [wired.spoken_due d behind]
    exact wired.shows_feed joins broadcasts Display.toAll_of_kind fun display request due origin =>
      origin.toAll (Bool.and_eq_true_iff.mp due).1
  · rw [wired.whispered_due created behind]
    exact wired.shows_feed joins privates Display.toOne_of_kind fun display request due origin =>
      origin.toOne (Bool.and_eq_true_iff.mp due).1

theorem Wired.spoken_fromClient (wired : Wired order idCounter stdin s) (c : ConnRef) :
    s.spoken order (s.system.calls.filter (System.fromClient c)) =
      ((s.system.calls.filter (System.fromClient c)).map OwnedMessage.msg).filterMap
        fun m => OwnedMessage.toAll order (System.number idCounter) ⟨some c, m⟩ := by
  rw [wired.spoken_eq fun _ member => List.mem_of_mem_filter member, List.filterMap_map]
  refine List.filterMap_congr fun request member => ?_
  have remote : request.remote = some c := of_decide_eq_true (List.mem_filter.mp member).2
  rw [Function.comp_apply, ← remote]

/-- Whatever the users type, the other peers send and the operating system fails to do. -/
theorem one_conversation [DecidableEq ι]
    (run : Transition.Reachable (step order) (start idCounter stdin) s) :
    OneConversation order idCounter stdin s where
  accepted d y joins := exists_acceptedAfter run (joins.created (wired_of_reachable run))
  shown d y k joins accepted := (wired_of_reachable run).listens joins accepted.system
  typed c x joins _ := by
    have wired := wired_of_reachable run
    rw [wired.spoken_fromClient, (System.numbered_of_reachable wired.system.reachable).ids c (joins.created wired)]
    have handled := (wired.handled joins).filterMap fun m request asked => asked.toAll (System.number idCounter) c
    exact handled.sublist.trans (wired.requested x (Command.toAll (System.number idCounter c)))

theorem one_conversation_saysHi : ∃ s : Network Bool, s.Joins 0 false ∧ s.Joins 1 true ∧
    OneConversation .little 0 hiTyped s := by
  obtain ⟨s, done, facts⟩ := (Option.any_eq_true _ _).mp saysHi_shown
  obtain ⟨peers, _⟩ := of_decide_eq_true facts
  refine ⟨s, ?_, ?_, one_conversation (.of_perform saysHi _ done)⟩
  · rw [Joins, peers]
    rfl
  · rw [Joins, peers]
    rfl

end Network
end MyCQ
