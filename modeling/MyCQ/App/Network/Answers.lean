import MyCQ.App.Network.Feeds

/-! What a client shows of its own requests: the times of its pings and its lists.

The answers come back in the order of the requests, and none is left out before
one that is shown. So a round trip time is computed from the clock reading of
the very ping that it is shown for.
-/

set_option autoImplicit false

namespace MyCQ
open Octets (Endian)
open MyCQClient (Display)
open MyCQServer (Reply)

inductive Answer where
  | ping (requestTime : UInt64)
  | list (ownId : UInt32)
  deriving DecidableEq, Repr

def MyCQClient.Display.answer : Display → Option Answer
  | .serverPing requestTime => some (.ping requestTime)
  | .listAllClients ownId _ => some (.list ownId)
  | _ => none

def Request.answer (id : UInt32) (now : UInt64) : Request → Option Answer
  | .pingServer => some (.ping now)
  | .requestConnectedClientsList => some (.list id)
  | .messageAll _ | .notifyOne _ _ => none

theorem Request.isSome_answer (id : UInt32) (now : UInt64) (request : Request) :
    (request.answer id now).isSome = request.kind.answered := by
  cases request <;> rfl

variable {order : Endian}

theorem MyCQClient.Display.isSome_answer (display : Display) :
    display.answer.isSome = display.kind.any MyCQMessages.answered := by
  cases display <;> rfl

theorem Asked.answer {id : ConnRef → UInt32} {d : ConnRef} {request : OwnedMessage} {display : Display}
    {r : Request × UInt64} (asked : Asked order request.msg r) (shows : Shows order id d display request) :
    display.answer = r.1.answer (id d) r.2 := by
  obtain ⟨msg, m, reply, arrives, done⟩ := shows
  -- Neither is an answer when the request is of another kind.
  have neither : ∀ kind : MyCQMessages, MyCQMessages.ofUInt32 request.msg.header.id = some kind →
      kind.answered = false → msg.isOf MyCQMessages.answered = false → display.answer = r.1.answer (id d) r.2 := by
    intro kind known quiet silent
    have shown : ¬ display.answer.isSome = true := by
      rw [display.isSome_answer, MyCQClient.kind_of_dispatch done rfl, arrives.isOf, silent]
      exact Bool.false_ne_true
    have due : ¬ (r.1.answer (id d) r.2).isSome = true := by
      rw [Request.isSome_answer, Option.some.inj (asked.kind.symm.trans known), quiet]
      exact Bool.false_ne_true
    rw [Option.not_isSome_iff_eq_none.mp shown, Option.not_isSome_iff_eq_none.mp due]
  cases reply with
  | echo known remote same =>
    subst same
    obtain ⟨ping, carries, _⟩ := asked.of_ping known
    obtain ⟨bytes, extracted, rfl⟩ := MyCQClient.dispatch_serverPing (arrives.header.symm ▸ known) done
    have whole := MyCQServer.extract_of_carries (arrives.carries carries (by decide)) (by decide)
    obtain rfl := Except.ok.inj (extracted.symm.trans whole)
    rw [ping, Display.answer, CArray.toUInt64_ofUInt64]
    rfl
  | broadcast c bytes rest known _ _ _ same =>
    exact neither .messageAll known rfl (same ▸ Message.isOf_push _ .messageAll _)
  | notify c bytes rest known _ _ _ same =>
    exact neither .notifyOneClient known rfl (same ▸ Message.isOf_push _ .notifyOneClient _)
  | list reply known _ own _ same =>
    subst same
    have carries := arrives.carries (Message.carries_push _ _) (by decide)
    rw [MyCQClient.dispatch_listAllClients (congrArg MessageHeader.id arrives.header) carries] at done
    obtain ⟨others, _, rfl⟩ := MyCQClient.map_eq_ok done
    have kind := Option.some.inj (asked.kind.symm.trans known)
    obtain ⟨request, now⟩ := r
    cases request with
    | requestConnectedClientsList => rw [Display.answer, own, Request.answer]
    | _ => cases kind

namespace Network

variable {ι : Type} {idCounter : UInt32} {stdin : ι → List Byte} {s : Network ι} {d : ConnRef} {y : ι}

theorem Wired.asks (wired : Wired order idCounter stdin s) (joins : s.Joins d y) :
    Relay.Follows (fun request r => Asked order request.msg r)
      (s.system.calls.filter ((Feed.answers order).due d (System.number idCounter d)))
      ((s.program y).sent.filter fun r => r.1.kind.answered) := by
  have handled := (wired.handled joins).map_left
  have answered := handled.filter (p := fun request => request.msg.isOf MyCQMessages.answered)
    (q := fun r => r.1.kind.answered) fun request r asked => Message.isOf_of_known asked.kind
  rwa [List.filter_filter] at answered

theorem filterMap_answers (displays : List Display) :
    (displays.filter fun display => display.kind.any MyCQMessages.answered).filterMap Display.answer =
      displays.filterMap Display.answer := by
  refine filterMap_of_isSome displays fun display _ other => ?_
  rw [← Option.not_isSome_iff_eq_none, display.isSome_answer, other]
  exact Bool.false_ne_true

theorem filterMap_answered (id : UInt32) (sent : List (Request × UInt64)) :
    ((sent.filter fun r => r.1.kind.answered).filterMap fun r => r.1.answer id r.2) =
      sent.filterMap fun r => r.1.answer id r.2 := by
  refine filterMap_of_isSome sent fun r _ other => ?_
  rw [← Option.not_isSome_iff_eq_none, Request.isSome_answer, other]
  exact Bool.false_ne_true

/-- Whatever the users type, the other peers send and the operating system fails to do. -/
theorem own_answers [DecidableEq ι]
    (run : Transition.Reachable (step order) (start idCounter stdin) s) (joins : s.Joins d y) :
    (s.program y).shown.filterMap Display.answer <+:
      (s.program y).sent.filterMap fun r => r.1.answer (s.system.server.getID d) r.2 := by
  have wired := wired_of_reachable run
  have created := joins.created wired
  obtain ⟨k, accepted⟩ := System.exists_acceptedAfter wired.system created
  have shows := wired.follows_segment joins (System.relayed_of_accepted accepted).answers
  rw [List.drop_zero] at shows
  have answers := (shows.comp (wired.asks joins)).filterMap (f := Display.answer)
    (g := fun r => r.1.answer (System.number idCounter d) r.2) fun display r ⟨_, shown, asked⟩ => asked.answer shown
  rw [(System.numbered_of_reachable wired.system.reachable).ids d created]
  exact filterMap_answers _ ▸ filterMap_answered _ _ ▸ answers

def pings : List (Action Unit) :=
  let announced := ((MessageHeader.mk 2 8).bytes .little).toList
  let time := (CArray.ofUInt64 .little 42).toList
  ([.accept 7 (some ()), .client () (.handler .connected),
      .client () (.handler (.readOk .serverValidationRequest (CArray.ofUInt64 .little 7).toList)),
      .client () (.handler (.writeOk (.validationData (encryptHandshakeData 7)))),
      .server (.handler 0 (.readOk .checkValidation (CArray.ofUInt64 .little (encryptHandshakeData 7)).toList))] :
        List (Action Unit)) ++
    List.replicate 4 (Action.client () .keyboard) ++ List.replicate 3 (Action.client () .main) ++
    ([.client () (.call 42 ⟨0, .replicate 2048 0, 0⟩ ⟨0, 0, .replicate 2048 0⟩), .client () (.handler .posted),
      .client () (.handler (.writeOk (.header ⟨2, 8⟩))), .server (.handler 0 (.readOk .header announced)),
      .server (.handler 0 (.readOk (.payload 8) time)), .server (.update 1 true), .server .waitReturns,
      .server .test, .server .popFront, .server (.onMessage ⟨0, 0, .replicate 1000 0⟩),
      .server (.handler 0 .posted), .server (.handler 0 (.writeOk (.header ⟨4, 0⟩))), .server (.handler 0 .posted),
      .server (.handler 0 (.writeOk (.header ⟨2, 8⟩))),
      .client () (.handler (.readOk .header ((MessageHeader.mk 4 0).bytes .little).toList)),
      .client () (.handler (.readOk .header announced)), .client () (.handler (.readOk (.payload 8) time))] :
        List (Action Unit)) ++
    List.replicate 10 (Action.client () .main)

theorem pings_shown : ((Transition.perform (step .little) (start 0 fun _ => [112]) pings).any fun s =>
    s.peers = [some ()] ∧ (s.program ()).shown.filterMap Display.answer = [.ping 42]) = true := by
  decide +kernel

theorem own_answers_pings : ∃ s : Network Unit, (s.program ()).shown.filterMap Display.answer = [.ping 42] ∧
    (s.program ()).shown.filterMap Display.answer <+:
      (s.program ()).sent.filterMap fun r => r.1.answer (s.system.server.getID 0) r.2 := by
  obtain ⟨s, done, facts⟩ := (Option.any_eq_true _ _).mp pings_shown
  obtain ⟨peers, shown⟩ := of_decide_eq_true facts
  have joins : s.Joins 0 () := by
    rw [Joins, peers]
    rfl
  exact ⟨s, shown, own_answers (.of_perform pings _ done) joins⟩

end Network
end MyCQ
