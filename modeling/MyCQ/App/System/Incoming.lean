import MyCQ.App.System.Connections

/-! What becomes of the messages in the incoming queue.

Messages are pushed by the io thread and popped by the one thread that calls
`update`. The queue is tested in one critical section and popped in another, so
messages may arrive in between; they never disappear there.
-/

set_option autoImplicit false

namespace MyCQ
open Octets (Endian)

inductive UpdateThread.InCall (numMaxMessages : UInt64) (handled : Nat) : UpdateThread → Prop where
  | waiting : handled = 0 → InCall numMaxMessages handled (.waiting numMaxMessages)
  | blocking : handled = 0 → InCall numMaxMessages handled (.blocking numMaxMessages)
  | blocked : handled = 0 → InCall numMaxMessages handled (.blocked numMaxMessages)
  | testing (msgCount : UInt64) : msgCount ≤ numMaxMessages → handled = msgCount.toNat →
      InCall numMaxMessages handled (.testing numMaxMessages msgCount)
  | popping (msgCount : UInt64) : msgCount < numMaxMessages → handled = msgCount.toNat →
      InCall numMaxMessages handled (.popping numMaxMessages msgCount)
  | received (msgCount : UInt64) (msg : OwnedMessage) : msgCount < numMaxMessages → handled = msgCount.toNat →
      InCall numMaxMessages handled (.received numMaxMessages msgCount msg)
  | handled (msgCount : UInt64) (msg : OwnedMessage) : msgCount < numMaxMessages →
      handled = msgCount.toNat + 1 → InCall numMaxMessages handled (.handled numMaxMessages msgCount msg)

theorem UpdateThread.InCall.le {numMaxMessages : UInt64} {handled : Nat} {thread : UpdateThread}
    (inCall : InCall numMaxMessages handled thread) : handled ≤ numMaxMessages.toNat := by
  cases inCall with
  | waiting none | blocking none | blocked none => exact none ▸ Nat.zero_le _
  | testing msgCount bound count => exact count ▸ UInt64.le_iff_toNat_le.mp bound
  | popping msgCount bound count => exact count ▸ Nat.le_of_lt (UInt64.lt_iff_toNat_lt.mp bound)
  | received msgCount _ bound count => exact count ▸ Nat.le_of_lt (UInt64.lt_iff_toNat_lt.mp bound)
  | handled msgCount _ bound count => exact count ▸ UInt64.lt_iff_toNat_lt.mp bound

theorem toNat_succ_of_lt {msgCount numMaxMessages : UInt64} (bound : msgCount < numMaxMessages) :
    (msgCount + 1).toNat = msgCount.toNat + 1 := by
  have below := UInt64.lt_iff_toNat_lt.mp bound
  have limit := numMaxMessages.toNat_lt
  rw [UInt64.toNat_add, UInt64.toNat_one]
  omega

namespace System

variable {order : Endian} {idCounter : UInt32} {s t u : System} {a : Action}

def PopsMessage (s : System) : Prop :=
  ∀ numMaxMessages msgCount, s.thread = .popping numMaxMessages msgCount → s.server.inMsgQueue ≠ []

theorem PopsMessage.step (pops : PopsMessage s) (taken : s.step order a = some t) : PopsMessage t := by
  cases step_cases taken with
  | accept clock => exact pops
  | handler c h conn out =>
    intro numMaxMessages msgCount point
    rcases s.finishHandler_thread c conn out with same | ⟨_, _, _, woken⟩
    · exact List.append_ne_nil_of_left_ne_nil (pops numMaxMessages msgCount (same ▸ point)) _
    · cases woken.symm.trans point
  | dangling => exact pops
  | moves _ thread moved =>
    intro numMaxMessages msgCount point
    generalize s.thread = before at moved
    cases moved with
    | call _ enableWaiting => cases enableWaiting <;> cases point
    | enter _ _ _ waiting => exact waiting
    | _ => cases point
  | emptyPop numMaxMessages msgCount point empty => exact absurd empty (pops _ _ point)
  | popFront =>
    intro _ _ point
    cases point
  | onMessage =>
    intro _ _ point
    cases point
  | onMessageFault =>
    intro _ _ point
    cases point
  | endIteration =>
    intro _ _ point
    cases point
  | sendMessageToAllClients msg ignoreClient server outside =>
    intro _ _ point
    cases outside.symm.trans point
  | sendMessageToClient client msg server outside =>
    intro _ _ point
    cases outside.symm.trans point
  | sendFault => exact pops

theorem popsMessage_of_reachable (run : Transition.Reachable (step order) (.start idCounter) s) : PopsMessage s := by
  induction run with
  | start =>
    intro _ _ point
    cases point
  | next _ _ taken ih => exact ih.step taken

def InUpdate (s : System) (_ : Action) : Prop := s.thread ≠ .outside

def Progress (numMaxMessages : UInt64) (before : Nat) (s : System) : Prop :=
  ∃ handled, s.calls.length = before + handled ∧ s.thread.InCall numMaxMessages handled

theorem Progress.inside {numMaxMessages : UInt64} {before : Nat} (progress : Progress numMaxMessages before s) :
    s.thread ≠ .outside := by
  obtain ⟨handled, _, inCall⟩ := progress
  intro outside
  rw [outside] at inCall
  cases inCall

/-- The call goes on, or it returns, and then it has handled all it may or found the queue empty. -/
theorem Progress.step {numMaxMessages : UInt64} {before : Nat} (progress : Progress numMaxMessages before s)
    (taken : s.step order a = some t) : Progress numMaxMessages before t ∨ t.thread = .outside ∧ t.calls = s.calls ∧
      (s.calls.length < before + numMaxMessages.toNat → s.server.inMsgQueue = []) := by
  have inside := progress.inside
  obtain ⟨handled, count, inCall⟩ := progress
  cases step_cases taken with
  | accept clock => exact Or.inl ⟨handled, count, inCall⟩
  | handler c h conn out =>
    rcases s.finishHandler_thread c conn out with same | ⟨_, _, asleep, woken⟩
    · exact Or.inl ⟨handled, count, same.symm ▸ inCall⟩
    · rw [asleep] at inCall
      cases inCall with
      | blocked none => exact Or.inl ⟨handled, count, woken.symm ▸ .waiting none⟩
  | dangling => exact Or.inl ⟨handled, count, inCall⟩
  | moves _ thread moved =>
    generalize point : s.thread = now at moved inCall
    cases moved with
    | call => exact absurd point inside
    | wake =>
      cases inCall with
      | waiting none => exact Or.inl ⟨handled, count, .testing 0 UInt64.zero_le none⟩
    | seesEmpty =>
      cases inCall with
      | waiting none => exact Or.inl ⟨handled, count, .blocking none⟩
    | block =>
      cases inCall with
      | blocking none => exact Or.inl ⟨handled, count, .blocked none⟩
    | spuriousWakeUp =>
      cases inCall with
      | blocked none => exact Or.inl ⟨handled, count, .waiting none⟩
    | enter _ msgCount below =>
      cases inCall with
      | testing _ _ same => exact Or.inl ⟨handled, count, .popping msgCount below same⟩
    | leave _ msgCount seen =>
      cases inCall with
      | testing _ _ same =>
        refine Or.inr ⟨rfl, rfl, fun fewer => seen (UInt64.lt_iff_toNat_lt.mpr ?_)⟩
        omega
  | emptyPop => exact Or.inl ⟨handled, count, inCall⟩
  | popFront _ msgCount msg rest point =>
    rw [point] at inCall
    cases inCall with
    | popping _ below same => exact Or.inl ⟨handled, count, .received msgCount msg below same⟩
  | onMessage _ _ msgCount msg server point =>
    rw [point] at inCall
    cases inCall with
    | received _ _ below same =>
      refine Or.inl ⟨handled + 1, ?_, .handled msgCount msg below (congrArg (· + 1) same)⟩
      rw [List.length_append, count, List.length_singleton, Nat.add_assoc]
  | onMessageFault _ _ msgCount msg fault point =>
    rw [point] at inCall
    cases inCall with
    | received _ _ below same =>
      refine Or.inl ⟨handled + 1, ?_, .handled msgCount msg below (congrArg (· + 1) same)⟩
      rw [List.length_append, count, List.length_singleton, Nat.add_assoc]
  | endIteration _ msgCount msg point =>
    rw [point] at inCall
    cases inCall with
    | handled _ _ below same =>
      refine Or.inl ⟨handled, count, .testing (msgCount + 1) ?_ (same.trans (toNat_succ_of_lt below).symm)⟩
      rw [UInt64.le_iff_toNat_le, toNat_succ_of_lt below]
      exact UInt64.lt_iff_toNat_lt.mp below
  | sendMessageToAllClients _ _ _ outside => exact absurd outside inside
  | sendMessageToClient _ _ _ outside => exact absurd outside inside
  | sendFault _ _ outside => exact absurd outside inside

theorem update_begins {numMaxMessages : UInt64} {enableWaiting : Bool}
    (taken : s.step order (.update numMaxMessages enableWaiting) = some t) :
    Progress numMaxMessages s.calls.length t := by
  unfold System.step at taken
  split at taken
  · cases taken
  · simp only [act] at taken
    split at taken
    · cases taken
      refine ⟨0, rfl, ?_⟩
      cases enableWaiting with
      | true => exact .waiting rfl
      | false => exact .testing 0 UInt64.zero_le rfl
    · cases taken

/-- Until the call returns it is in progress; afterwards it has handled no more. -/
theorem progress_run {numMaxMessages : UInt64} {before : Nat} (begun : Progress numMaxMessages before s)
    (run : Transition.Run (System.step order) InUpdate s u) :
    Progress numMaxMessages before u ∨ u.thread = .outside ∧ u.calls.length ≤ before + numMaxMessages.toNat := by
  induction run with
  | start => exact Or.inl begun
  | next _ inside taken ih =>
    rcases ih with progress | ⟨outside, _⟩
    · rcases progress.step taken with onward | ⟨outside, calls, _⟩
      · exact Or.inl onward
      · obtain ⟨handled, count, inCall⟩ := progress
        refine Or.inr ⟨outside, ?_⟩
        rw [calls, count]
        exact Nat.add_le_add_left inCall.le before
    · exact absurd outside inside

/-- What a call of `update` does from the state `s` on. -/
structure UpdateCall (order : Endian) (s : System) (numMaxMessages : UInt64) (enableWaiting : Bool) : Prop where
  begins : s.fault = none → s.thread = .outside → ∃ t, s.step order (.update numMaxMessages enableWaiting) = some t ∧
    t.thread = (if enableWaiting then .waiting numMaxMessages else .testing numMaxMessages 0) ∧ t.calls = s.calls
  counts : ∀ t u, s.step order (.update numMaxMessages enableWaiting) = some t →
    Transition.Run (step order) InUpdate t u → u.thread ≠ .outside → Progress numMaxMessages s.calls.length u
  atMost : ∀ t u, s.step order (.update numMaxMessages enableWaiting) = some t →
    Transition.Run (step order) InUpdate t u → u.calls.length ≤ s.calls.length + numMaxMessages.toNat
  returns : ∀ t u v a, s.step order (.update numMaxMessages enableWaiting) = some t →
    Transition.Run (step order) InUpdate t u → u.thread ≠ .outside → u.step order a = some v →
    v.thread = .outside → v.calls.length < s.calls.length + numMaxMessages.toNat → u.server.inMsgQueue = []

theorem updateCall (order : Endian) (s : System) (numMaxMessages : UInt64) (enableWaiting : Bool) :
    UpdateCall order s numMaxMessages enableWaiting where
  begins clear outside := by
    refine ⟨{ s with
      thread := if enableWaiting then .waiting numMaxMessages else .testing numMaxMessages 0 }, ?_, rfl, rfl⟩
    simp only [step, clear, act, outside]
  counts t u called run inside := by
    rcases progress_run (update_begins called) run with progress | ⟨outside, _⟩
    · exact progress
    · exact absurd outside inside
  atMost t u called run := by
    rcases progress_run (update_begins called) run with ⟨handled, count, inCall⟩ | ⟨_, bound⟩
    · rw [count]
      exact Nat.add_le_add_left inCall.le _
    · exact bound
  returns t u v a called run inside taken outside fewer := by
    rcases progress_run (update_begins called) run with progress | ⟨returned, _⟩
    · rcases progress.step taken with onward | ⟨_, calls, seen⟩
      · exact absurd outside onward.inside
      · exact seen (calls ▸ fewer)
    · exact absurd returned inside

structure IncomingDelivery (order : Endian) (s : System) : Prop where
  log : s.calls ++ s.thread.unhandled ++ s.server.inMsgQueue = s.pushed
  inOrder : s.calls <+: s.pushed
  popsMessage : PopsMessage s
  updateCall : ∀ numMaxMessages enableWaiting, UpdateCall order s numMaxMessages enableWaiting

theorem incoming_delivery (run : Transition.Reachable (step order) (.start idCounter) s) :
    IncomingDelivery order s where
  log := (wellFormed_of_reachable run).log
  inOrder := by
    rw [← (wellFormed_of_reachable run).log, List.append_assoc]
    exact List.prefix_append _ _
  popsMessage := popsMessage_of_reachable run
  updateCall := System.updateCall order s

def handledPing : List Action :=
  [.accept 7,
    .handler 0 (.readOk .checkValidation (CArray.ofUInt64 .little (encryptHandshakeData 7)).toList),
    .handler 0 (.readOk .header ((MessageHeader.mk 2 0).bytes .little).toList),
    .update 1 true, .waitReturns, .test, .popFront, .onMessage ⟨0, 0, .replicate 1000 0⟩, .endIteration, .test]

theorem handledPing_enabled :
    (Transition.perform (System.step .little) (start 0) handledPing).isSome = true := by
  decide +kernel

theorem incoming_delivery_handledPing : IncomingDelivery .little
    ((Transition.perform (System.step .little) (.start 0) handledPing).get handledPing_enabled) :=
  incoming_delivery (.of_isSome handledPing (start 0) handledPing_enabled)

end System
end MyCQ
