import Mathlib.Data.List.Infix
import MyCQ.Net.Endpoint.SendQueue

/-! How far the outgoing stream of a connection has come.

The stream is made of the frames of the messages passed to `sendData`, in that
order. Of the frames that have been begun all but the last have been handed to
the socket completely.
-/

set_option autoImplicit false

namespace MyCQ
open Octets (Endian)

def WriteOp.isHeader : WriteOp → Bool
  | .header _ => true
  | .validationData _ | .payload _ => false

theorem Message.countP_frameOps (msg : Message) : msg.frameOps.countP WriteOp.isHeader = 1 := by
  unfold frameOps
  split <;> rfl

theorem Message.countP_begun {msg : Message} {begun : List WriteOp} (some : begun ≠ [])
    (sub : begun <+: msg.frameOps) : begun.countP WriteOp.isHeader = 1 := by
  cases begun with
  | nil => exact absurd rfl some
  | cons op rest =>
    obtain ⟨same, _⟩ := List.cons_prefix_cons.mp sub
    apply Nat.le_antisymm
    · rw [← msg.countP_frameOps]
      exact sub.sublist.countP_le
    · rw [same, List.countP_cons_of_pos rfl]
      exact Nat.le_add_left 1 _

theorem Message.countP_flatMap_frameOps (msgs : List Message) :
    (msgs.flatMap frameOps).countP WriteOp.isHeader = msgs.length := by
  induction msgs with
  | nil => rfl
  | cons msg rest ih =>
    rw [List.flatMap_cons, List.countP_append, msg.countP_frameOps, ih, List.length_cons, Nat.add_comm]

namespace ConnectionInterface

def framesBegun (c : ConnectionInterface) : Nat := c.framesStarted.countP WriteOp.isHeader

inductive Writing (c : ConnectionInterface) (done : List Message) : Prop where
  | between (rest : List Message) : c.sendDataCalls = done ++ rest →
      c.framesStarted = done.flatMap Message.frameOps → Writing c done
  | within (msg : Message) (rest : List Message) (begun : List WriteOp) : c.sendDataCalls = done ++ msg :: rest →
      begun ≠ [] → begun <+: msg.frameOps → c.framesStarted = done.flatMap Message.frameOps ++ begun →
      Writing c done

theorem WriterInvariant.writing {c : ConnectionInterface} (inv : WriterInvariant c) : ∃ done, Writing c done := by
  obtain ⟨done, calls, sending⟩ := inv
  have next : ∀ msg rest, c.outMsgQueue = msg :: rest → c.sendDataCalls = done ++ msg :: (rest ++ c.posted) := by
    intro msg rest queue
    rw [calls, queue, List.append_assoc, List.cons_append]
  refine ⟨done, ?_⟩
  cases sending with
  | quiet queue _ started => exact .between c.posted (by rw [calls, queue, List.append_nil]) started
  | header msg rest queue _ started =>
    exact .within msg _ _ (next msg rest queue) (List.cons_ne_nil _ _) (List.prefix_append [_] _) started
  | payload msg rest queue _ _ started =>
    exact .within msg _ _ (next msg rest queue) (List.cons_ne_nil _ _) (List.prefix_refl _) started
  | failed msg rest begun queue _ _ some sub started => exact .within msg _ _ (next msg rest queue) some sub started

/-- The messages whose frames have been begun make up the stream, the last of them perhaps in part. -/
theorem WriterInvariant.stream {c : ConnectionInterface} (inv : WriterInvariant c) (order : Endian) :
    (c.sendDataCalls.take (c.framesBegun - 1)).flatMap (Message.wire order) <+: c.frameBytes order ∧
      c.frameBytes order <+: (c.sendDataCalls.take c.framesBegun).flatMap (Message.wire order) := by
  obtain ⟨done, writing⟩ := inv.writing
  cases writing with
  | between rest calls started =>
    have count : c.framesBegun = done.length := by rw [framesBegun, started, Message.countP_flatMap_frameOps]
    have bytes : c.frameBytes order = done.flatMap (Message.wire order) := by
      rw [ConnectionInterface.frameBytes, started, Message.flatMap_frameOps_bytes]
    have whole : c.sendDataCalls.take done.length = done := calls ▸ List.take_left
    rw [count, bytes, whole]
    constructor
    · apply List.IsPrefix.flatMap
      conv => rhs; rw [← whole]
      exact List.take_prefix_take_left (Nat.sub_le _ _)
    · exact List.prefix_refl _
  | within msg rest begun calls some sub started =>
    have count : c.framesBegun = done.length + 1 := by
      rw [framesBegun, started, List.countP_append, Message.countP_flatMap_frameOps, Message.countP_begun some sub]
    have bytes : c.frameBytes order =
        done.flatMap (Message.wire order) ++ begun.flatMap (WriteOp.bytes order) := by
      rw [ConnectionInterface.frameBytes, started, List.flatMap_append, Message.flatMap_frameOps_bytes]
    have complete : c.sendDataCalls.take done.length = done := calls ▸ List.take_left
    have front : c.sendDataCalls.take (done.length + 1) = done ++ [msg] := by
      rw [calls, List.take_length_add_append]
      rfl
    rw [count, Nat.add_sub_cancel, bytes, complete, front, List.flatMap_append, List.flatMap_singleton,
      ← msg.frameOps_bytes]
    constructor
    · exact List.prefix_append _ _
    · rw [List.prefix_append_right_inj]
      exact sub.flatMap _

end ConnectionInterface
end MyCQ
