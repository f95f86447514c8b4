import Mathlib.Data.List.Nodup
import MyCQ.App.Server

/-! Which connections receive which messages from the server's operations.

`Delivers s t out` says that the connections of `t` are those of `s` after
`sendData` has been called with the messages `out c` on each connection `c`.
Every operation of the server is characterised by such a table.
-/

set_option autoImplicit false

namespace MyCQ
open Octets (Endian)

def ConnectionInterface.sendAll (c : ConnectionInterface) (msgs : List Message) : ConnectionInterface :=
  { c with
    posted := c.posted ++ msgs
    sendDataCalls := c.sendDataCalls ++ msgs }

@[simp] theorem ConnectionInterface.sendAll_nil (c : ConnectionInterface) : c.sendAll [] = c := by
  simp [sendAll]

@[simp] theorem ConnectionInterface.sendAll_sendAll (c : ConnectionInterface) (first second : List Message) :
    (c.sendAll first).sendAll second = c.sendAll (first ++ second) := by
  simp [sendAll]

def ConnectionInterface.passed (before after : ConnectionInterface) : List Message :=
  after.sendDataCalls.drop before.sendDataCalls.length

@[simp] theorem ConnectionInterface.passed_sendAll (c : ConnectionInterface) (msgs : List Message) :
    c.passed (c.sendAll msgs) = msgs := List.drop_left

@[simp] theorem ConnectionInterface.passed_sendData (c : ConnectionInterface) (msg : Message) :
    c.passed (c.sendData msg) = [msg] := List.drop_left

theorem bind_eq_ok {ε α β : Type} {x : Except ε α} {f : α → Except ε β} {result : β}
    (done : (x >>= f) = .ok result) : ∃ value, x = .ok value ∧ f value = .ok result := by
  cases x with
  | error fault => cases done
  | ok value => exact ⟨value, rfl, done⟩

theorem bind_eq_error {ε α β : Type} {x : Except ε α} {f : α → Except ε β} {fault : ε}
    (failed : (x >>= f) = .error fault) : x = .error fault ∨ ∃ value, x = .ok value ∧ f value = .error fault := by
  cases x with
  | error first =>
    cases failed
    exact Or.inl rfl
  | ok value => exact Or.inr ⟨value, rfl, failed⟩

namespace MyCQServer

structure Delivers (s t : MyCQServer) (out : ConnRef → List Message) : Prop where
  conn : ∀ c, t.conn c = (s.conn c).sendAll (out c)
  created : t.created = s.created
  inMsgQueue : t.inMsgQueue = s.inMsgQueue
  idCounter : t.idCounter = s.idCounter

theorem Delivers.nothing {s t : MyCQServer} (conn : t.conn = s.conn) (created : t.created = s.created)
    (inMsgQueue : t.inMsgQueue = s.inMsgQueue) (idCounter : t.idCounter = s.idCounter) :
    Delivers s t fun _ => [] :=
  ⟨fun c => by rw [conn, ConnectionInterface.sendAll_nil], created, inMsgQueue, idCounter⟩

theorem Delivers.trans {s t u : MyCQServer} {first second : ConnRef → List Message}
    (before : Delivers s t first) (after : Delivers t u second) :
    Delivers s u fun c => first c ++ second c where
  conn c := by rw [after.conn, before.conn, ConnectionInterface.sendAll_sendAll]
  created := after.created.trans before.created
  inMsgQueue := after.inMsgQueue.trans before.inMsgQueue
  idCounter := after.idCounter.trans before.idCounter

theorem Delivers.congr {s t : MyCQServer} {first second : ConnRef → List Message}
    (delivers : Delivers s t first) (same : ∀ c, first c = second c) : Delivers s t second := by
  rwa [← funext same]

theorem Delivers.isConnected {s t : MyCQServer} {out : ConnRef → List Message} (delivers : Delivers s t out) :
    t.isConnected = s.isConnected := by
  funext c
  simp only [MyCQServer.isConnected, delivers.conn]
  rfl

theorem Delivers.getID {s t : MyCQServer} {out : ConnRef → List Message} (delivers : Delivers s t out) :
    t.getID = s.getID := by
  funext c
  simp only [MyCQServer.getID, delivers.conn]
  rfl

def passed (s t : MyCQServer) (c : ConnRef) : List Message := (s.conn c).passed (t.conn c)

theorem Delivers.passed {s t : MyCQServer} {out : ConnRef → List Message} (delivers : Delivers s t out)
    (c : ConnRef) : s.passed t c = out c := by
  rw [MyCQServer.passed, delivers.conn, ConnectionInterface.passed_sendAll]

theorem delivers_sendData (s : MyCQServer) (c : ConnRef) (msg : Message) :
    Delivers s (s.sendData c msg) fun d => if d = c then [msg] else [] where
  conn d := by
    by_cases same : d = c
    · subst same
      simp only [sendData, setConn, Function.update_self, if_true]
      rfl
    · simp [sendData, setConn, same]
  created := rfl
  inMsgQueue := rfl
  idCounter := rfl

theorem onClientDisconnect_ok {s t : MyCQServer} {ptr : Option ConnRef}
    (done : s.onClientDisconnect ptr = .ok t) :
    ∃ c, ptr = some c ∧ t = { s with disconnectCalls := s.disconnectCalls ++ [c] } := by
  cases ptr with
  | none => cases done
  | some c =>
    cases done
    exact ⟨c, rfl, rfl⟩

def live (s : MyCQServer) (entry : Option ConnRef) : Bool := entry.any s.isConnected

def broadcastTo (s : MyCQServer) (entries : List (Option ConnRef)) (msg : Message)
    (ignoreClient : Option ConnRef) (c : ConnRef) : List Message :=
  if s.isConnected c ∧ some c ≠ ignoreClient then List.replicate (entries.count (some c)) msg else []

def closedEntries (s : MyCQServer) (entries : List (Option ConnRef)) : List ConnRef :=
  (entries.filterMap fun entry => entry).filter fun c => !s.isConnected c

structure BroadcastLoop (s : MyCQServer) (msg : Message) (ignoreClient : Option ConnRef)
    (entries : List (Option ConnRef)) (t : MyCQServer) (rest : List (Option ConnRef)) (invalid : Bool) :
    Prop where
  delivers : Delivers s t (s.broadcastTo entries msg ignoreClient)
  connectionsQueue : t.connectionsQueue = s.connectionsQueue
  disconnectCalls : t.disconnectCalls = s.disconnectCalls ++ s.closedEntries entries
  rest : rest = entries.map fun entry => entry.filter s.isConnected
  invalid : invalid = entries.any fun entry => !s.live entry

theorem closedEntries_congr {s t : MyCQServer} (same : t.isConnected = s.isConnected)
    (entries : List (Option ConnRef)) : t.closedEntries entries = s.closedEntries entries := by
  rw [closedEntries, closedEntries, same]

theorem broadcastTo_congr {s t : MyCQServer} (same : t.isConnected = s.isConnected)
    (entries : List (Option ConnRef)) (msg : Message) (ignoreClient : Option ConnRef) :
    t.broadcastTo entries msg ignoreClient = s.broadcastTo entries msg ignoreClient := by
  funext c
  rw [broadcastTo, broadcastTo, same]

def headShare (s : MyCQServer) (msg : Message) (ignoreClient : Option ConnRef) (c d : ConnRef) : List Message :=
  if d = c ∧ s.isConnected c ∧ some c ≠ ignoreClient then [msg] else []

theorem broadcastTo_cons (s : MyCQServer) (c d : ConnRef) (rest : List (Option ConnRef)) (msg : Message)
    (ignoreClient : Option ConnRef) :
    s.broadcastTo (some c :: rest) msg ignoreClient d =
      s.headShare msg ignoreClient c d ++ s.broadcastTo rest msg ignoreClient d := by
  simp only [broadcastTo, headShare, List.count_cons, beq_iff_eq, Option.some.injEq]
  by_cases same : c = d
  · subst same
    by_cases meant : s.isConnected c ∧ some c ≠ ignoreClient
    · simp [meant, List.replicate_succ]
    · simp [meant]
  · have other : ¬ d = c := fun back => same back.symm
    simp [same, other]

theorem broadcastTo_of_nodup {entries : List (Option ConnRef)} (distinct : entries.Nodup) (s : MyCQServer)
    (msg : Message) (ignoreClient : Option ConnRef) (c : ConnRef) :
    s.broadcastTo entries msg ignoreClient c =
      if some c ∈ entries ∧ s.isConnected c = true ∧ some c ≠ ignoreClient then [msg] else [] := by
  rw [broadcastTo, distinct.count]
  by_cases meant : s.isConnected c = true ∧ some c ≠ ignoreClient
  · by_cases listed : some c ∈ entries
    · simp [meant, listed]
    · simp [listed]
  · simp [meant]

theorem BroadcastLoop.cons {s s' t : MyCQServer} {msg : Message} {ignoreClient : Option ConnRef} {c : ConnRef}
    {entries rest : List (Option ConnRef)} {invalid : Bool}
    (here : Delivers s s' (s.headShare msg ignoreClient c))
    (queue : s'.connectionsQueue = s.connectionsQueue)
    (calls : s'.disconnectCalls = s.disconnectCalls ++ if s.isConnected c then [] else [c])
    (tail : BroadcastLoop s' msg ignoreClient entries t rest invalid) :
    BroadcastLoop s msg ignoreClient (some c :: entries) t ((some c).filter s.isConnected :: rest)
      (!s.isConnected c || invalid) := by
  have opens := here.isConnected
  refine ⟨(here.trans tail.delivers).congr fun d => ?_, tail.connectionsQueue.trans queue, ?_, ?_, ?_⟩
  · rw [broadcastTo_congr opens, broadcastTo_cons]
  · rw [tail.disconnectCalls, calls, closedEntries_congr opens, List.append_assoc]
    by_cases isOpen : s.isConnected c = true
    · simp [closedEntries, isOpen]
    · simp [closedEntries, isOpen]
  · simp only [tail.rest, opens, List.map_cons]
  · simp [tail.invalid, live, opens]

theorem broadcastLoop_ok {msg : Message} {ignoreClient : Option ConnRef} {entries rest : List (Option ConnRef)}
    {s t : MyCQServer} {invalid : Bool}
    (done : broadcastLoop msg ignoreClient entries s = .ok (t, rest, invalid)) :
    BroadcastLoop s msg ignoreClient entries t rest invalid := by
  induction entries generalizing s rest invalid with
  | nil =>
    cases done
    refine ⟨(Delivers.nothing rfl rfl rfl rfl).congr ?_, rfl, ?_, rfl, rfl⟩
    · intro c
      simp [broadcastTo]
    · simp [closedEntries]
  | cons connIt tail ih =>
    simp only [broadcastLoop] at done
    split at done
    · next c found =>
      obtain ⟨rfl, isOpen⟩ := Option.filter_eq_some_iff.mp found
      obtain ⟨⟨t', tailRest, tailInvalid⟩, ran, built⟩ := bind_eq_ok done
      cases built
      have here : Delivers s (if some c ≠ ignoreClient then s.sendData c msg else s)
          (s.headShare msg ignoreClient c) := by
        by_cases meant : some c ≠ ignoreClient
        · rw [if_pos meant]
          exact (delivers_sendData s c msg).congr fun d => by simp [headShare, isOpen, meant]
        · rw [if_neg meant]
          exact (Delivers.nothing rfl rfl rfl rfl).congr fun d => by simp [headShare, meant]
      have loop := BroadcastLoop.cons here (by split <;> rfl)
        (by rw [if_pos isOpen, List.append_nil]; split <;> rfl) (ih ran)
      rwa [found, isOpen, Bool.not_true, Bool.false_or] at loop
    · next found =>
      obtain ⟨s', hook, done⟩ := bind_eq_ok done
      obtain ⟨c, rfl, rfl⟩ := onClientDisconnect_ok hook
      obtain ⟨⟨t', tailRest, tailInvalid⟩, ran, built⟩ := bind_eq_ok done
      cases built
      have isClosed : s.isConnected c = false := by simpa [Option.filter] using found
      have here : Delivers s { s with disconnectCalls := s.disconnectCalls ++ [c] }
          (s.headShare msg ignoreClient c) :=
        Delivers.congr (Delivers.nothing rfl rfl rfl rfl) fun d => by simp [headShare, isClosed]
      have loop := BroadcastLoop.cons here rfl (by simp [isClosed]) (ih ran)
      rwa [found, isClosed, Bool.not_false, Bool.true_or] at loop

theorem broadcastLoop_total (msg : Message) (ignoreClient : Option ConnRef) (refs : List ConnRef)
    (s : MyCQServer) : ∃ result, broadcastLoop msg ignoreClient (refs.map some) s = .ok result := by
  induction refs generalizing s with
  | nil => exact ⟨_, rfl⟩
  | cons c rest ih =>
    simp only [List.map_cons, broadcastLoop]
    split
    · next d found =>
      obtain ⟨result, ran⟩ := ih (if some c ≠ ignoreClient then s.sendData d msg else s)
      rw [ran]
      exact ⟨_, rfl⟩
    · obtain ⟨result, ran⟩ := ih { s with disconnectCalls := s.disconnectCalls ++ [c] }
      simp only [onClientDisconnect, deref, bind, Except.bind, ran]
      exact ⟨_, rfl⟩

theorem sendMessageToAllClients_total {s : MyCQServer} {refs : List ConnRef}
    (entries : s.connectionsQueue = refs.map some) (msg : Message) (ignoreClient : Option ConnRef) :
    ∃ t, s.sendMessageToAllClients msg ignoreClient = .ok t := by
  obtain ⟨⟨t, rest, invalid⟩, ran⟩ := broadcastLoop_total msg ignoreClient refs s
  rw [sendMessageToAllClients, entries, ran]
  simp only [bind, Except.bind]
  split
  · exact ⟨_, rfl⟩
  · exact ⟨_, rfl⟩

theorem filter_map_live (s : MyCQServer) (entries : List (Option ConnRef)) :
    (entries.map fun entry => entry.filter s.isConnected).filter (· ≠ none) = entries.filter s.live := by
  induction entries with
  | nil => rfl
  | cons entry rest ih =>
    cases entry with
    | none => simpa [live] using ih
    | some c =>
      by_cases isOpen : s.isConnected c = true
      · simpa [live, Option.filter, isOpen] using ih
      · simpa [live, Option.filter, isOpen] using ih

/-- The broadcast: what is sent, which entries stay, and whose hooks are called. -/
theorem sendMessageToAllClients_ok {s t : MyCQServer} {msg : Message} {ignoreClient : Option ConnRef}
    (done : s.sendMessageToAllClients msg ignoreClient = .ok t) :
    Delivers s t (s.broadcastTo s.connectionsQueue msg ignoreClient) ∧
      t.connectionsQueue = s.connectionsQueue.filter s.live ∧
      t.disconnectCalls = s.disconnectCalls ++ s.closedEntries s.connectionsQueue := by
  obtain ⟨⟨s', entries, invalid⟩, ran, finish⟩ := bind_eq_ok done
  obtain ⟨delivers, _, calls, rest, invalidEq⟩ := broadcastLoop_ok ran
  dsimp only at finish
  split at finish
  · cases finish
    refine ⟨⟨delivers.conn, delivers.created, delivers.inMsgQueue, delivers.idCounter⟩, ?_, calls⟩
    rw [rest]
    exact filter_map_live s s.connectionsQueue
  · next valid =>
    cases finish
    refine ⟨⟨delivers.conn, delivers.created, delivers.inMsgQueue, delivers.idCounter⟩, ?_, calls⟩
    have allLive : ∀ entry ∈ s.connectionsQueue, s.live entry = true := by
      simpa [invalidEq] using valid
    have kept : s.connectionsQueue.map (fun entry => entry.filter s.isConnected) = s.connectionsQueue := by
      conv => rhs; rw [← List.map_id s.connectionsQueue]
      apply List.map_congr_left
      intro entry member
      have isLive := allLive entry member
      cases entry with
      | none => simp [live] at isLive
      | some c => simpa [live, Option.filter] using isLive
    rw [rest]
    exact kept.trans (List.filter_eq_self.mpr allLive).symm

end MyCQServer
end MyCQ
