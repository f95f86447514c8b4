import MyCQ.App.Network.Rest
import MyCQ.App.System.Serving

/-! From every state without failures, the network can come to rest.

The handlers of each connection run to an end, then the server handles what it
has enqueued, and then the handlers run to an end again. Nobody needs to type,
to connect or to send anything for it, and no wake-up has to be spurious.
-/

set_option autoImplicit false

namespace MyCQ
open Octets (Endian)
open ConnectionInterface (Handler)
open Endpoint (AnswerStarted)
open Link (AnswersFirst)
open List (Forall₂)

variable {order : Endian}

theorem Endpoint.exists_ran {p q : Endpoint} {h : Handler} (taken : p.step order (.handler h) = some q) :
    ∃ conn out, p.conn.runHandler order h = some (conn, out) ∧ q = ⟨conn, p.enqueued ++ out.toList⟩ := by
  obtain ⟨⟨conn, out⟩, ran, same⟩ := Option.map_eq_some_iff.mp taken
  exact ⟨conn, out, ran, same.symm⟩

theorem Link.idle_of_quiescent {link : Link} {challenge : UInt64} (joined : Joined order challenge link)
    (quiescent : Quiescent order link) (side : Side) : (link.get side).Idle ((link.get side.other).sent order) where
  posted := quiescent.posted side
  writes := quiescent.writes side
  connecting := by
    refine (Bool.not_eq_true _).mp fun pending => ?_
    have moved : ∃ q, (link.get side).step order (.handler .connected) = some q := by
      simp [Endpoint.step, ConnectionInterface.runHandler, pending]
    obtain ⟨q, moved⟩ := moved
    have taken := @step_of order link side (.handler .connected) q rfl moved
    rw [quiescent] at taken
    cases taken
  reads op outstanding := by
    refine Nat.lt_of_not_le fun long => ?_
    obtain ⟨rest, stream⟩ := joined.received side
    have enough : op.length ≤ rest.length := by
      rw [← stream, List.length_append] at long
      exact Nat.le_of_add_le_add_left long
    refine quiescent.reads side op outstanding ⟨rest.take op.length, List.length_take_of_le enough⟩ ?_
    rw [← stream]
    exact (List.prefix_append_right_inj _).mpr (List.take_prefix _ _)

theorem ClientProgram.exists_handler {s : ClientProgram} {conn : ConnectionInterface} {h : Handler} {q : Endpoint}
    (current : s.connectionModule = some conn) (clear : s.fault = none) (runs : s.main.hasEnded = false)
    (moved : s.endpoint.step order (.handler h) = some q) :
    ∃ t, s.step order (.handler h) = some t ∧ t.endpoint = q := by
  rw [endpoint_eq current] at moved
  obtain ⟨conn', out, ran, rfl⟩ := Endpoint.exists_ran moved
  refine ⟨{ s with
    connectionModule := some conn'
    incoming := s.incoming ++ out.toList
    enqueued := s.enqueued ++ out.toList }, ?_, rfl⟩
  simp only [step, handlerStep, if_pos (And.intro clear runs), current, ran, Option.map_some]

theorem System.exists_handler {s : System} {c : ConnRef} {h : Handler} {q : Endpoint} (clear : s.fault = none)
    (listed : some c ∈ s.server.connectionsQueue) (moved : (s.endpoint c).step order (.handler h) = some q) :
    ∃ t, s.step order (.handler c h) = some t ∧ t.endpoint c = q := by
  obtain ⟨conn, out, ran, rfl⟩ := Endpoint.exists_ran moved
  have ran : (s.server.conn c).runHandler order h = some (conn, out) := ran
  refine ⟨s.finishHandler c conn out, ?_, ?_⟩
  · simp only [step, clear, act, ran, if_pos (show s.Owned c from Or.inl listed)]
  · have finished := endpoint_finishHandler ran
    rw [moved] at finished
    exact (Option.some.inj finished).symm

theorem System.handler_cases {s t : System} {c : ConnRef} {h : Handler}
    (taken : s.step order (.handler c h) = some t) :
    (∃ conn out, t = s.finishHandler c conn out) ∨ t = { s with fault := some .useAfterFree } := by
  simp only [step, act] at taken
  split at taken
  · cases taken
  · split at taken
    · cases taken
    · split at taken
      · exact Or.inl ⟨_, _, (Option.some.inj taken).symm⟩
      · exact Or.inr (Option.some.inj taken).symm

namespace Network

variable {ι : Type} {idCounter : UInt32} {stdin : ι → List Byte} {s t : Network ι} {a : Action ι} {c d : ConnRef}
  {x y : ι}

def Handles (c : ConnRef) (x : ι) (_ : Network ι) : Action ι → Prop
  | .server (.handler d _) => d = c
  | .client y (.handler _) => y = x
  | _ => False

/-- Nobody types, connects or sends, and nobody wakes up for nothing. -/
def Quiet (_ : Network ι) : Action ι → Prop
  | .server .spuriousWakeUp => False
  | .server _ | .client _ (.handler _) => True
  | .accept _ _ | .client _ _ => False

/-- The server misses no notification. -/
def PushesOutside (order : Endian) (s : Network ι) : Action ι → Prop
  | .server a => s.system.PushesOutside order a
  | .accept _ _ | .client _ _ => True

instance (s : Network ι) : (a : Action ι) → Decidable (s.PushesOutside order a)
  | .server a => inferInstanceAs (Decidable (s.system.PushesOutside order a))
  | .accept _ _ | .client _ _ => isTrue trivial

/-- No operation fails either. -/
def Calm (order : Endian) (s : Network ι) (a : Action ι) : Prop := Undisturbed s a ∧ s.PushesOutside order a

theorem pushesOutside_of_calm [DecidableEq ι] (run : Transition.Run (step order) (Calm order) s t) :
    Transition.Run (System.step order) (System.PushesOutside order) s.system t.system :=
  system_of_run run (fun _ _ => trivial) fun _ _ calm _ => calm.2

theorem Handles.quiet (handles : Handles c x s a) : Quiet s a := by
  cases a with
  | accept => exact handles.elim
  | server a =>
    cases a with
    | handler => trivial
    | _ => exact handles.elim
  | client y a =>
    cases a with
    | handler => trivial
    | _ => exact handles.elim

structure Undirected (s t : Network ι) : Prop where
  peers : t.peers = s.peers
  created : t.system.server.created = s.system.server.created
  sent : ∀ y, (t.program y).sent = (s.program y).sent
  main : ∀ y, (t.program y).main = (s.program y).main

theorem Undirected.refl (s : Network ι) : Undirected s s := ⟨rfl, rfl, fun _ => rfl, fun _ => rfl⟩

theorem Undirected.joins (same : Undirected s t) : t.Joins c x ↔ s.Joins c x := by rw [Joins, Joins, same.peers]

theorem Undirected.trans {u : Network ι} (first : Undirected s t) (second : Undirected t u) : Undirected s u where
  peers := second.peers.trans first.peers
  created := second.created.trans first.created
  sent y := (second.sent y).trans (first.sent y)
  main y := (second.main y).trans (first.main y)

theorem Populated.inMsgQueue_eq_nil (populated : s.Populated) (wired : Wired order idCounter stdin s)
    (handled : ∀ c x, s.Joins c x →
      (s.system.endpoint c).enqueued.length ≤ (s.system.calls.filter (System.fromClient c)).length) :
    s.system.server.inMsgQueue = [] := by
  have wellFormed := System.wellFormed_of_reachable wired.system.reachable
  refine List.eq_nil_iff_forall_not_mem.mpr fun m queued => ?_
  have member : m ∈ s.system.pushed := by
    rw [← wellFormed.log]
    exact List.mem_append_right _ queued
  obtain ⟨c, remote, created⟩ := wellFormed.remotes m member
  obtain ⟨x, joins⟩ := populated.joins wired created
  have enqueued : (s.system.endpoint c).enqueued.length = (s.system.pushed.filter (System.fromClient c)).length :=
    List.length_map _
  have short := handled c x joins
  rw [enqueued, ← wellFormed.log, List.filter_append, List.filter_append, List.length_append,
    List.length_append] at short
  have left : (s.system.server.inMsgQueue.filter (System.fromClient c)).length = 0 := by omega
  have own : m ∈ s.system.server.inMsgQueue.filter (System.fromClient c) :=
    List.mem_filter.mpr ⟨queued, decide_eq_true remote⟩
  rw [List.eq_nil_of_length_eq_zero left] at own
  cases own

def Handling (order : Endian) (s : Network ι) (a : Action ι) : Prop := Calm order s a ∧ ∃ c x, Handles c x s a

def Serving (order : Endian) (s : Network ι) (a : Action ι) : Prop :=
  Calm order s a ∧ ∃ b, a = .server b ∧ System.Serves s.system b

theorem Handling.quiet (handling : Handling order s a) : Calm order s a ∧ Quiet s a := by
  obtain ⟨calm, _, _, handles⟩ := handling
  exact ⟨calm, handles.quiet⟩

theorem Serving.quiet (serving : Serving order s a) : Calm order s a ∧ Quiet s a := by
  obtain ⟨calm, b, rfl, serves⟩ := serving
  refine ⟨calm, ?_⟩
  cases b with
  | spuriousWakeUp => exact serves.elim
  | _ => trivial

variable [DecidableEq ι]

theorem Quiet.undirected (quiet : Quiet s a) (taken : s.step order a = some t) : Undirected s t := by
  cases step_cases taken with
  | accept => exact quiet.elim
  | server a system acts ran =>
    have other : ∀ clock, a ≠ .accept clock := by
      rintro clock rfl
      cases acts
    exact ⟨rfl, System.created_of_ne_accept ran other, fun _ => rfl, fun _ => rfl⟩
  | client x a program acts ran =>
    cases a with
    | handler h =>
      have same : program.sent = (s.program x).sent ∧ program.main = (s.program x).main := by
        cases ClientProgram.step_cases ran
        exact ⟨rfl, rfl⟩
      refine ⟨rfl, rfl, fun y => ?_, fun y => ?_⟩
      · by_cases own : y = x
        · subst own
          simp only [Function.update_self, same.1]
        · simp only [Function.update_of_ne own]
      · by_cases own : y = x
        · subst own
          simp only [Function.update_self, same.2]
        · simp only [Function.update_of_ne own]
    | _ => exact quiet.elim

theorem undirected_of_run {guard : Network ι → Action ι → Prop} (run : Transition.Run (step order) guard s t)
    (quiet : ∀ s a, guard s a → Quiet s a) : Undirected s t :=
  run.invariant (P := Undirected s) (.refl s) fun _ _ _ before met taken =>
    before.trans ((quiet _ _ met).undirected taken)

theorem exists_link_step (run : Transition.Run (step order) Undisturbed (start idCounter stdin) s)
    (awake : s.system.thread.isBlocking = false) (joins : s.Joins c x) (runs : (s.program x).main.hasEnded = false)
    {side : Side} {h : Handler} {l : Link} (answers : AnswersFirst (s.link c x) (side, .handler h))
    (taken : (s.link c x).step order (side, .handler h) = some l) :
    ∃ a t, Handles c x s a ∧ Calm order s a ∧ s.step order a = some t ∧ t.link c x = l := by
  have wired := wired_of_reachable run.reachable
  obtain ⟨conn, connected⟩ := wired.exists_connected x
  obtain ⟨permitted, q, moved, rfl⟩ := Link.step_eq_some taken
  obtain ⟨challenge, joined⟩ := joined_of_undisturbed run joins
  have next := Link.received_allowed (joined.received side) permitted moved
  rw [Endpoint.received_step moved] at next
  have succeeds : h.succeeds = true := by
    cases h with
    | readFailed | writeFailed | connectFailed => cases permitted
    | _ => rfl
  cases side with
  | client =>
    obtain ⟨program, ran, same⟩ :=
      ClientProgram.exists_handler connected.current (program_clear_of_run (run.mono fun _ _ => And.left) x) runs moved
    have acts : s.clientActs order x (.handler h) = true := by
      refine List.isPrefixOf_iff_prefix.mpr ?_
      rw [wired.toClient_eq joins, ClientProgram.received_eq connected.current]
      rwa [link, Link.get, ClientProgram.endpoint_eq connected.current] at next
    refine ⟨.client x (.handler h), { s with program := Function.update s.program x program }, rfl,
      ⟨⟨trivial, succeeds, ?_⟩, trivial⟩, ?_, ?_⟩
    · rintro rfl
      exact answers
    · simp only [step, acts, if_true, ran, Option.map_some]
    · simp only [link, Function.update_self, same]
      rfl
  | server =>
    have listed : some c ∈ s.system.server.connectionsQueue := by
      rw [listed_of_undisturbed run]
      exact List.mem_map_of_mem (List.mem_range.mpr (joins.created wired))
    obtain ⟨system, ran, same⟩ := System.exists_handler (clear_of_undisturbed run) listed moved
    have acts : s.serverActs order (.handler c h) = true := by
      rw [serverActs, joins_iff.mp joins]
      refine List.isPrefixOf_iff_prefix.mpr ?_
      rw [ClientProgram.written_eq order connected.current, ← ClientProgram.endpoint_eq connected.current]
      exact next
    refine ⟨.server (.handler c h), { s with system }, rfl, ⟨⟨trivial, fun _ => succeeds⟩, ?_⟩, ?_, ?_⟩
    · intro blocking
      cases awake.symm.trans blocking
    · simp only [step, acts, if_true, ran, Option.map_some]
    · simp only [link, same]
      rfl

theorem Handles.apart (handles : Handles c x s a) (taken : s.step order a = some t) (other : d ≠ c) (others : y ≠ x) :
    t.link d y = s.link d y := by
  cases step_cases taken with
  | accept => exact handles.elim
  | server a system acts ran =>
    cases a with
    | handler e h =>
      obtain rfl : e = c := handles
      rcases System.handler_cases ran with ⟨conn, out, rfl⟩ | rfl
      · simp only [link, System.endpoint_finishHandler_of_ne other]
      · rfl
    | _ => exact handles.elim
  | client z a program acts ran =>
    cases a with
    | handler h =>
      obtain rfl : z = x := handles
      simp only [link, Function.update_of_ne others]
    | _ => exact handles.elim

structure Unserved (s t : Network ι) : Prop where
  calls : t.system.calls = s.system.calls
  unhandled : t.system.thread.unhandled = s.system.thread.unhandled
  awake : s.system.thread.isBlocking = false → t.system.thread.isBlocking = false

omit [DecidableEq ι] in
theorem Unserved.trans {u : Network ι} (first : Unserved s t) (second : Unserved t u) : Unserved s u where
  calls := second.calls.trans first.calls
  unhandled := second.unhandled.trans first.unhandled
  awake blocking := second.awake (first.awake blocking)

theorem Handles.unserved (handles : Handles c x s a) (taken : s.step order a = some t) : Unserved s t := by
  cases step_cases taken with
  | accept => exact handles.elim
  | client => exact ⟨rfl, rfl, id⟩
  | server a system acts ran =>
    cases a with
    | handler e h =>
      rcases System.handler_cases ran with ⟨conn, out, rfl⟩ | rfl
      · refine ⟨rfl, System.finishHandler_unhandled _ _ _ _, fun awake => ?_⟩
        rcases System.finishHandler_thread s.system e conn out with same | ⟨_, _, _, woken⟩
        · exact same ▸ awake
        · simp only [woken, UpdateThread.isBlocking]
      · exact ⟨rfl, rfl, id⟩
    | _ => exact handles.elim

theorem unserved_of_run {guard : Network ι → Action ι → Prop} (run : Transition.Run (step order) guard s t)
    (handling : ∀ s a, guard s a → ∃ c x, Handles c x s a) : Unserved s t :=
  run.invariant (P := Unserved s) ⟨rfl, rfl, id⟩ fun _ _ _ before met taken =>
    let ⟨_, _, handles⟩ := handling _ _ met
    before.trans (handles.unserved taken)

theorem settle_link (run : Transition.Run (step order) Undisturbed (start idCounter stdin) s)
    (awake : s.system.thread.isBlocking = false) (joins : s.Joins c x)
    (runs : (s.program x).main.hasEnded = false) :
    ∃ t, Transition.Run (step order) (fun s a => Calm order s a ∧ Handles c x s a) s t ∧
      Link.Quiescent order (t.link c x) := by
  obtain ⟨challenge, joined⟩ := joined_of_undisturbed run joins
  obtain ⟨settled, linkRun, -, quiescent⟩ := Link.settles joined
  suffices lifted : ∃ t, Transition.Run (step order) (fun s a => Calm order s a ∧ Handles c x s a) s t ∧
      t.link c x = settled by
    obtain ⟨t, onward, same⟩ := lifted
    exact ⟨t, onward, same ▸ quiescent⟩
  clear quiescent
  induction linkRun with
  | start => exact ⟨s, .start, rfl⟩
  | @next before after a _ handling taken ih =>
    obtain ⟨t, onward, rfl⟩ := ih
    obtain ⟨side, a⟩ := a
    obtain ⟨answers, h, rfl⟩ := handling
    have same := undirected_of_run onward fun _ _ both => both.2.quiet
    have joins : t.Joins c x := by
      rw [Joins, same.peers]
      exact joins
    have reached := run.trans (onward.mono fun _ _ both => both.1.1)
    have awake := (unserved_of_run onward fun _ _ both => ⟨c, x, both.2⟩).awake awake
    obtain ⟨a, u, handles, calm, moved, linked⟩ :=
      exists_link_step reached awake joins (same.main x ▸ runs) answers taken
    exact ⟨u, onward.next ⟨calm, handles⟩ moved, linked⟩

/-- The handlers of all connections run to an end, one connection after the other. -/
theorem settle_links (run : Transition.Run (step order) Undisturbed (start idCounter stdin) s)
    (awake : s.system.thread.isBlocking = false)
    (runs : ∀ c x, s.Joins c x → (s.program x).main.hasEnded = false) (count : Nat) :
    ∃ t, Transition.Run (step order) (Handling order) s t ∧
      ∀ c x, c < count → t.Joins c x → Link.Quiescent order (t.link c x) := by
  induction count with
  | zero => exact ⟨s, .start, fun _ _ below => absurd below (Nat.not_lt_zero _)⟩
  | succ count ih =>
    obtain ⟨t, onward, quiescent⟩ := ih
    have same := undirected_of_run onward fun _ _ handling => handling.quiet.2
    have reached := run.trans (onward.mono fun _ _ handling => handling.1.1)
    have awake := (unserved_of_run onward fun _ _ handling => handling.2).awake awake
    have wired := wired_of_reachable reached.reachable
    cases entry : t.peer count with
    | none =>
      refine ⟨t, onward, fun c x below joins => ?_⟩
      rcases Nat.lt_succ_iff_lt_or_eq.mp below with earlier | rfl
      · exact quiescent c x earlier joins
      · cases entry.symm.trans (joins_iff.mp joins)
    | some x =>
      have joins : t.Joins count x := joins_iff.mpr entry
      have joined : s.Joins count x := by
        rw [Joins, ← same.peers]
        exact joins
      obtain ⟨u, last, settled⟩ := settle_link reached awake joins (same.main x ▸ runs count x joined)
      have kept := undirected_of_run last fun _ _ both => both.2.quiet
      refine ⟨u, onward.trans (last.mono fun _ _ both => ⟨both.1, count, x, both.2⟩), fun c y below joins' => ?_⟩
      have joins' : t.Joins c y := by
        rw [Joins, ← kept.peers]
        exact joins'
      rcases Nat.lt_succ_iff_lt_or_eq.mp below with earlier | rfl
      · have others : y ≠ x := by
          rintro rfl
          exact absurd (wired.once _ _ _ joins' joins) (Nat.ne_of_lt earlier)
        have apart : u.link c y = t.link c y :=
          last.invariant (P := fun u => u.link c y = t.link c y) rfl fun _ _ _ before met taken =>
            (met.2.apart taken (Nat.ne_of_lt earlier) others).trans before
        exact apart ▸ quiescent c y earlier joins'
      · obtain rfl : x = y := Option.some.inj (entry.symm.trans (joins_iff.mp joins'))
        exact settled

/-- The server handles what it has enqueued. -/
theorem serve_queue (run : Transition.Run (step order) (Calm order) (start idCounter stdin) s)
    (few : s.system.server.created ≤ 1000) : ∃ t, Transition.Run (step order) (Serving order) s t ∧
      t.system.server.inMsgQueue = [] ∧ t.system.thread.unhandled = [] ∧ t.system.thread.isBlocking = false := by
  have outside := pushesOutside_of_calm run
  have run := run.mono fun _ _ => And.left
  obtain ⟨system, serving, served⟩ := System.serving outside (clear_of_undisturbed run)
  suffices lifted : ∃ t, Transition.Run (step order) (Serving order) s t ∧ t.system = system by
    obtain ⟨t, onward, rfl⟩ := lifted
    rcases served with failed | handled
    · exact absurd (clear_of_undisturbed (run.trans (onward.mono fun _ _ serving => serving.1.1))) failed
    · exact ⟨t, onward, handled⟩
  clear served
  induction serving with
  | start => exact ⟨s, .start, rfl⟩
  | @next before after a _ serves taken ih =>
    obtain ⟨t, onward, rfl⟩ := ih
    have same := undirected_of_run onward fun _ _ serving => serving.quiet.2
    have short : t.system.server.connectionsQueue.length ≤ 1000 := by
      rw [listed_of_undisturbed (run.trans (onward.mono fun _ _ serving => serving.1.1)), List.length_map,
        List.length_range, same.created]
      exact few
    have acts : t.serverActs order a = true := by
      cases a with
      | accept | handler | sendMessageToAllClients | sendMessageToClient => exact serves.elim
      | _ => rfl
    have calm : Calm order t (.server a) := by
      cases a with
      | handler => exact serves.elim
      | onMessage => exact ⟨⟨fun _ _ => short, trivial⟩, trivial⟩
      | _ => exact ⟨⟨trivial, trivial⟩, trivial⟩
    refine ⟨{ t with system := after }, onward.next ⟨calm, a, rfl, serves⟩ ?_, rfl⟩
    simp only [step, acts, if_true, taken, Option.map_some]

theorem pushed_of_serving (run : Transition.Run (step order) (Serving order) s t) :
    t.system.pushed = s.system.pushed := by
  refine run.invariant (P := fun t => t.system.pushed = s.system.pushed) rfl fun _ _ _ before met taken => ?_
  obtain ⟨_, b, rfl, serves⟩ := met
  cases step_cases taken with
  | server _ system acts ran => exact (serves.pushed ran).trans before

structure Conveyed (order : Endian) (s t : Network ι) (c : ConnRef) (x : ι) : Prop where
  settled : t.Settled order c x
  requests : Forall₂ (Asked order) ((t.system.calls.filter (System.fromClient c)).map OwnedMessage.msg)
    (s.program x).sent
  replies : Forall₂ (fun m msg => msg.Arrives m) (t.program x).enqueued (t.system.server.conn c).sendDataCalls

/-- From every state of a run in which no operation has failed, unless a client has quit. -/
theorem comes_to_rest (run : Transition.Run (step order) (Calm order) (start idCounter stdin) s)
    (few : s.system.server.created ≤ 1000) (runs : ∀ c x, s.Joins c x → (s.program x).main.hasEnded = false) :
    ∃ t, Transition.Run (step order) (fun s a => Calm order s a ∧ Quiet s a) s t ∧
      ∀ c x, s.Joins c x → Conveyed order s t c x := by
  -- A thread that is about to sleep has to be asleep before the handlers wake it.
  obtain ⟨r, zeroth, -, -, awakeR⟩ := serve_queue run few
  have sameR := undirected_of_run zeroth fun _ _ serving => serving.quiet.2
  have runR := run.trans (zeroth.mono fun _ _ => And.left)
  have runsR : ∀ c x, r.Joins c x → (r.program x).main.hasEnded = false := by
    intro c x joins
    rw [Joins, sameR.peers] at joins
    exact sameR.main x ▸ runs c x joins
  obtain ⟨t, first, arrived⟩ := settle_links (runR.mono fun _ _ => And.left) awakeR runsR s.system.server.created
  have sameT := sameR.trans (undirected_of_run first fun _ _ handling => handling.quiet.2)
  have runT := runR.trans (first.mono fun _ _ => And.left)
  obtain ⟨u, second, queue, unhandled, awakeU⟩ := serve_queue runT (sameT.created ▸ few)
  have sameU := sameT.trans (undirected_of_run second fun _ _ serving => serving.quiet.2)
  have runU := runT.trans (second.mono fun _ _ => And.left)
  have runsU : ∀ c x, u.Joins c x → (u.program x).main.hasEnded = false := by
    intro c x joins
    rw [Joins, sameU.peers] at joins
    exact sameU.main x ▸ runs c x joins
  obtain ⟨v, third, settled⟩ := settle_links (runU.mono fun _ _ => And.left) awakeU runsU s.system.server.created
  have sameV := sameU.trans (undirected_of_run third fun _ _ handling => handling.quiet.2)
  have runV := (runU.trans (third.mono fun _ _ => And.left)).mono fun _ _ => And.left
  have wired := wired_of_reachable runV.reachable
  -- The last handlers enqueue nothing: the server has handled all that the clients had sent before.
  have counted : ∀ c x, s.Joins c x →
      (u.system.calls.filter (System.fromClient c)).length = (s.program x).sent.length := by
    intro c x joins
    have wiredS := wired_of_reachable run.reachable
    have wiredT := wired_of_reachable runT.reachable
    have wiredU := wired_of_reachable runU.reachable
    obtain ⟨challenge, joined⟩ := joined_of_undisturbed (runT.mono fun _ _ => And.left) (sameT.joins.mpr joins)
    have log := (System.wellFormed_of_reachable wiredU.system.reachable).log
    rw [unhandled, queue, List.append_nil, List.append_nil, pushed_of_serving second] at log
    have enqueued := length_enqueued wiredT joined (arrived c x (joins.created wiredS) (sameT.joins.mpr joins))
    rw [sameT.sent] at enqueued
    rw [log, ← enqueued]
    exact (List.length_map _).symm
  have kept := unserved_of_run third fun _ _ handling => handling.2
  have quiescent : ∀ c x, s.Joins c x → Link.Quiescent order (v.link c x) := fun c x joins =>
    settled c x (sameV.created ▸ (sameV.joins.mpr joins).created wired) (sameV.joins.mpr joins)
  have empty : v.system.server.inMsgQueue = [] := by
    refine (populated_of_run (runV.mono fun _ _ => And.left)).inMsgQueue_eq_nil wired fun c x joins => ?_
    obtain ⟨challenge, joined⟩ := joined_of_undisturbed runV joins
    rw [length_enqueued wired joined (quiescent c x (sameV.joins.mp joins)), kept.calls,
      counted c x (sameV.joins.mp joins), sameV.sent]
  refine ⟨v, ?_, fun c x joins => ?_⟩
  · have before := (zeroth.mono fun _ _ => Serving.quiet).trans (first.mono fun _ _ => Handling.quiet)
    exact (before.trans (second.mono fun _ _ => Serving.quiet)).trans (third.mono fun _ _ => Handling.quiet)
  · obtain ⟨challenge, joined⟩ := joined_of_undisturbed runV (sameV.joins.mpr joins)
    have rests : v.Settled order c x := ⟨Link.idle_of_quiescent joined (quiescent c x joins) .client,
      Link.idle_of_quiescent joined (quiescent c x joins) .server, empty, by rw [kept.unhandled, unhandled]⟩
    refine ⟨rests, ?_, arrived_of_quiescent wired (sameV.joins.mpr joins) joined (quiescent c x joins)⟩
    exact sameV.sent x ▸ rests.asked wired (sameV.joins.mpr joins) joined

theorem pings_begun : ((Transition.perform (step .little) (start 0 fun _ => [112]) (pings.take 13)).any fun s =>
    s.peers = [some ()] ∧ (s.program ()).sent = [(.pingServer, 42)] ∧ s.system.calls = [] ∧
      s.system.server.created ≤ 1000 ∧ (s.program ()).main.hasEnded = false) = true := by
  decide +kernel

theorem pings_begun_undisturbed : Transition.Meets (step .little)
    (fun s a => (FewClients s a ∧ s.Reliable a) ∧ s.PushesOutside .little a)
    (start 0 fun _ => [112]) (pings.take 13) := by
  decide +kernel

theorem comes_to_rest_pings : ∃ s t : Network Unit, (s.program ()).sent = [(.pingServer, 42)] ∧ s.system.calls = [] ∧
    Transition.Run (step .little) (fun s a => Calm .little s a ∧ Quiet s a) s t ∧
      Conveyed .little s t 0 () := by
  obtain ⟨s, done, facts⟩ := (Option.any_eq_true _ _).mp pings_begun
  obtain ⟨peers, sent, calls, few, runs⟩ := of_decide_eq_true facts
  have joins : s.Joins 0 () := by
    rw [Joins, peers]
    rfl
  have run := Transition.Run.of_perform (pings.take 13) _ pings_begun_undisturbed done
  obtain ⟨t, onward, conveyed⟩ :=
    comes_to_rest (run.mono fun _ _ calm => ⟨⟨calm.1.1.among, calm.1.2⟩, calm.2⟩) few fun _ _ _ => runs
  exact ⟨s, t, sent, calls, onward, conveyed 0 () joins⟩

end Network
end MyCQ
