import MyCQ.App.Client.Program

/-! How the client's main thread and its keyboard thread share the input.

At any time one of the two reads it. A key is in one place at a time, between
the keyboard thread, the promise and the main thread; `ahead` reads the rest of
the input from there on, so that the commands begun and those ahead are always
the commands of the whole input.
-/

set_option autoImplicit false

namespace MyCQ
open Octets (Endian)
open Console (interpret getline possableInputs)

def KeyboardThread.Listens : KeyboardThread → Bool → Prop
  | .setRaw, cooked | .setValue _, cooked => cooked = true
  | .getchar, cooked | .setCooked _, cooked => cooked = false
  | .none, _ | .returned, _ => False

def MainThread.polls : MainThread → Bool
  | .isReady | .incoming | .popFront | .dispatch _ => true
  | _ => false

def MainThread.readsLine : MainThread → Bool
  | .getlineAll | .getlineReceiver | .getlineMessage _ => true
  | _ => false

namespace ClientProgram

variable {order : Endian} {input : List Byte} {connectionModule : Option ConnectionInterface}
  {s t : ClientProgram} {a : Action}

structure Listening (keyboard : KeyboardThread) (promise : Option Byte) (future cooked : Bool) : Prop where
  keyboard : keyboard.Listens cooked
  promise : promise = none
  future : future = true

structure Typed (keyboard : KeyboardThread) (promise : Option Byte) (future cooked : Bool) : Prop where
  keyboard : keyboard = .returned
  promise : promise ≠ none
  future : future = true
  cooked : cooked = true

structure Acting (keyboard : KeyboardThread) (cooked : Bool) : Prop where
  keyboard : keyboard = .returned
  cooked : cooked = true

structure Joined (keyboard : KeyboardThread) (cooked : Bool) : Prop where
  keyboard : keyboard = .none
  cooked : cooked = true

/-- Where the keyboard thread, the promise and the future are, by what the main thread does next. -/
def Coupled (s : ClientProgram) : Prop :=
  match s.main with
  | .isReady | .incoming | .popFront | .dispatch _ =>
    Listening s.keyboard s.promise s.future s.cooked ∨ Typed s.keyboard s.promise s.future s.cooked
  | .get => Typed s.keyboard s.promise s.future s.cooked
  | .inputCharacter _ | .getlineAll | .getlineReceiver | .getlineMessage _ | .call _ | .join _ =>
    Acting s.keyboard s.cooked
  | .ended .exited | .ended .terminated | .ended .overrun => Acting s.keyboard s.cooked
  | .listenAgain | .ended .returned => Joined s.keyboard s.cooked

def aheadOfPoll (s : ClientProgram) : List Command :=
  match s.keyboard with
  | .setCooked c | .setValue c => interpret .key (c :: s.stdin)
  | .returned => interpret .key (s.promise.toList ++ s.stdin)
  | .none | .setRaw | .getchar => interpret .key s.stdin

def ahead (s : ClientProgram) : List Command :=
  match s.main with
  | .inputCharacter c => interpret .key (c :: s.stdin)
  | .getlineAll => interpret (.messageAll []) s.stdin
  | .getlineReceiver => interpret (.receiverId []) s.stdin
  | .getlineMessage receiverId => interpret (.writtenMsg receiverId []) s.stdin
  | .call request => .call request :: interpret .key s.stdin
  | .join true | .ended .returned => []
  | .join false | .listenAgain | .ended _ => interpret .key s.stdin
  | .isReady | .get | .incoming | .popFront | .dispatch _ => s.aheadOfPoll

structure InputInvariant (input : List Byte) (s : ClientProgram) : Prop where
  coupled : s.Coupled
  follows : s.commands ++ s.ahead = interpret .key input
  queue : s.main = .popFront → s.incoming ≠ []
  faults : ∀ fault, s.fault = some fault → ∃ reason, fault = .dispatch reason

theorem onInputCharacter_follows (acting : Acting s.keyboard s.cooked) (c : Byte) :
    (s.onInputCharacter c).Coupled ∧
      (s.onInputCharacter c).commands ++ (s.onInputCharacter c).ahead = s.commands ++ interpret .key (c :: s.stdin) ∧
      (s.onInputCharacter c).main ≠ .popFront ∧ (s.onInputCharacter c).fault = s.fault := by
  by_cases possible : c ∈ possableInputs
  · simp only [possableInputs, List.mem_cons, List.not_mem_nil, or_false] at possible
    rcases possible with rfl | rfl | rfl | rfl | rfl | rfl
    · exact ⟨acting, rfl, MainThread.noConfusion, rfl⟩
    · exact ⟨acting, rfl, MainThread.noConfusion, rfl⟩
    · exact ⟨acting, rfl, MainThread.noConfusion, rfl⟩
    · exact ⟨acting, rfl, MainThread.noConfusion, rfl⟩
    · exact ⟨acting, List.append_nil _, MainThread.noConfusion, rfl⟩
    · exact ⟨acting, List.append_nil _, MainThread.noConfusion, rfl⟩
  · -- The default branch: the key is dropped.
    have dropped : s.onInputCharacter c = { s with main := .join false } := by
      simp only [possableInputs, List.mem_cons, List.not_mem_nil, or_false, not_or] at possible
      obtain ⟨notPing, notAll, notList, notOne, notQuit, notInterrupt⟩ := possible
      simp only [onInputCharacter, notPing, notAll, notList, notOne, notQuit, notInterrupt, if_false]
    rw [dropped, Console.interpret_skip possible]
    exact ⟨acting, rfl, MainThread.noConfusion, rfl⟩

theorem coupled_of_polls (polls : s.main.polls = true) : s.Coupled ↔
    Listening s.keyboard s.promise s.future s.cooked ∨ Typed s.keyboard s.promise s.future s.cooked := by
  unfold Coupled
  split <;> simp_all [MainThread.polls]

theorem ahead_of_polls (polls : s.main.polls = true) : s.ahead = s.aheadOfPoll := by
  unfold ahead
  split <;> simp_all [MainThread.polls]

theorem Coupled.listening (coupled : s.Coupled) (runs : s.keyboard ≠ .none) (busy : s.keyboard ≠ .returned) :
    s.main.polls = true ∧ Listening s.keyboard s.promise s.future s.cooked := by
  have acting : ¬ Acting s.keyboard s.cooked := fun acting => busy acting.keyboard
  have joined : ¬ Joined s.keyboard s.cooked := fun joined => runs joined.keyboard
  have typed : ¬ Typed s.keyboard s.promise s.future s.cooked := fun typed => busy typed.keyboard
  unfold Coupled at coupled
  split at coupled <;>
    first
    | exact absurd coupled typed
    | exact absurd coupled acting
    | exact absurd coupled joined
    | next main => exact ⟨by rw [main]; rfl, coupled.resolve_right typed⟩

theorem InputInvariant.step (inv : InputInvariant input s) (taken : s.step order a = some t) :
    InputInvariant input t := by
  obtain ⟨coupled, follows, queue, faults⟩ := inv
  -- A step between two points at which the main thread has taken no key.
  have stays : ∀ u : ClientProgram, s.main.polls = true → u.main.polls = true →
      Listening u.keyboard u.promise u.future u.cooked ∨ Typed u.keyboard u.promise u.future u.cooked →
      u.commands = s.commands → u.aheadOfPoll = s.aheadOfPoll → (u.main = .popFront → u.incoming ≠ []) →
      u.fault = s.fault → InputInvariant input u := by
    intro u before after polling commands same queue fault
    refine ⟨(coupled_of_polls after).mpr polling, ?_, queue, by rwa [fault]⟩
    rw [commands, ahead_of_polls after, same, ← ahead_of_polls before]
    exact follows
  cases step_cases taken with
  | isReady point valid =>
    have polls : s.main.polls = true := by rw [point]; rfl
    rcases (coupled_of_polls polls).mp coupled with listening | typed
    · rw [listening.promise]
      exact stays _ polls rfl (Or.inl (listening.promise ▸ listening)) rfl (by simp only [aheadOfPoll, listening.promise])
        nofun rfl
    · have ready : s.promise.isSome = true := Option.isSome_iff_ne_none.mpr typed.promise
      rw [ready, if_pos rfl]
      refine ⟨typed, ?_, nofun, faults⟩
      rw [ahead_of_polls polls] at follows
      exact follows
  | get c point valid promise =>
    simp only [Coupled, ahead, point] at coupled follows
    refine ⟨⟨coupled.keyboard, coupled.cooked⟩, ?_, nofun, faults⟩
    rw [aheadOfPoll, coupled.keyboard, promise] at follows
    exact follows
  | noState point invalid =>
    rcases point with point | point <;> simp only [Coupled, point] at coupled
    · rcases coupled with listening | typed
      · cases invalid.symm.trans listening.future
      · cases invalid.symm.trans typed.future
    · cases invalid.symm.trans coupled.future
  | inputCharacter c point =>
    simp only [Coupled, ahead, point] at coupled follows
    obtain ⟨acts, commands, other, fault⟩ := onInputCharacter_follows coupled c
    exact ⟨acts, commands.trans follows, fun popFront => absurd popFront other, by rwa [fault]⟩
  | getlineAll line rest point found =>
    simp only [Coupled, ahead, point] at coupled follows
    rw [Console.interpret_messageAll found] at follows
    exact ⟨coupled, follows, nofun, faults⟩
  | getlineReceiver line rest point found =>
    simp only [Coupled, ahead, point] at coupled follows
    rw [Console.interpret_receiverId found] at follows
    exact ⟨coupled, follows, nofun, faults⟩
  | getlineMessage receiverId line rest point found =>
    simp only [Coupled, ahead, point] at coupled follows
    rw [Console.interpret_writtenMsg receiverId found] at follows
    exact ⟨coupled, follows, nofun, faults⟩
  | join quits point returned =>
    cases quits with
    | true =>
      simp only [Coupled, ahead, point] at coupled follows
      exact ⟨⟨rfl, coupled.cooked⟩, follows, nofun, faults⟩
    | false =>
      simp only [Coupled, ahead, point] at coupled follows
      exact ⟨⟨rfl, coupled.cooked⟩, follows, nofun, faults⟩
  | notJoinable quits point none =>
    simp only [Coupled, point] at coupled
    cases none.symm.trans coupled.keyboard
  | listenAgain point none =>
    simp only [Coupled, ahead, point] at coupled follows
    exact ⟨Or.inl ⟨coupled.cooked, rfl, rfl⟩, follows, nofun, faults⟩
  | stillJoinable point joinable =>
    simp only [Coupled, point] at coupled
    exact absurd coupled.keyboard joinable
  | incoming point _ some =>
    have polls : s.main.polls = true := by rw [point]; rfl
    exact stays _ polls rfl ((coupled_of_polls polls).mp coupled) rfl rfl (fun _ => some) rfl
  | nothing point =>
    have polls : s.main.polls = true := by rw [point]; rfl
    exact stays _ polls rfl ((coupled_of_polls polls).mp coupled) rfl rfl nofun rfl
  | popFront msg rest point =>
    have polls : s.main.polls = true := by rw [point]; rfl
    exact stays _ polls rfl ((coupled_of_polls polls).mp coupled) rfl rfl nofun rfl
  | emptyQueue point empty => exact absurd empty (queue point)
  | dispatch msg display point =>
    have polls : s.main.polls = true := by rw [point]; rfl
    exact stays _ polls rfl ((coupled_of_polls polls).mp coupled) rfl rfl nofun rfl
  | dispatchFault msg fault point =>
    exact ⟨coupled, follows, queue, fun _ found => ⟨fault, (Option.some.inj found).symm⟩⟩
  | returned now messageAll notifyOne request connectionModule point =>
    simp only [Coupled, ahead, point] at coupled follows
    refine ⟨coupled, ?_, nofun, faults⟩
    rw [← follows]
    exact List.append_assoc _ _ _
  | ended now messageAll notifyOne request how point other =>
    simp only [Coupled, ahead, point] at coupled follows
    have rest : s.commands ++ [.call request] ++ interpret .key s.stdin = interpret .key input := by
      rw [← follows, List.append_assoc]
      rfl
    cases how with
    | returned => exact absurd rfl other
    | exited => exact ⟨coupled, rest, nofun, faults⟩
    | terminated => exact ⟨coupled, rest, nofun, faults⟩
    | overrun => exact ⟨coupled, rest, nofun, faults⟩
  | setRaw point =>
    obtain ⟨polls, listening⟩ := coupled.listening (by rw [point]; nofun) (by rw [point]; nofun)
    refine stays _ polls polls (Or.inl ⟨rfl, listening.promise, listening.future⟩) rfl ?_ queue rfl
    simp only [aheadOfPoll, point]
  | getchar c rest point stdin =>
    obtain ⟨polls, listening⟩ := coupled.listening (by rw [point]; nofun) (by rw [point]; nofun)
    have raw := listening.keyboard
    rw [point] at raw
    refine stays _ polls polls (Or.inl ⟨raw, listening.promise, listening.future⟩) rfl ?_ queue rfl
    simp only [aheadOfPoll, point, stdin]
  | setCooked c point =>
    obtain ⟨polls, listening⟩ := coupled.listening (by rw [point]; nofun) (by rw [point]; nofun)
    by_cases possible : c ∈ possableInputs
    · rw [if_pos possible]
      refine stays _ polls polls (Or.inl ⟨rfl, listening.promise, listening.future⟩) rfl ?_ queue rfl
      simp only [aheadOfPoll, point]
    · rw [if_neg possible]
      refine stays _ polls polls (Or.inl ⟨rfl, listening.promise, listening.future⟩) rfl ?_ queue rfl
      simp only [aheadOfPoll, point, Console.interpret_skip possible]
  | setValue c point promise =>
    obtain ⟨polls, listening⟩ := coupled.listening (by rw [point]; nofun) (by rw [point]; nofun)
    have cooked := listening.keyboard
    rw [point] at cooked
    refine stays _ polls polls (Or.inr ⟨rfl, nofun, listening.future, cooked⟩) rfl ?_ queue rfl
    simp only [aheadOfPoll, point]
    rfl
  | alreadySatisfied c point promise =>
    obtain ⟨_, listening⟩ := coupled.listening (by rw [point]; nofun) (by rw [point]; nofun)
    exact absurd listening.promise promise
  | handler h c conn out current =>
    exact ⟨coupled, follows, fun point => List.append_ne_nil_of_left_ne_nil (queue point) _, faults⟩

theorem inputInvariant_start (input : List Byte) (connectionModule : Option ConnectionInterface) :
    InputInvariant input (start input connectionModule) :=
  ⟨Or.inl ⟨rfl, rfl, rfl⟩, rfl, nofun, nofun⟩

theorem inputInvariant_of_reachable
    (run : Transition.Reachable (step order) (start input connectionModule) s) : InputInvariant input s :=
  run.invariant (inputInvariant_start input connectionModule) fun _ _ _ inv _ taken => inv.step taken

theorem exists_overrun {connectionModule : Option ConnectionInterface}
    (run : Transition.Reachable (step order) (start input connectionModule) s) (ended : s.main = .ended .overrun) :
    ∃ request, .call request ∈ s.commands ∧ ¬ request.LineFits := by
  refine run.invariant (P := fun s => s.main = .ended .overrun →
    ∃ request, .call request ∈ s.commands ∧ ¬ request.LineFits) nofun (fun s a t sofar _ taken ended => ?_) ended
  have going : s.main.hasEnded = false := (Option.ite_none_right_eq_some.mp taken).1.2
  have running : s.main ≠ .ended .overrun := fun ended => by rw [ended] at going; cases going
  cases step_cases taken with
  | isReady => cases ready : s.promise <;> simp [ready] at ended
  | inputCharacter key point =>
    unfold onInputCharacter at ended
    split_ifs at ended
  | join quits => cases quits <;> cases ended
  | ended now messageAll notifyOne request how point _ overruns =>
    cases ended
    exact ⟨request, List.mem_append_right _ List.mem_cons_self, fun fits => fits.perform _ _ _ _ _ (overruns rfl)⟩
  | noState | notJoinable | stillJoinable | emptyQueue | dispatchFault | setRaw | getchar | setCooked | setValue |
    alreadySatisfied | handler => exact absurd ended running
  | _ => cases ended

theorem main_ne_overrun {connectionModule : Option ConnectionInterface}
    (run : Transition.Reachable (step order) (start input connectionModule) s) (fits : Console.LinesFit input) :
    s.main ≠ .ended .overrun := by
  intro ended
  obtain ⟨request, begun, long⟩ := exists_overrun run ended
  have typed := (inputInvariant_of_reachable run).follows ▸ List.mem_append_left s.ahead begun
  exact long (fits request typed)

structure Defined (s : ClientProgram) : Prop where
  fault : s.fault = none
  main : s.main ≠ .ended .overrun

theorem Coupled.of_readsLine (coupled : s.Coupled) (reads : s.main.readsLine = true) :
    Acting s.keyboard s.cooked := by
  unfold Coupled at coupled
  split at coupled <;> first | exact coupled | simp_all [MainThread.readsLine]

theorem Coupled.of_returned (coupled : s.Coupled) (ended : s.main = .ended .returned) :
    Joined s.keyboard s.cooked := by
  rwa [Coupled, ended] at coupled

theorem Coupled.of_raw (coupled : s.Coupled) (raw : s.cooked = false) :
    s.keyboard = .getchar ∨ ∃ c, s.keyboard = .setCooked c := by
  have listens : s.keyboard.Listens s.cooked := by
    unfold Coupled at coupled
    split at coupled <;>
      first
      | exact (coupled.resolve_right fun typed => by cases raw.symm.trans typed.cooked).keyboard
      | cases raw.symm.trans coupled.cooked
  rw [raw] at listens
  cases keyboard : s.keyboard with
  | getchar => exact Or.inl rfl
  | setCooked c => exact Or.inr ⟨c, rfl⟩
  | none | setRaw | setValue | returned => simp [keyboard, KeyboardThread.Listens] at listens

/-- The commands that have been begun are those of the input, in its order. -/
structure FollowsInput (input : List Byte) (s : ClientProgram) : Prop where
  begun : s.commands <+: interpret .key input
  returned : s.main = .ended .returned → s.commands = interpret .key input
  caughtUp : s.keyboard = .getchar → s.stdin = [] → s.commands = interpret .key input

/-- However the threads interleave, the program acts on its input as if it read it in one pass. -/
theorem commands_follow_input
    (run : Transition.Reachable (step order) (start input connectionModule) s) : FollowsInput input s := by
  have inv := inputInvariant_of_reachable run
  refine ⟨⟨_, inv.follows⟩, fun ended => ?_, fun waits empty => ?_⟩
  · have follows := inv.follows
    rwa [ahead, ended, List.append_nil] at follows
  · have polls := (inv.coupled.listening (waits ▸ nofun) (waits ▸ nofun)).1
    have follows := inv.follows
    rwa [ahead_of_polls polls, aheadOfPoll, waits, empty, interpret, List.append_nil] at follows

def quitTyped : List Action :=
  [.keyboard, .main, .keyboard, .keyboard, .keyboard, .main, .keyboard, .keyboard, .keyboard,
    .main, .main, .main, .main]

theorem quitTyped_enabled :
    (Transition.perform (step .little) (start [120, 113, 112] none) quitTyped).isSome = true := by decide

theorem commands_follow_input_quitTyped : FollowsInput [120, 113, 112]
    ((Transition.perform (step .little) (start [120, 113, 112] none) quitTyped).get quitTyped_enabled) :=
  commands_follow_input (.of_isSome quitTyped (start [120, 113, 112] none) quitTyped_enabled)

/-- How the two threads share the terminal, the promise and each other's lives. -/
structure SharesInput (order : Endian) (s : ClientProgram) : Prop where
  oneReader : s.main.readsLine = true → s.keyboard = .returned ∧ s.cooked = true
  raw : s.cooked = false → s.keyboard = .getchar ∨ ∃ c, s.keyboard = .setCooked c
  joined : s.main = .ended .returned → s.keyboard = .none ∧ s.cooked = true
  permitted : ∀ fault, s.fault = some fault → ∃ reason, fault = .dispatch reason
  proceeds : s.fault = none → s.main.hasEnded = false → (∀ request, s.main ≠ .call request) →
    (s.step order .main).isSome = true ∨ s.main.readsLine = true ∧ getline s.stdin = none
  calls : s.fault = none → ∀ request, s.main = .call request → ∀ now messageAll notifyOne,
    (s.step order (.call now messageAll notifyOne)).isSome = true
  listens : s.fault = none → s.main.hasEnded = false → s.keyboard ≠ .none → s.keyboard ≠ .returned →
    (s.step order .keyboard).isSome = true ∨ s.keyboard = .getchar ∧ s.stdin = []

theorem getline_isSome_or {α : Type} (stdin : List Byte) (next : List Byte × List Byte → α) :
    ((getline stdin).map next).isSome = true ∨ getline stdin = none := by
  cases getline stdin with
  | none => exact Or.inr rfl
  | some line => exact Or.inl rfl

theorem InputInvariant.mainStep_isSome (inv : InputInvariant input s) (going : s.main.hasEnded = false)
    (calls : ∀ request, s.main ≠ .call request) :
    (s.mainStep order).isSome = true ∨ s.main.readsLine = true ∧ getline s.stdin = none := by
  have coupled := inv.coupled
  cases point : s.main with
  | isReady =>
    simp only [mainStep, point]
    split <;> exact Or.inl rfl
  | get =>
    simp only [Coupled, point] at coupled
    obtain ⟨c, ready⟩ := Option.ne_none_iff_exists'.mp coupled.promise
    simp only [mainStep, point, coupled.future, ready, if_true, Option.map_some]
    exact Or.inl rfl
  | inputCharacter c =>
    simp only [mainStep, point]
    exact Or.inl rfl
  | getlineAll | getlineReceiver | getlineMessage receiverId =>
    simp only [mainStep, point]
    exact (getline_isSome_or s.stdin _).imp_right fun rest => ⟨rfl, rest⟩
  | call request => exact absurd point (calls request)
  | join quits =>
    simp only [Coupled, point] at coupled
    simp only [mainStep, point, coupled.keyboard]
    exact Or.inl rfl
  | listenAgain =>
    simp only [Coupled, point] at coupled
    simp only [mainStep, point, coupled.keyboard]
    exact Or.inl rfl
  | incoming =>
    simp only [mainStep, point]
    split <;> exact Or.inl rfl
  | popFront =>
    simp only [mainStep, point]
    split <;> exact Or.inl rfl
  | dispatch msg =>
    simp only [mainStep, point]
    split <;> exact Or.inl rfl
  | ended how => simp [MainThread.hasEnded, point] at going

theorem keyboardStep_isSome (runs : s.keyboard ≠ .none) (busy : s.keyboard ≠ .returned) :
    s.keyboardStep.isSome = true ∨ s.keyboard = .getchar ∧ s.stdin = [] := by
  cases point : s.keyboard with
  | none => exact absurd point runs
  | returned => exact absurd point busy
  | getchar =>
    simp only [keyboardStep, point]
    split
    · next empty => exact Or.inr ⟨trivial, empty⟩
    · exact Or.inl rfl
  | setRaw | setCooked input =>
    simp only [keyboardStep, point]
    exact Or.inl rfl
  | setValue input =>
    simp only [keyboardStep, point]
    split <;> exact Or.inl rfl

theorem step_of_running (clear : s.fault = none) (going : s.main.hasEnded = false) :
    s.step order .main = s.mainStep order ∧ s.step order .keyboard = s.keyboardStep := by
  simp only [step, clear, going, and_self, if_true]

theorem callStep_isSome {request : Request} (clear : s.fault = none) (point : s.main = .call request) (now : UInt64)
    (messageAll : MessageAllDescription) (notifyOne : NotifyOneDescription) :
    (s.step order (.call now messageAll notifyOne)).isSome = true := by
  have going : s.main.hasEnded = false := by rw [point]; rfl
  rw [step, if_pos ⟨clear, going⟩]
  simp only [callStep, point]
  cases request.perform order now messageAll notifyOne s.connectionModule <;> rfl

/-- In every reachable state, whatever is typed and whatever the server sends. -/
theorem shares_input (run : Transition.Reachable (step order) (start input connectionModule) s) :
    SharesInput order s := by
  have inv := inputInvariant_of_reachable run
  refine ⟨fun reads => ?_, inv.coupled.of_raw, fun ended => ?_, inv.faults, fun clear going calls => ?_,
    fun clear request point => callStep_isSome clear point, fun clear going runs busy => ?_⟩
  · have acting := inv.coupled.of_readsLine reads
    exact ⟨acting.keyboard, acting.cooked⟩
  · have joined := inv.coupled.of_returned ended
    exact ⟨joined.keyboard, joined.cooked⟩
  · rw [(step_of_running clear going).1]
    exact inv.mainStep_isSome going calls
  · rw [(step_of_running clear going).2]
    exact keyboardStep_isSome runs busy

theorem shares_input_quitTyped : SharesInput .little
    ((Transition.perform (step .little) (start [120, 113, 112] none) quitTyped).get quitTyped_enabled) :=
  shares_input (.of_isSome quitTyped (start [120, 113, 112] none) quitTyped_enabled)

end ClientProgram
end MyCQ
