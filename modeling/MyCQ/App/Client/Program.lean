import MyCQ.App.Client.Console
import MyCQ.App.Client.Requests
import MyCQ.Foundation.Transition

/-! The client program: its main thread, the thread that listens to the keyboard, and the io thread.

The keyboard thread reads one key, hands it over through a promise and returns;
the main thread polls the future, acts on the key, joins the thread and starts
it again. While no key is ready it shows the messages of the server. The steps
of the three threads interleave freely.
-/

set_option autoImplicit false

namespace MyCQ
open Octets (Endian)
open Console (getline interpret possableInputs ctrlC)
open ConnectionInterface (Handler)

/-- Where `get_keyboard_input` is, named after what it does next. -/
inductive KeyboardThread where
  | none
  | setRaw
  | getchar
  | setCooked (input : Byte)
  | setValue (input : Byte)
  | returned
  deriving DecidableEq, Repr

inductive Ending where
  | returned
  | exited
  | terminated
  -- A line has been copied beyond its field.
  | overrun
  deriving DecidableEq, Repr

/-- Where `main` is, named after what it does next. -/
inductive MainThread where
  | isReady
  | get
  | inputCharacter (c : Byte)
  | getlineAll
  | getlineReceiver
  | getlineMessage (receiverId : List Byte)
  | call (request : Request)
  | join (quits : Bool)
  | listenAgain
  | incoming
  | popFront
  | dispatch (msg : Message)
  | ended (how : Ending)
  deriving DecidableEq, Repr

def MainThread.hasEnded : MainThread → Bool
  | .ended _ => true
  | _ => false

inductive ProgramFault where
  -- A future without a shared state is used.
  | noState
  | promiseAlreadySatisfied
  | notJoinable
  -- A joinable thread is assigned to.
  | stillJoinable
  | emptyQueue
  | dispatch (fault : Fault)
  deriving DecidableEq, Repr

structure ClientProgram where
  main : MainThread
  keyboard : KeyboardThread
  promise : Option Byte
  future : Bool
  stdin : List Byte
  -- The terminal passes on whole lines.
  cooked : Bool
  connectionModule : Option ConnectionInterface
  incoming : List Message
  commands : List Command
  -- The requests that have been passed to `SendData`, with the clock readings.
  sent : List (Request × UInt64)
  enqueued : List Message
  shown : List MyCQClient.Display
  fault : Option ProgramFault

def Request.perform (order : Endian) (now : UInt64) (messageAll : MessageAllDescription)
    (notifyOne : NotifyOneDescription) (connectionModule : Option ConnectionInterface) :
    Request → MyCQClient.Outcome
  | .pingServer => MyCQClient.pingServer order connectionModule now
  | .messageAll inputStr => MyCQClient.messageAll order messageAll connectionModule inputStr
  | .requestConnectedClientsList => MyCQClient.requestConnectedClientsList connectionModule
  | .notifyOne receiverId writtenMsg => MyCQClient.notifyOne order notifyOne connectionModule receiverId writtenMsg

def Request.LineFits : Request → Prop
  | .messageAll inputStr => (CString.text inputStr).length < 2048
  | .notifyOne _ writtenMsg => (CString.text writtenMsg).length < 2048
  | .pingServer | .requestConnectedClientsList => True

def Request.NumberFits : Request → Prop
  | .notifyOne receiverId _ => ∀ id, Numeral.stoul receiverId = some id → id.toUInt32.toNat = id.toNat
  | .messageAll _ | .pingServer | .requestConnectedClientsList => True

def Console.LinesFit (stdin : List Byte) : Prop := ∀ request, .call request ∈ interpret .key stdin → request.LineFits

def Console.NumbersFit (stdin : List Byte) : Prop :=
  ∀ request, .call request ∈ interpret .key stdin → request.NumberFits

theorem Request.LineFits.perform {request : Request} (fits : request.LineFits) (order : Endian) (now : UInt64)
    (messageAll : MessageAllDescription) (notifyOne : NotifyOneDescription)
    (connectionModule : Option ConnectionInterface) :
    request.perform order now messageAll notifyOne connectionModule ≠ .overrun := by
  cases request with
  | pingServer => exact nofun
  | requestConnectedClientsList => exact nofun
  | messageAll inputStr => exact MyCQClient.messageAll_ne_overrun messageAll fits
  | notifyOne receiverId writtenMsg => exact MyCQClient.notifyOne_ne_overrun notifyOne receiverId fits

namespace ClientProgram

def start (stdin : List Byte) (connectionModule : Option ConnectionInterface) : ClientProgram :=
  ⟨.isReady, .setRaw, none, true, stdin, true, connectionModule, [], [], [], [], [], none⟩

inductive Action where
  | main
  -- The call of a request function, with the clock and the content of uninitialised memory during it.
  | call (now : UInt64) (messageAll : MessageAllDescription) (notifyOne : NotifyOneDescription)
  | keyboard
  | handler (h : Handler)
  deriving DecidableEq, Repr

def withFault (s : ClientProgram) (fault : ProgramFault) : ClientProgram := { s with fault := some fault }

def onInputCharacter (s : ClientProgram) (c : Byte) : ClientProgram :=
  if c = 'q'.toUInt8 then { s with commands := s.commands ++ [.quit], main := .join true }
  else if c = 'l'.toUInt8 then { s with main := .call .requestConnectedClientsList }
  else if c = 'n'.toUInt8 then { s with main := .getlineReceiver }
  else if c = 'p'.toUInt8 then { s with main := .call .pingServer }
  else if c = 'm'.toUInt8 then { s with main := .getlineAll }
  else if c = ctrlC then { s with commands := s.commands ++ [.quit], main := .join true }
  else { s with main := .join false }

def mainStep (order : Endian) (s : ClientProgram) : Option ClientProgram :=
  match s.main with
  | .isReady =>
    if s.future then some { s with main := if s.promise.isSome then .get else .incoming }
    else some (s.withFault .noState)
  | .get =>
    if s.future then s.promise.map fun c => { s with future := false, main := .inputCharacter c }
    else some (s.withFault .noState)
  | .inputCharacter c => some (s.onInputCharacter c)
  | .getlineAll =>
    (getline s.stdin).map fun line => { s with stdin := line.2, main := .call (.messageAll line.1) }
  | .getlineReceiver =>
    (getline s.stdin).map fun line => { s with stdin := line.2, main := .getlineMessage line.1 }
  | .getlineMessage receiverId =>
    (getline s.stdin).map fun line => { s with stdin := line.2, main := .call (.notifyOne receiverId line.1) }
  | .join quits =>
    match s.keyboard with
    | .returned => some { s with keyboard := .none, main := if quits then .ended .returned else .listenAgain }
    | .none => some (s.withFault .notJoinable)
    | _ => none
  | .listenAgain =>
    match s.keyboard with
    | .none => some { s with promise := none, future := true, keyboard := .setRaw, main := .isReady }
    | _ => some (s.withFault .stillJoinable)
  | .incoming =>
    -- The two queue operations are separate critical sections.
    if MyCQClient.isConnected s.connectionModule ∧ s.incoming ≠ [] then some { s with main := .popFront }
    else some { s with main := .isReady }
  | .popFront =>
    match s.incoming with
    | [] => some (s.withFault .emptyQueue)
    | msg :: rest => some { s with incoming := rest, main := .dispatch msg }
  | .dispatch msg =>
    match MyCQClient.dispatch order msg with
    | .ok display => some { s with shown := s.shown ++ [display], main := .isReady }
    | .error fault => some (s.withFault (.dispatch fault))
  | .call _ | .ended _ => none

def callStep (order : Endian) (s : ClientProgram) (now : UInt64) (messageAll : MessageAllDescription)
    (notifyOne : NotifyOneDescription) : Option ClientProgram :=
  match s.main with
  | .call request =>
    let begun : ClientProgram := { s with commands := s.commands ++ [.call request] }
    match request.perform order now messageAll notifyOne s.connectionModule with
    | .returned connectionModule =>
      some { begun with
        connectionModule
        main := .join false
        sent := s.sent ++ if MyCQClient.isConnected s.connectionModule then [(request, now)] else [] }
    | .exited => some { begun with main := .ended .exited }
    | .thrown => some { begun with main := .ended .terminated }
    | .overrun => some { begun with main := .ended .overrun }
  | _ => none

def keyboardStep (s : ClientProgram) : Option ClientProgram :=
  match s.keyboard with
  | .setRaw => some { s with cooked := false, keyboard := .getchar }
  | .getchar =>
    match s.stdin with
    | [] => none
    | input :: rest => some { s with stdin := rest, keyboard := .setCooked input }
  | .setCooked input =>
    some { s with cooked := true, keyboard := if input ∈ possableInputs then .setValue input else .setRaw }
  | .setValue input =>
    match s.promise with
    | none => some { s with promise := some input, keyboard := .returned }
    | some _ => some (s.withFault .promiseAlreadySatisfied)
  | .none | .returned => none

def handlerStep (order : Endian) (s : ClientProgram) (h : Handler) : Option ClientProgram :=
  match s.connectionModule with
  | none => none
  | some c => (c.runHandler order h).map fun r =>
    { s with
      connectionModule := some r.1
      incoming := s.incoming ++ r.2.toList
      enqueued := s.enqueued ++ r.2.toList }

def step (order : Endian) (s : ClientProgram) (a : Action) : Option ClientProgram :=
  if s.fault = none ∧ s.main.hasEnded = false then
    match a with
    | .main => s.mainStep order
    | .call now messageAll notifyOne => s.callStep order now messageAll notifyOne
    | .keyboard => s.keyboardStep
    | .handler h => s.handlerStep order h
  else none

inductive StepCases (order : Endian) (s : ClientProgram) : Action → ClientProgram → Prop where
  | isReady : s.main = .isReady → s.future = true →
      StepCases order s .main { s with main := if s.promise.isSome then .get else .incoming }
  | get (c : Byte) : s.main = .get → s.future = true → s.promise = some c →
      StepCases order s .main { s with future := false, main := .inputCharacter c }
  | noState : s.main = .isReady ∨ s.main = .get → s.future = false →
      StepCases order s .main (s.withFault .noState)
  | inputCharacter (c : Byte) : s.main = .inputCharacter c → StepCases order s .main (s.onInputCharacter c)
  | getlineAll (line rest : List Byte) : s.main = .getlineAll → getline s.stdin = some (line, rest) →
      StepCases order s .main { s with stdin := rest, main := .call (.messageAll line) }
  | getlineReceiver (line rest : List Byte) : s.main = .getlineReceiver → getline s.stdin = some (line, rest) →
      StepCases order s .main { s with stdin := rest, main := .getlineMessage line }
  | getlineMessage (receiverId line rest : List Byte) : s.main = .getlineMessage receiverId →
      getline s.stdin = some (line, rest) →
      StepCases order s .main { s with stdin := rest, main := .call (.notifyOne receiverId line) }
  | join (quits : Bool) : s.main = .join quits → s.keyboard = .returned → StepCases order s .main
      { s with keyboard := .none, main := if quits then .ended .returned else .listenAgain }
  | notJoinable (quits : Bool) : s.main = .join quits → s.keyboard = .none →
      StepCases order s .main (s.withFault .notJoinable)
  | listenAgain : s.main = .listenAgain → s.keyboard = .none → StepCases order s .main
      { s with promise := none, future := true, keyboard := .setRaw, main := .isReady }
  | stillJoinable : s.main = .listenAgain → s.keyboard ≠ .none →
      StepCases order s .main (s.withFault .stillJoinable)
  | incoming : s.main = .incoming → MyCQClient.isConnected s.connectionModule = true → s.incoming ≠ [] →
      StepCases order s .main { s with main := .popFront }
  | nothing : s.main = .incoming → StepCases order s .main { s with main := .isReady }
  | popFront (msg : Message) (rest : List Message) : s.main = .popFront → s.incoming = msg :: rest →
      StepCases order s .main { s with incoming := rest, main := .dispatch msg }
  | emptyQueue : s.main = .popFront → s.incoming = [] → StepCases order s .main (s.withFault .emptyQueue)
  | dispatch (msg : Message) (display : MyCQClient.Display) : s.main = .dispatch msg →
      MyCQClient.dispatch order msg = .ok display →
      StepCases order s .main { s with shown := s.shown ++ [display], main := .isReady }
  | dispatchFault (msg : Message) (fault : Fault) : s.main = .dispatch msg →
      MyCQClient.dispatch order msg = .error fault → StepCases order s .main (s.withFault (.dispatch fault))
  | returned (now : UInt64) (messageAll : MessageAllDescription) (notifyOne : NotifyOneDescription)
      (request : Request) (connectionModule : Option ConnectionInterface) : s.main = .call request →
      request.perform order now messageAll notifyOne s.connectionModule = .returned connectionModule →
      StepCases order s (.call now messageAll notifyOne) { s with
        commands := s.commands ++ [.call request]
        connectionModule
        main := .join false
        sent := s.sent ++ if MyCQClient.isConnected s.connectionModule then [(request, now)] else [] }
  | ended (now : UInt64) (messageAll : MessageAllDescription) (notifyOne : NotifyOneDescription)
      (request : Request) (how : Ending) : s.main = .call request → how ≠ .returned →
      (how = .overrun → request.perform order now messageAll notifyOne s.connectionModule = .overrun) →
      StepCases order s (.call now messageAll notifyOne)
        { s with commands := s.commands ++ [.call request], main := .ended how }
  | setRaw : s.keyboard = .setRaw → StepCases order s .keyboard { s with cooked := false, keyboard := .getchar }
  | getchar (input : Byte) (rest : List Byte) : s.keyboard = .getchar → s.stdin = input :: rest →
      StepCases order s .keyboard { s with stdin := rest, keyboard := .setCooked input }
  | setCooked (input : Byte) : s.keyboard = .setCooked input → StepCases order s .keyboard
      { s with cooked := true, keyboard := if input ∈ possableInputs then .setValue input else .setRaw }
  | setValue (input : Byte) : s.keyboard = .setValue input → s.promise = none →
      StepCases order s .keyboard { s with promise := some input, keyboard := .returned }
  | alreadySatisfied (input : Byte) : s.keyboard = .setValue input → s.promise ≠ none →
      StepCases order s .keyboard (s.withFault .promiseAlreadySatisfied)
  | handler (h : Handler) (c conn : ConnectionInterface) (out : Option Message) : s.connectionModule = some c →
      c.runHandler order h = some (conn, out) → StepCases order s (.handler h) { s with
        connectionModule := some conn
        incoming := s.incoming ++ out.toList
        enqueued := s.enqueued ++ out.toList }

variable {order : Endian} {s t : ClientProgram} {a : Action}

theorem mainStep_cases (taken : s.mainStep order = some t) : StepCases order s .main t := by
  unfold mainStep at taken
  split at taken
  · next point =>
    split at taken
    · next valid =>
      cases taken
      exact .isReady point valid
    · next invalid =>
      cases taken
      exact .noState (Or.inl point) ((Bool.not_eq_true _).mp invalid)
  · next point =>
    split at taken
    · next valid =>
      obtain ⟨c, promise, rfl⟩ := Option.map_eq_some_iff.mp taken
      exact .get c point valid promise
    · next invalid =>
      cases taken
      exact .noState (Or.inr point) ((Bool.not_eq_true _).mp invalid)
  · next c point =>
    cases taken
    exact .inputCharacter c point
  · next point =>
    obtain ⟨⟨line, rest⟩, found, rfl⟩ := Option.map_eq_some_iff.mp taken
    exact .getlineAll line rest point found
  · next point =>
    obtain ⟨⟨line, rest⟩, found, rfl⟩ := Option.map_eq_some_iff.mp taken
    exact .getlineReceiver line rest point found
  · next receiverId point =>
    obtain ⟨⟨line, rest⟩, found, rfl⟩ := Option.map_eq_some_iff.mp taken
    exact .getlineMessage receiverId line rest point found
  · next quits point =>
    split at taken
    · next returned =>
      cases taken
      exact .join quits point returned
    · next none =>
      cases taken
      exact .notJoinable quits point none
    · cases taken
  · next point =>
    split at taken
    · next none =>
      cases taken
      exact .listenAgain point none
    · next joinable =>
      cases taken
      exact .stillJoinable point joinable
  · next point =>
    split at taken
    · next some =>
      cases taken
      exact .incoming point some.1 some.2
    · cases taken
      exact .nothing point
  · next point =>
    split at taken
    · next empty =>
      cases taken
      exact .emptyQueue point empty
    · next msg rest queue =>
      cases taken
      exact .popFront msg rest point queue
  · next msg point =>
    split at taken
    · next display done =>
      cases taken
      exact .dispatch msg display point done
    · next fault failed =>
      cases taken
      exact .dispatchFault msg fault point failed
  · cases taken
  · cases taken

theorem callStep_cases {now : UInt64} {messageAll : MessageAllDescription} {notifyOne : NotifyOneDescription}
    (taken : s.callStep order now messageAll notifyOne = some t) :
    StepCases order s (.call now messageAll notifyOne) t := by
  unfold callStep at taken
  split at taken
  · next request point =>
    dsimp only at taken
    split at taken
    · next connectionModule performed =>
      cases taken
      exact .returned now messageAll notifyOne request connectionModule point performed
    · cases taken
      exact .ended now messageAll notifyOne request _ point nofun nofun
    · cases taken
      exact .ended now messageAll notifyOne request _ point nofun nofun
    · next performed =>
      cases taken
      exact .ended now messageAll notifyOne request _ point nofun fun _ => performed
  · cases taken

theorem keyboardStep_cases (taken : s.keyboardStep = some t) : StepCases order s .keyboard t := by
  unfold keyboardStep at taken
  split at taken
  · next point =>
    cases taken
    exact .setRaw point
  · next point =>
    split at taken
    · cases taken
    · next input rest stdin =>
      cases taken
      exact .getchar input rest point stdin
  · next input point =>
    cases taken
    exact .setCooked input point
  · next input point =>
    split at taken
    · next promise =>
      cases taken
      exact .setValue input point promise
    · next value promise =>
      cases taken
      exact .alreadySatisfied input point (promise ▸ Option.some_ne_none value)
  · cases taken
  · cases taken

theorem step_cases (taken : s.step order a = some t) : StepCases order s a t := by
  obtain ⟨_, taken⟩ := Option.ite_none_right_eq_some.mp taken
  cases a with
  | main => exact mainStep_cases taken
  | call now messageAll notifyOne => exact callStep_cases taken
  | keyboard => exact keyboardStep_cases taken
  | handler h =>
    simp only [handlerStep] at taken
    split at taken
    · cases taken
    · next c current =>
      obtain ⟨⟨conn, out⟩, ran, rfl⟩ := Option.map_eq_some_iff.mp taken
      exact .handler h c conn out current ran

end ClientProgram
end MyCQ
