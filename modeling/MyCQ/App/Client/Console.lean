import MyCQ.Net.Message

/-! What the keys and lines that are typed into the client mean.

`interpret` reads the input from the first byte to the last: single keys select
what to do, and two of them are followed by lines. It is the reference that the
threads of the client are compared with.
-/

set_option autoImplicit false

namespace MyCQ

inductive Request where
  | pingServer
  | messageAll (inputStr : List Byte)
  | requestConnectedClientsList
  | notifyOne (receiverId writtenMsg : List Byte)
  deriving DecidableEq, Repr

inductive Command where
  | call (request : Request)
  | quit
  deriving DecidableEq, Repr

namespace Console

def ctrlC : Byte := '\x03'.toUInt8

def possableInputs : List Byte := [ 'p'.toUInt8, 'm'.toUInt8, 'l'.toUInt8, 'n'.toUInt8, 'q'.toUInt8, ctrlC]

def lineFeed : Byte := '\n'.toUInt8

/-- `std::getline`: the characters before the next line feed, and what follows it. There is no result
before a line feed has been typed. -/
def getline : List Byte → Option (List Byte × List Byte)
  | [] => none
  | c :: rest =>
    if c = lineFeed then some ([], rest) else (getline rest).map fun line => (c :: line.1, line.2)

inductive Mode where
  | key
  | messageAll (inputStr : List Byte)
  | receiverId (line : List Byte)
  | writtenMsg (receiverId line : List Byte)
  deriving DecidableEq, Repr

/-- The commands of an input. Keys without a meaning are skipped, and nothing is read behind a quit. -/
def interpret : Mode → List Byte → List Command
  | _, [] => []
  | .key, c :: rest =>
    if c = 'p'.toUInt8 then .call .pingServer :: interpret .key rest
    else if c = 'l'.toUInt8 then .call .requestConnectedClientsList :: interpret .key rest
    else if c = 'm'.toUInt8 then interpret (.messageAll []) rest
    else if c = 'n'.toUInt8 then interpret (.receiverId []) rest
    else if c = 'q'.toUInt8 ∨ c = ctrlC then [.quit]
    else interpret .key rest
  | .messageAll line, c :: rest =>
    if c = lineFeed then .call (.messageAll line) :: interpret .key rest else interpret (.messageAll (line ++ [c])) rest
  | .receiverId line, c :: rest =>
    if c = lineFeed then interpret (.writtenMsg line []) rest else interpret (.receiverId (line ++ [c])) rest
  | .writtenMsg receiverId line, c :: rest =>
    if c = lineFeed then .call (.notifyOne receiverId line) :: interpret .key rest
    else interpret (.writtenMsg receiverId (line ++ [c])) rest

theorem interpret_getline (mode : List Byte → Mode) (after : List Byte → List Byte → List Command)
    (read : ∀ line c rest, interpret (mode line) (c :: rest) =
      if c = lineFeed then after line rest else interpret (mode (line ++ [c])) rest)
    {stdin line rest : List Byte} (found : getline stdin = some (line, rest)) (front : List Byte) :
    interpret (mode front) stdin = after (front ++ line) rest := by
  induction stdin generalizing front line rest with
  | nil => cases found
  | cons c stdin ih =>
    rw [read]
    simp only [getline] at found
    split at found
    · next last =>
      cases found
      rw [if_pos last, List.append_nil]
    · next inside =>
      obtain ⟨⟨line', rest'⟩, remaining, same⟩ := Option.map_eq_some_iff.mp found
      cases same
      rw [if_neg inside, ih remaining, List.append_assoc]
      rfl

theorem interpret_messageAll {stdin line rest : List Byte} (found : getline stdin = some (line, rest)) :
    interpret (.messageAll []) stdin = .call (.messageAll line) :: interpret .key rest :=
  interpret_getline .messageAll (fun line rest => .call (.messageAll line) :: interpret .key rest) (fun _ _ _ => rfl) found []

theorem interpret_receiverId {stdin line rest : List Byte} (found : getline stdin = some (line, rest)) :
    interpret (.receiverId []) stdin = interpret (.writtenMsg line []) rest :=
  interpret_getline .receiverId (fun line rest => interpret (.writtenMsg line []) rest) (fun _ _ _ => rfl) found []

theorem interpret_writtenMsg (receiverId : List Byte) {stdin line rest : List Byte}
    (found : getline stdin = some (line, rest)) :
    interpret (.writtenMsg receiverId []) stdin = .call (.notifyOne receiverId line) :: interpret .key rest :=
  interpret_getline (.writtenMsg receiverId) (fun line rest => .call (.notifyOne receiverId line) :: interpret .key rest)
    (fun _ _ _ => rfl) found []

theorem interpret_skip {c : Byte} (impossible : c ∉ possableInputs) (rest : List Byte) :
    interpret .key (c :: rest) = interpret .key rest := by
  simp only [possableInputs, List.mem_cons, List.not_mem_nil, or_false, not_or] at impossible
  obtain ⟨notPing, notAll, notList, notOne, notQuit, notInterrupt⟩ := impossible
  simp only [interpret, notPing, notAll, notList, notOne, notQuit, notInterrupt, if_false, or_self]

/-- "p", then a message "hi" to all, then a quit; what follows is not read. -/
example : interpret .key [112, 120, 109, 104, 105, 10, 113, 112] =
    [.call .pingServer, .call (.messageAll [104, 105]), .quit] := by
  decide

end Console
end MyCQ
