import PortableActions.Shell.Builtin.Variable
import PortableActions.Shell.Expansion.Field
-- Reading lines and options into variables.
namespace PortableActions.Shell.Builtin
open Numeral Outcome Expansion

-- A line of the input in pieces, whether a newline ended it, and how many characters it
-- takes. Unless the line is taken as it stands, a backslash joins two lines, and keeps the
-- character after it from separating fields.
def inputLine (verbatim : Bool) : Nat → List Cell → Text → List Piece × Bool × Nat
  | taken, open_, [] => ([⟨.atSeparators, open_.reverse⟩], false, taken)
  | taken, open_, [c] =>
    if c = '\n' then ([⟨.atSeparators, open_.reverse⟩], true, taken + 1)
    else if c = '\\' && !verbatim then ([⟨.atSeparators, open_.reverse⟩], false, taken + 1)
    else ([⟨.atSeparators, (Cell.char c false :: open_).reverse⟩], false, taken + 1)
  | taken, open_, c :: d :: r =>
    if c = '\n' then ([⟨.atSeparators, open_.reverse⟩], true, taken + 1)
    else if c = '\\' && !verbatim then
      let found := inputLine verbatim (taken + 2) [] r
      let between := if d = '\n' then [] else [⟨.whole, [.char d true]⟩]
      (⟨.atSeparators, open_.reverse⟩ :: (between ++ found.1), found.2)
    else if c = '\x00' then inputLine verbatim (taken + 1) open_ (d :: r)
    else inputLine verbatim (taken + 1) (.char c false :: open_) (d :: r)

def fill : List Text → List (List Cell) → Expand Unit
  | [], _ => pure ()
  | name :: rest, fields => do
    Expand.assign name (textOfCells (fields.headD []))
    fill rest fields.tail

def readVariables (args : List Text) (s : State) : Outcome :=
  match Option.read "p:r" args with
  | .error e => complains s e
  | .ok found =>
    if found.rest.isEmpty then complains s "arg count".toList
    else
      let verbatim := found.letters.any fun entry => entry.1 = 'r'
      let (pieces, ended, taken) := inputLine verbatim 0 [] (s.waiting 0)
      let fields := fieldsOf (s.separators?.getD [' ', '\t', '\n']) (some found.rest.length) pieces
      after (fill found.rest fields (s.consume 0 taken)) fun _ s => ends s (if ended then 0 else 1)

-- The next option letter of some arguments: the place after it, what the name of the
-- letter gets, the argument of the option, and a complaint.
structure Choice where
  index : Nat
  offset : Option Nat
  letter : Char
  argument : Option Text
  complaint : Option Text
  ended : Bool

def isAllowed (c : Char) (letters : Text) : Option Bool := Option.allowed? c letters

-- What follows a letter that has been taken from an argument.
def choose (letters : Text) (args : List Text) (index : Nat) (word : Text) (at_ : Nat) : Choice :=
  let c := word.getD at_ '?'
  let rest := word.drop (at_ + 1)
  let quiet := letters.head? = some ':'
  let onward := if rest = [] then none else some (at_ + 1)
  match isAllowed c letters with
  | none =>
    if quiet then ⟨index, onward, '?', some [c], none, false⟩
    else ⟨index, onward, '?', none, some ("Illegal option -".toList ++ [c]), false⟩
  | some false => ⟨index, onward, c, some [], none, false⟩
  | some true =>
    if rest ≠ [] then ⟨index, none, c, some rest, none, false⟩
    else match args[index - 1]? with
      | some next => ⟨index + 1, none, c, some next, none, false⟩
      | none =>
        if quiet then ⟨index, none, ':', some [c], none, false⟩
        else ⟨index, none, '?', none, some ("No arg for -".toList ++ [c] ++ " option".toList), false⟩

def nextChoice (letters : Text) (args : List Text) (index : Nat) (offset : Option Nat) : Choice :=
  let before := (if index ≤ 1 then none else args[index - 2]?).getD []
  match offset.bind fun at_ => if at_ < before.length then some at_ else none with
  | some at_ => choose letters args index before at_
  | none =>
    match args[index - 1]? with
    | some ('-' :: c :: r) =>
      if c = '-' && r = [] then ⟨index + 1, none, '?', none, none, true⟩
      else choose letters args (index + 1) ('-' :: c :: r) 1
    | _ => ⟨index, none, '?', none, none, true⟩

def applyChoice (name : Text) (choice : Choice) : Expand Unit := do
  match choice.complaint with
  | some message => modify fun s => (s.emit 2 (message ++ ['\n'])).withVariable "OPTARG".toList none
  | none =>
    match choice.argument with
    | some argument => Expand.assign "OPTARG".toList argument
    | none => pure ()
  Expand.assign "OPTIND".toList (Text.ofNat choice.index)
  Expand.assign name [choice.letter]
  modify fun s => { s with optionIndex := choice.index, optionOffset := choice.offset }

def nextOption (args : List Text) (s : State) : Outcome :=
  match args with
  | letters :: name :: given =>
    let args := if given.isEmpty then s.params else given
    let isFar := decide (args.length + 1 < s.optionIndex)
    let choice := nextChoice letters args (if isFar then 1 else s.optionIndex) (if isFar then none else s.optionOffset)
    after (applyChoice name choice s) fun _ s => ends s (if choice.ended then 1 else 0)
  | _ => complains s "Usage: getopts optstring var [arg...]".toList

end PortableActions.Shell.Builtin
