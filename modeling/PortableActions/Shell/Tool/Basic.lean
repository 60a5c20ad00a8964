import PortableActions.Shell.Outcome
import PortableActions.Shell.Quoting
-- What programs have in common: options among the arguments, files as input, complaints.
namespace PortableActions.Shell

-- A program reads its arguments, the input and the disk. It neither changes the shell's own
-- state nor starts anything.
abbrev Tool := List Text → State → State × Nat

namespace Tool

-- Letters that were given, each with its argument, the operands, and what ended the reading
-- of the options if one of them was wrong.
structure Given where
  letters : List (Char × Text)
  operands : List Text
  fault : Option Text

namespace Given

def has (given : Given) (c : Char) : Bool := given.letters.any fun entry => entry.1 = c

-- The argument of the last use of a letter.
def argument? (given : Given) (c : Char) : Option Text :=
  (given.letters.reverse.find? fun entry => entry.1 = c).map Prod.snd

def add (c : Char) (argument : Text) (given : Given) : Given :=
  { given with letters := (c, argument) :: given.letters }

def checked (given : Given) : Except Text Given :=
  match given.fault with
  | some e => .error e
  | none => .ok given

end Given

def ofOperands (operands : List Text) : Given := ⟨[], operands, none⟩

def faulty (message : Text) : Given := ⟨[], [], some message⟩

-- Which letters are options, which of them take an argument (a colon follows those; two
-- colons if it may be missing), and what long names they have.
structure Grammar where
  letters : String
  long : List (String × Char)

inductive Argument where
  | absent
  | optional
  | needed
  deriving DecidableEq, Repr

def argumentOf? (letters : Text) (c : Char) : Option Argument :=
  match letters with
  | [] => none
  | d :: ':' :: ':' :: r => if d = c then some .optional else argumentOf? r c
  | d :: ':' :: r => if d = c then some .needed else argumentOf? r c
  | d :: r => if d = c then some .absent else argumentOf? r c

def lettersOf (grammar : Grammar) (more : List Text → Given) : Text → List Text → Given
  | [], rest => more rest
  | c :: r, rest =>
    match argumentOf? grammar.letters.toList c with
    | none => faulty ("invalid option -- '".toList ++ [c] ++ ['\''])
    | some .absent => Given.add c [] (lettersOf grammar more r rest)
    | some .optional => Given.add c r (more rest)
    | some .needed =>
      match r, rest with
      | [], [] => faulty ("option requires an argument -- '".toList ++ [c] ++ ['\''])
      | [], next :: rest => Given.add c next (more rest)
      | _, rest => Given.add c r (more rest)

-- A long name may be cut short as long as only one option is meant.
def longName? (grammar : Grammar) (name : Text) : Option (String × Char) :=
  match grammar.long.find? fun entry => entry.1.toList = name with
  | some entry => some entry
  | none =>
    match grammar.long.filter fun entry => Text.startsWith name entry.1.toList with
    | entry :: others => if others.all fun other => other.2 = entry.2 then some entry else none
    | [] => none

def longOption (grammar : Grammar) (more : List Text → Given) (t : Text) (rest : List Text) : Given :=
  let name := t.takeWhile (· ≠ '=')
  match longName? grammar name with
  | none => faulty ("unrecognized option '--".toList ++ t ++ ['\''])
  | some (whole, c) =>
    match t.drop name.length, argumentOf? grammar.letters.toList c with
    | _ :: value, some .needed | _ :: value, some .optional => Given.add c value (more rest)
    | [], some .needed =>
      match rest with
      | next :: rest => Given.add c next (more rest)
      | [] => faulty ("option '--".toList ++ whole.toList ++ "' requires an argument".toList)
    | _ :: _, _ => faulty ("option '--".toList ++ whole.toList ++ "' doesn't allow an argument".toList)
    | [], _ => Given.add c [] (more rest)

-- Options end at two dashes, or at the first operand if they may not stand among operands.
def scanFrom (grammar : Grammar) (mixes : Bool) : Nat → List Text → Given
  | 0, args => ofOperands args
  | fuel + 1, args =>
    match args with
    | [] => ofOperands []
    | ['-', '-'] :: rest => ofOperands rest
    | ('-' :: '-' :: name) :: rest => longOption grammar (scanFrom grammar mixes fuel) name rest
    | ('-' :: c :: r) :: rest => lettersOf grammar (scanFrom grammar mixes fuel) (c :: r) rest
    | operand :: rest =>
      if mixes then
        let given := scanFrom grammar mixes fuel rest
        { given with operands := operand :: given.operands }
      else ofOperands args

def scan (grammar : Grammar) (args : List Text) : Given := scanFrom grammar true (args.length + 1) args

def parse (grammar : Grammar) (args : List Text) : Except Text Given := (scan grammar args).checked

def scanLeading (grammar : Grammar) (args : List Text) : Given := scanFrom grammar false (args.length + 1) args

def parseLeading (grammar : Grammar) (args : List Text) : Except Text Given := (scanLeading grammar args).checked

def fails (s : State) (name : String) (message : Text) (status : Nat) : State × Nat :=
  (s.emit 2 (name.toList ++ ": ".toList ++ message ++ ['\n']), status)

def advice (name : String) : Text := "\nTry '".toList ++ name.toList ++ " --help' for more information.".toList

-- Runs a program whose options are right.
def withOptions (name : String) (grammar : Grammar) (fault : Nat) (run : Given → State → State × Nat) : Tool :=
  fun args s =>
    match parse grammar args with
    | .error e => fails s name (e ++ advice name) fault
    | .ok given => run given s

def complain (name : String) (message : Text) (s : State) : State :=
  s.emit 2 (name.toList ++ ": ".toList ++ message ++ ['\n'])

def print (t : Text) (s : State) : State := s.emit 1 t

-- Takes all of the input.
def takeInput (s : State) : Text × State :=
  let t := s.waiting 0
  (t, s.consume 0 t.length)

-- The content of a file, "-" being the input.
def content (name : Text) (s : State) : Except Errno Text × State :=
  if name = ['-'] then
    let isDirectory : Bool := match s.channel? 0 with
      | some (_, .file location _ _) => s.disk.lookup location = some .directory
      | _ => false
    if !s.canRead 0 then (.error .badDescriptor, s)
    else if isDirectory then (.error .isDirectory, s)
    else
      let (t, s) := takeInput s
      (.ok t, s)
  else match s.find name with
    | .ok (location, .file bytes) =>
      (.ok (if location = State.zeroDevice then State.zeros else Octets.ofBytes bytes), s)
    | .ok (_, .directory) => (.error .isDirectory, s)
    | .error e => (.error e, s)

-- Goes through files in order. The flag says whether all of them could be read.
def eachContent (tool : String) (explain : Text → Errno → Text) (use : Text → Text → State → State) :
    List Text → State → State × Bool
  | [], s => (s, true)
  | name :: rest, s =>
    match content name s with
    | (.ok t, s) => eachContent tool explain use rest (use name t s)
    | (.error e, s) =>
      let (s, _) := eachContent tool explain use rest (complain tool (explain name e) s)
      (s, false)

def plainReason (name : Text) (e : Errno) : Text :=
  Quoting.wherePlainFails name ++ ": ".toList ++ e.description

-- Lines with the newlines that end them.
def linesFrom : Nat → Text → List Text
  | 0, _ => []
  | _ + 1, [] => []
  | fuel + 1, t =>
    let line := t.takeWhile (· ≠ '\n')
    match t.dropWhile (· ≠ '\n') with
    | [] => [line]
    | _ :: rest => (line ++ ['\n']) :: linesFrom fuel rest

def linesOf (t : Text) : List Text := linesFrom (t.length + 1) t

-- Parts that each end at a character; the last one may lack it.
def records (stop : Char) (t : Text) : List Text :=
  let parts := Text.splitOn stop t
  if parts.getLast? = some [] then parts.dropLast else parts

-- Lines without their newlines.
def bareLines (t : Text) : List Text := records '\n' t

def endedBy (stop : Char) (parts : List Text) : Text := parts.flatMap (· ++ [stop])

def unlines (lines : List Text) : Text := endedBy '\n' lines

def orInput (names : List Text) : List Text := if names.isEmpty then [['-']] else names

end Tool
end PortableActions.Shell
