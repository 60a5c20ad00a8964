import PortableActions.Disk
import PortableActions.Shell.Numeral
import PortableActions.Shell.Octets
import PortableActions.Shell.Script.Reader
-- What a running shell knows: parameters, variables, open files, the disk, and what has
-- been written so far.
namespace PortableActions.Shell

structure Variable where
  value : Option Text
  exported : Bool
  fixed : Bool
  deriving DecidableEq, Repr

-- What a scope gives back when it ends: a variable as it was outside, or the options.
inductive Saved where
  | variable (name : Text) (before : Option Variable)
  | options (letters : List Char)
  deriving DecidableEq, Repr

-- What an open file was opened for.
inductive Access where
  | reads
  | writes
  | appends
  | both
  deriving DecidableEq, Repr

namespace Access

def allowsReading : Access → Bool
  | reads | both => true
  | writes | appends => false

end Access

-- An open file. Output goes into one of several collections, to a file, or nowhere; input
-- is a text or comes from a file. The first collection is what the shell itself was given;
-- the others belong to substitutions and pipes.
inductive Channel where
  | nothing
  | full
  | sink (index : Nat)
  | text (left : Text)
  | file (location : Location) (position : Nat) (access : Access)
  deriving DecidableEq, Repr

-- A command in the background: its process number, its number among those that are there,
-- how it ended, the signal that ended it, and whether it has been waited for.
structure Job where
  pid : Nat
  number : Nat
  status : Nat
  signal : Option Nat
  waited : Bool
  deriving DecidableEq, Repr

structure State where
  name : Text
  params : List Text
  bindings : List (Text × Variable)
  -- Scopes of local names, the innermost first.
  scopes : List (List Saved)
  functions : List (Text × Script)
  aliases : List (Text × Text)
  documents : List (Nat × Word)
  numbers : Nat
  -- Letters of the options that are on.
  options : List Char
  -- Commands that were searched for, with where they were found.
  remembered : List (Text × Text)
  -- What is run when a signal comes, or at the end under the number zero; in a subshell,
  -- also what the first shell runs.
  traps : List (Nat × Text)
  mainTraps : Option (List (Nat × Text))
  -- Signals that have come and still have to be acted on.
  pending : List Nat
  -- How deep calls of functions and texts that are run stand in each other.
  calls : Nat
  texts : Nat
  -- Loops around the current command, whether it belongs to a function, and whether its
  -- failure is being looked at.
  loops : Nat
  inFunction : Bool
  tested : Bool
  status : Nat
  -- How the latest command substitution of the current command ended.
  substituted : Nat
  -- The status that an end without a number gives while a trap is run.
  savedStatus : Option Nat
  jobs : List Job
  lastJob : Option Nat
  pid : Nat
  nextPid : Nat
  -- The builtin command that runs at the moment; complaints name it.
  heading : Option Text
  line : Nat
  -- How far the script has been read.
  readingLine : Nat
  -- Where `getopts` has come to: the number of the next argument, and the place in the one
  -- before it if letters are left there.
  optionIndex : Nat
  optionOffset : Option Nat
  mask : Nat
  here : Location
  disk : Disk
  -- Files that may be run.
  executables : List Location
  descriptors : List (Nat × Nat)
  channels : List Channel
  -- Collected output, latest first.
  sinks : List Text
  -- Whether output to descriptor 1 could not be written.
  lost : Bool

namespace State

def nullDevice : Location := ["dev".toList, "null".toList]

def zeroDevice : Location := ["dev".toList, "zero".toList]

-- More zero bytes than are read from the device that has no end of them.
def zeros : Text := List.replicate 65536 '\x00'

def isDevice (location : Location) : Bool := location.head? = some "dev".toList && location.length = 2

-- Places that are other names of files.
def links : List Location := [["bin".toList, "sh".toList], ["usr".toList, "bin".toList, "sh".toList], ["bin".toList]]

-- What is written to a device is not kept.
def writeFile (s : State) (location : Location) (bytes : List UInt8) : State :=
  if isDevice location then s else { s with disk := s.disk.write location bytes }

def channel? (s : State) (fd : Nat) : Option (Nat × Channel) :=
  match s.descriptors.find? fun entry => entry.1 = fd with
  | some (_, index) => s.channels[index]?.map fun channel => (index, channel)
  | none => none

def setChannel (s : State) (index : Nat) (channel : Channel) : State :=
  { s with channels := s.channels.set index channel }

def close (s : State) (fd : Nat) : State :=
  { s with descriptors := s.descriptors.filter fun entry => entry.1 ≠ fd }

def connect (s : State) (fd index : Nat) : State :=
  { s with descriptors := (fd, index) :: (s.close fd).descriptors }

def attach (s : State) (fd : Nat) (channel : Channel) : State :=
  { s.connect fd s.channels.length with channels := s.channels ++ [channel] }

def fileText (s : State) (location : Location) : Text :=
  match s.disk.lookup location with
  | some (.file bytes) => Octets.ofBytes bytes
  | _ => []

-- A text written over another from a position on.
def overlaid (before : Text) (position : Nat) (t : Text) : Text :=
  before.take position ++ List.replicate (position - before.length) '\x00' ++ t ++ before.drop (position + t.length)

def writeChannel (s : State) (index : Nat) (channel : Channel) (t : Text) : State :=
  match channel with
  | .sink sink => { s with sinks := s.sinks.modify sink (t.reverse ++ ·) }
  | .file location position access =>
    match s.disk.lookup location with
    | some (.file bytes) =>
      let before := Octets.ofBytes bytes
      let start := if access = .appends then before.length else position
      let after := overlaid before start t
      { s.setChannel index (.file location (start + t.length) access) with
        disk := s.disk.write location (Octets.toBytes after) }
    | _ => s
  | _ => s

-- Whether what is written to a descriptor gets through.
def canWrite (s : State) (fd : Nat) : Bool :=
  match s.channel? fd with
  | some (_, .nothing) | some (_, .sink _) => true
  | some (_, .file _ _ access) => access ≠ .reads
  | some (_, .full) | some (_, .text _) | none => false

-- Whether something can be read at a descriptor.
def canRead (s : State) (fd : Nat) : Bool :=
  match s.channel? fd with
  | some (_, .nothing) | some (_, .full) | some (_, .text _) => true
  | some (_, .file _ _ access) => access.allowsReading
  | some (_, .sink _) | none => false

def emit (s : State) (fd : Nat) (t : Text) : State :=
  if t = [] then s
  else if !s.canWrite fd then { s with lost := s.lost || fd = 1 }
  else match s.channel? fd with
    | some (index, channel) => s.writeChannel index channel t
    | none => s

-- What is left to read at a descriptor.
def waiting (s : State) (fd : Nat) : Text :=
  match s.channel? fd with
  | some (_, .text left) => left
  | some (_, .file location position access) => if access.allowsReading then (s.fileText location).drop position else []
  | _ => []

-- Takes some characters of what is waiting.
def consume (s : State) (fd count : Nat) : State :=
  match s.channel? fd with
  | some (index, .text left) => s.setChannel index (.text (left.drop count))
  | some (index, .file location position access) => s.setChannel index (.file location (position + count) access)
  | _ => s

-- A complaint with the name of the shell, the line and the builtin command it comes from.
def complain (s : State) (message : Text) : State :=
  let heading := (s.heading.map (· ++ ": ".toList)).getD []
  s.emit 2 (s.name ++ ": ".toList ++ Text.ofNat s.line ++ ": ".toList ++ heading ++ message ++ ['\n'])

def collected (s : State) (index : Nat) : Text := (s.sinks.getD index []).reverse

-- A path from the current directory on, as the disk names it.
def absolute (s : State) (path : Text) : Text := Path.Posix.append s.here.print (Octets.toText path)

def find (s : State) (path : Text) : Except Errno (Location × Disk.Content) :=
  if path = [] then .error .noEntry else s.disk.find (s.absolute path)

-- The file that a program opens to write, whether or not it is there.
def writable (s : State) (path : Text) : Except Errno Location :=
  match s.find path with
  | .ok (location, .file _) => .ok location
  | .ok (_, .directory) => .error .isDirectory
  | .error e => if path = [] then .error e else s.disk.vacancy (s.absolute path)

def workingDirectory (s : State) : Text := Octets.ofText s.here.print

def stored? (s : State) (name : Text) : Option Variable :=
  (s.bindings.find? fun entry => entry.1 = name).map Prod.snd

def value? (s : State) (name : Text) : Option Text := (s.stored? name).bind Variable.value

-- A variable keeps its place in the list; new ones come first.
def withVariable (s : State) (name : Text) (v : Option Variable) : State :=
  { s with bindings := match v with
      | none => s.bindings.filter fun entry => entry.1 ≠ name
      | some v =>
        if s.bindings.any fun entry => entry.1 = name then
          s.bindings.map fun entry => if entry.1 = name then (name, v) else entry
        else (name, v) :: s.bindings }

def isFixed (s : State) (name : Text) : Bool := ((s.stored? name).map Variable.fixed).getD false

def isExported (s : State) (name : Text) : Bool := ((s.stored? name).map Variable.exported).getD false

def isOn (s : State) (option : Char) : Bool := s.options.contains option

-- A new value keeps the marks of a variable. The place of `getopts` starts anew with its
-- variable.
def assign (s : State) (name value : Text) : State :=
  let s := if name = "OPTIND".toList then
      { s with optionIndex := max 1 ((Numeral.count? value).getD 1), optionOffset := none }
    else if name = "PATH".toList then { s with remembered := [] }
    else s
  s.withVariable name (some ⟨some value, s.isExported name || s.isOn 'a', s.isFixed name⟩)

-- The shelf on which a name is kept in tables of the shell: listings go shelf by shelf.
def shelf (count : Nat) (name : Text) : Nat :=
  (((name.head?).map fun c => c.toNat * 16).getD 0 + name.foldl (fun n c => n + c.toNat) 0) % count

-- Entries in the order of the shelves of their names.
def shelved {α : Type} (count : Nat) (entries : List (Text × α)) : List (Text × α) :=
  entries.mergeSort fun x y => decide (shelf count x.1 ≤ shelf count y.1)

-- What is handed to programs, in the order of the shelves.
def environment (s : State) : List (Text × Text) :=
  let exported := s.bindings.reverse.filterMap fun entry => match entry.2 with
    | ⟨some value, true, _⟩ => some (entry.1, value)
    | _ => none
  shelved 39 exported

-- A new process takes a number. Jobs that have been waited for are forgotten then.
def forked (s : State) : State :=
  { s with jobs := s.jobs.filter fun job => !job.waited, nextPid := s.nextPid + 1 }

def markExported (s : State) (name : Text) : State :=
  s.withVariable name (some ⟨s.value? name, true, s.isFixed name⟩)

def markFixed (s : State) (name : Text) : State :=
  s.withVariable name (some ⟨s.value? name, s.isExported name, true⟩)

def trap? (s : State) (signal : Nat) : Option Text :=
  (s.traps.find? fun entry => entry.1 = signal).map Prod.snd

def withoutTrap (s : State) (signal : Nat) : State :=
  { s with traps := s.traps.filter fun entry => entry.1 ≠ signal }

def withStatus (s : State) (status : Nat) : State := { s with status := status }

def withoutFunction (s : State) (name : Text) : State :=
  { s with functions := s.functions.filter fun entry => entry.1 ≠ name }

-- New arguments are read by `getopts` from the first one on.
def withParams (s : State) (params : List Text) : State :=
  { s with params := params, optionIndex := 1, optionOffset := none }

-- Puts a variable aside for the end of the innermost scope.
def setAside (s : State) (saved : Saved) : State :=
  match s.scopes with
  | scope :: outer => { s with scopes := (saved :: scope) :: outer }
  | [] => s

def restore (s : State) : Saved → State
  | .variable name before => s.withVariable name before
  | .options letters => { s with options := letters }

-- Ends the innermost scope.
def leaveScope (s : State) : State :=
  match s.scopes with
  | scope :: outer => { scope.foldl restore s with scopes := outer }
  | [] => s

-- Letters of options in the order in which they are told.
def optionOrder : List Char := "pubaCEVvxsnmiIfe".toList

-- Characters between fields, if they have been chosen.
def separators? (s : State) : Option Text := s.value? "IFS".toList

-- The value of a parameter other than the list of all arguments.
def parameter? (s : State) (name : Text) : Option Text :=
  match name with
  | ['#'] => some (Text.ofNat s.params.length)
  | ['?'] => some (Text.ofNat s.status)
  | ['$'] => some (Text.ofNat s.pid)
  | ['-'] => some (optionOrder.filter s.options.contains)
  | ['!'] => s.lastJob.map Text.ofNat
  | _ =>
    if name.all Char.isDigit then
      let n := Numeral.number name
      if n = 0 then some s.name else s.params[n - 1]?
    else s.value? name

end State
end PortableActions.Shell
