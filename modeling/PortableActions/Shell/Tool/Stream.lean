import PortableActions.Shell.Tool.Editing
-- The stream editor as a program: its arguments, the parts of its script, and its files.
namespace PortableActions.Shell.Tool
open Edit

-- What is found under the names. A directory is the end of it.
def readFiles (mode : Mode) : List Text → State → List Found × State
  | [], s => ([], s)
  | name :: rest, s =>
    match content name s with
    | (.ok t, s) =>
      let (found, s) := readFiles mode rest s
      (.text name (Octets.toText t) :: found, s)
    | (.error .isDirectory, s) =>
      ([.notice (if mode.inPlace then "couldn't edit ".toList ++ name ++ ": not a regular file".toList
        else "read error on ".toList ++ name ++ ": Is a directory".toList) 4], s)
    | (.error e, s) =>
      let (found, s) := readFiles mode rest s
      (.notice ("can't read ".toList ++ name ++ ": ".toList ++ e.description) 2 :: found, s)

-- A part of a script: an argument, or a file with its name.
structure Part where
  file : Option Text
  text : Text

-- Where a place of a script lies: its part, how many of those are arguments up to there, and
-- how much of the part is in front of it.
def placeIn : List Part → Nat → Nat → Text
  | [], _, _ => []
  | part :: rest, arguments, consumed =>
    let size := Text.utf8Size part.text
    let arguments := if part.file.isNone then arguments + 1 else arguments
    if consumed ≤ size || rest.isEmpty then
      match part.file with
      | none => "-e expression #".toList ++ Text.ofNat arguments ++ ", char ".toList ++ Text.ofNat consumed
      | some name =>
        let before := (Text.utf8 part.text).take consumed
        "file ".toList ++ name ++ " line ".toList ++ Text.ofNat ((before.filter (· = 10)).length + 1)
    else placeIn rest arguments (consumed - size - 1)

-- The same for a fault that has no place but a part.
def partIn : List Part → Nat → Nat → Text
  | [], _, _ => []
  | part :: rest, arguments, consumed =>
    let size := Text.utf8Size part.text
    let arguments := if part.file.isNone then arguments + 1 else arguments
    if size < consumed && !rest.isEmpty then partIn rest arguments (consumed - size - 1)
    else if part.file.isNone then placeIn [part] (arguments - 1) 0
    else placeIn [part] arguments consumed

def sedUsage : Text := "Usage: sed [OPTION]... \x7bscript-only-if-no-other-script\x7d [input-file]...\n\n".toList

def sedGrammar : Grammar :=
  ⟨"nEre:f:i::l:suzPD", [("quiet", 'n'), ("silent", 'n'), ("regexp-extended", 'E'), ("expression", 'e'), ("file", 'f'),
    ("in-place", 'i'), ("line-length", 'l'), ("separate", 's'), ("unbuffered", 'u'), ("null-data", 'z'), ("zero-terminated", 'z'),
    ("posix", 'P'), ("debug", 'D')]⟩

-- Opens the files that the commands will write, all of them empty.
def openWritten : List Text → State → Except (Text × Errno) State
  | [], s => .ok s
  | name :: rest, s =>
    if name = "/dev/stdout".toList || name = "/dev/stderr".toList then openWritten rest s
    else match s.writable name with
      | .ok location => openWritten rest (s.writeFile location [])
      | .error e => .error (name, e)

-- The script's parts in their order, or the file that cannot be opened.
def scriptParts (s : State) : List (Char × Text) → Except (Text × Errno) (List Part)
  | [] => .ok []
  | (c, t) :: rest => do
    let more ← scriptParts s rest
    if c = 'e' then pure (⟨none, Octets.toText t⟩ :: more)
    else if c = 'f' then
      match s.find t with
      | .ok (_, .file bytes) =>
        let text := Text.ofUtf8 bytes
        pure (⟨some t, if text.getLast? = some '\n' then text.dropLast else text⟩ :: more)
      | .ok (_, .directory) => pure (⟨some t, []⟩ :: more)
      | .error e => throw (t, e)
    else pure more

-- Puts the edited texts into their files; with a suffix the old ones are kept.
def putBack (suffix : Text) (done : List (Text × Text)) (s : State) : State :=
  done.foldl (fun s entry => match s.find entry.1 with
    | .ok (location, .file bytes) =>
      let kept := if suffix = [] then s else
        match s.writable (entry.1 ++ suffix) with
        | .ok backup => s.writeFile backup bytes
        | .error _ => s
      kept.writeFile location (Text.utf8 entry.2)
    | _ => s) s

def editing (mode : Mode) (found : List Found) (s : State) : Editing :=
  let (sources, notices) := sourcesOf mode found 0 ⟨[], 0⟩
  ⟨sources, 0, [], false, ⟨[], true⟩, ⟨[], true⟩, [], false, [], [], [], [], [], none, false, [], notices, 0, s⟩

-- Runs commands that were read.
def sedCommands (mode : Mode) (suffix : Text) (parts : List Part) (commands : List Command) (files : List Text) (s : State) :
    State × Nat :=
  match openWritten (written commands) s with
  | .error (name, e) => (complain "sed" ("couldn't open file ".toList ++ name ++ ": ".toList ++ e.description) s, 4)
  | .ok s =>
    let (found, s) := readFiles mode files s
    let (isWhole, e) := editAll mode commands mostSteps true (editing mode found s)
    if isWhole then
      let e := if mode.inPlace && e.number ≠ 0 then e.finish else e
      (print (Octets.ofText e.output.reverse.flatten) (putBack suffix e.done e.host), e.status)
    else
      let size := parts.foldl (fun n part => n + Text.utf8Size part.text + 1) 0
      let s := complain "sed" (partIn parts 0 (size - 1) ++ ": no previous regular expression".toList) e.host
      (print (Octets.ofText e.output.reverse.flatten) s, 1)

def sed : Tool := fun args s =>
  match parse sedGrammar args with
  | .error e => ((complain "sed" e s).emit 2 sedUsage, 1)
  | .ok given =>
    let named := given.letters.any fun entry => entry.1 = 'e' || entry.1 = 'f'
    let scripts := if named then given.letters else (given.operands.head?.toList.map fun t => ('e', t))
    if scripts.isEmpty then (s.emit 2 sedUsage, 1)
    else match scriptParts s scripts with
    | .error (name, e) => (complain "sed" ("couldn't open file ".toList ++ name ++ ": ".toList ++ e.description) s, 4)
    | .ok parts =>
      let files := if named then given.operands else given.operands.tail
      let script := Text.join ['\n'] (parts.map Part.text)
      let form : Form := ⟨given.has 'E' || given.has 'r'⟩
      let isQuiet := script = ['#', 'n'] || Text.startsWith ['#', 'n', '\n'] script
      let width := ((given.argument? 'l').bind Numeral.count?).getD 70
      let mode : Mode := ⟨given.has 'n' || isQuiet, given.has 's' || given.has 'i', given.has 'i', width,
        if given.has 'z' then '\x00' else '\n'⟩
      match commandsOf form (2 * script.length + 2) none script with
      | .error fault =>
        let consumed := Text.utf8Size script - Text.utf8Size fault.rest
        match fault.scope with
        | .nowhere => fails s "sed" fault.message 4
        | .place => fails s "sed" (placeIn parts 0 consumed ++ ": ".toList ++ fault.message) 1
        | .part => fails s "sed" (partIn parts 0 consumed ++ ": ".toList ++ fault.message) 1
      | .ok (commands, _) =>
        match missingLabel? commands with
        | some name => (complain "sed" ("can't find label for jump to `".toList ++ name ++ ['\'']) s, 4)
        | none =>
          if given.has 'i' && files.isEmpty then fails s "sed" "no input files".toList 4
          else sedCommands mode ((given.argument? 'i').getD []) parts commands (orInput files) s

end PortableActions.Shell.Tool
