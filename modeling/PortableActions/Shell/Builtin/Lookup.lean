import PortableActions.Shell.Builtin.Variable
-- What a name stands for when it is given as a command, and what is told about it.
namespace PortableActions.Shell.Builtin
open Outcome

-- Builtin commands whose faults do not end the shell.
def plainNames : List String :=
  ["[", "alias", "bg", "cd", "chdir", "command", "echo", "false", "fg", "getopts", "hash", "jobs", "kill", "printf",
    "pwd", "read", "test", "true", "type", "ulimit", "umask", "unalias", "wait"]

def isSpecial (name : Text) : Bool := Reading.specialNames.contains (String.ofList name)

def isBuiltin (name : Text) : Bool := isSpecial name || plainNames.contains (String.ofList name)

def function? (s : State) (name : Text) : Option Script :=
  (s.functions.find? fun entry => entry.1 = name).map Prod.snd

-- Where programs are looked for if the path of the shell does not count.
def defaultPath : Text := "/usr/local/sbin:/usr/local/bin:/usr/sbin:/usr/bin:/sbin:/bin".toList

def searchPath (s : State) : Text := (s.value? "PATH".toList).getD []

def isRunnable (s : State) (path : Text) : Bool :=
  match s.find path with
  | .ok (location, .file _) => s.executables.contains location
  | _ => false

-- The first file of a name that may be run in the directories of a path. Something else
-- that has the name is a reason of its own if nothing can be found.
def search (s : State) (path name : Text) : Except Errno Text :=
  let places := (Text.splitOn ':' path).map fun directory =>
    if directory = [] then name else directory ++ ['/'] ++ name
  match places.find? (isRunnable s) with
  | some place => .ok place
  | none => .error (if places.any fun place => (s.disk.find (s.absolute place)).isOk then .denied else .noEntry)

-- The path of a program: one that is written out, one that is remembered, or one that is
-- found. Paths that are chosen for one command are not remembered.
def programPath (s : State) (path : Option Text) (name : Text) : Except Errno Text :=
  if name.contains '/' then .ok name
  else match (if path.isSome then none else s.remembered.find? fun entry => entry.1 = name) with
    | some entry => .ok entry.2
    | none => search s (path.getD (searchPath s)) name

def isRemembered (s : State) (name : Text) : Bool := s.remembered.any fun entry => entry.1 = name

def remember (s : State) (name path : Text) : State :=
  if name.contains '/' || isRemembered s name then s
  else { s with remembered := s.remembered ++ [(name, path)] }

-- Looks for a program ahead of its use.
def prepare (s : State) (name : Text) : State :=
  if name.contains '/' || (function? s name).isSome || isBuiltin name then s
  else match programPath s none name with
    | .ok path => remember s name path
    | .error _ => s

def whyNot (e : Errno) : Text := if e = .noEntry || e = .notDirectory then "not found".toList else e.description

def aliasLine (entry : Text × Text) : Text := entry.1 ++ ['='] ++ Quoting.value entry.2 ++ ['\n']

-- Tells what a name stands for: in words, or as it would be run.
def describe (inWords : Bool) (path : Option Text) (name : Text) (s : State) : State × Bool :=
  let say := fun (words : String) => (s.emit 1 (name ++ (if inWords then words.toList else []) ++ ['\n']), true)
  if Script.reserved.contains name then say " is a shell keyword"
  else match s.aliases.find? fun entry => entry.1 = name with
    | some entry =>
      if inWords then (s.emit 1 (name ++ " is an alias for ".toList ++ entry.2 ++ ['\n']), true)
      else (s.emit 1 ("alias ".toList ++ aliasLine entry), true)
    | none =>
      if (function? s name).isSome then say " is a shell function"
      else if isSpecial name then say " is a special shell builtin"
      else if isBuiltin name then say " is a shell builtin"
      else
        let known := path.isNone && isRemembered s name
        match programPath s path name with
        | .ok place =>
          if name.contains '/' && !(s.find place).isOk then
            (if inWords then s.emit 1 (name ++ ": not found\n".toList) else s, false)
          else if inWords then
            (s.emit 1 (name ++ (if known then " is a tracked alias for ".toList else " is ".toList) ++ place ++ ['\n']), true)
          else (s.emit 1 (place ++ ['\n']), true)
        | .error _ => (if inWords then s.emit 1 (name ++ ": not found\n".toList) else s, false)

def describeAll (args : List Text) (s : State) : Outcome :=
  let (s, found) := args.foldl (fun (s, found) name =>
    let (s, one) := describe true none name s
    (s, found && one)) (s, true)
  ends s (if found then 0 else 127)

-- The command `command` where it is asked about a name.
def describeOne (args : List Text) (s : State) : Outcome :=
  match Option.read "pvV" args with
  | .error e => complains s e
  | .ok found =>
    let has := fun (c : Char) => found.letters.any fun entry => entry.1 = c
    match found.rest with
    | [] => ends s 0
    | name :: _ =>
      if has 'v' || has 'V' then
        let (s, known) := describe (has 'V') (if has 'p' then some defaultPath else none) name s
        ends s (if known then 0 else 127)
      else ends s 0

def hashOne (name : Text) (s : State) : State × Bool :=
  if (function? s name).isSome || isBuiltin name || name.contains '/' then (s, true)
  else
    let fresh := { s with remembered := s.remembered.filter fun entry => entry.1 ≠ name }
    match programPath fresh none name with
    | .ok path => (remember fresh name path, true)
    | .error e => (fresh.complain (name ++ ": ".toList ++ whyNot e), false)

def hash (args : List Text) (s : State) : Outcome :=
  match Option.read "r" args with
  | .error e => complains s e
  | .ok found =>
    if !found.letters.isEmpty then ends { s with remembered := [] } 0
    else if found.rest.isEmpty then
      ends ((State.shelved 31 s.remembered).foldl (fun s entry => s.emit 1 (entry.2 ++ ['\n'])) s) 0
    else
      let (s, fine) := found.rest.foldl (fun (s, fine) name =>
        let (s, one) := hashOne name s
        (s, fine && one)) (s, true)
      ends s (if fine then 0 else 1)

-- An alias that is there keeps its place.
def setAlias (name value : Text) (s : State) : State :=
  if s.aliases.any fun entry => entry.1 = name then
    { s with aliases := s.aliases.map fun entry => if entry.1 = name then (name, value) else entry }
  else { s with aliases := s.aliases ++ [(name, value)] }

def unknownName (command : String) (name : Text) (s : State) : State :=
  s.emit 2 (command.toList ++ ": ".toList ++ name ++ " not found\n".toList)

-- The first character of a name may be an equals sign.
def aliasOne (arg : Text) (s : State) : State × Bool :=
  match arg.tail.dropWhile (· ≠ '=') with
  | _ :: value => (setAlias (arg.take 1 ++ arg.tail.takeWhile (· ≠ '=')) value s, true)
  | [] =>
    match s.aliases.find? fun entry => entry.1 = arg with
    | some entry => (s.emit 1 (aliasLine entry), true)
    | none => (unknownName "alias" arg s, false)

def alias_ (args : List Text) (s : State) : Outcome :=
  if args.isEmpty then ends ((State.shelved 39 s.aliases).foldl (fun s entry => s.emit 1 (aliasLine entry)) s) 0
  else
    let (s, fine) := args.foldl (fun (s, fine) arg =>
      let (s, one) := aliasOne arg s
      (s, fine && one)) (s, true)
    ends s (if fine then 0 else 1)

def unaliasOne (name : Text) (s : State) : State × Bool :=
  if s.aliases.any fun entry => entry.1 = name then
    ({ s with aliases := s.aliases.filter fun entry => entry.1 ≠ name }, true)
  else (unknownName "unalias" name s, false)

def unalias (args : List Text) (s : State) : Outcome :=
  match Option.read "a" args with
  | .error e => complains s e
  | .ok found =>
    if !found.letters.isEmpty then ends { s with aliases := [] } 0
    else
      let (s, fine) := found.rest.foldl (fun (s, fine) name =>
        let (s, one) := unaliasOne name s
        (s, fine && one)) (s, true)
      ends s (if fine then 0 else 1)

end PortableActions.Shell.Builtin
