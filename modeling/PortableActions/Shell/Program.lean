import PortableActions.Shell.Builtin
import PortableActions.Shell.Tool
import PortableActions.Shell.Tool.Arguments
import PortableActions.Shell.Tool.Find
-- Programs as files on the disk, and what runs when one is started: a tool, a script for
-- another shell, or a tool that starts a program itself.
namespace PortableActions.Shell.Program
open Outcome

-- The bytes that begin the file of a program; its name follows.
def mark : List UInt8 := [0x7F, 0x45, 0x4C, 0x46]

-- What the content of a file is run by.
inductive Image where
  | tool (name : Text)
  | interpreted (path : Text) (argument : Option Text)
  | script (t : Text)
  deriving DecidableEq, Repr

-- The first line of a script may name its interpreter, with one argument.
def interpreter? (t : Text) : Option (Text × Option Text) :=
  if Text.startsWith ['#', '!'] t then
    let line := ((t.drop 2).takeWhile (· ≠ '\n')).dropWhile Source.isBlank
    let line := (line.reverse.dropWhile Source.isBlank).reverse
    let path := line.takeWhile fun c => !Source.isBlank c
    let argument := (line.drop path.length).dropWhile Source.isBlank
    if path = [] then none else some (path, if argument = [] then none else some argument)
  else none

def imageOf (s : State) (path : Text) : Except Errno Image :=
  match s.find path with
  | .error e => .error e
  | .ok (_, .directory) => .error .denied
  | .ok (location, .file bytes) =>
    if !s.executables.contains location then .error .denied
    else if mark.isPrefixOf bytes then .ok (.tool (Octets.ofBytes (bytes.drop mark.length)))
    else
      let t := Octets.ofBytes bytes
      match interpreter? t with
      | some (path, argument) => .ok (.interpreted path argument)
      | none => .ok (.script t)

-- Variables that every shell starts with, those of its environment apart.
def startVariables (parent : Nat) : List (Text × Variable) :=
  [("IFS".toList, ⟨some [' ', '\t', '\n'], false, false⟩), ("OPTIND".toList, ⟨some ['1'], false, false⟩),
    ("PS1".toList, ⟨some ['#', ' '], false, false⟩), ("PS2".toList, ⟨some ['>', ' '], false, false⟩),
    ("PS4".toList, ⟨some ['+', ' '], false, false⟩), ("PPID".toList, ⟨some (Text.ofNat parent), false, false⟩)]

-- A new shell knows the exported variables, the open files and the disk.
def freshShell (s : State) (pid : Nat) (name : Text) : State :=
  let handed := s.bindings.filter fun entry => entry.2.exported && entry.2.value.isSome && isName entry.1
  let known := (startVariables s.pid).filter fun entry => entry.1 = "IFS".toList || !handed.any fun v => v.1 = entry.1
  let handed := (handed.filter fun entry => entry.1 ≠ "IFS".toList).map fun entry => (entry.1, { entry.2 with fixed := false })
  let s := { s with
    name := name
    params := []
    bindings := handed ++ known
    scopes := []
    functions := []
    aliases := []
    documents := []
    options := []
    remembered := []
    traps := s.traps.filter fun entry => entry.2 = [] && entry.1 ≠ 0
    mainTraps := none
    pending := []
    calls := 0
    texts := 0
    loops := 0
    inFunction := false
    tested := false
    status := 0
    substituted := 0
    savedStatus := none
    jobs := []
    lastJob := none
    pid := pid
    heading := none
    line := 0
    readingLine := 0
    optionIndex := 1
    optionOffset := none }
  (s.assign "PWD".toList s.workingDirectory).markExported "PWD".toList

-- Options in front of the arguments of a shell, and whether a text of commands is given.
def startOptions : Nat → Bool → List Text → Expand (List Text × Bool)
  | 0, hasText, args => pure (args, hasText)
  | fuel + 1, hasText, args => do
    let switchOnes := fun (isOn : Bool) (letters : Text) (rest : List Text) => do
      let rest ← Builtin.switchLetters isOn (letters.filter fun c => c ≠ 'c' && c ≠ 'l') rest
      startOptions fuel (hasText || letters.contains 'c') rest
    match args with
    | ['-'] :: rest | ['-', '-'] :: rest => pure (rest, hasText)
    | ('-' :: letters) :: rest => switchOnes true letters rest
    | ('+' :: letters) :: rest => switchOnes false letters rest
    | _ => pure (args, hasText)

def withArguments (s : State) (args : List Text) : State :=
  match args with
  | [] => s
  | name :: params => { s with name := name, params := params }

-- A shell that has its options: its commands come from an argument, the input or a file.
def startShell (m : Machine) (args : List Text) (hasText : Bool) (s : State) : Outcome :=
  let run := fun (t : Text) (s : State) => finish m.text (m.text t s)
  if hasText then
    match args with
    | [] => complains s "-c requires an argument".toList
    | t :: rest => run t (withArguments s rest)
  else if args.isEmpty || s.isOn 's' then
    let s := Builtin.setOption true 's' { s with params := args }
    let t := s.waiting 0
    run t (s.consume 0 t.length)
  else
    let path := args.headD []
    match s.find path with
    | .ok (_, .file bytes) => run (Octets.ofBytes bytes) (withArguments s args)
    | .ok (_, .directory) => exits (withArguments s args) 0
    | .error e => complains s (Builtin.cannotOpen path e)

def shell (m : Machine) (pid : Nat) (name : Text) (args : List Text) (s : State) : Outcome :=
  after (startOptions (args.length + 1) false args (freshShell s pid name)) fun (args, hasText) s =>
    startShell m args hasText s

-- Complaints of a tool about its output.
def lostOutput (name : Text) (s : State) : Text :=
  let isFull := match s.channel? 1 with
    | some (_, .full) => true
    | _ => false
  let why := if isFull then "No space left on device".toList else "Bad file descriptor".toList
  let message := match String.ofList name with
    | "tee" => "'standard output': ".toList ++ why
    | "sed" => "couldn't flush stdout: ".toList ++ why
    | "wc" => if isFull then "write error".toList else "write error: ".toList ++ why
    | _ => "write error: ".toList ++ why
  name ++ ": ".toList ++ message ++ ['\n']

-- How a tool ends whose output got lost.
def lostStatus (name : Text) : Nat :=
  if ["ls", "sort", "grep", "expr"].contains (String.ofList name) then 2 else if name = "sed".toList then 4 else 1

def runTool (name : Text) (tool : Tool) (args : List Text) (s : State) : Outcome :=
  let (after, status) := tool args { s with lost := false }
  if after.lost then exits ({ after with lost := false }.emit 2 (lostOutput name after)) (max (lostStatus name) status)
  else exits after status

-- Assignments in front of a command of `env`, and what follows them.
def environmentOf (s : State) : List Text → State × List Text
  | [] => (s, [])
  | arg :: rest =>
    match Builtin.splitAssignment arg with
    | (name, some value) => environmentOf (s.withVariable name (some ⟨some value, true, false⟩)) rest
    | (_, none) => (s, arg :: rest)

-- The options of `env`: an empty environment, and names that are taken out of it.
def environmentOptions : Nat → List Text → State → Except Text (State × List Text)
  | 0, args, s => .ok (s, args)
  | fuel + 1, args, s =>
    match args.map String.ofList with
    | "-i" :: _ | "-" :: _ | "--ignore-environment" :: _ =>
      environmentOptions fuel args.tail { s with bindings := s.bindings.filter fun entry => !entry.2.exported }
    | "-u" :: name :: _ => environmentOptions fuel (args.drop 2) (s.withVariable name.toList none)
    | "--" :: _ => .ok (s, args.tail)
    | "-u" :: [] => .error "option requires an argument -- 'u'".toList
    | _ =>
      match args with
      | ('-' :: 'u' :: name) :: rest => environmentOptions fuel rest (s.withVariable name none)
      | ('-' :: '-' :: name) :: _ => .error ("unrecognized option '--".toList ++ name ++ ['\''])
      | ('-' :: c :: _) :: _ => .error ("invalid option -- '".toList ++ [c] ++ ['\''])
      | _ => .ok (s, args)

def environmentLines (s : State) : Text := s.environment.flatMap fun entry => entry.1 ++ ['='] ++ entry.2 ++ ['\n']

-- Tells where programs are found.
def which (args : List Text) (s : State) : Outcome :=
  let found := args.map fun name =>
    if name.contains '/' then (if Builtin.isRunnable s name then some name else none)
    else (Builtin.search s (Builtin.searchPath s) name).toOption
  exits (s.emit 1 ((found.filterMap id).flatMap (· ++ ['\n']))) (if args.isEmpty || found.contains none then 1 else 0)

-- Sends signals from a process of its own.
def kill (args : List Text) (s : State) : Outcome :=
  match Signal.kill args s with
  | (.killed signal, s) => (.killed signal, s)
  | (_, s) => exits s (min s.status 1)

def failStart (name : String) (program : Text) (e : Errno) (s : State) : Outcome :=
  exits (s.emit 2 (name.toList ++ ": ".toList ++
    (if name = "xargs" then Quoting.wherePlainFails program else Quoting.curled program) ++ ": ".toList ++
    e.description ++ ['\n'])) (if e = .noEntry then 127 else 126)

def whichever (outcome : Except Outcome Outcome) : Outcome :=
  match outcome with
  | .ok outcome => outcome
  | .error outcome => outcome

-- Runs commands one after the other until one asks for the end.
def runGathered (attempt : List Text → State → Except Outcome Outcome) (traced : Bool) :
    List (List Text) → Nat → State → Outcome
  | [], status, s => exits s status
  | words :: rest, status, s =>
    let s := if traced then s.emit 2 (Text.unwords (words.map Quoting.wherePlainFails) ++ ['\n']) else s
    let program := words.headD []
    let stops := fun (why : Text) (status : Nat) (s : State) =>
      exits (Tool.complain "xargs" (program ++ ": ".toList ++ why) s) status
    match attempt words s.forked with
    | .error (_, after) => exits (leave s after) (after.status % 256)
    | .ok (.killed signal, after) => stops ("terminated by signal ".toList ++ Text.ofNat signal) 125 (leave s after)
    | .ok (_, after) =>
      let last := after.status % 256
      if last = 255 then stops "exited with status 255; aborting".toList 124 (leave s after)
      else runGathered attempt traced rest (if last = 0 then status else 123) (leave s after)

mutual

-- Starts the file at a path in this process. It runs to its end, or it cannot be started.
def start (m : Machine) : Nat → Nat → Text → Text → List Text → State → Except Errno Outcome
  | 0, _, _, _, _, _ => .error .noExecution
  | depth + 1, pid, path, name, args, s =>
    match imageOf s path with
    | .error e => .error e
    | .ok (.script _) => .ok (shell m pid "/bin/sh".toList (path :: args) s)
    | .ok (.interpreted program argument) => start m depth pid program program (argument.toList ++ path :: args) s
    | .ok (.tool tool) =>
      match String.ofList tool with
      | "sh" => .ok (shell m pid name args s)
      | "env" => .ok (env m depth pid args s)
      | "kill" => .ok (kill args s)
      | "which" => .ok (which args s)
      | "xargs" => .ok (xargs m depth pid args s)
      | "find" => .ok (find m depth pid args s)
      | _ =>
        match Tool.run? tool with
        | some run => .ok (runTool tool run args s)
        | none => .error .noEntry
termination_by structural x => x

-- Looks a program up and starts it. What cannot be started ends with a complaint.
def attempt (m : Machine) : Nat → String → Nat → List Text → State → Except Outcome Outcome
  | 0, _, _, _, s => .error (exits s 126)
  | depth + 1, starter, pid, words, s =>
    let program := words.headD []
    let path := (s.value? "PATH".toList).getD "/bin:/usr/bin".toList
    match Builtin.programPath s (some path) program with
    | .error e => .error (failStart starter program e s)
    | .ok path =>
      match start m depth pid path program words.tail s with
      | .ok outcome => .ok outcome
      | .error e => .error (failStart starter program e s)
termination_by structural x => x

def env (m : Machine) : Nat → Nat → List Text → State → Outcome
  | 0, _, _, s => exits s 126
  | depth + 1, pid, args, s =>
    match environmentOptions (args.length + 1) args s with
    | .error e => exits (Tool.fails s "env" (e ++ Tool.advice "env") 125).1 125
    | .ok (s, args) =>
      let (s, words) := environmentOf s args
      if words.isEmpty then exits (s.emit 1 (environmentLines s)) 0
      else whichever (attempt m depth "env" pid words s)
termination_by structural x => x

-- Runs the commands for the files that are found.
def find (m : Machine) : Nat → Nat → List Text → State → Outcome
  | 0, _, _, s => exits s 126
  | depth + 1, pid, args, s =>
    let run := fun (words : List Text) (s : State) =>
      match whichever (attempt m depth "find" pid words s.forked) with
      | (.killed signal, after) => (leave s after, 128 + signal)
      | (_, after) => (leave s after, after.status % 256)
    runTool "find".toList (Tool.find run) args s
termination_by structural x => x

def xargs (m : Machine) : Nat → Nat → List Text → State → Outcome
  | 0, _, _, s => exits s 126
  | depth + 1, pid, args, s =>
    let given := Tool.scanLeading Tool.gatheringGrammar args
    let refuse := fun (e : Text) (s : State) => exits (Tool.complain "xargs" e s) 1
    match given.letters.foldlM Tool.Gathering.take Tool.plainGathering, given.fault with
    | .error e, _ => refuse e s
    | .ok _, some e => refuse (Tool.seeHelp e) s
    | .ok how, none =>
      let s := how.warnings.foldl (fun s e => Tool.complain "xargs" e s) s
      let (input, s) := match how.source with
        | some name => Tool.content name s
        | none =>
          let (t, s) := Tool.takeInput s
          (.ok t, s)
      match input with
      | .error e =>
        refuse ("Cannot open input file ".toList ++ Quoting.curled (how.source.getD []) ++ ": ".toList ++ e.description) s
      | .ok input =>
        let (commands, fault) := how.commands (if given.operands.isEmpty then ["echo".toList] else given.operands) input
        match fault with
        | none => runGathered (attempt m depth "xargs" pid) how.traced commands 0 s
        | some e =>
          match runGathered (attempt m depth "xargs" pid) how.traced commands 0 (Tool.complain "xargs" e s) with
          | (.exit, after) => (.exit, after.withStatus (max 1 after.status))
          | other => other
termination_by structural x => x

end

end PortableActions.Shell.Program
