import PortableActions.Shell.Builtin.Lookup
import PortableActions.Shell.Signal
-- Builtin commands that end, leave or run something, and those on background jobs.
namespace PortableActions.Shell.Builtin
open Outcome

-- While a trap is run, the end of the shell without a number keeps the status from before.
def exit (args : List Text) (s : State) : Outcome :=
  counted (fun s => s.savedStatus.getD s.status) (fun n s => exits s n) args s

def return_ (args : List Text) (s : State) : Outcome :=
  counted State.status (fun n s => (.leaveFunction (!args.isEmpty), s.withStatus n)) args s

-- No more loops can be left than there are.
def leaving (flow : Nat → Flow) (args : List Text) (s : State) : Outcome :=
  counted (fun _ => 1) (fun n s =>
    if n = 0 then complains s ("Illegal number: ".toList ++ args.headD [])
    else if s.loops = 0 then ends s 0
    else (flow (min n s.loops), s.withStatus 0)) args s

def evaluate (text : ExecText) (args : List Text) (s : State) : Outcome :=
  if args.isEmpty then ends s 0 else text (Text.unwords args) s

-- A file that is named without a slash is looked for in the directories of the path.
def sourceFile? (s : State) (name : Text) : Option Text :=
  if name.contains '/' then some name
  else
    let places := (Text.splitOn ':' (searchPath s)).map fun directory =>
      if directory = [] then name else directory ++ ['/'] ++ name
    places.find? fun place => match s.find place with
      | .ok (_, .file _) => true
      | _ => false

def cannotOpen (name : Text) (e : Errno) : Text :=
  let why := if e = .noEntry || e = .notDirectory then "No such file".toList else e.description
  "cannot open ".toList ++ name ++ ": ".toList ++ why

-- Runs the commands of a file in this shell. Leaving a function there ends the file only.
def source (text : ExecText) (args : List Text) (s : State) : Outcome :=
  match Option.read "" args with
  | .error e => complains s e
  | .ok found =>
    match found.rest with
    | [] => ends s 0
    | name :: _ =>
      match sourceFile? s name with
      | none => complains s (name ++ ": not found".toList)
      | some path =>
        match s.find path with
        | .error e => complains s (cannotOpen path e)
        | .ok (_, .directory) => ends s 0
        | .ok (_, .file bytes) =>
          let (flow, after) := headed path (text (Octets.ofBytes bytes)) { s with tested := false }
          let after := { after with tested := s.tested }
          match flow with
          | .leaveFunction _ => (.next, after)
          | flow => (flow, after)

-- The end of a job that a signal has ended is told once.
def waitForJob (job : Job) (s : State) : Outcome :=
  let told := match job.signal with
    | some signal =>
      if job.waited || Signal.describe signal = [] then s else s.emit 2 (Signal.describe signal ++ ['\n'])
    | none => s
  let jobs := s.jobs.map fun other => if other.pid = job.pid then { other with waited := true } else other
  ends { told with jobs := jobs } job.status

-- A process that is not known does not change the answer.
def waitForAll : List Text → Nat → State → Outcome
  | [], status, s => ends s status
  | t :: rest, status, s =>
    match Signal.job? s t with
    | some job =>
      let (_, s) := waitForJob job s
      waitForAll rest s.status s
    | none =>
      if t.head? = some '%' then complains s (Signal.missingJob t)
      else if (Numeral.count? t).isNone then complains s ("Illegal number: ".toList ++ t)
      else waitForAll rest status s

def wait (args : List Text) (s : State) : Outcome :=
  match Option.read "" args with
  | .error e => complains s e
  | .ok found =>
    if found.rest.isEmpty then ends { s with jobs := s.jobs.map fun job => { job with waited := true } } 0
    else waitForAll found.rest 127 s

def jobs (args : List Text) (s : State) : Outcome :=
  match Option.read "lp" args with
  | .error e => complains s e
  | .ok found =>
    match found.rest.find? fun t => (Signal.job? s t).isNone with
    | some t => complains s (Signal.missingJob t)
    | none => ends s 0

-- Jobs cannot be brought to the foreground or moved to the background without a terminal.
def resume (args : List Text) (s : State) : Outcome :=
  match Option.read "" args with
  | .error e => complains s e
  | .ok found =>
    let name := found.rest.headD ['%', '%']
    match Signal.job? s name with
    | none => complains s (Signal.missingJob name)
    | some _ =>
      let shown := if found.rest.isEmpty then "(null)".toList else name
      complains s ("job ".toList ++ shown ++ " not created under job control".toList)

def times (_ : List Text) (s : State) : Outcome := ends (s.emit 1 "0m0.000000s 0m0.000000s\n0m0.000000s 0m0.000000s\n".toList) 0

-- Nothing is limited but the size of memory images.
def limits (args : List Text) (s : State) : Outcome :=
  match Option.read "HSatfdscmlpnvwr" args with
  | .error e => complains s e
  | .ok found =>
    match found.rest with
    | [] => ends (s.emit 1 (if found.letters.any fun entry => entry.1 = 'c' then "0\n".toList else "unlimited\n".toList)) 0
    | [t] =>
      if t = "unlimited".toList || Numeral.isDecimal t then ends s 0 else complains s "bad number".toList
    | _ => complains s "too many arguments".toList

end PortableActions.Shell.Builtin
