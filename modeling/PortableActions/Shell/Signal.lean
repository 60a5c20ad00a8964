import PortableActions.Shell.Option
import PortableActions.Shell.Outcome
import PortableActions.Shell.Quoting
-- Signals, and the actions that a shell keeps for them.
namespace PortableActions.Shell.Signal
open Numeral Outcome

def named : List (String × Nat × String) :=
  [("HUP", 1, "Hangup"), ("INT", 2, ""), ("QUIT", 3, "Quit"), ("ILL", 4, "Illegal instruction"),
    ("TRAP", 5, "Trace/breakpoint trap"), ("ABRT", 6, "Aborted"), ("BUS", 7, "Bus error"),
    ("FPE", 8, "Floating point exception"), ("KILL", 9, "Killed"), ("USR1", 10, "User defined signal 1"),
    ("SEGV", 11, "Segmentation fault"), ("USR2", 12, "User defined signal 2"), ("PIPE", 13, ""),
    ("ALRM", 14, "Alarm clock"), ("TERM", 15, "Terminated"), ("16", 16, "Stack fault"),
    ("CHLD", 17, "Child exited"), ("CONT", 18, "Continued"), ("STOP", 19, "Stopped (signal)"),
    ("TSTP", 20, "Stopped"), ("TTIN", 21, "Stopped (tty input)"), ("TTOU", 22, "Stopped (tty output)"),
    ("URG", 23, "Urgent I/O condition"), ("XCPU", 24, "CPU time limit exceeded"),
    ("XFSZ", 25, "File size limit exceeded"), ("VTALRM", 26, "Virtual timer expired"),
    ("PROF", 27, "Profiling timer expired"), ("WINCH", 28, "Window changed"), ("IO", 29, "I/O possible"),
    ("PWR", 30, "Power failure"), ("SYS", 31, "Bad system call"), ("32", 32, "Unknown signal 32"),
    ("33", 33, "Unknown signal 33"), ("RTMIN", 34, "Real-time signal 0"), ("RTMAX", 64, "Real-time signal 30")]

-- How many signals there are, none counted.
def count : Nat := 65

def nameOf (signal : Nat) : Text :=
  match named.find? fun entry => entry.2.1 = signal with
  | some entry => entry.1.toList
  | none =>
    if signal < 50 then "RTMIN+".toList ++ Text.ofNat (signal - 34) else "RTMAX-".toList ++ Text.ofNat (64 - signal)

def describe (signal : Nat) : Text :=
  match named.find? fun entry => entry.2.1 = signal with
  | some entry => entry.2.2.toList
  | none => "Real-time signal ".toList ++ Text.ofNat (signal - 34)

-- A signal by its number or its name without "SIG"; zero is the end of the shell.
def signal? (t : Text) : Option Nat :=
  if isDecimal t then
    let n := number t
    if n < count then some n else none
  else
    let name := t.map Char.toUpper
    if name = "EXIT".toList then some 0
    else (List.range count).find? fun n => n ≠ 0 && nameOf n = name

-- A signal that can be sent; the number zero only asks whether the process is there.
def sendable? (t : Text) : Option Nat := (signal? t).bind fun n => if n = 0 && !isDecimal t then none else some n

-- Signals that are not fatal unless a shell asks for them.
def isHarmless (signal : Nat) : Bool := [0, 17, 18, 23, 28].contains signal

-- Signals that stop a process.
def isStop (signal : Nat) : Bool := [19, 20, 21, 22].contains signal

-- A signal to the first shell. One with an action is acted on after the current command.
def receive (signal : Nat) (s : State) : Outcome :=
  if signal = 0 then ends s 0 else
  let action := if signal = 9 then none else ((s.mainTraps.getD s.traps).find? fun entry => entry.1 = signal).map Prod.snd
  match action with
  | some [] => ends s 0
  | some _ => ends { s with pending := s.pending.takeWhile (· < signal) ++ [signal] ++ s.pending.filter (signal < ·) } 0
  | none => if isHarmless signal || isStop signal then ends s 0 else (.killed signal, s)

-- Acts on the signals that have come. The status stays what it was, unless the action
-- leaves a function with a number.
def act (text : ExecText) : Nat → Outcome → Outcome
  | 0, outcome => outcome
  | fuel + 1, (flow, s) =>
    match s.pending with
    | [] => (flow, s)
    | signal :: rest =>
      if flow ≠ .next || s.mainTraps.isSome then (flow, s)
      else
        let s := { s with pending := rest }
        match s.trap? signal with
        | none => act text fuel (.next, s)
        | some action =>
          let saved := s.savedStatus.getD s.status
          match text action { s with tested := false, savedStatus := some saved } with
          | (.leaveFunction hasNumber, after) =>
            let after := { after with savedStatus := s.savedStatus, tested := s.tested }
            (.leaveFunction hasNumber, if hasNumber then after else after.withStatus saved)
          | (.exit, after) => (.exit, after)
          | (.killed signal, after) => (.killed signal, after)
          | (flow, after) =>
            let after := { after with savedStatus := s.savedStatus, tested := s.tested }
            act text fuel (flow, if flow = .fault then after else after.withStatus saved)

def usage : Text :=
  "Usage: kill [-s sigspec | -signum | -sigspec] [pid | job]... or\nkill -l [exitstatus]".toList

-- A background job that a process number or a job number names.
def job? (s : State) (t : Text) : Option Job :=
  match t with
  | ['%', '%'] | ['%', '+'] | ['%'] => s.jobs.head?
  | ['%', '-'] => s.jobs[1]?
  | '%' :: n => if isDecimal n then s.jobs.find? fun job => job.number = number n else none
  | _ => s.jobs.find? fun job => Text.ofNat job.pid = t

-- What is said if there is no such job.
def missingJob (t : Text) : Text :=
  match t with
  | ['%', '%'] | ['%', '+'] | ['%'] => "No current job".toList
  | ['%', '-'] => "No previous job".toList
  | _ => "No such job: ".toList ++ t

def killOne (signal : Nat) (t : Text) (failed : Bool) (s : State) : Outcome × Bool :=
  match (job? s t).filter fun job => !job.waited with
  | some job =>
    let jobs := s.jobs.map fun other =>
      if other.pid = job.pid && other.status = 0 && !isHarmless signal then
        { other with status := 128 + signal, signal := some signal }
      else other
    (ends { s with jobs := jobs } 0, failed)
  | none =>
    if t.head? = some '%' then (complains s (missingJob t), failed)
    else match count? (if t.head? = some '-' then t.tail else t) with
      | none => (complains s ("Illegal number: ".toList ++ (if t.head? = some '-' then t.tail else t)), failed)
      | some pid =>
        if pid = s.pid && t.head? ≠ some '-' then (receive signal s, failed)
        else (ends (s.complain "No such process\n".toList) 1, true)

def killAll (signal : Nat) : List Text → Bool → State → Outcome
  | [], failed, s => ends s (if failed then 1 else 0)
  | t :: rest, failed, s =>
    match killOne signal t failed s with
    | ((.next, s), failed) => killAll signal rest failed s
    | (other, _) => other

def list (args : List Text) (s : State) : Outcome :=
  match args with
  | [] => ends (((List.range count).drop 1).foldl (fun s n => s.emit 1 (nameOf n ++ ['\n'])) (s.emit 1 ['0', '\n'])) 0
  | status :: _ =>
    match count? status with
    | none => complains s ("Illegal number: ".toList ++ status)
    | some n =>
      let signal := if 128 < n then n - 128 else n
      if 0 < signal ∧ signal < count then ends (s.emit 1 (nameOf signal ++ ['\n'])) 0
      else complains s ("invalid signal number or exit status: ".toList ++ status)

-- The signal that the options name, if any, or a complaint.
def chosen (letters : List (Char × Text)) : Except Text (Option Nat) :=
  match letters.filter fun entry => entry.1 = 's' with
  | [] => .ok none
  | found =>
    match found.find? fun entry => (sendable? entry.2).isNone with
    | some bad => .error ("invalid signal number or name: ".toList ++ bad.2)
    | none => .ok ((found.getLast?).bind fun entry => sendable? entry.2)

def kill (args : List Text) (s : State) : Outcome :=
  let send := fun (signal : Nat) (pids : List Text) (s : State) =>
    if pids.isEmpty then complains s usage else killAll signal pids false s
  match args with
  | [] => complains s usage
  | ('-' :: name) :: pids =>
    match sendable? name with
    | some signal => send signal pids s
    | none =>
      match Option.read "ls:" args with
      | .error e => complains s e
      | .ok found =>
        let lists := found.letters.any fun entry => entry.1 = 'l'
        match chosen found.letters with
        | .error e => complains s e
        | .ok signal =>
          if lists then (if signal.isSome then complains s usage else list found.rest s)
          else send (signal.getD 15) found.rest s
  | pids => send 15 pids s

-- Remembers an action for each signal, or forgets it.
def trapAll (action : Option Text) : List Text → State → Outcome
  | [], s => ends s 0
  | name :: rest, s =>
    match signal? name with
    | none => ends (s.emit 2 ("trap: ".toList ++ name ++ ": bad trap\n".toList)) 1
    | some signal =>
      let bare := s.withoutTrap signal
      trapAll action rest (match action with
        | some t => { bare with traps := (signal, t) :: bare.traps }
        | none => bare)

def showTrap (s : State) (entry : Nat × Text) : State :=
  let name := if entry.1 = 0 then "EXIT".toList else nameOf entry.1
  s.emit 1 ("trap -- ".toList ++ Quoting.value entry.2 ++ [' '] ++ name ++ ['\n'])

def trap (args : List Text) (s : State) : Outcome :=
  match Option.read "" args with
  | .error e => complains s e
  | .ok found =>
    match found.rest with
    | [] => ends ((s.traps.mergeSort fun x y => decide (x.1 ≤ y.1)).foldl showTrap s) 0
    | [name] => trapAll none [name] s
    | action :: names =>
      if (signal? action).isSome then trapAll none (action :: names) s
      else trapAll (if action = ['-'] then none else some action) names s

end PortableActions.Shell.Signal
