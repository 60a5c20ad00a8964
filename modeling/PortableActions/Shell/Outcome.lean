import PortableActions.Shell.State
-- How commands end, and what is done around them. How a script is run is a parameter.
namespace PortableActions.Shell

-- How a command ends: the next one follows, a loop or function is left (the flag says
-- whether with a number), a fault or the shell's own wish ends the shell, or a signal does.
inductive Flow where
  | next
  | leaveLoop (levels : Nat)
  | nextRound (levels : Nat)
  | leaveFunction (hasNumber : Bool)
  | fault
  | exit
  | killed (signal : Nat)
  deriving DecidableEq, Repr

abbrev Outcome := Flow × State

abbrev Exec := Script → State → Outcome

-- Runs the text of a script.
abbrev ExecText := Text → State → Outcome

-- An expansion that fails has complained, and says how the command ends.
abbrev Expand := EStateM Flow State

-- The output of a script.
abbrev Capture := Script → Expand Text

namespace Expand

def fail {α : Type} (message : Text) : Expand α := do
  modify fun s => s.complain message
  throw .fault

-- Gives a variable a value, unless its value is fixed or its name is none.
def assign (name value : Text) : Expand Unit := do
  let s ← get
  if !isName name then fail (name ++ ": bad variable name".toList)
  else if s.isFixed name then fail (name ++ ": is read only".toList)
  else if name = "OPTIND".toList && (Numeral.count? value).isNone then fail ("Illegal number: ".toList ++ value)
  else set (s.assign name value)

end Expand

namespace Outcome

def ends (s : State) (status : Nat) : Outcome := (.next, s.withStatus status)

def exits (s : State) (status : Nat) : Outcome := (.exit, s.withStatus status)

-- A fault that has been complained about.
def faults (s : State) : Outcome := (.fault, s.withStatus 2)

def complains (s : State) (message : Text) : Outcome := faults (s.complain message)

-- Goes on with the result of an expansion.
def after {α : Type} (result : EStateM.Result Flow State α) (go : α → State → Outcome) : Outcome :=
  match result with
  | .ok a s => go a s
  | .error .fault s => faults s
  | .error flow s => (flow, s)

-- A shell that ends runs what it was told to run then.
def finish (text : ExecText) (outcome : Outcome) : Outcome :=
  match outcome with
  | (.killed signal, s) => (.killed signal, s)
  | (_, s) =>
    match s.trap? 0 with
    | none => (.exit, s)
    | some action =>
      let fresh := { s.withoutTrap 0 with tested := false, loops := 0, savedStatus := some s.status, heading := none }
      match text action fresh with
      | (.killed signal, after) => (.killed signal, after)
      | (.exit, after) => (.exit, after)
      | (.fault, after) => (.exit, after)
      | (_, after) => (.exit, after.withStatus s.status)

-- A subshell starts without the actions of the shell around it, ignored signals apart, and
-- without the text that is being read.
def inside (s : State) : State :=
  { s with
    traps := s.traps.filter fun entry => entry.2 = [] && entry.1 ≠ 0
    mainTraps := some (s.mainTraps.getD s.traps)
    readingLine := 1
    jobs := [] }

-- Runs a body whose failure is looked at.
def looking (body : State → Outcome) (s : State) : Outcome :=
  let (flow, after) := body { s with tested := true }
  (flow, { after with tested := s.tested })

def inLoop (body : State → Outcome) (s : State) : Outcome :=
  let (flow, after) := body { s with loops := s.loops + 1 }
  (flow, { after with loops := s.loops })

-- Runs a body whose complaints name a command or file.
def headed (name : Text) (body : State → Outcome) (s : State) : Outcome :=
  let (flow, after) := body { s with heading := some name }
  (flow, { after with heading := s.heading })

-- Channels that no descriptor leads to any more are dropped if they are younger than
-- the ones that were there before.
def dropChannels (before : Nat) (s : State) : State :=
  let used := s.descriptors.foldl (fun n entry => max n (entry.2 + 1)) before
  { s with channels := s.channels.take used }

-- What a subshell leaves to the shell that started it.
def leave (outer inner : State) : State :=
  { outer with
    disk := inner.disk
    executables := inner.executables
    sinks := inner.sinks
    channels := inner.channels.take outer.channels.length
    status := inner.status % 256
    pending := inner.pending
    nextPid := inner.nextPid }

-- Runs a body in a process of its own; a signal ends the processes around it too.
def process (text : ExecText) (body : State → Outcome) (s : State) : Outcome :=
  let s := s.forked
  match finish text (body (inside s)) with
  | (.killed signal, after) => (.killed signal, leave s after)
  | (_, after) => (.next, leave s after)

-- The output of a process as text, trailing newlines and zero bytes taken away.
def capture (text : ExecText) (run : State → Outcome) : Expand Text := fun s =>
  let index := s.sinks.length
  let inner := { s with sinks := s.sinks ++ [[]], tested := false }.attach 1 (.sink index)
  let (flow, after) := process text run inner
  let found := (((after.collected index).filter (· ≠ '\x00')).reverse.dropWhile (· = '\n')).reverse
  let back := leave s.forked after
  let back := { back with sinks := after.sinks.take index, substituted := after.status, status := s.status }
  match flow with
  | .killed _ => .error flow back
  | _ => .ok found back

end Outcome

-- How scripts and texts are run.
structure Machine where
  exec : Exec
  text : ExecText

def Machine.capture (m : Machine) : Capture := fun script => Outcome.capture m.text (m.exec script)

end PortableActions.Shell
