import PortableActions.Shell.Program
import PortableActions.Shell.Redirection
-- Simple commands: which words they have, what they are run by, and what holds while they
-- run.
namespace PortableActions.Shell.Command
open Builtin Outcome

-- The fields of a command. Those that were shown are not all its own: `command` and its
-- options may stand in front.
structure Call where
  skipped : List Text
  fields : List Text
  -- Words that still have to be expanded.
  words : List Word
  -- Whether functions are passed over, whether the path of the shell counts, and whether a
  -- fault ends the shell.
  skipsFunctions : Bool
  usesDefaultPath : Bool
  isSpecial : Bool

-- Expands words until there is a field.
def refill (capture : Capture) : List Word → Expand (List Text × List Word)
  | [] => pure ([], [])
  | w :: rest => do
    let found ← Expansion.fields capture w
    if found.isEmpty then refill capture rest else pure (found, rest)

-- The call with a field to be looked at, if there is any left.
def Call.filled (capture : Capture) (call : Call) : Expand Call := do
  if call.fields.isEmpty then
    let (fields, words) ← refill capture call.words
    pure { call with fields := fields, words := words }
  else pure call

def Call.skip (call : Call) : Call :=
  { call with skipped := call.skipped ++ call.fields.take 1, fields := call.fields.tail }

-- The call behind the options of `command`; none if it is `command` itself that is to run.
def afterCommand (capture : Capture) : Nat → Call → Expand (Option Call × Call)
  | 0, call => pure (none, call)
  | fuel + 1, call => do
    let call ← call.filled capture
    match call.fields with
    | [] => pure (none, call)
    | ['-', '-'] :: _ =>
      let call ← call.skip.filled capture
      pure (if call.fields.isEmpty then none else some { call with skipsFunctions := true }, call)
    | ('-' :: c :: letters) :: _ =>
      if (c :: letters).all (· = 'p') then afterCommand capture fuel { call.skip with usesDefaultPath := true }
      else pure (none, call)
    | _ => pure (some { call with skipsFunctions := true }, call)

def meansCommand (s : State) (call : Call) : Bool :=
  call.fields.head? = some "command".toList && (call.skipsFunctions || (function? s "command".toList).isNone)

-- Passes over `command`, again and again.
def resolve (capture : Capture) : Nat → Call → Expand Call
  | 0, call => pure call
  | fuel + 1, call => do
    let s ← get
    let isFunction := !call.skipsFunctions && (call.fields.head?.bind (function? s)).isSome
    let call := if call.skipped.isEmpty && !isFunction then
        { call with isSpecial := (call.fields.head?.map isSpecial).getD false }
      else call
    if meansCommand s call then
      match ← afterCommand capture (call.fields.length + call.words.length + 2) call.skip with
      | (some next, _) => resolve capture fuel next
      | (none, last) =>
        pure { last with
          skipped := call.skipped
          fields := last.skipped.drop call.skipped.length ++ last.fields
          skipsFunctions := true }
    else pure call

-- Commands whose arguments may be assignments.
def declares (name : Text) : Bool := ["export", "local", "readonly"].contains (String.ofList name)

-- Arguments that are assignments are not cut into fields.
def arguments (capture : Capture) (declaring : Bool) : List Word → Expand (List Text)
  | [] => pure []
  | w :: rest => do
    let found ← match (if declaring then w.assignment? else none) with
      | some (name, value) => do pure [name ++ ['='] ++ (← Expansion.value capture value)]
      | none => Expansion.fields capture w
    let more ← arguments capture declaring rest
    pure (found ++ more)

def callOf (capture : Capture) (words : List Word) : Expand Call := do
  let first ← Call.filled capture ⟨[], [], words, false, false, false⟩
  let call ← resolve capture (words.length + 1) first
  let s ← get
  let name := call.fields.headD []
  let isFunction := !call.skipsFunctions && (function? s name).isSome
  let more ← arguments capture (declares name && !isFunction) call.words
  pure { call with fields := call.fields ++ more, words := [] }

-- Assignments one after the other. In a scope the old values come back in the end.
def assignAll (capture : Capture) (isScoped isExported : Bool) : List (Text × Word) → Expand (List (Text × Text))
  | [] => pure []
  | (name, w) :: rest => do
    let value ← Expansion.value capture w
    if isScoped then modify fun s => s.setAside (.variable name (s.stored? name))
    Expand.assign name value
    if isScoped || isExported then modify fun s => s.markExported name
    let more ← assignAll capture isScoped isExported rest
    pure ((name, value) :: more)

-- Writes to where a descriptor led before.
def emitAround (outer : State) (fd : Nat) (t : Text) (s : State) : State :=
  match outer.channel? fd with
  | some (index, _) =>
    match s.channels[index]? with
    | some channel => s.writeChannel index channel t
    | none => s
  | none => s

-- What stands in front of commands that are shown.
def tracePrompt (capture : Capture) : Expand Text := do
  let s ← get
  let prompt := (s.value? "PS4".toList).getD []
  if prompt.any "$`\\".toList.contains then
    match Script.readQuoted prompt with
    | .error _ => pure prompt
    | .ok w =>
      set (setOption false 'x' s)
      let t ← Expansion.document capture w
      modify (setOption true 'x')
      pure t
  else pure prompt

def trace (capture : Capture) (outer : State) (assigned : List (Text × Text)) (fields : List Text) : Expand Unit := do
  if (← get).isOn 'x' then
    let prompt ← tracePrompt capture
    let words := assigned.map (fun entry => entry.1 ++ ['='] ++ entry.2) ++ fields
    modify (emitAround outer 2 (prompt ++ Text.unwords words ++ ['\n']))

-- A local name that cannot be one is found out when it ends.
def endScope (s : State) : Outcome :=
  let isBad := fun (saved : Saved) => match saved with
    | .variable name none => !isName name
    | _ => false
  match (s.scopes.headD []).find? isBad with
  | some (.variable name _) => complains s.leaveScope (name ++ ": bad variable name".toList)
  | _ => (.next, s.leaveScope)

-- A scope of local names that ends with a body, unless the shell ends in it.
def inScope (body : State → Outcome) (s : State) : Outcome :=
  match body { s with scopes := [] :: s.scopes } with
  | (.fault, s) => (.fault, s)
  | (.exit, s) => (.exit, s)
  | (.killed signal, s) => (.killed signal, s)
  | (flow, s) =>
    match endScope s with
    | (.next, s) => (flow, s)
    | other => other

-- How many calls of functions may stand in each other.
def mostCalls : Nat := 1000

def callFunction (m : Machine) (body : Script) (args : List Text) (s : State) : Outcome :=
  let inner := { s.withParams args with calls := s.calls + 1, loops := 0, inFunction := true }
  if mostCalls < inner.calls then
    complains { s with calls := inner.calls } ("Maximum function recursion depth (".toList ++ Text.ofNat mostCalls ++
      ") reached".toList)
  else
    let (flow, after) := m.exec body inner
    let back := { after with
      calls := after.calls - 1
      params := s.params
      optionIndex := s.optionIndex
      optionOffset := s.optionOffset
      loops := s.loops
      inFunction := s.inFunction }
    match flow with
    | .leaveFunction _ => (.next, back)
    | flow => (flow, back)

-- A builtin command whose output got lost says so in the end.
def runBuiltin (isSpecial : Bool) (name : Text) (run : List Text → State → Outcome) (args : List Text) (s : State) :
    Outcome :=
  let (flow, after) := headed name (run args) { s with lost := false }
  match flow with
  | .fault => (if isSpecial then .fault else .next, { after with lost := false })
  | flow =>
    if after.lost then
      let told := State.complain { after with heading := some name } (name ++ ": I/O error".toList)
      (flow, { told with lost := false, heading := after.heading, status := after.status ||| 1 })
    else (flow, after)

-- How a command ends whose program cannot be started.
def failureStatus (e : Errno) : Nat := if e = .noEntry || e = .notDirectory || e = .nameTooLong then 127 else 126

def programDepth : Nat := 64

-- Starts a program and waits for its end; a signal that ends it is told.
def runProgram (m : Machine) (path name : Text) (args : List Text) (s : State) : Outcome :=
  match Program.start m programDepth s.nextPid path name args s.forked with
  | .error e =>
    ends (s.forked.complain (name ++ ": ".toList ++ whyNot e)) (failureStatus e)
  | .ok (flow, after) =>
    let back := { leave s after with pending := s.pending, jobs := s.forked.jobs }
    match flow with
    | .killed signal =>
      let said := Signal.describe signal
      ends (if said = [] then back else back.emit 2 (said ++ ['\n'])) (128 + signal)
    | _ => (.next, back)

-- A program takes the place of the shell. What the shell was to run at its end is not run
-- then, unless the program cannot be started.
def replace (m : Machine) (args : List Text) (s : State) : Outcome :=
  match args with
  | [] => ends s 0
  | name :: rest =>
    let started : Except Errno Outcome := match programPath s none name with
      | .error e => .error e
      | .ok path => Program.start m programDepth s.pid path name rest s
    match started with
    | .ok (.killed signal, after) => (.killed signal, after)
    | .ok (_, after) => (.exit, { leave s after with traps := [] })
    | .error e => exits (s.complain (name ++ ": ".toList ++ whyNot e)) (failureStatus e)

def replaceShell (m : Machine) (args : List Text) (s : State) : Outcome :=
  match Option.read "" args with
  | .error e => complains s e
  | .ok found => replace m found.rest s

def runNamed (m : Machine) (call : Call) (name : Text) (args : List Text) (s : State) : Outcome :=
  match (if call.skipsFunctions then none else function? s name) with
  | some body => callFunction m body args s
  | none =>
    match (if name = "exec".toList then some (replaceShell m) else Builtin.run? m.text name) with
    | some run => runBuiltin call.isSpecial name run args s
    | none =>
      let path := if call.usesDefaultPath then some defaultPath else none
      match programPath s path name with
      | .error e => ends (s.complain (name ++ ": ".toList ++ whyNot e)) 127
      | .ok place => runProgram m place name args (if path.isNone then remember s name place else s)

-- Assignments in front of special builtin commands, and those without a command, stay.
def perform (m : Machine) (outer : State) (assignments : List (Text × Word)) (call : Call) (s : State) : Outcome :=
  let isScoped := !call.fields.isEmpty && !call.isSpecial
  let isExported := call.fields.head? = some "exec".toList && 1 < call.fields.length
  let body := fun (s : State) =>
    after (assignAll m.capture isScoped isExported assignments s) fun assigned s =>
      after (trace m.capture outer assigned (call.skipped ++ call.fields) s) fun _ s =>
        match call.fields with
        | [] => ends s s.substituted
        | name :: args => runNamed m call name args s
  if isScoped then inScope body s else body s

def simple (m : Machine) (line : Nat) (assignments : List (Text × Word)) (words : List Word) (redirects : List Redirect)
    (s : State) : Outcome :=
  after (callOf m.capture words { s with line := line, substituted := 0 }) fun call s =>
    after (Redirection.expandAll m.capture redirects s) fun openings s =>
      let keeps := call.fields.head? = some "exec".toList
      Redirection.opened m.capture keeps openings (perform m s assignments call)
        (fun s => (if call.isSpecial then .fault else .next, s)) s

end PortableActions.Shell.Command
