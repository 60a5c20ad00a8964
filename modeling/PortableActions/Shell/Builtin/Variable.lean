import PortableActions.Shell.Option
import PortableActions.Shell.Outcome
import PortableActions.Shell.Quoting
-- Builtin commands on variables, options and arguments of the shell.
namespace PortableActions.Shell.Builtin
open Numeral Outcome

-- Ends a command whose last step is an expansion.
def done (result : EStateM.Result Flow State Unit) : Outcome := after result fun _ s => ends s 0

def splitAssignment (arg : Text) : Text × Option Text :=
  match arg.dropWhile (· ≠ '=') with
  | [] => (arg, none)
  | _ :: value => (arg.takeWhile (· ≠ '='), some value)

def declaration (lead : Text) (entry : Text × Variable) : Text :=
  let value := match entry.2.value with
    | some value => ['='] ++ Quoting.value value
    | none => []
  (if lead = [] then [] else lead ++ [' ']) ++ entry.1 ++ value ++ ['\n']

-- Variables in the order of their names.
def showAll (lead : Text) (wanted : Variable → Bool) (s : State) : Outcome :=
  let found := (s.bindings.filter fun entry => wanted entry.2).mergeSort fun x y => Text.atMost x.1 y.1
  ends (found.foldl (fun s entry => s.emit 1 (declaration lead entry)) s) 0

-- Marks names one by one; those that come with a value get it first.
def markAll (mark : State → Text → State) : List Text → Expand Unit
  | [] => pure ()
  | arg :: rest => do
    let (name, value) := splitAssignment arg
    match value with
    | some value => Expand.assign name value
    | none =>
      if (← get).stored? name = none && !isName name then Expand.fail (name ++ ": bad variable name".toList)
    modify fun s => mark s name
    markAll mark rest

def declare (lead : String) (mark : State → Text → State) (isMarked : Variable → Bool) (args : List Text) (s : State) :
    Outcome :=
  match Option.read "p" args with
  | .error e => complains s e
  | .ok found =>
    if found.rest.isEmpty || !found.letters.isEmpty then showAll lead.toList isMarked s
    else done (markAll mark found.rest s)

-- Local names are put aside for the end of the function.
def makeLocal : List Text → Expand Unit
  | [] => pure ()
  | arg :: rest => do
    let s ← get
    if arg = ['-'] then set (s.setAside (.options s.options))
    else
      let (name, value) := splitAssignment arg
      let before := s.stored? name
      set (s.setAside (.variable name before))
      match value with
      | some value =>
        if isName name then Expand.assign name value
      | none =>
        if before = none && !isName name then Expand.fail (name ++ ": bad variable name".toList)
    makeLocal rest

def declareLocal (args : List Text) (s : State) : Outcome :=
  if !s.inFunction then complains s "not in a function".toList else done (makeLocal args s)

def unsetAll : List Text → Expand Unit
  | [] => pure ()
  | name :: rest => do
    let s ← get
    if !isName name then Expand.fail (name ++ ": bad variable name".toList)
    else if s.isFixed name then Expand.fail (name ++ ": is read only".toList)
    else set (s.withVariable name none)
    unsetAll rest

def unset (args : List Text) (s : State) : Outcome :=
  match Option.read "vf" args with
  | .error e => complains s e
  | .ok found =>
    if (found.letters.getLast?.map Prod.fst) = some 'f' then ends (found.rest.foldl State.withoutFunction s) 0
    else done (unsetAll found.rest s)

def optionNames : List (String × Option Char) :=
  [("errexit", some 'e'), ("noglob", some 'f'), ("ignoreeof", some 'I'), ("interactive", some 'i'),
    ("monitor", some 'm'), ("noexec", some 'n'), ("stdin", some 's'), ("xtrace", some 'x'), ("verbose", some 'v'),
    ("vi", some 'V'), ("emacs", some 'E'), ("noclobber", some 'C'), ("allexport", some 'a'), ("notify", some 'b'),
    ("nounset", some 'u'), ("privileged", some 'p'), ("nolog", none), ("debug", none)]

def setOption (isOn : Bool) (option : Char) (s : State) : State :=
  let others := s.options.filter (· ≠ option)
  { s with options := if isOn then others ++ [option] else others }

-- There is no terminal from which jobs could be controlled.
def switch (isOn : Bool) (option : Char) : Expand Unit := do
  if option = 'm' && isOn then
    modify fun s => s.complain "can't access tty; job control turned off".toList
  else modify (setOption isOn option)

def isShown (s : State) (option : Option Char) : Bool := (option.map s.isOn).getD false

def showOptions (isOn : Bool) (s : State) : State :=
  let line := fun (entry : String × Option Char) =>
    let name := entry.1.toList
    if isOn then
      name ++ List.replicate (16 - name.length) ' ' ++ (if isShown s entry.2 then "on".toList else "off".toList) ++ ['\n']
    else "set ".toList ++ (if isShown s entry.2 then "-o ".toList else "+o ".toList) ++ name ++ ['\n']
  let s := if isOn then s.emit 1 "Current option settings\n".toList else s
  optionNames.foldl (fun s entry => s.emit 1 (line entry)) s

def switchNamed (isOn : Bool) (name : Text) : Expand Unit := do
  match optionNames.find? fun entry => entry.1.toList = name with
  | some (_, some option) => switch isOn option
  | some (_, none) => pure ()
  | none => Expand.fail ("Illegal option ".toList ++ [if isOn then '-' else '+', 'o', ' '] ++ name)

-- The letters of one argument; each "o" takes a name from the arguments after it.
def switchLetters (isOn : Bool) : Text → List Text → Expand (List Text)
  | [], rest => pure rest
  | 'o' :: letters, rest => do
    match rest with
    | [] =>
      modify (showOptions isOn)
      switchLetters isOn letters []
    | name :: rest =>
      switchNamed isOn name
      switchLetters isOn letters rest
  | c :: letters, rest => do
    if optionNames.any fun entry => entry.2 = some c then
      switch isOn c
      switchLetters isOn letters rest
    else Expand.fail ("Illegal option ".toList ++ [if isOn then '-' else '+', c])

-- Options are read up to the first argument that is none. What is left replaces the
-- arguments of the shell, if it is not empty or two dashes stand in front of it.
def readOptions : Nat → List Text → Expand (Option (List Text))
  | 0, _ => pure none
  | fuel + 1, args => do
    match args with
    | [] => pure none
    | ['-', '-'] :: rest => pure (some rest)
    | ['-'] :: rest =>
      modify fun s => setOption false 'x' (setOption false 'v' s)
      pure (if rest.isEmpty then none else some rest)
    | ('-' :: letters) :: rest => readOptions fuel (← switchLetters true letters rest)
    | ('+' :: letters) :: rest => readOptions fuel (← switchLetters false letters rest)
    | _ => pure (some args)

def setAll (args : List Text) (s : State) : Outcome :=
  if args.isEmpty then showAll [] (fun v => v.value.isSome) s
  else after (readOptions (args.length + 1) args s) fun params s =>
    match params with
    | some params => ends (s.withParams params) 0
    | none => ends s 0

-- Runs a command with its first argument as a number, or with a number that stands for it.
def counted (otherwise : State → Nat) (run : Nat → State → Outcome) (args : List Text) (s : State) : Outcome :=
  match args with
  | [] => run (otherwise s) s
  | t :: _ =>
    match count? t with
    | some n => run n s
    | none => complains s ("Illegal number: ".toList ++ t)

def shift (n : Nat) (s : State) : Outcome :=
  if s.params.length < n then complains s "can't shift that many".toList
  else ends (s.withParams (s.params.drop n)) 0

end PortableActions.Shell.Builtin
