import PortableActions.Shell.Command
-- Running shell scripts. Every call takes one unit of fuel, loops one for each round, so a
-- script that would not end is cut off.
namespace PortableActions.Shell.Run
open Outcome

-- With the option "e" a failure that nobody looks at ends the shell.
def watched (before : State) (outcome : Outcome) : Outcome :=
  match outcome with
  | (.next, s) => if before.isOn 'e' && !before.tested && s.status ≠ 0 then (.exit, s) else (.next, s)
  | other => other

def invert (outcome : Outcome) : Outcome :=
  match outcome with
  | (.next, s) => ends s (if s.status = 0 then 1 else 0)
  | other => other

-- A subshell makes its redirections by itself; a fault there is its end.
def inProcess (m : Machine) (openings : List Redirection.Opening) (body : Script) (s : State) : Outcome :=
  process m.text (Redirection.inProcess m.capture openings (m.exec body)) s

def subshell (m : Machine) (line : Nat) (body : Script) (redirects : List Redirect) (s : State) : Outcome :=
  after (Redirection.expandAll m.capture redirects { s with line := line }) fun openings s => inProcess m openings body s

-- The number of a new job: the smallest that is free.
def jobNumber (jobs : List Job) : Nat :=
  ((List.range (jobs.length + 1)).find? fun n => jobs.all fun job => job.number ≠ n + 1).getD 0 + 1

-- A command in the background runs at once, and is a job from then on. It finds no input.
def inBackground (body : State → Outcome) (s : State) : Outcome :=
  match body ({ s with tested := false }.attach 0 .nothing) with
  | (.killed signal, after) => (.killed signal, after)
  | (_, after) =>
    let jobs := s.forked.jobs
    let job : Job := ⟨after.nextPid - 1, jobNumber jobs, after.status, none, false⟩
    ends { leave s after with jobs := job :: jobs, lastJob := some job.pid } 0

-- The stages of a pipe one after the other, each with the output of the one before as its
-- input.
def stages (m : Machine) : List Script → State → Outcome
  | [], s => (.next, s)
  | [last], s => process m.text (m.exec last) s
  | stage :: rest, s =>
    let index := s.sinks.length
    let inner := { s with sinks := s.sinks ++ [[]] }.attach 1 (.sink index)
    match process m.text (m.exec stage) inner with
    | (.killed signal, after) => (.killed signal, leave s after)
    | (_, after) =>
      let between := { leave s after with sinks := after.sinks.take index }
      let (flow, ended) := stages m rest (between.attach 0 (.text (after.collected index)))
      (flow, leave between ended)

-- The parent of a pipe looks its programs up ahead.
def prepareStage (s : State) (stage : Script) : State :=
  match stage with
  | .simple _ _ ([.plain name] :: _) _ => Builtin.prepare s name
  | _ => s

def pipe (m : Machine) (commands : List Script) (s : State) : Outcome :=
  let s := commands.foldl prepareStage s
  stages m commands s

-- Whether a value matches one of several patterns.
def anyMatch (capture : Capture) (value : Text) : List Word → Expand Bool
  | [] => pure false
  | w :: rest => do
    if Pattern.accepts (← Expansion.pattern capture w) value then pure true else anyMatch capture value rest

-- The commands of the first case that a value matches.
def chosen (capture : Capture) (value : Text) : List (List Word × Script) → Expand Script
  | [] => pure .nothing
  | (patterns, body) :: rest => do
    if ← anyMatch capture value patterns then pure body else chosen capture value rest

-- Texts that run each other without an end break the shell.
def mostTexts : Nat := 4000

mutual

def script : Nat → Script → State → Outcome
  | 0, _, s => exits s 255
  | fuel + 1, tree, s =>
    let m : Machine := ⟨script fuel, textOf fuel⟩
    if s.isOn 'n' then (.next, s)
    else Signal.act m.text fuel <| match tree with
      | .nothing => (.next, s)
      | .simple line assignments words redirects => watched s (Command.simple m line assignments words redirects s)
      | .pipe false commands => watched s (pipe m commands s)
      | .pipe true commands => watched s (inBackground (pipe m commands) s)
      | .not body => invert (looking (script fuel body) s)
      | .andThen left right =>
        match looking (script fuel left) s with
        | (.next, s) => if s.status = 0 then script fuel right s else (.next, s)
        | other => other
      | .orElse left right =>
        match looking (script fuel left) s with
        | (.next, s) => if s.status = 0 then (.next, s) else script fuel right s
        | other => other
      | .sequence left right =>
        match script fuel left s with
        | (.next, s) => script fuel right s
        | other => other
      | .background line body redirects =>
        watched s (after (Redirection.expandAll m.capture redirects { s with line := line }) fun openings s =>
          inBackground (inProcess m openings body) s)
      | .subshell line body redirects => watched s (subshell m line body redirects s)
      | .redirected line body redirects => Redirection.redirected m.capture redirects (script fuel body) { s with line := line }
      | .choose test yes no =>
        match looking (script fuel test) s with
        | (.next, s) =>
          if s.status = 0 then script fuel yes s
          else if no.isNothing then ends s 0
          else script fuel no s
        | other => other
      | .loop stopsOnSuccess test body => inLoop (rounds fuel stopsOnSuccess test body 0) s
      | .each line name items body =>
        after (Expansion.allFields m.capture items { s with line := line }) fun found s =>
          inLoop (eachOf fuel name found body 0) s
      | .branches line subject cases =>
        after (Expansion.single m.capture subject { s with line := line }) fun value s =>
          after (chosen m.capture value cases s) fun body s =>
            if body.isNothing then ends s 0 else script fuel body s
      | .define name body => ends { s.withoutFunction name with functions := (name, body) :: (s.withoutFunction name).functions } 0

-- Rounds of a loop while its test says so; the number is the status of the last round.
def rounds : Nat → Bool → Script → Script → Nat → State → Outcome
  | 0, _, _, _, _, s => exits s 255
  | fuel + 1, stops, test, body, last, s =>
    match looking (script fuel test) s with
    | (.next, s) =>
      if (s.status = 0) = stops then ends s last
      else match script fuel body s with
        | (.next, s) => rounds fuel stops test body s.status s
        | (.leaveLoop n, s) => if n ≤ 1 then (.next, s) else (.leaveLoop (n - 1), s)
        | (.nextRound n, s) => if n ≤ 1 then rounds fuel stops test body s.status s else (.nextRound (n - 1), s)
        | other => other
    | (.leaveLoop n, s) => if n ≤ 1 then ends s last else (.leaveLoop (n - 1), s.withStatus last)
    | (.nextRound n, s) => if n ≤ 1 then rounds fuel stops test body last s else (.nextRound (n - 1), s.withStatus last)
    | other => other

def eachOf : Nat → Text → List Text → Script → Nat → State → Outcome
  | 0, _, _, _, _, s => exits s 255
  | _ + 1, _, [], _, last, s => ends s last
  | fuel + 1, name, item :: rest, body, _, s =>
    after (Expand.assign name item s) fun _ s =>
      match script fuel body s with
      | (.next, s) => eachOf fuel name rest body s.status s
      | (.leaveLoop n, s) => if n ≤ 1 then (.next, s) else (.leaveLoop (n - 1), s)
      | (.nextRound n, s) => if n ≤ 1 then eachOf fuel name rest body s.status s else (.nextRound (n - 1), s)
      | other => other

def textOf : Nat → Text → State → Outcome
  | 0, _, s => exits s 255
  | fuel + 1, t, s =>
    if mostTexts < s.texts then (.killed 11, s)
    else
      let (flow, after) := lines fuel (Source.ofText t 1) false { s with texts := s.texts + 1 }
      (flow, { after with texts := s.texts, readingLine := s.readingLine })

-- A text line by line: each is read only when the ones before it have run. Without any
-- command all is well.
def lines : Nat → Source → Bool → State → Outcome
  | 0, _, _, s => exits s 255
  | fuel + 1, source, hasRun, s =>
    match Script.readLine (source.knowing s.aliases s.documents s.numbers) with
    | .error fault => complains { s with line := fault.line } ("Syntax error: ".toList ++ fault.message)
    | .ok (none, _) => if hasRun then (.next, s) else ends s 0
    | .ok (some tree, rest) =>
      let s := { s with documents := rest.documents, numbers := rest.numbers, readingLine := rest.line }
      match (if tree.isNothing then (.next, s) else script fuel tree s) with
      | (.next, s) => lines fuel rest (hasRun || !tree.isNothing) s
      | other => other

end

end PortableActions.Shell.Run
