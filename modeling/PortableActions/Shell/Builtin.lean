import PortableActions.Shell.Builtin.Control
import PortableActions.Shell.Builtin.Input
import PortableActions.Shell.Builtin.Place
import PortableActions.Shell.Condition
import PortableActions.Shell.Escape
-- The table of the commands that the shell runs by itself.
namespace PortableActions.Shell.Builtin
open Outcome

def test (needsBracket : Bool) (args : List Text) (s : State) : Outcome :=
  if needsBracket && args.getLast? ≠ some [']'] then complains s "missing ]".toList
  else match Condition.evaluate s (if needsBracket then args.dropLast else args) with
    | .ok b => ends s (if b then 0 else 1)
    | .error e => complains s e

-- Complaints come before the text: it waits for the end of the command.
def printf (args : List Text) (s : State) : Outcome :=
  match Option.read "" args with
  | .error e => complains s e
  | .ok found =>
    match found.rest with
    | [] => complains s "usage: printf format [arg ...]".toList
    | template :: rest =>
      let printed := Escape.printAll template (rest.length + 1) rest
      let s := (printed.complaints.foldl State.complain s).emit 1 printed.text
      ends s (if printed.fault then 2 else if printed.complaints.isEmpty then 0 else 1)

-- A command by its name. Texts of commands that it runs are run by the first argument.
def run? (text : ExecText) (name : Text) : Option (List Text → State → Outcome) :=
  match String.ofList name with
  | ":" | "true" => some fun _ s => ends s 0
  | "false" => some fun _ s => ends s 1
  | "." => some (source text)
  | "[" => some (test true)
  | "alias" => some alias_
  | "bg" | "fg" => some resume
  | "break" => some (leaving .leaveLoop)
  | "cd" | "chdir" => some changeDirectory
  | "command" => some describeOne
  | "continue" => some (leaving .nextRound)
  | "echo" => some fun args s => ends (s.emit 1 (Escape.echo args)) 0
  | "eval" => some (evaluate text)
  | "exit" => some exit
  | "export" => some (declare "export" State.markExported Variable.exported)
  | "getopts" => some nextOption
  | "hash" => some hash
  | "jobs" => some jobs
  | "kill" => some Signal.kill
  | "local" => some declareLocal
  | "printf" => some printf
  | "pwd" => some printDirectory
  | "read" => some readVariables
  | "readonly" => some (declare "readonly" State.markFixed Variable.fixed)
  | "return" => some return_
  | "set" => some setAll
  | "shift" => some (counted (fun _ => 1) shift)
  | "test" => some (test false)
  | "times" => some times
  | "trap" => some Signal.trap
  | "type" => some describeAll
  | "ulimit" => some limits
  | "umask" => some mask
  | "unalias" => some unalias
  | "unset" => some unset
  | "wait" => some wait
  | _ => none

end PortableActions.Shell.Builtin
