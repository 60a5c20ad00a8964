import PortableActions.ArgsFiles
-- A scope over time: what its owner does with it, and what others do to its files.
namespace PortableActions.ArgsFiles

inductive Event where
  | create (content : Text)
  | enter
  | close
  -- Leaving closes, whether or not a failure is under way; the failure goes on.
  | leave (failing : Bool)
  -- From outside: the recorded file with this number goes, or a directory takes its place.
  | remove (index : Nat)
  | replace (index : Nat)
  deriving DecidableEq, Repr

inductive Answer where
  | created (location : Location)
  | failed (failure : Failure)
  | entered
  | closed
  | disturbed (done : Bool)
  deriving DecidableEq, Repr

structure Outcome where
  scope : ArgsFiles
  answer : Answer
  warnings : List Warning
  deriving DecidableEq, Repr

def disturb (scope : ArgsFiles) (index : Nat) (change : Disk → Location → Disk) : Outcome :=
  match scope.record[index]? with
  | none => ⟨scope, .disturbed false, []⟩
  | some location =>
    ⟨{ scope with host := { scope.host with disk := change scope.host.disk location } }, .disturbed true, []⟩

def advance (settings : Settings) (scope : ArgsFiles) : Event → Outcome
  | .create content =>
    match create settings content scope with
    | .ok location next => ⟨next, .created location, []⟩
    | .error failure next => ⟨next, .failed failure, []⟩
  | .enter => ⟨scope, .entered, []⟩
  | .close | .leave _ => ⟨scope.close.1, .closed, scope.close.2⟩
  | .remove index => scope.disturb index Disk.remove
  | .replace index => scope.disturb index fun disk location => (disk.remove location).put location none

def run (settings : Settings) (scope : ArgsFiles) : List Event → ArgsFiles
  | [] => scope
  | event :: rest => run settings (scope.advance settings event).scope rest

end PortableActions.ArgsFiles
