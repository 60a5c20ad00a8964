import PortableActions.Template.Tree.Reader
-- Everything that can go wrong, as causes, and the text of each.
namespace PortableActions

-- A malformed template, described in full or in part.
structure ParseError where
  description : Text
  position : Option Int
  template : Option Text
  deriving DecidableEq, Repr

namespace ParseError

def message (e : ParseError) : Text :=
  let placed := match e.position with
    | none => e.description
    | some position => e.description ++ " (at position ".toList ++ Text.ofInt position ++ [')']
  match e.template with
  | none => placed
  | some template => placed ++ "\n  command: ".toList ++ template

def ofRefusal (template : Text) (refusal : Template.Refusal) : ParseError :=
  ⟨refusal.fault.description, some refusal.position, some template⟩

end ParseError

inductive Failure where
  -- a failure of this library without a kind of its own
  | general (text : Text)
  | parse (error : ParseError)
  | argsFile (reason : Text)
  | shellSpawn (program : Text) (args : List Text) (reason : Text)
  | actionNameRequired
  | actionNotFound (name : Text)
  -- a command or an argument vector without any word
  | noProgram
  -- a path or an argument that holds the character zero
  | zeroInArgument
  -- an encoding name that holds the character zero
  | zeroInName
  | unknownEncoding (name : Text)
  -- the home directory of the host cannot be told
  | noHome
  -- the classpath could not be resolved
  | provider (text : Text)
  deriving DecidableEq, Repr

namespace Failure

def message : Failure → Text
  | general text => text
  | parse error => error.message
  | argsFile reason => "Failed to create args file: ".toList ++ reason
  | shellSpawn program _ reason => "Cannot start shell '".toList ++ program ++ "': ".toList ++ reason
  | actionNameRequired => "Action name is required. Use --list to see available actions.".toList
  | actionNotFound name =>
    "Action '".toList ++ name ++ "' not found. Use --list to see available actions.".toList
  | noProgram => "list index out of range".toList
  | zeroInArgument => "embedded null byte".toList
  | zeroInName => "embedded null character".toList
  | unknownEncoding name => "unknown encoding: ".toList ++ name
  | noHome => "Could not determine home directory.".toList
  | provider text => text

-- Whether the failure is one that this library declares.
def isOwn : Failure → Bool
  | general _ | parse _ | argsFile _ | shellSpawn _ _ _ | actionNameRequired | actionNotFound _ => true
  | _ => false

-- A shell that did not start, by its argument vector.
def ofSpawn (argv : List Text) (reason : Text) : Failure :=
  match argv with
  | [] => noProgram
  | program :: args => shellSpawn program args reason

end Failure

-- The tree of a template, with the failure that a caller sees.
def Template.read (template : Text) : Except Failure (List Template.Node) :=
  (Template.parse template).mapError fun refusal => .parse (.ofRefusal template refusal)

end PortableActions
