import PortableActions.ActionTable
import PortableActions.Classpath
import PortableActions.Failure
import PortableActions.Settings
-- Named actions, one by one and in chains. How a template is executed and where the
-- classpath comes from are parameters: any behaviour over any state.
namespace PortableActions

-- Extra arguments follow the template after single blanks, as they are.
def appendArguments (template : Text) (args : List Text) : Text :=
  match args with
  | [] => template
  | _ => template ++ [' '] ++ Text.unwords args

-- What an executor is asked to do.
structure Call where
  command : Text
  classpath : Option Classpath
  platform : Platform
  settings : Settings
  deriving DecidableEq, Repr

structure Runner (σ : Type) where
  actions : ActionTable
  provider : Option (EStateM Failure σ (Option Classpath))
  platform : Platform
  settings : Settings
  executor : Call → EStateM Failure σ Int

namespace Runner
variable {σ : Type}

def names (runner : Runner σ) : List Text := runner.actions.names

-- The provider is asked only if the command mentions the classpath.
def classpathFor (runner : Runner σ) (command : Text) : EStateM Failure σ (Option Classpath) :=
  match runner.provider with
  | none => pure (some [])
  | some provide => if Text.mentions Template.Marker.deps command then provide else pure (some [])

def execute (runner : Runner σ) (name : Text) (args : List Text) : EStateM Failure σ Int := do
  if name = [] then throw .actionNameRequired
  match runner.actions.get? name with
  | none => throw (.actionNotFound name)
  | some template =>
    let command := appendArguments template args
    let classpath ← runner.classpathFor command
    runner.executor ⟨command, classpath, runner.platform, runner.settings⟩

-- The names from left to right, up to the first action that does not end with zero.
def runAll (runner : Runner σ) (args : List Text) : List Text → EStateM Failure σ Int
  | [] => pure 0
  | name :: rest => do
    let code ← runner.execute name args
    if code = 0 then runner.runAll args rest else pure code

-- A chain needs at least one name.
def run (runner : Runner σ) (names : List Text) (args : List Text) : EStateM Failure σ Int :=
  if names = [] then throw .actionNameRequired else runner.runAll args names

end Runner
end PortableActions
