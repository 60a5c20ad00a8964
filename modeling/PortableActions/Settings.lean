import PortableActions.Path.Posix
import PortableActions.Text.Blank
-- How actions are run: whether the command line is shown, and how args files are named,
-- placed and encoded. Without a directory they go to the host's own temporary one.
namespace PortableActions

structure Settings where
  verbose : Bool := false
  fileNameStart : Text := "actionrunner-args-".toList
  fileNameEnd : Text := ".txt".toList
  directory : Option Text := none
  encoding : Text := "utf-8".toList
  deriving DecidableEq, Repr

namespace Settings

-- Variables of an environment, each name once.
abbrev Environment := List (Text × Text)

def named? (environment : Environment) (name : String) : Option Text :=
  (environment.find? fun entry => entry.1 = name.toList).map Prod.snd

def isYes (value : Text) : Bool :=
  ["1", "true", "yes", "on"].contains (String.ofList (Text.lower (Text.trim value)))

-- A variable that is set switches showing on or off; the two texts count only if they
-- are not empty.
def ofEnvironment (environment : Environment) : Settings :=
  let text? := fun name => (named? environment name).filter (· ≠ [])
  let defaults : Settings := {}
  { defaults with
    verbose := ((named? environment "ACTIONRUNNER_VERBOSE").map isYes).getD defaults.verbose
    directory := (text? "ACTIONRUNNER_ARGS_FILE_DIR").map Path.Posix.normal
    fileNameStart := (text? "ACTIONRUNNER_ARGS_FILE_PREFIX").getD defaults.fileNameStart }

end Settings
end PortableActions
