import PortableActions.ArgsFiles
import PortableActions.CommandLine
import PortableActions.Template.Suggestion
import PortableActions.Text.Lines
-- One action from template to exit code: measure, plan, render, show, run, clean up.
namespace PortableActions

-- What a program that was started has done: its exit code (or the negated number of the
-- signal that ended it), the bytes it wrote, and the disk it left.
structure Child where
  code : Int
  written : List UInt8
  disk : Disk
  deriving DecidableEq, Repr

-- How programs are started on a host. An argument vector either does not start, for a
-- reason that names a path, or runs to its end.
abbrev Launcher := List Text → Location → Disk → Except (Errno × Text) Child

namespace Invocation

-- Whether the template is too long for a command line. It is measured as written, before
-- any marker is suggested, with args constructs inlined.
def needsArgsFiles (template : Text) (classpath : Option Classpath) (platform : Platform) : Bool :=
  decide (platform.argsThreshold < ((CommandLine.inlined template classpath platform).length : Int))

-- The command line to run. Args constructs go to files only if the template is too long.
def prepare (settings : Settings) (template : Text) (classpath : Option Classpath) (platform : Platform) :
    EStateM Failure ArgsFiles Text :=
  let planned := Template.Suggestion.plan template
  if needsArgsFiles template classpath platform then
    CommandLine.spilled (ArgsFiles.createPath settings) planned classpath platform
  else pure (CommandLine.inlined planned classpath platform)

-- What a child's bytes print as.
def printed (written : List UInt8) : Text := Text.printLines (Text.foldLineEnds (Text.ofUtf8 written))

-- A host with the text that was printed on it.
structure Session where
  host : Host
  output : Text
  deriving DecidableEq, Repr

-- Hands a command line to the host shell and prints what it writes.
def runShell (launch : Launcher) (platform : Platform) (command : Text) : EStateM Failure Session Int := fun session =>
  let argv := platform.shellCommand command
  if command.contains '\x00' then .error .zeroInArgument session
  else match launch argv session.host.here session.host.disk with
    | .error (reason, path) => .error (.ofSpawn argv (reason.message path)) session
    | .ok child =>
      .ok child.code
        { session with
          host := { session.host with disk := child.disk }
          output := session.output ++ printed child.written }

def closeFiles (record : List Location) (session : Session) : Session :=
  { session with host := (ArgsFiles.close ⟨session.host, record⟩).1.host }

-- Runs a template. Every args file made on the way is deleted at the end, however the
-- run ends.
def execute (launch : Launcher) (settings : Settings) (template : Text) (classpath : Option Classpath)
    (platform : Platform) : EStateM Failure Session Int := fun session =>
  match prepare settings template classpath platform (.start session.host) with
  | .error failure scope => .error failure (closeFiles scope.record { session with host := scope.host })
  | .ok command scope =>
    let shown := if settings.verbose then "> ".toList ++ command ++ ['\n'] else []
    match runShell launch platform command { host := scope.host, output := session.output ++ shown } with
    | .error failure after => .error failure (closeFiles scope.record after)
    | .ok code after => .ok code (closeFiles scope.record after)

end Invocation
end PortableActions
