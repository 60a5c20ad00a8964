import PortableActions.Host
import PortableActions.Text.Charset
-- A scope of args files. It keeps a record of every file it has made since it was last
-- closed, also of those whose content could not be written, and closing deletes them.
namespace PortableActions

structure ArgsFiles where
  host : Host
  record : List Location
  deriving DecidableEq, Repr

namespace ArgsFiles

def start (host : Host) : ArgsFiles := ⟨host, []⟩

-- The bytes of a content in the encoding of the settings.
def bytesFor (settings : Settings) (location : Location) (content : Text) : Except Failure (List UInt8) :=
  if settings.encoding.contains '\x00' then .error .zeroInName
  else match Text.Charset.named? settings.encoding with
    | none => .error (.unknownEncoding settings.encoding)
    | some charset =>
      (Text.encode charset content).mapError fun fault =>
        .argsFile (location.print ++ ": ".toList ++ fault.message)

-- The file is recorded before it is written.
def create (settings : Settings) (content : Text) : EStateM Failure ArgsFiles Location := fun scope =>
  match Host.newFile settings scope.host with
  | .error failure host => .error failure { scope with host := host }
  | .ok location host =>
    let recorded : ArgsFiles := ⟨host, scope.record ++ [location]⟩
    match bytesFor settings location content with
    | .error failure => .error failure recorded
    | .ok bytes =>
      .ok location { recorded with host := { host with disk := host.disk.write location bytes } }

-- The path of a new file with this content, as a command line names it.
def createPath (settings : Settings) (content : Text) : EStateM Failure ArgsFiles Text := do
  let location ← create settings content
  pure location.print

-- A file that could not be deleted, with the reason.
structure Warning where
  location : Location
  reason : Errno
  deriving DecidableEq, Repr

def Warning.message (w : Warning) : Text :=
  "Could not delete args file ".toList ++ w.location.print ++ ": ".toList ++ w.reason.message w.location.print

def deleteAll : List Location → Disk → Disk × List Warning
  | [], disk => (disk, [])
  | location :: rest, disk =>
    match disk.unlink location with
    | .ok smaller => deleteAll rest smaller
    | .error reason =>
      let after := deleteAll rest disk
      (after.1, ⟨location, reason⟩ :: after.2)

-- Every recorded file is deleted, the ones after a failure too, and the record is empty.
def close (scope : ArgsFiles) : ArgsFiles × List Warning :=
  let deleted := deleteAll scope.record scope.host.disk
  (⟨{ scope.host with disk := deleted.1 }, []⟩, deleted.2)

end ArgsFiles
end PortableActions
