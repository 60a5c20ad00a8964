import PortableActions.Disk
import PortableActions.Failure
import PortableActions.Settings
-- The host as far as args files see it: the directory that is current and temporary at
-- once, the disk, and how many names for new files have been tried. The k-th name tried
-- carries k in eight digits.
namespace PortableActions

structure Host where
  here : Location
  disk : Disk
  attempts : Nat
  deriving DecidableEq, Repr

namespace Host

def serial (k : Nat) : Text :=
  let digits := Text.ofNat k
  List.replicate (8 - digits.length) '0' ++ digits

-- Names that are taken are passed over, so many times at most.
def maxAttempts : Nat := 238328

-- Where new files go: the directory of the settings, read from the current one and
-- normalised without looking at the disk.
def directoryFor (host : Host) (settings : Settings) : Text :=
  Path.Posix.lexical ((settings.directory.map (Path.Posix.append host.here.print)).getD host.here.print)

def newPath (host : Host) (settings : Settings) : Text :=
  Path.Posix.append (host.directoryFor settings)
    (settings.fileNameStart ++ serial (host.attempts + 1) ++ settings.fileNameEnd)

-- Makes an empty file under the first name that is free. Every name tried is counted.
def makeFile (settings : Settings) : Nat → Host → EStateM.Result Failure Host Location
  | 0, host => .error (.argsFile "[Errno 17] No usable temporary file name found".toList) host
  | left + 1, host =>
    let path := host.newPath settings
    let tried := { host with attempts := host.attempts + 1 }
    if path.contains '\x00' then .error .zeroInArgument tried
    else match host.disk.vacancy path with
      | .ok location => .ok location { tried with disk := host.disk.write location [] }
      | .error .exists_ => makeFile settings left tried
      | .error e => .error (.argsFile (e.message path)) tried

def newFile (settings : Settings) : EStateM Failure Host Location := makeFile settings maxAttempts

end Host
end PortableActions
