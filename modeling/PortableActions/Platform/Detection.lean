import PortableActions.Path.Posix
import PortableActions.Platform
-- The platform of the running host, from its system name and home directory. The first
-- answer is kept until it is dropped; an answer that fails is not kept.
namespace PortableActions.Platform

structure HostNames where
  system : Text
  home : Text
  deriving DecidableEq, Repr

def isWindowsName (system : Text) : Bool := Text.startsWith ['w', 'i', 'n'] (Text.lower system)

-- The home directory loses trailing slashes. A name that still starts with "~" stands
-- for no directory.
def homeOf? (home : Text) : Option Text :=
  let bare := (home.reverse.dropWhile (· = '/')).reverse
  let directory := if bare.isEmpty then ['/'] else bare
  if Text.startsWith ['~'] directory then none else some (Path.Posix.normal directory)

def ofHost? (host : HostNames) : Option Platform :=
  (homeOf? host.home).map (if isWindowsName host.system then windows else posix)

-- The answer for a host, and what is kept of it.
def detect (kept : Option Platform) (host : HostNames) : Option Platform × Option Platform :=
  match kept with
  | some platform => (some platform, some platform)
  | none => (ofHost? host, ofHost? host)

end PortableActions.Platform
