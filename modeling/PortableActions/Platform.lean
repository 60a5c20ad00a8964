import PortableActions.Path.Windows
-- What a command line is rendered for: the kind of host shell, the separators, the home
-- directory, and the length above which long arguments move into files.
namespace PortableActions

inductive Family where
  | posix
  | windows
  deriving DecidableEq, Repr

structure Platform where
  family : Family
  fileSeparator : Text
  pathSeparator : Text
  home : Text
  argsThreshold : Int
  deriving DecidableEq, Repr

namespace Platform

def posix (home : Text) : Platform := ⟨.posix, ['/'], [':'], home, 32000⟩

def windows (home : Text) : Platform := ⟨.windows, ['\\'], [';'], home, 8000⟩

def isWindows (p : Platform) : Bool := p.family == .windows

-- What ends a statement in the host shell.
def commandSeparator (p : Platform) : Text := if p.isWindows then ['&'] else [';']

-- POSIX shells expand "~" themselves.
def homeMarker (p : Platform) : Text := if p.isWindows then p.home else ['~']

-- The argument vector that hands a command line to the host shell.
def shellCommand (p : Platform) (command : Text) : List Text :=
  if p.isWindows then ["cmd.exe".toList, "/c".toList, command]
  else ["/bin/sh".toList, "-c".toList, command]

-- One path that starts with "./" or "~/", as the platform writes it.
def nativePath (p : Platform) (path : Text) : Text :=
  if p.isWindows then
    match path with
    | '~' :: '/' :: rest => ((Path.Windows.parse p.home).append (Path.Windows.parse rest)).print
    | _ => Path.Windows.normal path
  else path

end Platform
end PortableActions
