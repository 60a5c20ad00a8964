import PortableActions.Text
-- Windows paths: a drive (a letter and a colon, or a share), whether the path is rooted
-- there, and components. Both slashes separate; backslashes are printed.
namespace PortableActions.Path

structure Windows where
  drive : Text
  rooted : Bool
  parts : List Text
  deriving DecidableEq, Repr

namespace Windows

def backslashed (path : Text) : Text := path.map fun c => if c = '/' then '\\' else c

def isDriveLetter (c : Char) : Bool := c.isAlpha

-- The extended-length mark `\\?\`, with `UNC` after it if that names a share, is kept as
-- written in front of the drive and the rest is read as if it stood alone.
def splitExtended : Text → Text × Text
  | '\\' :: '\\' :: '?' :: '\\' :: 'U' :: 'N' :: 'C' :: '\\' :: r =>
    (['\\', '\\', '?', '\\', 'U', 'N', 'C'], '\\' :: '\\' :: r)
  | '\\' :: '\\' :: '?' :: '\\' :: r => (['\\', '\\', '?', '\\'], r)
  | path => ([], path)

-- The server and share of a path that starts with exactly two backslashes, and the rest
-- after the backslash that ends the share. A share has no empty name before its end.
def splitShare? : Text → Option (Text × Text)
  | '\\' :: '\\' :: r =>
    if r.head? = some '\\' then none
    else
      let server := r.takeWhile (· ≠ '\\')
      match r.dropWhile (· ≠ '\\') with
      | [] => none
      | _ :: after =>
        if after.head? = some '\\' then none
        else
          let share := after.takeWhile (· ≠ '\\')
          some (['\\', '\\'] ++ server ++ ['\\'] ++ share, (after.dropWhile (· ≠ '\\')).drop 1)
  | _ => none

def splitDrive : Text → Text × Text
  | c :: ':' :: r => if isDriveLetter c then ([c, ':'], r) else ([], c :: ':' :: r)
  | path => ([], path)

-- Drive, rootedness and what is left of a path written with backslashes.
def splitAnchor (path : Text) : Text × Bool × Text :=
  let (mark, path) := splitExtended path
  match splitShare? path with
  | some (share, rest) => (mark ++ (if mark.isEmpty then share else share.drop 1), true, rest)
  | none =>
    let (drive, rest) := splitDrive path
    if rest.head? = some '\\' then (mark ++ drive, true, rest.dropWhile (· = '\\'))
    else (mark ++ drive, false, rest)

def components (path : Text) : List Text :=
  (Text.splitOn '\\' path).filter fun part => part ≠ [] ∧ part ≠ ['.']

def parse (path : Text) : Windows :=
  let (drive, rooted, rest) := splitAnchor (backslashed path)
  ⟨drive, rooted, components rest⟩

-- A path with a drive replaces the one before it, one with only a root keeps the drive
-- before it, and any other continues it.
def append (base path : Windows) : Windows :=
  if path.drive ≠ [] then path
  else if path.rooted then ⟨base.drive, true, path.parts⟩
  else ⟨base.drive, base.rooted, base.parts ++ path.parts⟩

def anchor (path : Windows) : Text := path.drive ++ (if path.rooted then ['\\'] else [])

def print (path : Windows) : Text :=
  match path.anchor ++ Text.join ['\\'] path.parts with
  | [] => ['.']
  | text => text

-- The last component; empty for a path that is only an anchor.
def name (path : Windows) : Text := path.parts.getLast?.getD []

def normal (path : Text) : Text := (parse path).print

end Windows
end PortableActions.Path
