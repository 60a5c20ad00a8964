import PortableActions.Text
-- POSIX paths as text. `normal` is the spelling a path object prints: empty and "."
-- components go, ".." stays. `lexical` also resolves ".." without looking at any disk.
namespace PortableActions.Path.Posix

-- Exactly two leading slashes are a root of their own; any other number is the usual one.
def root : Text → Text
  | '/' :: '/' :: '/' :: _ => ['/']
  | '/' :: '/' :: _ => ['/', '/']
  | '/' :: _ => ['/']
  | _ => []

def isAbsolute (path : Text) : Bool := Text.startsWith ['/'] path

-- Components, with "" and "." left out.
def components (path : Text) : List Text :=
  (Text.splitOn '/' path).filter fun part => part ≠ [] ∧ part ≠ ['.']

def print (root : Text) (parts : List Text) : Text :=
  match root ++ Text.join ['/'] parts with
  | [] => ['.']
  | path => path

def normal (path : Text) : Text := print (root path) (components path)

-- One component read after the ones before it, latest first.
def climb (rooted : Bool) (before : List Text) (part : Text) : List Text :=
  if part = ['.', '.'] then
    match before with
    | [] => if rooted then [] else [part]
    | last :: earlier => if last = ['.', '.'] then part :: before else earlier
  else part :: before

def lexical (path : Text) : Text :=
  let rooted := isAbsolute path
  print (root path) ((components path).foldl (climb rooted) []).reverse

-- A second path read from a first one; an absolute second path stands alone.
def append (base path : Text) : Text :=
  if isAbsolute path then path
  else if base.isEmpty || Text.endsWith ['/'] base then base ++ path
  else base ++ ['/'] ++ path

end PortableActions.Path.Posix
