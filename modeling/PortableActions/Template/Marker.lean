import PortableActions.Text.Scan
-- The portable markers of a template: the classpath, rooted paths in braces, four
-- one-character markers, and args constructs. Patterns say where a marker is replaced;
-- detection says whether a template was written with markers in the first place.
namespace PortableActions.Template.Marker

def deps : Text := ['{', '{', 'd', 'e', 'p', 's', '}', '}']

-- A closing bracket inside an args construct, and the control character that stands in
-- for it while constructs are looked for.
def escapedBracket : Text := ['{', ']', '}']

def standIn : Char := '\x07'

def fileSeparator : Text := ['{', '/', '}']

def pathSeparator : Text := ['{', ':', '}']

def home : Text := ['{', '~', '}']

def commandSeparator : Text := ['{', ';', '}']

-- The text up to a closing character, if that comes.
def upTo? (close : Char) (t : Text) : Option Text :=
  let held := t.takeWhile (· ≠ close)
  if held.length < t.length then some held else none

def isRoot (c : Char) : Bool := c = '.' || c = '~'

-- A path in braces that starts with "./" or "~/" and goes on to the first closing brace.
def bracedPath : Text.Pattern
  | '{' :: root :: '/' :: r =>
    if isRoot root then (upTo? '}' r).map fun held => ⟨root :: '/' :: held, held.length + 4⟩
    else none
  | _ => none

-- "@[" and all up to the first closing bracket.
def argsConstruct : Text.Pattern
  | '@' :: '[' :: r => (upTo? ']' r).map fun held => ⟨held, held.length + 3⟩
  | _ => none

def protect (t : Text) : Text := Text.replaceAll escapedBracket [standIn] t

def unprotect (t : Text) : Text := Text.replaceAll [standIn] escapedBracket t

-- Detection looks for the closing character on the same line only.
def closesOnLine (close : Char) (t : Text) : Bool := (t.takeWhile (· ≠ '\n')).contains close

def isSymbol (c : Char) : Bool := c = '/' || c = ':' || c = ';' || c = '~'

def startsMarker : Text → Bool
  | '{' :: c :: '}' :: _ => isSymbol c
  | '{' :: root :: '/' :: r => isRoot root && closesOnLine '}' r
  | '@' :: '[' :: r => closesOnLine ']' r
  | _ => false

def somewhere (test : Text → Bool) : Text → Bool
  | [] => false
  | c :: r => test (c :: r) || somewhere test r

-- Whether any marker but the classpath is used.
def isUsedIn (template : Text) : Bool := somewhere startsMarker (protect template)

end PortableActions.Template.Marker
