import PortableActions.Text
-- Shell patterns: "*", "?" and bracket expressions. A backslash takes the meaning from
-- the character after it.
namespace PortableActions.Shell.Pattern

def isPrintable (c : Char) : Bool := ' ' ≤ c && c ≤ '~'

-- Named classes of characters; bytes above ASCII are in none of them.
def classes : List (String × (Char → Bool)) :=
  [("alnum", Char.isAlphanum), ("alpha", Char.isAlpha), ("blank", fun c => c = ' ' || c = '\t'),
    ("cntrl", fun c => c.toNat < 32 || c.toNat = 127), ("digit", Char.isDigit),
    ("graph", fun c => isPrintable c && c ≠ ' '), ("lower", Char.isLower), ("print", isPrintable),
    ("punct", fun c => isPrintable c && c ≠ ' ' && !c.isAlphanum),
    ("space", fun c => c = ' ' || ('\t' ≤ c && c ≤ '\r')), ("upper", Char.isUpper),
    ("xdigit", fun c => c.isDigit || "abcdefABCDEF".toList.contains c)]

-- A class inside a bracket expression, after its opening bracket.
def class? (p : Text) : Option ((Char → Bool) × Text) :=
  (classes.find? fun entry => Text.startsWith ([':'] ++ entry.1.toList ++ ":]".toList) p).map fun entry =>
    (entry.2, p.drop (entry.1.length + 3))

-- The character that one place of a bracket expression stands for.
def member? (p : Text) : Option (Char × Text) :=
  match p with
  | '\\' :: c :: r => some (c, r)
  | c :: r => some (c, r)
  | [] => none

-- A single member or a range at the front: whether it holds the character.
def rangeHolds? (c : Char) (p : Text) : Option (Bool × Text) :=
  match member? p with
  | none => none
  | some (low, '-' :: rest) =>
    if rest.head? = some ']' then some (low = c, '-' :: rest)
    else match member? rest with
      | some (high, rest) => some (low ≤ c && c ≤ high, rest)
      | none => none
  | some (d, rest) => some (d = c, rest)

def holds? (c : Char) (p : Text) : Option (Bool × Text) :=
  match p with
  | '[' :: r =>
    match class? r with
    | some (inClass, rest) => some (inClass c, rest)
    | none => rangeHolds? c p
  | _ => rangeHolds? c p

-- Members up to the closing bracket: whether one of them holds the character, and the
-- pattern after it. The first member may be a closing bracket itself.
def membersHold? (c : Char) : Nat → Text → Option (Bool × Text)
  | 0, _ => none
  | fuel + 1, p =>
    match holds? c p with
    | none => none
    | some (found, ']' :: rest) => some (found, rest)
    | some (found, rest) => (membersHold? c fuel rest).map fun after => (found || after.1, after.2)

-- A bracket expression after its opening bracket; none if it is not closed.
def bracket? (c : Char) (p : Text) : Option (Bool × Text) :=
  match p with
  | '!' :: r => (membersHold? c (r.length + 1) r).map fun found => (!found.1, found.2)
  | _ => membersHold? c (p.length + 1) p

-- Pattern characters are taken one by one; a star tries every way to go on.
def matchesIn : Nat → Text → Text → Bool
  | 0, _, _ => false
  | _ + 1, [], t => t.isEmpty
  | fuel + 1, '*' :: p, t =>
    matchesIn fuel p t || match t with
      | [] => false
      | _ :: r => matchesIn fuel ('*' :: p) r
  | _ + 1, _ :: _, [] => false
  | fuel + 1, '?' :: p, _ :: r => matchesIn fuel p r
  | fuel + 1, '\\' :: d :: p, c :: r => d = c && matchesIn fuel p r
  | fuel + 1, '[' :: p, c :: r =>
    match bracket? c p with
    | some (found, rest) => found && matchesIn fuel rest r
    | none => c = '[' && matchesIn fuel p r
  | fuel + 1, d :: p, c :: r => d = c && matchesIn fuel p r

-- Whether a pattern matches the whole of a text.
def accepts (p t : Text) : Bool := matchesIn (p.length + t.length + 1) p t

-- Whether a character other than itself may be meant somewhere.
def isActive : Text → Bool
  | [] => false
  | '\\' :: _ :: r => isActive r
  | c :: r => c = '*' || c = '?' || (c = '[' && r.contains ']') || isActive r

-- The text that a pattern without active characters stands for.
def plain : Text → Text
  | '\\' :: c :: r => c :: plain r
  | c :: r => c :: plain r
  | [] => []

end PortableActions.Shell.Pattern
