import PortableActions.Shell.Arithmetic
import PortableActions.Shell.Expansion.Field
-- From words to fields: values and outputs in the place of substitutions, fields cut at
-- separators, and names that match a pattern. How a command substitution is run is a
-- parameter.
namespace PortableActions.Shell.Expansion

-- How a word is expanded: whether fields are cut in the end, whether all of it stands in
-- quotes, whether it takes the place of a value, and whether a "~" counts after a colon.
structure Manner where
  isFull : Bool
  isQuoted : Bool
  isOperand : Bool
  colons : Bool
  deriving DecidableEq, Repr

def Manner.plain : Manner := ⟨false, false, false, false⟩

-- Home directories of the users of the host.
def homes : List (String × String) :=
  [("root", "/root"), ("daemon", "/usr/sbin"), ("bin", "/bin"), ("sys", "/dev"), ("sync", "/bin"),
    ("games", "/usr/games"), ("man", "/var/cache/man"), ("lp", "/var/spool/lpd"), ("mail", "/var/mail"),
    ("news", "/var/spool/news"), ("uucp", "/var/spool/uucp"), ("proxy", "/bin"), ("www-data", "/var/www"),
    ("backup", "/var/backups"), ("list", "/var/list"), ("irc", "/run/ircd"), ("_apt", "/nonexistent"),
    ("nobody", "/nonexistent")]

def home? (s : State) (user : Text) : Option Text :=
  if user = [] then s.value? "HOME".toList
  else (homes.find? fun entry => entry.1.toList = user).map fun entry => entry.2.toList

-- A home directory at the front of a text that starts with "~", and the text after it. The
-- name of the user has to end with the word, at a slash, or at a colon that counts.
def tilde? (s : State) (colons isLast : Bool) (t : Text) : Option (Text × Text) :=
  let ends := fun (c : Char) => c = '/' || (colons && c = ':')
  let user := t.tail.takeWhile fun c => !ends c
  let rest := t.tail.dropWhile fun c => !ends c
  if rest = [] && !isLast then none else (home? s user).map fun home => (home, rest)

-- Written text with home directories put in.
def spread (s : State) (colons isLast : Bool) (cutting : Cutting) : Nat → Bool → Text → List Piece
  | 0, _, _ => []
  | fuel + 1, tildeHere, t =>
    if t = [] then []
    else
      let onward :=
        let (front, rest) := if colons then (t.takeWhile (· ≠ ':'), t.dropWhile (· ≠ ':')) else (t, [])
        ⟨cutting, cellsOf false (front ++ rest.take 1)⟩ :: spread s colons isLast cutting fuel true (rest.drop 1)
      match (if tildeHere && t.head? = some '~' then tilde? s colons isLast t else none) with
      | some (home, rest) => ⟨.whole, cellsOf true home⟩ :: spread s colons isLast cutting fuel false rest
      | none => onward

-- What stands between two arguments where all of them are told. Where fields will be cut
-- it is a zero byte; elsewhere the first separator, or nothing if there is none.
def argumentSeparator (s : State) (isFull isQuoted isList : Bool) : Option Char :=
  if isFull && isQuoted && isList then some '\x00'
  else match s.separators? with
    | none => some ' '
    | some separators => if isFull && !isQuoted then some '\x00' else separators.head?

def arguments (s : State) (separator : Option Char) (quoted : Bool) : List Cell :=
  match s.params with
  | [] => []
  | first :: rest => cellsOf quoted first ++ rest.flatMap fun param => cellsOf quoted (separator.toList ++ param)

-- Whether something is left out of the text: only its place is asked for.
def isHidden : Change → Bool
  | .length | .instead => true
  | _ => false

def valueOf (s : State) (m : Manner) (quoted : Bool) (name : Text) (change : Change) : Option (List Cell) :=
  if name = ['@'] || name = ['*'] then
    let separator := argumentSeparator s (m.isFull && !isHidden change) quoted (name = ['@'])
    some (arguments s separator quoted)
  else (s.parameter? name).map (cellsOf quoted)

def isZero (cell : Cell) : Bool := cell.char? = some '\x00'

-- A text ends at its first zero byte where a pattern is held against it.
def upToZero (cells : List Cell) : Text := textOfCells (cells.takeWhile fun cell => !isZero cell)

-- What is left after the part that matches at one end is taken away. The shortest end and
-- the longest start are looked for from the end, the others from the start up to the
-- first zero byte.
def trim (pattern : Text) (atStart longest : Bool) (cells : List Cell) : List Cell :=
  let places := if atStart = longest then (List.range (cells.length + 1)).reverse
    else List.range ((cells.takeWhile fun cell => !isZero cell).length + 1)
  let part := fun n => if atStart then upToZero (cells.take n) else upToZero (cells.drop n)
  match places.find? fun n => Pattern.accepts pattern (part n) with
  | some n => if atStart then cells.drop n else cells.take n
  | none => cells

def cuttingOf (s : State) (quoted : Bool) (name : Text) : Cutting :=
  if !quoted then .atSeparators
  else if name = ['@'] && !s.params.isEmpty then .betweenArguments
  else .whole

def unset {α : Type} (name : Text) (colon : Bool) : Expand α :=
  Expand.fail (name ++ ": parameter not set".toList ++ (if colon then " or null".toList else []))

-- The value of a parameter after a change. The operand is expanded only when it is needed:
-- once in the place of the value, or by itself.
def parameter (m : Manner) (quoted : Bool) (name : Text) (change : Change) (colon hasOperand : Bool)
    (inPlace alone : Expand (List Piece)) : Expand (List Piece) := do
  let s ← get
  let value := valueOf s m quoted name change
  let cells := value.getD []
  let isSet := value.isSome && !(colon && cells.isEmpty)
  let shown := fun (s : State) (cells : List Cell) => [Piece.mk (cuttingOf s quoted name) cells]
  match change with
  | .unknown => Expand.fail "Bad substitution".toList
  | .instead => if isSet then inPlace else pure []
  | .otherwise => if isSet then pure (shown s cells) else inPlace
  | .assigned =>
    if isSet then pure (shown s cells)
    else
      Expand.assign name (textOf (← alone))
      let s ← get
      pure (shown s ((valueOf s m quoted name change).getD []))
  | .required =>
    if isSet then pure (shown s cells)
    else if hasOperand then Expand.fail (name ++ ": ".toList ++ textOf (← alone))
    else unset name colon
  | .asIs =>
    if isSet then pure (shown s cells)
    else if s.isOn 'u' then unset name false
    else pure []
  | .length =>
    if hasOperand then Expand.fail "Bad substitution".toList
    else if !isSet && s.isOn 'u' then unset name false
    else pure (shown s (cellsOf quoted (Text.ofNat cells.length)))
  | .trimmed atStart longest =>
    if isSet then
      let pattern := patternOf (← alone)
      pure (shown s (trim pattern atStart longest cells))
    else if s.isOn 'u' then unset name false
    else pure []

def computed (quoted : Bool) (t : Text) : Piece := ⟨if quoted then .whole else .atSeparators, cellsOf quoted t⟩

-- The parts of a word. The flags say whether they stand between quotation marks, and
-- whether a "~" may come first.
def parts (capture : Capture) : Word → Manner → Bool → Bool → Expand (List Piece)
  | [], _, _, _ => pure []
  | .plain t :: rest, m, inQuotes, tildeHere => do
    let s ← get
    let cutting := if m.isOperand && !m.isQuoted && !inQuotes then .atSeparators else .whole
    let front := spread s m.colons rest.isEmpty cutting (2 * t.length + 2) tildeHere t
    let back ← parts capture rest m inQuotes false
    pure (front ++ back)
  | .quoted t :: rest, m, inQuotes, _ => do
    let back ← parts capture rest m inQuotes false
    pure (⟨.whole, cellsOf true t⟩ :: back)
  | .mark :: rest, m, inQuotes, _ => do
    let back ← parts capture rest m (!inQuotes) false
    pure (⟨.whole, [.mark]⟩ :: back)
  | .arguments :: rest, m, inQuotes, _ => do
    let front ← parameter m true ['@'] .asIs false false (pure []) (pure [])
    let back ← parts capture rest m inQuotes false
    pure (front ++ back)
  | .arithmetic expression :: rest, m, inQuotes, _ => do
    let inner ← parts capture expression .plain false false
    let n ← Arithmetic.evaluate (textOf inner)
    let back ← parts capture rest m inQuotes false
    pure (computed (m.isQuoted || inQuotes) (Text.ofInt n) :: back)
  | .output script :: rest, m, inQuotes, _ => do
    let t ← if script.isNothing then pure [] else capture script
    let back ← parts capture rest m inQuotes false
    pure (computed (m.isQuoted || inQuotes) t :: back)
  | .parameter name change colon operand :: rest, m, inQuotes, _ => do
    let quoted := m.isQuoted || inQuotes
    let inPlace := parts capture operand { m with isQuoted := quoted, isOperand := true } false true
    let alone := parts capture operand .plain false true
    let front ← parameter m quoted name change colon (!operand.isEmpty) inPlace alone
    if change = .asIs && colon then
      let ending ← parts capture operand m inQuotes false
      pure (front ++ ending)
    else
      let back ← parts capture rest m inQuotes false
      pure (front ++ back)

-- The expansion as one text, as in redirections and subjects.
def single (capture : Capture) (w : Word) : Expand Text := do
  pure (textOf (← parts capture w .plain false true))

-- The value of an assignment: a home directory may also stand after a colon.
def value (capture : Capture) (w : Word) : Expand Text := do
  pure (textOf (← parts capture w { Manner.plain with colons := true } false true))

def pattern (capture : Capture) (w : Word) : Expand Text := do
  pure (patternOf (← parts capture w .plain false true))

-- The text of a here-document.
def document (capture : Capture) (w : Word) : Expand Text := do
  pure (textOf (← parts capture w { Manner.plain with isQuoted := true } false false))

def fields (capture : Capture) (w : Word) : Expand (List Text) := do
  let pieces ← parts capture w { Manner.plain with isFull := true } false true
  let s ← get
  pure ((fieldsOf (s.separators?.getD [' ', '\t', '\n']) none pieces).flatMap (namesOf s))

def allFields (capture : Capture) : List Word → Expand (List Text)
  | [] => pure []
  | w :: rest => do
    let front ← fields capture w
    let back ← allFields capture rest
    pure (front ++ back)

end PortableActions.Shell.Expansion
