import PortableActions.Shell.Pattern
import PortableActions.Shell.State
-- What an expansion yields, and how it is cut into fields and matched with names.
namespace PortableActions.Shell.Expansion

-- A character, quoted or not, or a quotation mark that was there.
inductive Cell where
  | char (c : Char) (quoted : Bool)
  | mark
  deriving DecidableEq, Repr

-- Text that was written stays whole. A value is cut at separators, and the list of all
-- arguments in quotes between its arguments, where a zero byte stands.
inductive Cutting where
  | whole
  | atSeparators
  | betweenArguments
  deriving DecidableEq, Repr

structure Piece where
  cutting : Cutting
  cells : List Cell
  deriving DecidableEq, Repr

def Cell.char? : Cell → Option Char
  | .char c _ => some c
  | .mark => none

def cellsOf (quoted : Bool) (t : Text) : List Cell := t.map fun c => .char c quoted

def textOfCells (cells : List Cell) : Text := cells.filterMap Cell.char?

def textOf (pieces : List Piece) : Text := pieces.flatMap fun piece => textOfCells piece.cells

-- A pattern takes the meaning from quoted characters. A backslash in a value does the same
-- to the character after it.
def patternOfCells : Bool → List Cell → Text
  | _, [] => []
  | _, .mark :: rest => patternOfCells true rest
  | bare, .char c quoted :: rest =>
    if c = '\\' && !quoted then c :: patternOfCells false rest
    else if quoted && bare then '\\' :: c :: patternOfCells true rest
    else c :: patternOfCells true rest

def patternOf (pieces : List Piece) : Text := patternOfCells true (pieces.flatMap Piece.cells)

-- Fields while they are cut, latest first: those that are complete, the one that is open,
-- whether a blank has just ended a field, whether the latest value was a list of
-- arguments, and the one before it. There may be a limit to the number of fields: the last
-- one then goes on, and `kept` is what it is if nothing but its end follows.
structure Cut where
  complete : List (List Cell)
  current : List Cell
  afterBlank : Bool
  isList : Bool
  afterList : Bool
  limit : Option Nat
  kept : Option (List Cell)

def isBlankSeparator (c : Char) : Bool := c = ' ' || c = '\t' || c = '\n' || c = '\x00'

-- A character of the last field. Blanks at its end do not count, and one other separator
-- among them does not either.
def Cut.takeLast (cut : Cut) (separates blank : Bool) (cell : Cell) : Cut :=
  if blank then { cut with current := cell :: cut.current, kept := some (cut.kept.getD cut.current) }
  else { cut with
    current := cell :: cut.current
    kept := if separates && cut.afterBlank then cut.kept else none
    afterBlank := false }

def Cut.take (separators : Text) (cut : Cut) (cell : Cell) : Cut :=
  let c := (cell.char?).getD ' '
  let separates := c = '\x00' || (!cut.isList && separators.contains c)
  let blank := separates && isBlankSeparator c
  if cut.limit = some 0 then cut.takeLast separates blank cell
  else if cut.afterBlank && blank then cut
  else if cut.afterBlank && separates then { cut with afterBlank := false }
  else if separates then
    let afterBlank := blank && !cut.isList && !cut.afterList
    if cut.current.isEmpty && afterBlank then { cut with afterBlank := false }
    else if cut.limit = some 1 then
      { cut with current := cell :: cut.current, kept := some cut.current, afterBlank := afterBlank, limit := some 0 }
    else { cut with
      complete := cut.current :: cut.complete
      current := []
      afterBlank := afterBlank
      limit := cut.limit.map (· - 1) }
  else { cut with current := cell :: cut.current, afterBlank := false }

def Cut.takePiece (separators : Text) (cut : Cut) (piece : Piece) : Cut :=
  match piece.cutting with
  | .whole => { cut with current := piece.cells.reverse ++ cut.current }
  | cutting =>
    let isList := cutting = .betweenArguments
    piece.cells.foldl (Cut.take separators) { cut with afterBlank := false, isList := isList, afterList := cut.isList }

-- The fields of an expansion. What is left at the end is a field if something is there, or
-- if it is the last of a list of arguments.
def fieldsOf (separators : Text) (limit : Option Nat) (pieces : List Piece) : List (List Cell) :=
  let cut := pieces.foldl (Cut.takePiece separators) ⟨[], [], false, false, false, limit, none⟩
  let last := (cut.kept.getD cut.current).reverse
  (cut.complete.reverse.map List.reverse) ++ (if cut.isList || !last.isEmpty then [last] else [])

-- The names in a directory that a pattern component may stand for. Names that start with a
-- dot have to be asked for.
def namesIn (s : State) (directory component : Text) : List Text :=
  match s.disk.find (s.absolute (if directory = [] then ['.'] else directory)) with
  | .ok (location, .directory) =>
    let entries := s.disk.entries.filterMap fun entry =>
      if location.isPrefixOf entry.1 && entry.1.length = location.length + 1 then entry.1.getLast?.map Octets.ofText
      else none
    let asksForDot := component.head? = some '.' || Text.startsWith ['\\', '.'] component
    ([['.'], ['.', '.']] ++ entries).filter fun name =>
      (asksForDot || name.head? ≠ some '.') && Pattern.accepts component name
  | _ => []

-- The paths that the components of a pattern stand for, from a directory on.
def matching (s : State) : Text → List Text → List Text
  | _, [] => []
  | directory, [component] =>
    if Pattern.isActive component then (namesIn s directory component).map (directory ++ ·)
    else
      let path := directory ++ Pattern.plain component
      if (s.disk.find (s.absolute path)).isOk then [path] else []
  | directory, component :: next :: rest =>
    if Pattern.isActive component then
      (namesIn s directory component).flatMap fun name => matching s (directory ++ name ++ ['/']) (next :: rest)
    else matching s (directory ++ Pattern.plain component ++ ['/']) (next :: rest)

-- A field as the names that it matches, in order; if there are none, as it stands.
def namesOf (s : State) (field : List Cell) : List Text :=
  let pattern := patternOfCells true field
  if s.isOn 'f' || !Pattern.isActive pattern then [textOfCells field]
  else match matching s [] (Text.splitOn '/' pattern) with
    | [] => [textOfCells field]
    | found => found.mergeSort Text.atMost

end PortableActions.Shell.Expansion
