import PortableActions.Shell.Pattern
import PortableActions.Shell.Tool.Show
-- The program that lists directories: one name on a line, in columns, or between commas.
namespace PortableActions.Shell.Tool

def namesBelow (s : State) (location : Location) : List Text :=
  let found := s.disk.entries.filterMap fun entry =>
    if location.isPrefixOf entry.1 && entry.1.length = location.length + 1 then entry.1.getLast?.map Octets.ofText else none
  found.mergeSort Text.atMost

inductive Layout where
  | lines
  | down
  | across
  | commas
  deriving DecidableEq

-- What is listed, in what order and form.
structure Listing where
  hidden : Bool
  dots : Bool
  itself : Bool
  below : Bool
  reversed : Bool
  bySize : Bool
  unsorted : Bool
  marksDirectories : Bool
  marksPrograms : Bool
  quoted : Bool
  skipped : List Text
  layout : Layout
  width : Nat

def Listing.take (how : Listing) (option : Char × Text) : Listing :=
  match option.1 with
  | 'a' => { how with hidden := true, dots := true }
  | 'A' => { how with hidden := true, dots := false }
  | 'f' => { how with hidden := true, dots := true, unsorted := true }
  | 'd' => { how with itself := true }
  | 'R' => { how with below := true }
  | 'r' => { how with reversed := true }
  | 'S' => { how with bySize := true }
  | 'U' => { how with unsorted := true }
  | 'p' => { how with marksDirectories := true }
  | 'F' => { how with marksDirectories := true, marksPrograms := true }
  | 'Q' => { how with quoted := true }
  | 'N' => { how with quoted := false }
  | 'I' => { how with skipped := option.2 :: how.skipped }
  | 'B' => { how with skipped := ['*', '~'] :: ['.', '*', '~'] :: how.skipped }
  | '1' => if how.layout = .lines then how else { how with layout := .lines }
  | 'l' | 'g' | 'n' | 'o' => { how with layout := .lines }
  | 'C' => { how with layout := .down }
  | 'x' => { how with layout := .across }
  | 'm' => { how with layout := .commas }
  | 'w' => { how with width := Numeral.number (option.2.takeWhile Char.isDigit) }
  | _ => how

def plainListing : Listing :=
  ⟨false, false, false, false, false, false, false, false, false, false, [], .lines, 80⟩

-- A name with the sign of its kind, if signs are asked for.
def Listing.name (how : Listing) (s : State) (location : Location) (name : Text) : Text :=
  let shown := if how.quoted then ['"'] ++ name.flatMap (fun c => if c = '"' || c = '\\' then ['\\', c] else [c]) ++ ['"'] else name
  match s.disk.lookup location with
  | some (.file _) => if how.marksPrograms && s.executables.contains location then shown ++ ['*'] else shown
  | _ => if how.marksDirectories then shown ++ ['/'] else shown

-- Names with where they lead, in the order that is asked for.
def Listing.ordered (how : Listing) (s : State) (names : List (Text × Location)) : List (Text × Location) :=
  let size := fun (location : Location) => match s.disk.lookup location with
    | some (.file bytes) => bytes.length
    | _ => 4096
  let sorted := if how.unsorted then names else names.mergeSort fun a b => Text.atMost a.1 b.1
  let sorted := if how.bySize then sorted.mergeSort fun a b => decide (size b.2 ≤ size a.2) else sorted
  if how.reversed && !how.unsorted then sorted.reverse else sorted

def Listing.shows (how : Listing) (name : Text) : Bool :=
  (how.hidden || name.head? ≠ some '.') && !how.skipped.any fun pattern => Pattern.accepts pattern name

def Listing.entries (how : Listing) (s : State) (location : Location) : List (Text × Location) :=
  let found := ((namesBelow s location).filter how.shows).map fun name => (name, location ++ [Octets.toText name])
  let dots := if how.dots then [(['.'], location), (['.', '.'], location.dropLast)] else []
  how.ordered s (dots ++ found)

-- Blanks and tabs between two places of a line.
def gap : Nat → Nat → Nat → Text
  | 0, _, _ => []
  | fuel + 1, start, stop =>
    if stop ≤ start then []
    else if (start + 1) / 8 < stop / 8 then '\t' :: gap fuel (start + 8 - start % 8) stop
    else ' ' :: gap fuel (start + 1) stop

def cellWidth (t : Text) : Nat := ((Octets.toText t).map cellsOf).foldl (· + ·) 0

-- How wide the columns are if there are so many of them. All but the last one end with two
-- blanks.
def columnWidths (down : Bool) (widths : List Nat) (columns : Nat) : List Nat :=
  let rows := (widths.length + columns - 1) / columns
  (List.range columns).map fun column =>
    let inside := ((List.range widths.length).zip widths).filter fun entry =>
      (if down then entry.1 / rows else entry.1 % columns) = column
    (inside.map fun entry => entry.2 + (if column + 1 = columns then 0 else 2)).foldl max 3

-- The most columns that a line has room for.
def columnsFor (down : Bool) (width : Nat) (widths : List Nat) : List Nat :=
  let most := min ((width + 2) / 3) widths.length
  let fits := ((List.range most).reverse.map fun n => columnWidths down widths (n + 1)).find? fun columns =>
    columns.length = 1 || columns.foldl (· + ·) 0 < width
  fits.getD [0]

-- A row of names, each of them brought to where its column starts.
def inColumns : Nat → List (Text × Nat) → Text
  | _, [] => ['\n']
  | _, [(name, _)] => name ++ ['\n']
  | place, (name, width) :: next :: rest =>
    name ++ gap (width + 8) (place + cellWidth name) (place + width) ++ inColumns (place + width) (next :: rest)

def table (down : Bool) (width : Nat) (names : List Text) : Text :=
  let columns := columnsFor down width (names.map cellWidth)
  let rows := (names.length + columns.length - 1) / columns.length
  (List.range rows).flatMap fun row =>
    let places := (List.range columns.length).map fun column => if down then column * rows + row else row * columns.length + column
    inColumns 0 ((places.zip columns).filterMap fun entry => (names[entry.1]?).map fun name => (name, entry.2))

def withCommas (width : Nat) : Nat → List Text → Text
  | _, [] => ['\n']
  | _, [name] => name ++ ['\n']
  | place, name :: next :: rest =>
    let place := place + cellWidth name
    if width = 0 || place + cellWidth next + 2 < width then name ++ [',', ' '] ++ withCommas width (place + 2) (next :: rest)
    else name ++ [',', '\n'] ++ withCommas width 0 (next :: rest)

def Listing.lay (how : Listing) (names : List Text) : Text :=
  if names.isEmpty then []
  else match how.layout with
    | .lines => unlines names
    | .commas => withCommas how.width 0 names
    | .down => if how.width = 0 then Text.join [' ', ' '] names ++ ['\n'] else table true how.width names
    | .across => if how.width = 0 then Text.join [' ', ' '] names ++ ['\n'] else table false how.width names

-- Directories below a directory, each with the path under which it is told.
def Listing.tree (how : Listing) (s : State) : Nat → Text × Location → List (Text × Location)
  | 0, _ => []
  | fuel + 1, (path, location) =>
    let below := ({ how with dots := false } : Listing).entries s location
    (path, location) :: below.flatMap fun entry =>
      match s.disk.lookup entry.2 with
      | some .directory => how.tree s fuel (path ++ (if path.getLast? = some '/' then [] else ['/']) ++ entry.1, entry.2)
      | _ => []

def lsGrammar : Grammar :=
  ⟨"abcdfghiklmnopqrstuvw:xABCDFGHI:LNQRST:UXZ1", [("all", 'a'), ("almost-all", 'A'), ("directory", 'd'), ("reverse", 'r'),
    ("recursive", 'R'), ("quote-name", 'Q'), ("literal", 'N'), ("ignore", 'I'), ("ignore-backups", 'B'), ("width", 'w')]⟩

def ls : Tool := withOptions "ls" lsGrammar 2 fun given s =>
  let how := given.letters.foldl Listing.take plainListing
  let operands := if given.operands.isEmpty then [['.']] else given.operands
  let found := operands.map fun name => (name, s.find name)
  let s := found.foldl (fun s entry => match entry.2 with
    | .error e => complain "ls" ("cannot access ".toList ++ Quoting.always entry.1 ++ ": ".toList ++ e.description) s
    | .ok _ => s) s
  let failed := found.any fun entry => !entry.2.isOk
  let files := found.filterMap fun entry => match entry.2 with
    | .ok (location, .file _) => some (entry.1, location)
    | .ok (location, .directory) => if how.itself then some (entry.1, location) else none
    | .error _ => none
  let directories := found.filterMap fun entry => match entry.2 with
    | .ok (location, .directory) => if how.itself then none else some (entry.1, location)
    | _ => none
  let shown := fun (entries : List (Text × Location)) =>
    how.lay (entries.map fun entry => how.name s entry.2 entry.1)
  let directories := how.ordered s directories
  let directories := if how.below then directories.flatMap (how.tree s 64) else directories
  let headed := 1 < operands.length || how.below
  let sections := directories.map fun entry =>
    (if headed then entry.1 ++ ":\n".toList else []) ++ shown (how.entries s entry.2)
  let sections := if files.isEmpty then sections else shown (how.ordered s files) :: sections
  (print (Text.join ['\n'] sections) s, if failed then 2 else 0)

end PortableActions.Shell.Tool
