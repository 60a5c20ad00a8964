import PortableActions.Shell.Numeral
import PortableActions.Shell.Tool.Basic
import PortableActions.Text.Blank
import PortableActions.Text.Printable
-- Programs that show files: whole, by their first or last lines, turned round, or counted.
namespace PortableActions.Shell.Tool

def padded (width : Nat) (t : Text) : Text := List.replicate (width - t.length) ' ' ++ t

-- Complaints of a program by its name, for files that cannot be read.
def refuse (tool : String) (explain : Text → Errno → Text) (name : Text) (e : Errno) (s : State) : State :=
  complain tool (explain name e) s

-- A byte as it is shown if it cannot be printed.
def visible (tabs : Bool) (c : Char) : Text :=
  let n := c.toNat
  if c = '\n' then ['\n']
  else if c = '\t' then (if tabs then ['^', 'I'] else ['\t'])
  else if n < 32 then ['^', Char.ofNat (n + 64)]
  else if n = 127 then ['^', '?']
  else if n < 127 then [c]
  else
    let low := n - 128
    ['M', '-'] ++ (if low < 32 then ['^', Char.ofNat (low + 64)] else if low = 127 then ['^', '?'] else [Char.ofNat low])

-- How `cat` shows lines; the number of the next line and whether the one before was empty
-- go on from file to file.
structure Showing where
  numbers : Bool
  numbersFilled : Bool
  squeezes : Bool
  ends : Bool
  tabs : Bool
  marks : Bool

def Showing.isPlain (how : Showing) : Bool :=
  !(how.numbers || how.numbersFilled || how.squeezes || how.ends || how.tabs || how.marks)

structure Place where
  number : Nat
  blanks : Nat
  atStart : Bool

def showLine (how : Showing) (place : Place) (line : Text) : Text × Place :=
  let isBlank := place.atStart && line = ['\n']
  let blanks := if isBlank then place.blanks + 1 else 0
  if how.squeezes && 1 < blanks then ([], { place with blanks := blanks })
  else
    let numbered := place.atStart && (if how.numbersFilled then !isBlank else how.numbers)
    let lead := if numbered then padded 6 (Text.ofNat place.number) ++ ['\t'] else []
    let ended := line.getLast? = some '\n'
    let body := if ended then line.dropLast else line
    let body := if how.marks then body.flatMap (visible how.tabs)
      else if how.tabs then body.flatMap fun c => if c = '\t' then ['^', 'I'] else [c]
      else body
    let ending := if !ended then [] else if how.ends then ['$', '\n'] else ['\n']
    (lead ++ body ++ ending, ⟨if numbered then place.number + 1 else place.number, blanks, ended⟩)

def showLines (how : Showing) (place : Place) (lines : List Text) : Text × Place :=
  lines.foldl (fun (shown, place) line =>
    let (t, place) := showLine how place line
    (shown ++ t, place)) ([], place)

-- Whether a file that is not read to its end is the one that is written. The place is where
-- it is and how far it was read.
def isOutput (s : State) : Option (Location × Nat) → Bool
  | none => false
  | some (location, position) =>
    (match s.channel? 1 with
      | some (_, .file out _ _) => out = location
      | _ => false) && (s.fileText location).length > position

-- Where an operand's file is, and how far it was read.
def inputPlace (name : Text) (s : State) : Option (Location × Nat) :=
  if name = ['-'] then
    match s.channel? 0 with
    | some (_, .file location position _) => some (location, position)
    | _ => none
  else match s.find name with
    | .ok (location, .file _) => some (location, 0)
    | _ => none

def catFiles (how : Showing) : List Text → Place → State → State × Nat
  | [], _, s => (s, 0)
  | name :: rest, place, s =>
    if isOutput s (inputPlace name s) then
      ((catFiles how rest place (complain "cat" (Quoting.wherePlainFails name ++ ": input file is output file".toList) s)).1, 1)
    else match content name s with
    | (.ok t, s) =>
      let (shown, place) := if how.isPlain then (t, place) else showLines how place (linesOf t)
      catFiles how rest place (print shown s)
    | (.error e, s) => ((catFiles how rest place (refuse "cat" plainReason name e s)).1, 1)

def catGrammar : Grammar :=
  ⟨"nbsETAvetu", [("number", 'n'), ("number-nonblank", 'b'), ("squeeze-blank", 's'), ("show-ends", 'E'), ("show-tabs", 'T'),
    ("show-all", 'A'), ("show-nonprinting", 'v')]⟩

def cat : Tool := withOptions "cat" catGrammar 1 fun given s =>
  let any := fun (letters : String) => letters.toList.any given.has
  let closed := fun (result : State × Nat) =>
    if result.2 = 1 && (s.channel? 0).isNone && (orInput given.operands).contains ['-'] then
      (complain "cat" "closing standard input: Bad file descriptor".toList result.1, 1)
    else result
  if (s.channel? 1).isNone then (complain "cat" "standard output: Bad file descriptor".toList s, 1)
  else closed <| catFiles ⟨any "n", any "b", any "s", any "EAe", any "TAt", any "vAet"⟩ (orInput given.operands) ⟨1, 0, true⟩ s

-- How much of a file is shown: parts that end at a character, or bytes, and whether the
-- number counts from the other end.
structure Amount where
  number : Nat
  ofBytes : Bool
  fromOther : Bool
  stop : Char

-- A count with a letter for its size.
def scaled? (t : Text) : Option Nat :=
  let digits := t.takeWhile Char.isDigit
  if digits = [] then none
  else
    let power := fun (c : Char) => (("KMGTPEZY".toList.findIdx? (· = if c = 'k' || c = 'm' then c.toUpper else c)).map (· + 1)).getD 0
    match t.drop digits.length with
    | [] => some (Numeral.number digits)
    | ['b'] => some (Numeral.number digits * 512)
    | [c] | [c, 'i', 'B'] => if power c = 0 then none else some (Numeral.number digits * Nat.pow 1024 (power c))
    | [c, 'B'] => if power c = 0 then none else some (Numeral.number digits * Nat.pow 1000 (power c))
    | _ => none

-- What the options ask for before the files are looked at.
structure Ends where
  amount : Amount
  titles : Option Bool

def badAmount (ofBytes : Bool) (t : Text) : Text :=
  "invalid number of ".toList ++ (if ofBytes then "bytes".toList else "lines".toList) ++ ": ".toList ++ Quoting.curled t

-- Takes one option. A sign in front of a count tells from where it counts.
def Ends.take (other : Char) (how : Ends) (option : Char × Text) : Except Text Ends :=
  match option.1 with
  | 'n' | 'c' =>
    let ofBytes : Bool := option.1 = 'c'
    let fromOther : Bool := option.2.head? = some other
    let digits := if option.2.head? = some '-' then option.2.tail else option.2
    match scaled? (if digits.head? = some '+' then digits.tail else digits) with
    | some n => .ok { how with amount := { how.amount with number := n, ofBytes := ofBytes, fromOther := fromOther } }
    | none => .error (badAmount ofBytes digits)
  | 'q' => .ok { how with titles := some false }
  | 'v' => .ok { how with titles := some true }
  | 'z' => .ok { how with amount := { how.amount with stop := '\x00' } }
  | _ => .ok how

def startingEnds : Ends := ⟨⟨10, false, false, '\n'⟩, none⟩

-- The letters behind a count such as "5q".
def trailing (how : Ends) (scale : Option Char) : Text → Except Text (Ends × Option Char)
  | [] => .ok (how, scale)
  | c :: r =>
    let ofBytes := fun (b : Bool) => { how with amount := { how.amount with ofBytes := b } }
    match c with
    | 'c' => trailing (ofBytes true) none r
    | 'b' | 'k' | 'm' => trailing (ofBytes true) (some c) r
    | 'l' => trailing (ofBytes false) scale r
    | 'q' | 'v' | 'z' => match how.take ' ' (c, []) with
      | .ok how => trailing how scale r
      | .error e => .error e
    | _ => .error ("invalid trailing option -- ".toList ++ [c] ++ advice "head")

-- The form of `head` that is a dash and a count.
def leadingCount (args : List Text) : Except Text (Ends × List Text) :=
  match args with
  | ('-' :: c :: r) :: rest =>
    if c.isDigit then
      let digits := (c :: r).takeWhile Char.isDigit
      match trailing startingEnds none ((c :: r).drop digits.length) with
      | .error e => .error e
      | .ok (how, scale) =>
        match scaled? (digits ++ scale.toList) with
        | some n => .ok ({ how with amount := { how.amount with number := n } }, rest)
        | none => .error (badAmount how.amount.ofBytes (digits ++ scale.toList))
    else .ok (startingEnds, args)
  | _ => .ok (startingEnds, args)

-- The form of `tail` that is a sign, a count and a letter, with one file at most.
def signedCount (args : List Text) : Option (Ends × List Text) :=
  match args with
  | (sign :: r) :: rest =>
    let isAlone := match rest with
      | [] => true
      | [file] => file.head? ≠ some '-' || file.length = 1
      | [dashes, _] => dashes = ['-', '-']
      | _ => false
    let digits := r.takeWhile Char.isDigit
    let letters := r.drop digits.length
    let isMeant := isAlone && (sign = '+' || (sign = '-' && r ≠ [] && r ≠ ['c']))
    let scale := if letters.head? = some 'b' then 512 else 1
    let ofBytes := letters.head? = some 'b' || letters.head? = some 'c'
    let after := if ofBytes || letters.head? = some 'l' then letters.tail else letters
    let after := if after.head? = some 'f' then after.tail else after
    if isMeant && after = [] then
      let n := if digits = [] then 10 else Numeral.number digits
      some (⟨⟨n * scale, ofBytes, sign = '+', '\n'⟩, none⟩, if rest.head? = some ['-', '-'] then rest.tail else rest)
    else none
  | _ => none

-- Parts of a text that end at a character, with it.
def withStops (stop : Char) (t : Text) : List Text :=
  if stop = '\n' then linesOf t
  else
    let parts := records stop t
    if t.getLast? = some stop then parts.map (· ++ [stop])
    else parts.dropLast.map (· ++ [stop]) ++ parts.getLast?.toList

def headOf (a : Amount) (t : Text) : Text :=
  if a.ofBytes then t.take (if a.fromOther then t.length - a.number else a.number)
  else
    let lines := withStops a.stop t
    (lines.take (if a.fromOther then lines.length - a.number else a.number)).flatten

def tailOf (a : Amount) (t : Text) : Text :=
  if a.ofBytes then t.drop (if a.fromOther then a.number - 1 else t.length - a.number)
  else
    let lines := withStops a.stop t
    (lines.drop (if a.fromOther then a.number - 1 else lines.length - a.number)).flatten

-- The input goes back to the end of what was shown, if it can be gone back in.
def giveBack (unread : Nat) (s : State) : State :=
  match s.channel? 0 with
  | some (index, .file location position access) => s.setChannel index (.file location (position - unread) access)
  | _ => s

-- Parts of files, under their names if there are several.
def partsOf (tool : String) (part : Text → Text) (goesBack titled : Bool) : List Text → Bool → State → State × Nat
  | [], _, s => (s, 0)
  | name :: rest, isFirst, s =>
    let title := if !titled then []
      else (if isFirst then [] else ['\n']) ++ "==> ".toList ++ (if name = ['-'] then "standard input".toList else name) ++
        " <==\n".toList
    let shown := if name = ['-'] then "standard input".toList else name
    match content name s with
    | (.ok t, s) =>
      let found := part t
      let s := if goesBack && name = ['-'] && found.isPrefixOf t then giveBack (t.length - found.length) s else s
      partsOf tool part goesBack titled rest false (print (title ++ found) s)
    | (.error e, s) =>
      if e = .isDirectory || e = .badDescriptor then
        let s := complain tool ("error reading ".toList ++ Quoting.always shown ++ ": ".toList ++ e.description) (print title s)
        ((partsOf tool part goesBack titled rest false s).1, 1)
      else
      let s := complain tool ("cannot open ".toList ++ Quoting.always shown ++ " for reading: ".toList ++ e.description) s
      ((partsOf tool part goesBack titled rest isFirst s).1, 1)

def showEnds (tool : String) (goesBack : Bool) (part : Amount → Text → Text) (how : Ends) (names : List Text) (s : State) :
    State × Nat :=
  let titled := how.titles.getD (1 < names.length)
  partsOf tool (part how.amount) goesBack titled (orInput names) true s

def endsOf (tool : String) (other : Char) (goesBack : Bool) (part : Amount → Text → Text) (grammar : Grammar) (how : Ends)
    (args : List Text) (s : State) : State × Nat :=
  let given := scan grammar args
  match given.letters.foldlM (Ends.take other) how, given.fault with
  | .error e, _ => fails s tool e 1
  | .ok _, some e => fails s tool (e ++ advice tool) 1
  | .ok how, none => showEnds tool goesBack part how given.operands s

def headGrammar : Grammar :=
  ⟨"c:n:qvz", [("bytes", 'c'), ("lines", 'n'), ("quiet", 'q'), ("silent", 'q'), ("verbose", 'v'), ("zero-terminated", 'z')]⟩

def head : Tool := fun args s =>
  match leadingCount args with
  | .error e => fails s "head" e 1
  | .ok (how, args) => endsOf "head" '-' true headOf headGrammar how args s

def tailGrammar : Grammar :=
  ⟨"c:n:qvzfFs:", [("bytes", 'c'), ("lines", 'n'), ("quiet", 'q'), ("silent", 'q'), ("verbose", 'v'), ("zero-terminated", 'z'),
    ("sleep-interval", 's'), ("retry", 'F')]⟩

-- The first digit that stands where an option should.
def misplacedDigit (args : List Text) : Option Char :=
  match args with
  | ('-' :: c :: _) :: _ => if c.isDigit then some c else none
  | _ => none

def tail : Tool := fun args s =>
  match signedCount args with
  | some (how, names) => showEnds "tail" false tailOf how names s
  | none =>
    match misplacedDigit args with
    | some c => fails s "tail" ("option used in invalid context -- ".toList ++ [c]) 1
    | none => endsOf "tail" '+' false tailOf tailGrammar startingEnds args s

def reversedFiles (tool : String) (turn : Text → Text) (explain : Text → Errno → Text) : Tool :=
  withOptions tool ⟨"", []⟩ 1 fun given s =>
    let (s, fine) := eachContent tool explain (fun _ t s => print (turn t) s) (orInput given.operands) s
    (s, if fine then 0 else 1)

-- Lines from the last to the first; the last one may lack its end.
def tac : Tool := reversedFiles "tac" (fun t => (linesOf t).reverse.flatten) fun name e =>
  if e = .isDirectory then Quoting.wherePlainFails name ++ ": read error: Is a directory".toList
  else "failed to open ".toList ++ Quoting.always name ++ " for reading: ".toList ++ e.description

def turnLine (line : Text) : Text :=
  let ended := line.getLast? = some '\n'
  let body := Octets.toText (if ended then line.dropLast else line)
  Octets.ofText body.reverse ++ (if ended then ['\n'] else [])

def rev : Tool := reversedFiles "rev" (fun t => ((linesOf t).map turnLine).flatten) fun name e =>
  "cannot open ".toList ++ name ++ ": ".toList ++ e.description

def isBlankByte (c : Char) : Bool := c = ' ' || ('\t' ≤ c && c ≤ '\r')

-- The characters of some bytes; those that make none are passed over.
def charactersOnly (t : Text) : Text := (Octets.toText t).filter (· ≠ Text.replacement)

def endsWord (c : Char) : Bool :=
  isBlankByte c || (0x80 < c.toNat && c ≠ '\x85' && Text.isBlank c) || c = '\u2060'

-- Words are what lies between blanks, if anything of it can be seen.
def countWords : Bool → Text → Nat
  | inside, [] => if inside then 1 else 0
  | inside, c :: r =>
    if endsWord c then (if inside then 1 else 0) + countWords false r
    else countWords (inside || Text.isPrintable c) r

def wideRanges : List (Nat × Nat) :=
  [(0x1100, 0x115F), (0x2E80, 0x303E), (0x3041, 0xA4CF), (0xA960, 0xA97C), (0xAC00, 0xD7A3), (0xF900, 0xFAFF),
    (0xFE30, 0xFE6F), (0xFF01, 0xFF60), (0xFFE0, 0xFFE6), (0x1F300, 0x1F64F), (0x1F680, 0x1F6FC), (0x1F900, 0x1F9FF),
    (0x20000, 0x3FFFD)]

def cellsOf (c : Char) : Nat :=
  if !Text.isPrintable c && c ≠ '\xa0' then 0
  else if 0x300 ≤ c.toNat && c.toNat ≤ 0x36F then 0
  else if wideRanges.any fun range => range.1 ≤ c.toNat && c.toNat ≤ range.2 then 2
  else 1

-- How far a line reaches at most: tabs go to every eighth place, and a return or a new page
-- goes back to the start.
def longestLine (longest place : Nat) : Text → Nat
  | [] => max longest place
  | c :: r =>
    if c = '\n' || c = '\r' || c = '\x0c' then longestLine (max longest place) 0 r
    else if c = '\t' then longestLine longest (place + 8 - place % 8) r
    else longestLine longest (place + cellsOf c) r

structure Counts where
  lines : Nat
  words : Nat
  characters : Nat
  bytes : Nat
  longest : Nat

def countsOf (t : Text) : Counts :=
  let seen := charactersOnly t
  ⟨t.count '\n', countWords false seen, seen.length, t.length, longestLine 0 0 seen⟩

def Counts.add (a b : Counts) : Counts :=
  ⟨a.lines + b.lines, a.words + b.words, a.characters + b.characters, a.bytes + b.bytes, max a.longest b.longest⟩

def Counts.columns (wanted : Char → Bool) (c : Counts) : List Nat :=
  (if wanted 'l' then [c.lines] else []) ++ (if wanted 'w' then [c.words] else []) ++
    (if wanted 'm' then [c.characters] else []) ++ (if wanted 'c' then [c.bytes] else []) ++
    (if wanted 'L' then [c.longest] else [])

-- The size of a regular file that is counted; none for other input.
def regularSize? (name : Option Text) (s : State) : Option Nat :=
  match name with
  | none | some ['-'] =>
    match s.channel? 0 with
    | some (_, .file location _ _) => (match s.disk.lookup location with
      | some (.file bytes) => some bytes.length
      | _ => none)
    | _ => none
  | some name => match s.find name with
    | .ok (location, .file bytes) => if location.head? = some "dev".toList then none else some bytes.length
    | _ => none

def exists_ (name : Option Text) (s : State) : Bool := match name with
  | none | some ['-'] => true
  | some name => (s.find name).isOk

-- How wide the columns are: as the sum of the sizes needs it, but not less than seven where
-- something else than a regular file is counted. A single number is as wide as it is.
def columnWidth (names : List (Option Text)) (columns : Nat) (s : State) : Nat :=
  if names.length = 1 && columns = 1 then 1
  else if !exists_ (names.headD none) s then 1
  else
    let sizes := (names.filter (exists_ · s)).map fun name => regularSize? name s
    let digits := (Text.ofNat (sizes.foldl (fun n size => n + size.getD 0) 0)).length
    if sizes.any Option.isNone then max 7 digits else digits

def wcLine (width : Nat) (wanted : Char → Bool) (c : Counts) (name : Option Text) : Text :=
  let columns := (c.columns wanted).map fun n => padded width (Text.ofNat n)
  Text.unwords columns ++ (name.map (' ' :: ·)).getD [] ++ ['\n']

def wcFiles (width : Nat) (wanted : Char → Bool) : List (Option Text) → Counts → Bool → State → Counts × Bool × State
  | [], total, fine, s => (total, fine, s)
  | name :: rest, total, fine, s =>
    match content (name.getD ['-']) s with
    | (.ok t, s) =>
      let c := countsOf t
      wcFiles width wanted rest (total.add c) fine (print (wcLine width wanted c name) s)
    | (.error e, s) =>
      let s := complain "wc" (Quoting.wherePlainFails (name.getD ['-']) ++ ": ".toList ++ e.description) s
      let s := if e = .isDirectory then print (wcLine width wanted (countsOf []) name) s else s
      wcFiles width wanted rest total false s

def wc : Tool := withOptions "wc" ⟨"clLmw", [("bytes", 'c'), ("chars", 'm'), ("lines", 'l'), ("words", 'w'), ("max-line-length", 'L')]⟩ 1
  fun given s =>
    let wanted := fun (c : Char) => if given.letters.isEmpty then "lwc".toList.contains c else given.has c
    let names := if given.operands.isEmpty then [none] else given.operands.map some
    let columns := ((countsOf []).columns wanted).length
    let width := columnWidth names columns s
    let (total, fine, s) := wcFiles width wanted names (countsOf []) true s
    let s := if 1 < names.length then print (wcLine width wanted total (some "total".toList)) s else s
    (s, if fine then 0 else 1)

-- The input goes on, and into every file.
def tee : Tool := withOptions "tee" ⟨"ai", [("append", 'a')]⟩ 1 fun given s =>
  let (t, s) := takeInput s
  let (s, status) := given.operands.foldl (fun (s, status) name =>
    match s.writable name with
    | .ok location =>
      let before := if given.has 'a' then s.fileText location else []
      (s.writeFile location (Octets.toBytes (before ++ t)), status)
    | .error e => (complain "tee" (plainReason name e) s, 1)) (s, 0)
  (print t s, status)

end PortableActions.Shell.Tool
