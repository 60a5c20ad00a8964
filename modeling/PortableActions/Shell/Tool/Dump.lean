import PortableActions.Shell.Tool.Show
-- The bytes of files in numbers and characters.
namespace PortableActions.Shell.Tool

-- How a group of bytes is shown: as a number in a base with a width, or as a character.
inductive DumpForm where
  | number (size base width : Nat) (signed : Bool)
  | character
  | name

-- A form, and whether the bytes themselves follow as far as they can be printed.
structure DumpStyle where
  form : DumpForm
  trailed : Bool

def numberForm (base : Nat) (signed : Bool) (size : Nat) : DumpForm :=
  let place := if size = 1 then 0 else if size = 2 then 1 else if size = 4 then 2 else 3
  let widths := if base = 8 then [3, 6, 11, 22] else if base = 16 then [2, 4, 8, 16]
    else if signed then [4, 6, 11, 20] else [3, 5, 10, 20]
  .number size base (widths.getD place 0) signed

-- The size at the front of a text, in bytes or as a letter.
def dumpSize (whole t : Text) : Except Text (Nat × Text) :=
  match t with
  | 'C' :: r => .ok (1, r)
  | 'S' :: r => .ok (2, r)
  | 'I' :: r => .ok (4, r)
  | 'L' :: r => .ok (8, r)
  | _ =>
    let digits := t.takeWhile Char.isDigit
    let n := Numeral.number digits
    if digits = [] then .ok (4, t)
    else if [1, 2, 4, 8].contains n then .ok (n, t.drop digits.length)
    else .error ("invalid type string ".toList ++ Quoting.curled whole ++ ";\nthis system doesn't provide a ".toList ++
      Text.ofNat n ++ "-byte integral type".toList)

-- The styles that a text such as "x1z" lists.
def dumpStyles (whole : Text) : Nat → Text → Except Text (List DumpStyle)
  | 0, _ => .ok []
  | _ + 1, [] => .ok []
  | fuel + 1, c :: r => do
    let (form, r) ← match c with
      | 'a' => Except.ok (DumpForm.name, r)
      | 'c' => .ok (.character, r)
      | 'd' => (dumpSize whole r).map fun found => (numberForm 10 true found.1, found.2)
      | 'o' => (dumpSize whole r).map fun found => (numberForm 8 false found.1, found.2)
      | 'u' => (dumpSize whole r).map fun found => (numberForm 10 false found.1, found.2)
      | 'x' => (dumpSize whole r).map fun found => (numberForm 16 false found.1, found.2)
      | c => .error ("invalid character '".toList ++ [c] ++ "' in type string ".toList ++ Quoting.curled whole)
    let trailed : Bool := r.head? = some 'z'
    let more ← dumpStyles whole fuel (if trailed then r.tail else r)
    pure (⟨form, trailed⟩ :: more)

def octalDigits (width n : Nat) : Text :=
  let digits := Nat.toDigits 8 n
  List.replicate (width - digits.length) '0' ++ digits

def characterName (c : Char) : Text :=
  match c with
  | '\x00' => ['\\', '0']
  | '\x07' => ['\\', 'a']
  | '\x08' => ['\\', 'b']
  | '\t' => ['\\', 't']
  | '\n' => ['\\', 'n']
  | '\x0b' => ['\\', 'v']
  | '\x0c' => ['\\', 'f']
  | '\r' => ['\\', 'r']
  | c => if ' ' ≤ c && c ≤ '~' then [c] else octalDigits 3 c.toNat

def controlNames : List String :=
  ["nul", "soh", "stx", "etx", "eot", "enq", "ack", "bel", "bs", "ht", "nl", "vt", "ff", "cr", "so", "si", "dle", "dc1",
    "dc2", "dc3", "dc4", "nak", "syn", "etb", "can", "em", "sub", "esc", "fs", "gs", "rs", "us", "sp"]

def asciiName (c : Char) : Text :=
  let n := c.toNat % 128
  if n = 127 then "del".toList else ((controlNames[n]?).map String.toList).getD [Char.ofNat n]

-- The bytes of a group, the lowest first, as one number.
def littleEndian (bytes : Text) : Nat := bytes.reverse.foldl (fun n c => n * 256 + c.toNat) 0

-- A group without blanks in front of it.
def groupText (form : DumpForm) (bytes : Text) : Text :=
  match form with
  | .character => characterName (bytes.headD ' ')
  | .name => asciiName (bytes.headD ' ')
  | .number size base width signed =>
    let n := littleEndian bytes
    if signed then
      let half := Nat.pow 2 (8 * size - 1)
      Text.ofInt (if n < half then (n : Int) else (n : Int) - 2 * half)
    else
      let digits := Nat.toDigits base n
      if base = 10 then digits else List.replicate (width - digits.length) '0' ++ digits

def groupSize : DumpForm → Nat
  | .number size _ _ _ => size
  | _ => 1

def groupWidth : DumpForm → Nat
  | .number _ _ width _ => width
  | _ => 3

def chunked (size : Nat) : Nat → Text → List Text
  | 0, _ => []
  | fuel + 1, t => if t = [] then [] else t.take size :: chunked size fuel (t.drop size)

-- How the bytes are laid out: so many in a row, and rows of every style as wide as the widest.
structure Dump where
  styles : List DumpStyle
  radix : Char
  all : Bool
  row : Nat

def Dump.rowWidth (how : Dump) : Nat :=
  (how.styles.map fun style => (groupWidth style.form + 1) * (how.row / groupSize style.form)).foldl max 0

-- Groups of a row; the blanks between them are spread evenly from the right.
def spread (width pad fields : Nat) : Nat → Nat → List Text → Text
  | _, _, [] => []
  | field, left, t :: rest =>
    let next := pad * (field - 1) / fields
    padded (left - next + width) t ++ spread width pad fields (field - 1) next rest

def Dump.styleRow (how : Dump) (style : DumpStyle) (bytes : Text) : Text :=
  let size := groupSize style.form
  let fields := how.row / size
  let width := groupWidth style.form
  let pad := how.rowWidth - width * fields
  let groups := (chunked size (bytes.length + 1) bytes).map (groupText style.form)
  let blank := (how.row - bytes.length) / size
  let trailer := if style.trailed then
      List.replicate (blank * width + pad * blank / fields) ' ' ++ "  >".toList ++
        bytes.map (fun c => if ' ' ≤ c && c ≤ '~' then c else '.') ++ ['<']
    else []
  spread width pad fields fields pad groups ++ trailer

def addressText (radix : Char) (n : Nat) : Text :=
  match radix with
  | 'n' => []
  | 'd' => List.replicate (7 - (Text.ofNat n).length) '0' ++ Text.ofNat n
  | 'x' => let digits := Nat.toDigits 16 n; List.replicate (6 - digits.length) '0' ++ digits
  | _ => octalDigits 7 n

-- Rows with their addresses; of full rows that are equal only the first is shown.
def Dump.rows (how : Dump) : Nat → Option Text → Bool → List Text → Text
  | n, _, _, [] => if how.radix = 'n' then [] else addressText how.radix n ++ ['\n']
  | n, latest, starred, bytes :: rest =>
    if !how.all && latest = some bytes && bytes.length = how.row then
      (if starred then [] else ['*', '\n']) ++ how.rows (n + bytes.length) latest true rest
    else
      let address := addressText how.radix n
      let shown := how.styles.map (how.styleRow · bytes)
      let lines := (shown.head?.map fun row => address ++ row ++ ['\n']).getD [] ++
        shown.tail.flatMap fun row => List.replicate address.length ' ' ++ row ++ ['\n']
      lines ++ how.rows (n + bytes.length) (some bytes) false rest

def odGrammar : Grammar :=
  ⟨"A:aBbcDdeFfHhIij:LlN:OoS:st:vw::Xx", [("address-radix", 'A'), ("format", 't'), ("output-duplicates", 'v'), ("read-bytes", 'N'),
    ("skip-bytes", 'j'), ("width", 'w'), ("strings", 'S')]⟩

-- The styles of an option.
def styleOf (option : Char × Text) : Except Text (List DumpStyle) :=
  let short := fun (t : String) => dumpStyles t.toList 9 t.toList
  match option.1 with
  | 't' => dumpStyles option.2 (option.2.length + 1) option.2
  | 'a' => short "a"
  | 'b' => short "o1"
  | 'c' => short "c"
  | 'D' => short "u4"
  | 'd' => short "u2"
  | 'H' | 'X' => short "x4"
  | 'h' | 'x' => short "x2"
  | 'i' => short "d4"
  | 'I' | 'L' | 'l' => short "d8"
  | 'O' => short "o4"
  | 'B' | 'o' => short "o2"
  | 's' => short "d2"
  | _ => .ok []

-- A count of bytes: decimal, octal or hexadecimal, with a letter for its size.
def dumpCount (letter : Char) (t : Text) : Except Text Nat :=
  let (n, rest) := Numeral.numeral t
  let bad := .error ("invalid -".toList ++ [letter] ++ " argument '".toList ++ t ++ ['\''])
  if !(t.headD ' ').isDigit then bad
  else if rest = [] then .ok n
  else match scaled? ('1' :: rest) with
    | some unit => .ok (n * unit)
    | none => bad

-- What is wrong with an option by itself, if anything.
def dumpFault (option : Char × Text) : Option Text :=
  let fault := fun (found : Except Text Unit) => match found with
    | .ok _ => none
    | .error e => some e
  match option.1 with
  | 'A' =>
    if ["o".toList, "d".toList, "x".toList, "n".toList].contains (option.2.take 1) then none
    else some ("invalid output address radix '".toList ++ option.2.take 1 ++ "'; it must be one character from [doxn]".toList)
  | 'j' | 'N' => fault ((dumpCount option.1 option.2).map fun _ => ())
  | 'w' => if option.2 = [] then none else fault ((dumpCount 'w' option.2).map fun _ => ())
  | _ => fault ((styleOf option).map fun _ => ())

def od : Tool := withOptions "od" odGrammar 1 fun given s =>
  match given.letters.filterMap dumpFault with
  | e :: _ => fails s "od" e 1
  | [] =>
    let styles := given.letters.flatMap fun entry => match styleOf entry with
      | .ok styles => styles
      | .error _ => []
    let styles := if styles.isEmpty then [⟨numberForm 8 false 2, false⟩] else styles
    let radix := ((given.argument? 'A').bind List.head?).getD 'o'
    let count := fun (c : Char) => (given.argument? c).bind fun t => (dumpCount c t).toOption
    let least := (styles.map fun style => groupSize style.form).foldl max 1
    let wanted := match given.argument? 'w' with
      | none => 16
      | some [] => 32
      | some _ => (count 'w').getD 16
    let fits := wanted ≠ 0 && wanted % least = 0
    let s := if fits then s
      else complain "od" ("warning: invalid width ".toList ++ Text.ofNat wanted ++ "; using ".toList ++ Text.ofNat least ++
        " instead".toList) s
    let row := if fits then wanted else least
    let (t, fine, s) := (orInput given.operands).foldl (fun (t, fine, s) name => match content name s with
      | (.ok more, s) => (t ++ more, fine, s)
      | (.error e, s) => (t, false, complain "od" (plainReason name e) s)) ([], true, s)
    let skipped := (count 'j').getD 0
    if t.length < skipped then
      (if fine then complain "od" "cannot skip past end of combined input".toList s else s, 1)
    else
      let t := t.drop skipped
      let t := match count 'N' with
        | some n => t.take n
        | none => t
      if t = [] && !fine && given.operands.length = 1 then (s, 1)
      else
        let how : Dump := ⟨styles, radix, given.has 'v', row⟩
        (print (how.rows skipped none false (chunked row (t.length + 1) t)) s, if fine then 0 else 1)

end PortableActions.Shell.Tool
