import PortableActions.Shell.Decimal
import PortableActions.Shell.Tool.Show
-- The program that puts lines in order. Lines are compared by keys, parts of them that begin
-- and stop at counted fields; each key has its own manner of comparing.
namespace PortableActions.Shell.Tool

def compareTexts (a b : Text) : Ordering :=
  if a = b then .eq else if Text.atMost a b then .lt else .gt

-- The number at the front of a text as a fraction: the digits and how many of them are
-- behind the point.
structure Leading where
  digits : Int
  places : Nat

def leadingNumber (t : Text) : Leading :=
  let negative := t.head? = some '-'
  let t := if negative then t.tail else t
  let whole := t.takeWhile Char.isDigit
  let fraction := match t.drop whole.length with
    | '.' :: r => r.takeWhile Char.isDigit
    | _ => []
  let n : Int := Numeral.number (whole ++ fraction)
  ⟨if negative then -n else n, fraction.length⟩

def Leading.compare (a b : Leading) : Ordering :=
  Ord.compare (a.digits * (Nat.pow 10 b.places : Nat)) (b.digits * (Nat.pow 10 a.places : Nat))

-- How large the unit behind a number is; the sign of the number is that of the order.
def unitOrder (t : Text) : Int :=
  let negative := t.head? = some '-'
  let body := if negative then t.tail else t
  let whole := body.takeWhile Char.isDigit
  let rest := body.drop whole.length
  let fraction := if rest.head? = some '.' then rest.tail.takeWhile Char.isDigit else []
  let after := if rest.head? = some '.' then rest.tail.drop fraction.length else rest
  if (whole ++ fraction).all (· = '0') then 0
  else
    let unit := after.headD ' '
    let order : Nat := if unit = 'k' then 1 else (("KMGTPEZY".toList.findIdx? (· = unit)).map (· + 1)).getD 0
    if negative then -(order : Int) else order

-- Numbers with exponents, by rank: what is no number comes first, then what is not a
-- number by its name, then the numbers in order.
def realOrder (t : Text) : Nat × Int × Int :=
  match Decimal.read? (t.dropWhile Numeral.isSpace) with
  | none => (0, 0, 0)
  | some (⟨negative, magnitude⟩, _) =>
    let sign : Int := if negative then -1 else 1
    match magnitude with
    | .notANumber => (1, 0, 0)
    | .finite m e => (2, sign * m, e)
    | .infinite => (2, sign, 5000)

def compareReals (a b : Text) : Ordering :=
  let (rankA, m, e) := realOrder a
  let (rankB, n, f) := realOrder b
  let low := min e f
  (Ord.compare rankA rankB).then
    (Ord.compare (m * (Decimal.power 2 (e - low).toNat : Nat)) (n * (Decimal.power 2 (f - low).toNat : Nat)))

def months : List String :=
  ["JAN", "FEB", "MAR", "APR", "MAY", "JUN", "JUL", "AUG", "SEP", "OCT", "NOV", "DEC"]

-- The month whose short name begins a text, from one; zero if there is none.
def monthOf (t : Text) : Nat :=
  ((months.findIdx? fun name => Text.startsWith name.toList ((t.take 3).map Char.toUpper)).map (· + 1)).getD 0

-- Where characters stand among versions: a tilde before the end, the end before all others,
-- letters before signs.
def versionRank : Option Char → Int
  | none => -1
  | some c =>
    if c.isDigit then 0 else if c.isAlpha then c.toNat else if c = '~' then -2 else c.toNat + 256

def versionSigns : Nat → Text → Text → Except Ordering (Text × Text)
  | 0, a, b => .ok (a, b)
  | fuel + 1, a, b =>
    let atSign := fun (t : Text) => (t.head?.map fun c => !c.isDigit).getD false
    if !atSign a && !atSign b then .ok (a, b)
    else
      let order := compare (versionRank a.head?) (versionRank b.head?)
      if order ≠ .eq then .error order else versionSigns fuel a.tail b.tail

-- Parts without digits and numbers in turn.
def compareVersions : Nat → Text → Text → Ordering
  | 0, _, _ => .eq
  | fuel + 1, a, b =>
    if a = [] && b = [] then .eq
    else match versionSigns (a.length + b.length) a b with
      | .error order => order
      | .ok (a, b) =>
        let order := compare (Numeral.number (a.takeWhile Char.isDigit)) (Numeral.number (b.takeWhile Char.isDigit))
        if order ≠ .eq then order
        else compareVersions fuel (a.dropWhile Char.isDigit) (b.dropWhile Char.isDigit)

-- Whether a text is made of endings such as ".tar.gz" only.
def isEnding : Nat → Text → Bool
  | 0, _ => true
  | _ + 1, [] => true
  | fuel + 1, '.' :: c :: r =>
    (c.isAlpha || c = '~') && isEnding fuel (r.dropWhile fun d => d.isAlphanum || d = '~')
  | _ + 1, _ => false

-- A name without the endings behind its first character.
def withoutEndings : Text → Text
  | [] => []
  | c :: r => c :: (r.take (((List.range r.length).find? fun n => isEnding r.length (r.drop n)).getD r.length))

def compareNames (a b : Text) : Ordering :=
  let rank := fun (t : Text) => if t = [] then 0 else if t = ['.'] then 1 else if t = ['.', '.'] then 2
    else if t.head? = some '.' then 3 else 4
  let by_ := fun (a b : Text) => compareVersions (a.length + b.length + 1) a b
  (compare (rank a) (rank b)).then ((by_ (withoutEndings a) (withoutEndings b)).then (by_ a b))

-- How parts of lines are compared: letters of options, and whether blanks in front of the
-- start and of the stop are passed over.
structure Manner where
  letters : Text
  startBlanks : Bool
  stopBlanks : Bool

def Manner.has (manner : Manner) (c : Char) : Bool := manner.letters.contains c

-- Whether more than the direction is asked for.
def Manner.isPlain (manner : Manner) : Bool :=
  manner.letters = [] && !manner.startBlanks && !manner.stopBlanks

def Manner.add (manner : Manner) (c : Char) : Manner := { manner with letters := c :: manner.letters }

-- The letters that cannot stand together, if there are such.
def Manner.conflict? (manner : Manner) : Option Text :=
  let count := fun (letters : String) => if letters.toList.any manner.has then 1 else 0
  if 1 < count "n" + count "g" + count "h" + count "M" + count "VRdi" then
    some ("dfghiMnRV".toList.filter fun c => manner.has c && !(c = 'i' && manner.has 'd'))
  else none

-- What is compared of a part.
def Manner.prepared (manner : Manner) (t : Text) : Text :=
  let t := if manner.has 'd' then t.filter fun c => c.isAlphanum || Source.isBlank c
    else if manner.has 'i' then t.filter fun c => ' ' ≤ c && c ≤ '~'
    else t
  if manner.has 'f' then t.map Char.toUpper else t

def Manner.order (manner : Manner) (a b : Text) : Ordering :=
  let a := manner.prepared a
  let b := manner.prepared b
  let blankless := fun (t : Text) => t.dropWhile fun c => Source.isBlank c || c = '\n'
  let order := if manner.has 'n' then (leadingNumber (blankless a)).compare (leadingNumber (blankless b))
    else if manner.has 'g' then compareReals a b
    else if manner.has 'h' then
      (compare (unitOrder (blankless a)) (unitOrder (blankless b))).then
        ((leadingNumber (blankless a)).compare (leadingNumber (blankless b)))
    else if manner.has 'M' then compare (monthOf (blankless a)) (monthOf (blankless b))
    else if manner.has 'V' then compareNames a b
    else compareTexts a b
  if manner.has 'r' then order.swap else order

-- A key: how many fields and characters are passed to its start, and to its stop if that is
-- not the end of the line. A stop without characters is the end of the field.
structure SortKey where
  field : Nat
  character : Nat
  stop : Option (Nat × Nat)
  manner : Manner

def isFieldBlank (c : Char) : Bool := Source.isBlank c || c = '\n'

-- What follows some fields and the separators behind them.
def afterFields (tab : Option Char) : Nat → Text → Text
  | 0, t => t
  | _ + 1, [] => []
  | n + 1, t => afterFields tab n (match tab with
    | some c => (t.dropWhile (· ≠ c)).tail
    | none => (t.dropWhile isFieldBlank).dropWhile fun c => !isFieldBlank c)

def SortKey.part (tab : Option Char) (key : SortKey) (line : Text) : Text :=
  let start := afterFields tab key.field line
  let start := (if key.manner.startBlanks then start.dropWhile isFieldBlank else start).drop key.character
  match key.stop with
  | none => start
  | some (field, character) =>
    let stop := if character = 0 then
        match tab with
        | some c => (afterFields tab field line).dropWhile (· ≠ c)
        | none => afterFields tab (field + 1) line
      else
        let stop := afterFields tab field line
        (if key.manner.stopBlanks then stop.dropWhile isFieldBlank else stop).drop character
    start.take (start.length - stop.length)

-- A number at a place in the description of a key, and what follows it.
def keyNumber (place : String) (t : Text) : Except Text (Nat × Text) :=
  let t := t.dropWhile Numeral.isSpace
  let body := if t.head? = some '+' then t.tail else t
  if (body.headD ' ').isDigit then .ok (Numeral.decimal body)
  else .error ("invalid number ".toList ++ place.toList ++ ": invalid count at start of ".toList ++ Quoting.curled t)

def badKey (why : String) (t : Text) : Text := why.toList ++ ": invalid field specification ".toList ++ Quoting.curled t

def keyLetters (atStart : Bool) : Text → Manner → Manner × Text
  | [], manner => (manner, [])
  | c :: r, manner =>
    if c = 'b' then
      keyLetters atStart r (if atStart then { manner with startBlanks := true } else { manner with stopBlanks := true })
    else if "dfghiMnRrV".toList.contains c then keyLetters atStart r (manner.add c)
    else (manner, c :: r)

def keyCharacter (t : Text) (default_ : Nat) : Except Text (Nat × Text) :=
  match t with
  | '.' :: r => keyNumber "after '.'" r
  | _ => .ok (default_, t)

-- A key such as "2n" or "1.2,3".
def sortKey (t : Text) : Except Text SortKey := do
  let (field, rest) ← keyNumber "at field start" t
  if field = 0 then throw (badKey "field number is zero" t)
  let (character, rest) ← keyCharacter rest 1
  if character = 0 then throw (badKey "character offset is zero" t)
  let (manner, rest) := keyLetters true rest ⟨[], false, false⟩
  match rest with
  | [] => pure ⟨field - 1, character - 1, none, manner⟩
  | ',' :: rest =>
    let (stop, rest) ← keyNumber "after ','" rest
    if stop = 0 then throw (badKey "field number is zero" t)
    let (stopCharacter, rest) ← keyCharacter rest 0
    let (manner, rest) := keyLetters false rest manner
    if rest = [] then pure ⟨field - 1, character - 1, some (stop - 1, stopCharacter), manner⟩
    else throw (badKey "stray character in field spec" t)
  | _ => throw (badKey "stray character in field spec" t)

-- What is asked for: keys, the separator of fields, the manner of keys without one of their
-- own, whether only the order is looked at, where the lines go, and letters of other options.
structure Sorting where
  keys : List SortKey
  tab : Option Char
  manner : Manner
  check : Option Char
  output : Option Text
  letters : Text

def Sorting.has (how : Sorting) (c : Char) : Bool := how.letters.contains c

def incompatible (letters : Text) : Text := "options '-".toList ++ letters ++ "' are incompatible".toList

def Sorting.separate (how : Sorting) (t : Text) : Except Text Sorting :=
  let found : Except Text Char := match t with
    | [] => .error "empty tab".toList
    | [c] => .ok c
    | ['\\', '0'] => .ok '\x00'
    | _ => .error ("multi-character tab ".toList ++ Quoting.curled t)
  found.bind fun c =>
    if how.tab.isSome && how.tab ≠ some c then .error "incompatible tabs".toList else .ok { how with tab := some c }

def Sorting.take (how : Sorting) (option : Char × Text) : Except Text Sorting :=
  match option.1 with
  | 'k' => (sortKey option.2).map fun key => { how with keys := how.keys ++ [key] }
  | 't' => how.separate option.2
  | 'c' | 'C' =>
    if how.check.isSome && how.check ≠ some option.1 then .error (incompatible ['c', 'C'])
    else .ok { how with check := some option.1 }
  | 'o' =>
    if how.output.isSome && how.output ≠ some option.2 then .error "multiple output files specified".toList
    else .ok { how with output := some option.2 }
  | 'b' => .ok { how with manner := { how.manner with startBlanks := true, stopBlanks := true } }
  | c =>
    if "dfghiMnRrV".toList.contains c then .ok { how with manner := how.manner.add c }
    else .ok { how with letters := c :: how.letters }

-- Keys without letters take the general ones; without any key those make a key if they ask
-- for more than a direction.
def Sorting.settled (how : Sorting) : Except Text Sorting :=
  let keys := how.keys.map fun key => if key.manner.isPlain then { key with manner := how.manner } else key
  let isDirection := !how.manner.startBlanks && how.manner.letters.all (· = 'r')
  let keys := if keys.isEmpty && !isDirection then [⟨0, 0, none, how.manner⟩] else keys
  match keys.findSome? fun key => key.manner.conflict? with
  | some letters => .error (incompatible letters)
  | none => .ok { how with keys := keys }

def sorting (letters : List (Char × Text)) : Except Text Sorting :=
  letters.foldlM Sorting.take ⟨[], none, ⟨[], false, false⟩, none, none, []⟩

def Sorting.byKeys (how : Sorting) (a b : Text) : Ordering :=
  how.keys.foldl (fun order key => order.then (key.manner.order (key.part how.tab a) (key.part how.tab b))) .eq

-- Lines that no key tells apart are compared as a whole.
def Sorting.order (how : Sorting) (a b : Text) : Ordering :=
  let first := how.byKeys a b
  if first ≠ .eq || (!how.keys.isEmpty && (how.has 's' || how.has 'u')) then first
  else if how.manner.has 'r' then (compareTexts a b).swap
  else compareTexts a b

-- Keeps the first of lines that are equal.
def firsts (same : Text → Text → Bool) : List Text → List Text
  | [] => []
  | line :: rest =>
    match firsts same rest with
    | [] => [line]
    | next :: more => if same line next then line :: more else line :: next :: more

-- The lines of several files in order, or the files put together as if each of them were.
def Sorting.sorted (how : Sorting) (files : List (List Text)) : List Text :=
  let before := fun (a b : Text) => decide (how.order a b ≠ .gt)
  let lines := if how.has 'm' then files.foldr (fun lines rest => lines.merge rest before) []
    else files.flatten.mergeSort before
  if how.has 'u' then firsts (fun a b => how.order a b = .eq) lines else lines

-- The number of the first line that is not in order.
def Sorting.disorder? (how : Sorting) (lines : List Text) : Option Nat :=
  ((lines.zip lines.tail).findIdx? fun pair =>
    let order := how.order pair.1 pair.2
    order = .gt || (order = .eq && how.has 'u')).map (· + 2)

def sortGrammar : Grammar :=
  ⟨"bcCdfghik:mMno:rRsS:t:T:uVy:z", [("ignore-leading-blanks", 'b'), ("check", 'c'), ("dictionary-order", 'd'),
    ("ignore-case", 'f'), ("general-numeric-sort", 'g'), ("ignore-nonprinting", 'i'), ("key", 'k'), ("merge", 'm'),
    ("month-sort", 'M'), ("numeric-sort", 'n'), ("human-numeric-sort", 'h'), ("version-sort", 'V'), ("random-sort", 'R'),
    ("output", 'o'), ("reverse", 'r'), ("stable", 's'), ("buffer-size", 'S'), ("field-separator", 't'),
    ("temporary-directory", 'T'), ("unique", 'u'), ("zero-terminated", 'z')]⟩

-- The lines of every file, or what could not be read.
def readLines (stop : Char) : List Text → State → Except Text (List (List Text)) × State
  | [], s => (.ok [], s)
  | name :: rest, s =>
    match content name s with
    | (.error e, s) => (.error ("read failed: ".toList ++ plainReason name e), s)
    | (.ok t, s) =>
      let (found, s) := readLines stop rest s
      (found.map (records stop t :: ·), s)

def checkOrder (how : Sorting) (letter stop : Char) (names : List Text) (s : State) : State × Nat :=
  let name := names.headD ['-']
  match names, how.output with
  | _ :: extra :: _, _ =>
    fails s "sort" ("extra operand ".toList ++ Quoting.always extra ++ " not allowed with -".toList ++ [letter]) 2
  | _, some _ => fails s "sort" (incompatible [letter, 'o']) 2
  | _, none =>
    match content name s with
    | (.error e, s) =>
      fails s "sort" ((if e = .isDirectory then "read failed: ".toList else "open failed: ".toList) ++ plainReason name e) 2
    | (.ok t, s) =>
      let lines := records stop t
      match how.disorder? lines with
      | none => (s, 0)
      | some n =>
        if letter = 'C' then (s, 1)
        else
          let place := name ++ [':'] ++ Text.ofNat n ++ ": disorder: ".toList
          (s.emit 2 ("sort: ".toList ++ place ++ lines.getD (n - 1) [] ++ [stop]), 1)

def sortFiles (how : Sorting) (stop : Char) (names : List Text) (s : State) : State × Nat :=
  let missing? := names.find? fun name => name ≠ ['-'] && !(s.find name).isOk
  let target := how.output.map fun name => (name, s.writable name)
  match missing?.map fun name => (name, s.find name), target with
  | some (name, .error e), _ => fails s "sort" ("cannot read: ".toList ++ plainReason name e) 2
  | _, some (name, .error e) => fails s "sort" ("open failed: ".toList ++ plainReason name e) 2
  | _, _ =>
    match readLines stop names s with
    | (.error e, s) => fails s "sort" e 2
    | (.ok files, s) =>
      let out := endedBy stop (how.sorted files)
      match target with
      | some (_, .ok location) => (s.writeFile location (Octets.toBytes out), 0)
      | _ => (print out s, 0)

def sort : Tool := fun args s =>
  let given := scan sortGrammar args
  match sorting given.letters, given.fault with
  | .error e, _ => fails s "sort" e 2
  | .ok _, some e => fails s "sort" (e ++ advice "sort") 2
  | .ok how, none =>
    match how.settled with
    | .error e => fails s "sort" e 2
    | .ok how =>
      let stop := if how.has 'z' then '\x00' else '\n'
      let names := orInput given.operands
      match how.check with
      | some letter => checkOrder how letter stop names s
      | none => sortFiles how stop names s

end PortableActions.Shell.Tool
