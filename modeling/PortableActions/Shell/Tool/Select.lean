import PortableActions.Shell.Escape
import PortableActions.Shell.Tool.Show
-- Programs that choose lines and their parts, and put them side by side.
namespace PortableActions.Shell.Tool

-- Runs of lines that count as equal.
def groups (same : Text → Text → Bool) : List Text → List (List Text)
  | [] => []
  | line :: rest =>
    match groups same rest with
    | (next :: more) :: others => if same line next then (line :: next :: more) :: others else [line] :: (next :: more) :: others
    | others => [line] :: others

def skipFields : Nat → Text → Text
  | 0, t => t
  | _ + 1, [] => []
  | n + 1, t => skipFields n ((t.dropWhile Source.isBlank).dropWhile fun c => !Source.isBlank c)

def uniqKey (given : Given) (line : Text) : Text :=
  let number := fun (c : Char) => ((given.argument? c).map Numeral.number).getD 0
  let t := (skipFields (number 'f') line).drop (number 's')
  let t := match given.argument? 'w' with
    | some n => t.take (Numeral.number n)
    | none => t
  if given.has 'i' then t.map Char.toLower else t

def uniqGrammar : Grammar :=
  ⟨"cdDuif:s:w:z", [("count", 'c'), ("repeated", 'd'), ("all-repeated", 'D'), ("unique", 'u'), ("ignore-case", 'i'),
    ("skip-fields", 'f'), ("skip-chars", 's'), ("check-chars", 'w'), ("zero-terminated", 'z')]⟩

-- The first option whose argument should be a number and is none.
def uniqFault (given : Given) : Option Text :=
  given.letters.findSome? fun entry =>
    let what := match entry.1 with
      | 'f' => some "fields to skip"
      | 's' => some "bytes to skip"
      | 'w' => some "bytes to compare"
      | _ => none
    what.bind fun what =>
      if Numeral.isDecimal entry.2 then none else some (entry.2 ++ ": invalid number of ".toList ++ what.toList)

-- What is shown of a run of equal lines, each line with the number of those before it: a
-- single line, the lines of a longer run after the first, and the one that ends it.
def shownOf (given : Given) (group : List Text) : List (Nat × Text) :=
  let repeated := given.has 'd' || given.has 'D'
  let all := (List.range group.length).zip group
  if group.length = 1 then (if repeated then [] else all)
  else
    let ended := if given.has 'u' then [] else all.drop (all.length - 1)
    if given.has 'D' then all.dropLast ++ ended
    else ended.map fun entry => (entry.1, group.headD entry.2)

def writeOut (tool : String) (target : Text) (out : Text) (s : State) : State × Nat :=
  match s.writable target with
  | .ok location => (s.writeFile location (Octets.toBytes out), 0)
  | .error e => (complain tool (plainReason target e) s, 1)

def uniq : Tool := fun args s =>
  let given := scan uniqGrammar args
  match uniqFault given, given.fault, given.operands with
  | some e, _, _ => fails s "uniq" e 1
  | none, some e, _ => fails s "uniq" (e ++ advice "uniq") 1
  | none, none, _ :: _ :: extra :: _ => fails s "uniq" ("extra operand ".toList ++ Quoting.curled extra ++ advice "uniq") 1
  | none, none, operands =>
    if given.has 'c' && given.has 'D' then
      fails s "uniq" ("printing all duplicated lines and repeat counts is meaningless".toList ++ advice "uniq") 1
    else
      let name := operands.headD ['-']
      match content name s with
      | (.error .isDirectory, s) =>
        fails s "uniq" ("error reading ".toList ++ Quoting.always name ++ ": Is a directory".toList) 1
      | (.error e, s) => fails s "uniq" (plainReason name e) 1
      | (.ok t, s) =>
        let stop := if given.has 'z' then '\x00' else '\n'
        let found := groups (fun a b => uniqKey given a = uniqKey given b) (records stop t)
        let line := fun (entry : Nat × Text) =>
          (if given.has 'c' then padded 7 (Text.ofNat (entry.1 + 1)) ++ [' '] else []) ++ entry.2
        let out := endedBy stop ((found.flatMap (shownOf given)).map line)
        match operands with
        | [_, target] => if target = ['-'] then (print out s, 0) else writeOut "uniq" target out s
        | _ => (print out s, 0)

-- A list of ranges such as "1,3-5,7-": each from a number to a number or to the end. What
-- was read of a range: the number in front of a dash, and the number after it or alone.
structure RangePart where
  low : Option Nat
  dash : Bool
  number : Option Nat

-- What numbers count: fields, or bytes and characters.
structure Counted where
  ofFields : Bool

namespace Counted

def badRange (what : Counted) : Text :=
  if what.ofFields then "invalid field range".toList else "invalid byte or character range".toList

def fromOne (what : Counted) : Text :=
  (if what.ofFields then "fields".toList else "byte/character positions".toList) ++ " are numbered from 1".toList

def badValue (what : Counted) (t : Text) : Text :=
  (if what.ofFields then "invalid field value ".toList else "invalid byte/character position ".toList) ++ Quoting.curled t

def tooLarge (what : Counted) (digits : Text) : Text :=
  (if what.ofFields then "field number ".toList else "byte/character offset ".toList) ++ Quoting.curled digits ++
    " is too large".toList

-- The range that a part is.
def closed (what : Counted) (part : RangePart) : Except Text (Nat × Option Nat) :=
  if part.dash then
    match part.low, part.number with
    | none, none => .error "invalid range with no endpoint: -".toList
    | low, none => .ok (low.getD 1, none)
    | low, some high => if high < low.getD 1 then .error "invalid decreasing range".toList else .ok (low.getD 1, some high)
  else
    match part.number with
    | some n => if n = 0 then .error what.fromOne else .ok (n, some n)
    | none => .error what.fromOne

def ranges (what : Counted) : Nat → RangePart → Text → Except Text (List (Nat × Option Nat))
  | 0, _, _ => .ok []
  | _ + 1, part, [] => do pure [← what.closed part]
  | fuel + 1, part, c :: r =>
    if c = '-' then
      if part.dash then .error what.badRange
      else if part.number = some 0 then .error what.fromOne
      else what.ranges fuel ⟨part.number, true, none⟩ r
    else if c = ',' || Source.isBlank c then do
      let range ← what.closed part
      let more ← what.ranges fuel ⟨none, false, none⟩ r
      pure (range :: more)
    else if c.isDigit then
      let digits := (c :: r).takeWhile Char.isDigit
      let n := Numeral.number digits
      if Numeral.wordRange - 1 ≤ n then .error (what.tooLarge digits)
      else
        let before := part.number.map fun n => Text.ofNat n
        let n := Numeral.number (before.getD [] ++ digits)
        what.ranges fuel { part with number := some n } (r.drop (digits.length - 1))
    else .error (what.badValue (c :: r))

end Counted

def inRange (ranges : List (Nat × Option Nat)) (n : Nat) : Bool :=
  ranges.any fun range => range.1 ≤ n && (range.2.map fun high => decide (n ≤ high)).getD true

def numbered {α : Type} (items : List α) : List (Nat × α) := (List.range items.length).map (· + 1) |>.zip items

def cutFields (separator : Char) (between : Text) (onlySeparated : Bool) (keep : Nat → Bool) (line : Text) : Option Text :=
  if !line.contains separator then (if onlySeparated then none else some line)
  else
    let kept := (numbered (Text.splitOn separator line)).filter fun entry => keep entry.1
    some (Text.join between (kept.map Prod.snd))

-- Bytes that are kept; where a range begins after others, something may stand between.
def cutBytes (between : Option Text) (starts keep : Nat → Bool) (line : Text) : Text :=
  ((numbered line).filter fun entry => keep entry.1).foldl (fun found entry =>
    let gap := if starts entry.1 && found ≠ [] then between.getD [] else []
    found ++ gap ++ [entry.2]) []

-- Whether a position begins a range, ranges that overlap taken together.
def startsRange (keep : Nat → Bool) (ranges : List (Nat × Option Nat)) (n : Nat) : Bool :=
  keep n && (!keep (n - 1) || n = 1 || (ranges.any (fun range => range.1 = n) &&
    !ranges.any fun range => range.1 < n && (range.2.map fun high => decide (n ≤ high)).getD true))

def cutGrammar : Grammar :=
  ⟨"b:c:d:f:nszC\x01:", [("bytes", 'b'), ("characters", 'c'), ("fields", 'f'), ("delimiter", 'd'), ("only-delimited", 's'),
    ("complement", 'C'), ("output-delimiter", '\x01'), ("zero-terminated", 'z')]⟩

-- The list that options give; none of them may be wrong up to the one that is read.
def cutList (list : Option (Char × Text)) : List (Char × Text) → Except Text (Option (Char × Text))
  | [] => .ok list
  | (c, argument) :: rest =>
    if c = 'b' || c = 'c' || c = 'f' then
      if list.isSome then .error "only one type of list may be specified".toList else cutList (some (c, argument)) rest
    else if c = 'd' && 1 < argument.length then .error "the delimiter must be a single character".toList
    else cutList list rest

-- What is kept of a line, or what is wrong with the options.
def cutting (given : Given) : Except Text (Text → Option Text) := do
  let list ← cutList none given.letters
  let _ ← given.checked
  match list with
  | none => throw "you must specify a list of bytes, characters, or fields".toList
  | some (kind, list) =>
    let what : Counted := ⟨kind = 'f'⟩
    if given.has 'd' && !what.ofFields then
      throw "an input delimiter may be specified only when operating on fields".toList
    if given.has 's' && !what.ofFields then
      throw "suppressing non-delimited lines makes sense\n\tonly when operating on fields".toList
    let ranges ← what.ranges (list.length + 1) ⟨none, false, none⟩ list
    let keep := fun (n : Nat) => inRange ranges n ≠ given.has 'C'
    let c := ((given.argument? 'd').getD ['\t']).headD '\x00'
    let between := (given.argument? '\x01').map fun t => if t = [] then ['\x00'] else t
    let starts := if given.has 'C' then fun n => keep n && (n = 1 || !keep (n - 1)) else startsRange keep ranges
    pure fun line => if what.ofFields then cutFields c (between.getD [c]) (given.has 's') keep line
      else some (cutBytes between starts keep line)

def cut : Tool := fun args s =>
  let given := scan cutGrammar args
  match cutting given with
  | .error e => fails s "cut" (e ++ advice "cut") 1
  | .ok keep =>
    let stop := if given.has 'z' then '\x00' else '\n'
    let show_ := fun (_ t : Text) (s : State) => print (endedBy stop ((records stop t).filterMap keep)) s
    let (s, fine) := eachContent "cut" plainReason show_ (orInput given.operands) s
    (s, if fine then 0 else 1)

-- What stands between lines that are put together; an empty place is possible.
def separators : Text → Option (List Text)
  | [] => some []
  | ['\\'] => none
  | '\\' :: c :: r =>
    let place := if c = '0' then [] else [if c = 'a' || c = 'e' then c else (Escape.named? c).getD c]
    (separators r).map (place :: ·)
  | c :: r => (separators r).map ([c] :: ·)

-- Lines of several files side by side.
def besides (stop : Char) (between : Nat → Text) : Nat → List (List Text) → Text
  | 0, _ => []
  | fuel + 1, columns =>
    if columns.all List.isEmpty then []
    else
      let cells := columns.map fun column => column.headD []
      let row := (numbered cells).flatMap fun entry => (if entry.1 = 1 then [] else between (entry.1 - 2)) ++ entry.2
      row ++ [stop] ++ besides stop between fuel (columns.map List.tail)

-- The lines of each file. Files that are all the input take its lines in turn.
def columnsOf (stop : Char) (names : List Text) (s : State) : Except Text (List (List Text)) × State :=
  let (found, s) := names.foldl (fun (found, s) name => match found with
    | .error e => (.error e, s)
    | .ok before => match content name s with
      | (.ok t, s) => (.ok (before ++ [records stop t]), s)
      | (.error .isDirectory, s) => (.ok (before ++ [[]]), s)
      | (.error e, s) => (.error (plainReason name e), s)) ((.ok [], s) : Except Text (List (List Text)) × State)
  let inputs := names.count ['-']
  let lines := match found with
    | .ok columns => ((names.zip columns).find? fun entry => entry.1 = ['-']).map Prod.snd |>.getD []
    | .error _ => []
  let share := fun (n : Nat) => ((numbered lines).filter fun entry => entry.1 % inputs = n % inputs).map Prod.snd
  let places := (List.range names.length).map fun n => (names.take (n + 1)).count ['-']
  (found.map fun columns => ((names.zip places).zip columns).map fun entry =>
    if entry.1.1 = ['-'] then share entry.1.2 else entry.2, s)

def complainDirectories (tool : String) (names : List Text) (s : State) : State × Nat :=
  names.foldl (fun (s, status) name => match s.find name with
    | .ok (_, .directory) => if name = ['-'] then (s, status) else (complain tool (plainReason name .isDirectory) s, 1)
    | _ => (s, status)) (s, 0)

-- The lines of each file in a row of their own.
def serially (stop : Char) (between : Nat → Text) (names : List Text) (s : State) : State × Nat :=
  let row := fun (_ t : Text) (s : State) =>
    let lines := records stop t
    print ((numbered lines).flatMap (fun entry => (if entry.1 = 1 then [] else between (entry.1 - 2)) ++ entry.2) ++ [stop]) s
  let (s, fine) := eachContent "paste" plainReason row names s
  (s, if fine then 0 else 1)

def paste : Tool := withOptions "paste" ⟨"d:sz", [("delimiters", 'd'), ("serial", 's'), ("zero-terminated", 'z')]⟩ 1 fun given s =>
  let letters := (given.argument? 'd').getD ['\t']
  match separators letters with
  | none => fails s "paste" ("delimiter list ends with an unescaped backslash: ".toList ++ letters) 1
  | some places =>
    let between := fun (n : Nat) => if places = [] then [] else places.getD (n % places.length) []
    let stop := if given.has 'z' then '\x00' else '\n'
    let names := orInput given.operands
    if given.has 's' then serially stop between names s
    else match columnsOf stop names s with
      | (.error e, s) => fails s "paste" e 1
      | (.ok columns, s) =>
        let s := print (besides stop between ((columns.map List.length).foldl max 0 + 1) columns) s
        complainDirectories "paste" names s

end PortableActions.Shell.Tool
