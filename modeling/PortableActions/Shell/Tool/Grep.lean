import PortableActions.Shell.Regex
import PortableActions.Shell.Tool.File
-- Searching lines for an expression.
namespace PortableActions.Shell.Tool

def grepGrammar : Grammar :=
  ⟨"EFGPivnclLqshHowxe:f:m:A:B:C:rRabzyUITZ0123456789\x01::\x02:\x03:\x04:\x05:\x06", [("extended-regexp", 'E'), ("fixed-strings", 'F'),
    ("basic-regexp", 'G'), ("perl-regexp", 'P'), ("ignore-case", 'i'), ("invert-match", 'v'), ("line-number", 'n'), ("count", 'c'),
    ("files-with-matches", 'l'), ("files-without-match", 'L'), ("quiet", 'q'), ("silent", 'q'), ("no-messages", 's'),
    ("only-matching", 'o'), ("word-regexp", 'w'), ("line-regexp", 'x'), ("regexp", 'e'), ("file", 'f'), ("max-count", 'm'),
    ("no-filename", 'h'), ("with-filename", 'H'), ("after-context", 'A'), ("before-context", 'B'), ("context", 'C'),
    ("recursive", 'r'), ("dereference-recursive", 'R'), ("text", 'a'), ("byte-offset", 'b'), ("null-data", 'z'), ("null", 'Z'),
    ("color", '\x01'), ("colour", '\x01'), ("label", '\x02'), ("include", '\x03'), ("exclude", '\x04'), ("exclude-dir", '\x05'),
    ("line-buffered", '\x06')]⟩

-- A fixed text as an expression.
def fixedRegex (folds : Bool) (t : Text) : Regex :=
  t.foldr (fun c r => .followed (Regex.literal folds c) r) .empty

def oneOf : List Regex → Regex
  | [] => .one fun _ => false
  | [r] => r
  | r :: rest => .either r (oneOf rest)

-- Expressions as they are read, and what should be said about them.
def readAll (form : Regex.Form) (isFixed : Bool) : List Text → Except Text (List Regex × List Text)
  | [] => pure ([], [])
  | t :: rest => do
    let reading ← if isFixed then pure ⟨fixedRegex form.folds t, 0, [], false⟩ else (Regex.read form t).mapError Regex.Fault.message
    let (more, remarks) ← readAll form isFixed rest
    if reading.hasBareClass then throw Regex.bareClassMessage
    else pure (reading.regex :: more, reading.remarks ++ remarks)

-- What a line has to match.
def expressionOf (given : Given) (patterns : List Text) : Except Text (Regex × List Text) := do
  let form : Regex.Form := ⟨given.has 'E' || given.has 'P', given.has 'i' || given.has 'y', .searching, false⟩
  let (found, remarks) ← readAll form (given.has 'F') patterns
  let r := oneOf found
  let r := if given.has 'x' then .followed .start (.followed r .stop)
    else if given.has 'w' then .followed .notAfterWord (.followed r .notBeforeWord)
    else r
  pure (r, remarks)

-- All matches in a line that are not empty, with what is in front of them.
def matchesIn (r : Regex) : Nat → Nat → Text → Option Char → List (Nat × Text)
  | 0, _, _, _ => []
  | fuel + 1, start, t, before =>
    match Regex.search? r [] t before with
    | none => []
    | some found =>
      let place := start + Text.utf8Size found.front
      if found.whole = [] then
        match found.after.rest with
        | c :: rest => matchesIn r fuel (place + Text.utf8Size [c]) rest (some c)
        | [] => []
      else (place, found.whole) :: matchesIn r fuel (place + Text.utf8Size found.whole) found.after.rest found.after.before

-- A line of a file with its number, how many bytes are in front of it, and whether it counts.
structure Candidate where
  number : Nat
  offset : Nat
  text : Text
  counts : Bool

def candidates (given : Given) (r : Regex) : Nat → Nat → List Text → List Candidate
  | _, _, [] => []
  | number, offset, line :: rest =>
    ⟨number, offset, line, r.matches_ line ≠ given.has 'v'⟩ ::
      candidates given r (number + 1) (offset + Text.utf8Size line + 1) rest

-- Only so many lines count; nothing after the last of them counts.
def limited : Option Nat → List Candidate → List Candidate
  | none, lines => lines
  | some _, [] => []
  | some 0, line :: rest => { line with counts := false } :: limited (some 0) rest
  | some (n + 1), line :: rest => line :: limited (some (if line.counts then n else n + 1)) rest

-- Lines around those that count. After the last one that may count, only its own context is
-- shown.
def around (before after : Nat) (lines : List Candidate) : List Candidate :=
  let numbers := (lines.filter Candidate.counts).map Candidate.number
  lines.filter fun line => line.counts ||
    numbers.any fun m => (line.number < m && m ≤ line.number + before) || (m < line.number && line.number ≤ m + after)

def contextText (shown : Candidate → Text) : Option Nat → List Candidate → Text
  | _, [] => []
  | latest, line :: rest =>
    let gap := match latest with
      | some m => if m + 1 < line.number then "--\n".toList else []
      | none => []
    gap ++ shown line ++ contextText shown (some line.number) rest

-- A number of lines of context: the option's own, or that for both sides.
def contextOf (given : Given) (c : Char) : Nat :=
  let digits := (given.letters.map Prod.fst).filter Char.isDigit
  let both := (given.argument? 'C').orElse fun _ => if digits = [] then none else some digits
  (((given.argument? c).orElse fun _ => both).bind Numeral.count?).getD 0

-- Whether a text looks like one for people.
def isReadable (t : Text) : Bool := !t.contains '\x00' && Octets.ofText (Octets.toText t) = t

-- What is shown of a file, and whether a line was found. A mark separates lines with context
-- from those of files before.
def grepText (given : Given) (r : Regex) (titled separates : Bool) (name t : Text) : Text × Bool :=
  let mark := if given.has 'z' then '\x00' else '\n'
  let whole := Octets.toText t
  let parts := Text.splitOn mark whole
  let lines := if parts.getLast? = some [] then parts.dropLast else parts
  let lines := limited ((given.argument? 'm').bind Numeral.count?) (candidates given r 1 0 lines)
  let found := lines.filter Candidate.counts
  let title := fun (c : Char) => if titled then name ++ [if given.has 'Z' then '\x00' else c] else []
  let lead := fun (line : Candidate) (offset : Nat) =>
    let c := if line.counts then ':' else '-'
    title c ++ (if given.has 'n' then Text.ofNat line.number ++ [c] else []) ++
      (if given.has 'b' then Text.ofNat offset ++ [c] else [])
  let listed := name ++ [if given.has 'Z' then '\x00' else '\n']
  let shown :=
    if given.has 'q' then []
    else match (given.letters.reverse.find? fun entry => entry.1 = 'l' || entry.1 = 'L').map Prod.fst with
    | some c => if found.isEmpty = (c = 'L') then listed else []
    | none =>
    if given.has 'c' then title ':' ++ Text.ofNat found.length ++ ['\n']
    else if !given.has 'a' && !given.has 'z' && !isReadable t then
      (if found.isEmpty then [] else "grep: ".toList ++ name ++ ": binary file matches\n".toList)
    else
      let show_ := fun (line : Candidate) =>
        if given.has 'o' then
          if given.has 'v' || !line.counts then []
          else (matchesIn r (line.text.length + 2) line.offset line.text none).flatMap fun m => lead line m.1 ++ m.2 ++ [mark]
        else lead line line.offset ++ line.text ++ [mark]
      let before := contextOf given 'B'
      let after := contextOf given 'A'
      if found.isEmpty then []
      else if 0 < before || 0 < after then
        (if separates then "--\n".toList else []) ++ contextText show_ none (around before after lines)
      else found.flatMap show_
  (Octets.ofText shown, !found.isEmpty)

-- What a search has come to: the host, whether a line was found, and whether all went well.
structure Search where
  host : State
  found : Bool
  fine : Bool

-- A directory counts as a file without lines. Where nothing is shown, the first line that is
-- found ends the search.
def searchFile (given : Given) (r : Regex) (titled : Bool) (name : Text) (search : Search) : Search :=
  if search.found && given.has 'q' then search
  else
    let label := (given.argument? '\x02').getD "(standard input)".toList
    let shownName := if name = ['-'] then label else name
    match content name search.host with
    | (.ok t, s) =>
      let (shown, here) := grepText given r titled search.found shownName t
      ⟨print shown s, search.found || here, search.fine⟩
    | (.error e, s) =>
      let s := if given.has 's' then s else complain "grep" (shownName ++ ": ".toList ++ e.description) s
      ⟨if e = .isDirectory then print (grepText given r titled search.found shownName []).1 s else s, search.found, false⟩

-- The files below a directory, as they are named from where it is.
def filesBelow (given : Given) (s : State) : Nat → Text → List Text
  | 0, _ => []
  | fuel + 1, name =>
    match s.find (if name = [] then ['.'] else name) with
    | .ok (location, .directory) =>
      (namesBelow s location).flatMap fun child =>
        let path := if name = [] then child else name ++ ['/'] ++ child
        match s.find path with
        | .ok (_, .directory) =>
          let skips := (given.letters.filter fun entry => entry.1 = '\x05').any fun entry => Pattern.accepts entry.2 child
          if skips then [] else filesBelow given s fuel path
        | _ =>
          let wanted := given.letters.filter fun entry => entry.1 = '\x03'
          let unwanted := given.letters.filter fun entry => entry.1 = '\x04'
          if (wanted.isEmpty || wanted.any fun entry => Pattern.accepts entry.2 child) &&
            !unwanted.any fun entry => Pattern.accepts entry.2 child then [path] else []
    | _ => [name]

def grepUsage : Text :=
  "Usage: grep [OPTION]... PATTERNS [FILE]...\nTry 'grep --help' for more information.\n".toList

-- The patterns that are given, or the file of patterns that cannot be read.
def patternsOf (given : Given) (s : State) : Except (Text × Errno) (List Text) :=
  given.letters.foldlM (fun found entry =>
    if entry.1 = 'e' then .ok (found ++ Text.splitOn '\n' (Octets.toText entry.2))
    else if entry.1 = 'f' then
      match (content entry.2 s).1 with
      | .ok t => .ok (found ++ bareLines (Octets.toText t))
      | .error e => .error (entry.2, e)
    else .ok found) []

-- What is wrong with the numbers among the options.
def numberFault? (given : Given) : Option Text :=
  given.letters.findSome? fun entry =>
    if (entry.1 = 'A' || entry.1 = 'B' || entry.1 = 'C') && (Numeral.count? entry.2).isNone then
      some (entry.2 ++ ": invalid context length argument".toList)
    else if entry.1 = 'm' && (Numeral.integer? entry.2).isNone then some "invalid max count".toList
    else none

def grep : Tool := fun args s =>
  match parse grepGrammar args with
  | .error e => ((complain "grep" e s).emit 2 grepUsage, 2)
  | .ok given =>
    let matchers := "EFGP".toList.filter given.has
    let named := given.letters.any fun entry => entry.1 = 'e' || entry.1 = 'f'
    if 1 < matchers.length then fails s "grep" "conflicting matchers specified".toList 2
    else match numberFault? given with
    | some e => fails s "grep" e 2
    | none =>
      if !named && given.operands.isEmpty then (s.emit 2 grepUsage, 2)
      else
        let patterns := if named then patternsOf given s else .ok (Text.splitOn '\n' (Octets.toText (given.operands.headD [])))
        match patterns with
        | .error (name, e) => fails s "grep" (name ++ ": ".toList ++ e.description) 2
        | .ok patterns =>
          let isHopeless := (given.argument? 'm').bind Numeral.count? = some 0 ||
            (patterns = [[]] && given.has 'v' && !given.has 'x' && !given.has 'w')
          if isHopeless && !given.has 'L' then (s, 1)
          else
          let operands := if named then given.operands else given.operands.tail
          match expressionOf given patterns with
          | .error e => fails s "grep" e 2
          | .ok (r, remarks) =>
            let s := remarks.foldl (fun s remark => complain "grep" ("warning: ".toList ++ remark) s) s
            let isDeep := given.has 'r' || given.has 'R'
            let files := if !isDeep then orInput operands
              else (if operands.isEmpty then [[]] else operands).flatMap (filesBelow given s 100)
            let titled := !given.has 'h' && (given.has 'H' || isDeep || 1 < operands.length)
            let search := files.foldl (fun search name => searchFile given r titled name search) ⟨s, false, true⟩
            (search.host, if search.found && (search.fine || given.has 'q') then 0 else if !search.fine then 2 else 1)

end PortableActions.Shell.Tool
