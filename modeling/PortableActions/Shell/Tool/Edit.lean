import PortableActions.Shell.Regex
import PortableActions.Shell.Tool.Basic
-- Scripts of the stream editor: commands with addresses, and how they are read.
namespace PortableActions.Shell.Tool.Edit

-- Which lines a command is for. A pattern that is missing is the one that was used last; a
-- step of zero is no address at all.
inductive Address where
  | every
  | line (n : Nat)
  | step (first step : Nat)
  | last
  | pattern (r : Option Regex)

-- Where a range ends: at an address, some lines after its start, or at a multiple.
inductive End where
  | address (a : Address)
  | after (n : Nat)
  | multiple (n : Nat)

-- A piece of what is put in place of a match: text, a group, or a change of case, which may be
-- for one character only.
inductive Replacement where
  | text (t : Text)
  | group (n : Nat)
  | upper
  | lower
  | asIs
  | upperNext
  | lowerNext

structure Substitution where
  pattern : Option Regex
  replacement : List Replacement
  all : Bool
  number : Nat
  prints : Bool
  file : Option Text

inductive Edit where
  | substitute (how : Substitution)
  | delete
  | print_
  | next
  | nextAppended
  | deleteFirst
  | printFirst
  | quit (prints : Bool) (status : Nat)
  | append (t : Text)
  | insert (t : Text)
  | change (t : Text)
  | translate (pairs : List (Char × Char))
  | hold (appends : Bool)
  | get (appends : Bool)
  | exchange
  | number
  | fileName
  | empty
  | show_ (width : Option Nat)
  | read (file : Text)
  | readLine (file : Text)
  | write (file : Text) (firstOnly : Bool)
  | label (name : Text)
  | branch (name : Text) (ifSubstituted : Bool) (unlessSubstituted : Bool)
  | group (count : Nat)
  | nothing

structure Command where
  first : Option Address
  second : Option End
  negated : Bool
  edit : Edit

-- Whether a fault belongs to a place of a script, to a part of it, or to nothing.
inductive Scope where
  | place
  | part
  | nowhere
  deriving DecidableEq, Repr

-- What is wrong with a script, and what is left to read there.
structure Fault where
  message : Text
  rest : Text
  scope : Scope

abbrev Reader := StateT Text (Except Fault)

def refuseText {α : Type} (message : Text) : Reader α := fun rest => .error ⟨message, rest, .place⟩

def refuse {α : Type} (message : String) : Reader α := refuseText message.toList

-- The next character; at the end there is none.
def next : Reader (Option Char) := fun t => match t with
  | [] => .ok (none, [])
  | c :: r => .ok (some c, r)

def giveBack (c : Option Char) : Reader Unit := modify fun t => c.toList ++ t

def nextFilled : Reader (Option Char) := do
  modify fun t => t.dropWhile Source.isBlank
  next

-- A number that may begin with a character that was read; without digits it is zero.
def number (c : Option Char) : Reader Nat := do
  giveBack c
  let t ← get
  let digits := t.takeWhile Char.isDigit
  set (t.drop digits.length)
  pure (Numeral.number digits)

-- Where a delimited piece stands: outside of brackets, right after an opening bracket, inside,
-- or in the name of a class.
inductive Within where
  | outside
  | opened
  | negated
  | inside
  | named (mark : Char)

-- Text up to a delimiter on the same line. A backslash in front of the delimiter goes. In an
-- expression a delimiter inside brackets does not count. Without a delimiter, what is left.
def segment (d : Char) (isRegex : Bool) : Within → Text → Except Text (Text × Text)
  | _, [] => .error []
  | place, c :: r =>
    let keep := fun (c : Char) (found : Except Text (Text × Text)) => found.map fun (t, rest) => (c :: t, rest)
    if c = '\n' then .error (c :: r)
    else match place with
      | .outside =>
        if c = d then .ok ([], r)
        else if c = '\\' then
          match r with
          | [] => .error []
          | e :: r =>
            if isRegex && e = 'n' then keep '\n' (segment d isRegex .outside r)
            else if e = '\n' || (e = d && (isRegex || e ≠ '&')) then keep e (segment d isRegex .outside r)
            else keep '\\' (keep e (segment d isRegex .outside r))
        else keep c (segment d isRegex (if isRegex && c = '[' then .opened else .outside) r)
      | .named mark =>
        match r with
        | ']' :: r =>
          if c = mark then keep c (keep ']' (segment d isRegex .inside r))
          else keep c (segment d isRegex (.named mark) (']' :: r))
        | r => keep c (segment d isRegex (.named mark) r)
      | place =>
        let isFirst := match place with
          | .inside => false
          | _ => true
        let isOpened := match place with
          | .opened => true
          | _ => false
        if c = '^' && isOpened then keep c (segment d isRegex .negated r)
        else if c = ']' then keep c (segment d isRegex (if isFirst then .inside else .outside) r)
        else match c, r with
          | '\\', 'n' :: r => keep '\n' (segment d isRegex .inside r)
          | '\\', '\\' :: r => keep '\\' (keep '\\' (segment d isRegex .inside r))
          | '[', mark :: r =>
            if mark = ':' || mark = '.' || mark = '=' then keep c (keep mark (segment d isRegex (.named mark) r))
            else keep c (segment d isRegex .inside (mark :: r))
          | c, r => keep c (segment d isRegex .inside r)

def segmentOf (d : Char) (isRegex : Bool) (complaint : String) : Reader Text := do
  match segment d isRegex .outside (← get) with
  | .ok (t, rest) =>
    set rest
    pure t
  | .error rest =>
    set rest
    refuse complaint

-- A character that is given by its number: how many of the digits are used, and which it is.
def numbered (base limit : Nat) (r : Text) : Option (Nat × Char) :=
  let digits := (r.take limit).takeWhile fun c => Numeral.isHexDigit c && Numeral.digitValue c < base
  if digits = [] then none else some (digits.length, Char.ofNat (Numeral.valueIn base digits % 256))

-- What a backslash and the letters after it stand for, as a single character, and what is
-- left.
def control? (t : Text) : Option (Char × Text) :=
  match t with
  | 'a' :: r => some ('\x07', r)
  | 'f' :: r => some ('\x0C', r)
  | 'r' :: r => some ('\r', r)
  | 't' :: r => some ('\t', r)
  | 'v' :: r => some ('\x0B', r)
  | 'c' :: '\\' :: '\\' :: r => some ('\x1C', r)
  | 'c' :: c :: r => some (Char.ofNat (c.toUpper.toNat ^^^ 64), r)
  | 'd' :: r => (numbered 10 3 r).map fun (n, c) => (c, r.drop n)
  | 'o' :: r => (numbered 8 3 r).map fun (n, c) => (c, r.drop n)
  | 'x' :: r => (numbered 16 2 r).map fun (n, c) => (c, r.drop n)
  | _ => none

-- An expression with its control characters; other backslashes stay.
def expressionText : Nat → Text → Text
  | 0, t => t
  | _ + 1, [] => []
  | fuel + 1, '\\' :: r =>
    match control? r, r with
    | some (c, rest), _ => (if c = '\\' then ['\\', '\\'] else [c]) ++ expressionText fuel rest
    | none, c :: r => '\\' :: c :: expressionText fuel r
    | none, [] => ['\\']
  | fuel + 1, c :: r => c :: expressionText fuel r

-- A text with its control characters, other backslashes taken away.
def plainText : Nat → Text → Text
  | 0, t => t
  | _ + 1, [] => []
  | fuel + 1, '\\' :: r =>
    match control? r, r with
    | some (c, rest), _ => c :: plainText fuel rest
    | none, 'n' :: r => '\n' :: plainText fuel r
    | none, c :: r => c :: plainText fuel r
    | none, [] => ['\\']
  | fuel + 1, c :: r => c :: plainText fuel r

-- How expressions of a script are written.
structure Form where
  extended : Bool

-- An expression that has to have so many groups; an empty one is the one used last.
def regexOf (form : Form) (folds perLine : Bool) (groups : Nat) (t : Text) : Reader (Option Regex) :=
  if t = [] then
    if folds || perLine then refuse "cannot specify modifiers on empty regexp" else pure none
  else match Regex.read ⟨form.extended, folds, .strict, perLine⟩ (expressionText (t.length + 1) t) with
    | .ok reading =>
      if reading.groups < groups then
        refuseText ("invalid reference \\".toList ++ Text.ofNat groups ++ " on `s' command's RHS".toList)
      else if reading.hasBareClass then fun rest => .error ⟨Regex.bareClassMessage, rest, .nowhere⟩
      else pure (some reading.regex)
    | .error e => refuseText e.message

-- Letters after an address.
def addressFlags : Nat → Bool → Bool → Reader (Bool × Bool)
  | 0, folds, perLine => pure (folds, perLine)
  | fuel + 1, folds, perLine => do
    match ← nextFilled with
    | some 'I' => addressFlags fuel true perLine
    | some 'M' => addressFlags fuel folds true
    | c => do
      giveBack c
      pure (folds, perLine)

-- An address whose first character was read.
def address? (form : Form) (c : Option Char) : Reader (Option End) := do
  let expression := fun (d : Char) => do
    let t ← segmentOf d true "unterminated address regex"
    let (folds, perLine) ← addressFlags ((← get).length + 1) false false
    let r ← regexOf form folds perLine 0 t
    pure (some (End.address (.pattern r)))
  match c with
  | some '/' => expression '/'
  | some '\\' =>
    match ← next with
    | some d => expression d
    | none => refuse "unterminated address regex"
  | some '$' => pure (some (.address .last))
  | some '+' => pure (some (.after (← number (← nextFilled))))
  | some '~' => pure (some (.multiple (← number (← nextFilled))))
  | some c =>
    if c.isDigit then
      let n ← number (some c)
      match ← nextFilled with
      | some '~' =>
        let step ← number (← nextFilled)
        pure (some (.address (if step = 0 then .line n else .step n step)))
      | c =>
        giveBack c
        pure (some (.address (.line n)))
    else do
      giveBack (some c)
      pure none
  | none => pure none

def pushText (c : Char) (pieces : List Replacement) : List Replacement :=
  match pieces with
  | .text t :: rest => .text (c :: t) :: rest
  | pieces => .text [c] :: pieces

def replacementOf : Nat → Text → List Replacement
  | 0, _ => []
  | _ + 1, [] => []
  | fuel + 1, '&' :: r => .group 0 :: replacementOf fuel r
  | fuel + 1, '\\' :: r =>
    match control? r, r with
    | some (c, rest), _ => pushText c (replacementOf fuel rest)
    | none, c :: r =>
      if c.isDigit then .group (c.toNat - 48) :: replacementOf fuel r
      else match c with
        | 'n' => pushText '\n' (replacementOf fuel r)
        | 'U' => .upper :: replacementOf fuel r
        | 'L' => .lower :: replacementOf fuel r
        | 'E' => .asIs :: replacementOf fuel r
        | 'u' => .upperNext :: replacementOf fuel r
        | 'l' => .lowerNext :: replacementOf fuel r
        | c => pushText c (replacementOf fuel r)
    | none, [] => [.text ['\\']]
  | fuel + 1, c :: r => pushText c (replacementOf fuel r)

-- The end of a command: a mark, or the end of a group, which stays.
def endCommand : Reader Unit := do
  match ← nextFilled with
  | some '\x7d' => giveBack (some '\x7d')
  | some '#' => giveBack (some '#')
  | none | some '\n' | some ';' => pure ()
  | some _ => refuse "extra characters after command"

def fileName : Reader Text := do
  let first ← nextFilled
  giveBack first
  let t ← get
  let name := t.takeWhile (· ≠ '\n')
  if name = [] then
    let _ ← next
    refuse "missing filename in r/R/w/W commands"
  else
    set (t.drop (name.length + 1))
    pure name

structure Flags where
  all : Bool
  number : Nat
  prints : Bool
  folds : Bool
  perLine : Bool
  file : Option Text

def substitutionFlags : Nat → Flags → Reader Flags
  | 0, flags => pure flags
  | fuel + 1, flags => do
    match ← nextFilled with
    | none | some '\n' | some ';' => pure flags
    | some '\x7d' =>
      giveBack (some '\x7d')
      pure flags
    | some '#' =>
      giveBack (some '#')
      pure flags
    | some 'i' | some 'I' => substitutionFlags fuel { flags with folds := true }
    | some 'm' | some 'M' => substitutionFlags fuel { flags with perLine := true }
    | some 'e' => substitutionFlags fuel flags
    | some 'p' =>
      if flags.prints then refuse "multiple `p' options to `s' command"
      else substitutionFlags fuel { flags with prints := true }
    | some 'g' =>
      if flags.all then refuse "multiple `g' options to `s' command"
      else substitutionFlags fuel { flags with all := true }
    | some 'w' => pure { flags with file := some (← fileName) }
    | some c =>
      if !c.isDigit then refuse "unknown option to `s'"
      else if flags.number ≠ 0 then refuse "multiple number options to `s' command"
      else
        let n ← number (some c)
        if n = 0 then refuse "number option to `s' command may not be zero"
        else substitutionFlags fuel { flags with number := n }

def groupsOf (pieces : List Replacement) : Nat :=
  pieces.foldl (fun most piece => match piece with
    | .group n => max most n
    | _ => most) 0

def substitution (form : Form) : Reader Edit := do
  let complaint := "unterminated `s' command"
  match ← next with
  | none => refuse complaint
  | some d =>
    let pattern ← segmentOf d true complaint
    let replacement ← segmentOf d false complaint
    let pieces := replacementOf (replacement.length + 1) replacement
    let flags ← substitutionFlags ((← get).length + 1) ⟨false, 0, false, false, false, none⟩
    let r ← regexOf form flags.folds flags.perLine (groupsOf pieces) pattern
    pure (.substitute ⟨r, pieces, flags.all, max 1 flags.number, flags.prints, flags.file⟩)

def translation : Reader Edit := do
  let complaint := "unterminated `y' command"
  match ← next with
  | none => refuse complaint
  | some d =>
    let first ← segmentOf d false complaint
    let second ← segmentOf d false complaint
    let first := plainText (first.length + 1) first
    let second := plainText (second.length + 1) second
    if first.length ≠ second.length then refuse "strings for `y' command are different lengths"
    else
      endCommand
      pure (.translate (first.zip second))

-- Lines up to one that does not end in a backslash: whether the last of them ends in one all the
-- same, the text, and what follows.
def lines : Text → Bool × Text × Text
  | [] => (false, [], [])
  | ['\\'] => (true, [], [])
  | '\\' :: c :: r =>
    let (isCut, t, rest) := lines r
    (isCut, '\\' :: c :: t, rest)
  | '\n' :: r => (false, [], r)
  | c :: r =>
    let (isCut, t, rest) := lines r
    (isCut, c :: t, rest)

-- The text of a command that puts lines in. Blanks in front of it go, unless there is a
-- backslash.
def textArgument : Reader Text := do
  let body := do
    let (isCut, t, rest) := lines (← get)
    set rest
    pure ((if isCut then t else plainText (t.length + 1) t) ++ ['\n'])
  match ← nextFilled with
  | none => refuse "expected \\ after `a', `c' or `i'"
  | some '\\' =>
    match ← next with
    | none => pure []
    | some '\n' => body
    | c =>
      giveBack c
      body
  | c =>
    giveBack c
    body

def labelName : Reader Text := do
  let c ← nextFilled
  giveBack c
  let t ← get
  let name := t.takeWhile fun c => !Source.isBlank c && c ≠ '\n' && c ≠ ';' && c ≠ '\x7d'
  set (t.drop name.length)
  pure name

-- A command without arguments.
def alone (edit : Edit) : Reader Edit := do
  endCommand
  pure edit

-- A number after a command, if there is one.
def optionalNumber : Reader (Option Nat) := do
  let c ← nextFilled
  if c.any Char.isDigit then
    let n ← number c
    endCommand
    pure (some n)
  else
    giveBack c
    endCommand
    pure none

def editAfter (form : Form) (first : Option Address) (second : Option End) (c : Char) : Reader Edit := do
  match c with
  | 's' => substitution form
  | 'y' => translation
  | 'd' => alone .delete
  | 'D' => alone .deleteFirst
  | 'p' => alone .print_
  | 'P' => alone .printFirst
  | 'n' => alone .next
  | 'N' => alone .nextAppended
  | 'h' => alone (.hold false)
  | 'H' => alone (.hold true)
  | 'g' => alone (.get false)
  | 'G' => alone (.get true)
  | 'x' => alone .exchange
  | '=' => alone .number
  | 'F' => alone .fileName
  | 'z' => alone .empty
  | 'q' | 'Q' =>
    if second.isSome then refuse "command only uses one address"
    else do pure (.quit (c = 'q') ((← optionalNumber).getD 0))
  | 'l' => do pure (.show_ (← optionalNumber))
  | 'a' => do pure (.append (← textArgument))
  | 'i' => do pure (.insert (← textArgument))
  | 'c' => do pure (.change (← textArgument))
  | 'r' => do pure (.read (← fileName))
  | 'R' => do pure (.readLine (← fileName))
  | 'w' => do pure (.write (← fileName) false)
  | 'W' => do pure (.write (← fileName) true)
  | ':' =>
    if first.isSome then refuse ": doesn't want any addresses"
    else
      let name ← labelName
      if name = [] then refuse "\":\" lacks a label" else pure (.label name)
  | 'b' => do pure (.branch (← labelName) false false)
  | 't' => do pure (.branch (← labelName) true false)
  | 'T' => do pure (.branch (← labelName) false true)
  | 'v' => do
    let _ ← labelName
    pure .nothing
  | c => refuseText ("unknown command: `".toList ++ [c] ++ ['\''])

-- The addresses in front of a command.
def addresses (form : Form) : Reader (Option Address × Option End) := do
  match ← address? form (← next) with
  | none => pure (none, none)
  | some start =>
    let first ← match start with
      | .address a => pure a
      | .after n | .multiple n =>
        if n = 0 then pure .every else refuse "invalid usage of +N or ~N as first address"
    let second ← match ← nextFilled with
      | some ',' => do
        let c ← nextFilled
        match ← address? form c with
        | some a => pure (some a)
        | none =>
          let _ ← next
          refuse "unexpected `,'"
      | c => do
        giveBack c
        pure none
    let startsAtZero := match first with
      | .line 0 => true
      | _ => false
    let endsAtPattern := match second with
      | some (.address (.pattern _)) => true
      | _ => false
    if startsAtZero && !endsAtPattern then do
      let _ ← nextFilled
      refuse "invalid usage of line address 0"
    else pure (some first, second)

-- Commands up to the end of the script or of a group.
def commandsOf (form : Form) : Nat → Option Text → Reader (List Command)
  | 0, _ => refuse "too many commands"
  | fuel + 1, opened => do
    modify fun t => t.dropWhile fun c => Source.isBlank c || ('\n' ≤ c && c ≤ '\r') || c = ';'
    if (← get) = [] then
      match opened with
      | none => pure []
      | some place => fun _ => .error ⟨"unmatched `\x7b'".toList, place, .part⟩
    else
      let (first, second) ← addresses form
      let mark ← nextFilled
      let negated := mark = some '!'
      let c ← if negated then nextFilled else pure mark
      match c with
      | none => refuse "missing command"
      | some '#' =>
        if first.isSome then refuse "comments don't accept any addresses"
        else
          modify fun t => t.dropWhile (· ≠ '\n')
          commandsOf form fuel opened
      | some '\x7d' =>
        if opened.isNone then refuse "unexpected `\x7d'"
        else if first.isSome then refuse "`\x7d' doesn't want any addresses"
        else
          endCommand
          pure []
      | some '\x7b' =>
        let inner ← commandsOf form fuel (some (← get))
        let rest ← commandsOf form fuel opened
        pure (⟨first, second, negated, .group inner.length⟩ :: (inner ++ rest))
      | some c =>
        if negated && c = '!' then refuse "multiple `!'s"
        else
          let edit ← editAfter form first second c
          let rest ← commandsOf form fuel opened
          pure (⟨first, second, negated, edit⟩ :: rest)

-- A label that a command goes to and that is nowhere.
def missingLabel? (commands : List Command) : Option Text :=
  let labels := commands.filterMap fun command => match command.edit with
    | .label name => some name
    | _ => none
  commands.findSome? fun command => match command.edit with
    | .branch name _ _ => if name = [] || labels.contains name then none else some name
    | _ => none

-- Files that the commands write.
def written (commands : List Command) : List Text :=
  commands.filterMap fun command => match command.edit with
    | .write file _ => some file
    | .substitute how => how.file
    | _ => none

end PortableActions.Shell.Tool.Edit
