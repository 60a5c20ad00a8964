import PortableActions.Shell.Tool.Edit
import PortableActions.Shell.Tool.Show
-- The stream editor at work: its commands are applied to every line of a text.
namespace PortableActions.Shell.Tool
open Edit

-- A line, and whether a newline ended it.
structure Line where
  text : Text
  ended : Bool

-- Complaints about files that could not be read, and the status that comes of them.
structure Notices where
  texts : List Text
  status : Nat

-- A line of the input with its number and file. A line may be the last one, or the first one of
-- a file; then it brings what there was to say about the files before its own.
structure Source where
  line : Line
  number : Nat
  file : Text
  isLast : Bool
  opens : Bool
  notices : Notices

-- How the editor works: without showing lines by itself, on every file apart, back into the
-- files. The width is that of lines shown with their escapes, and the mark ends a line.
structure Mode where
  silent : Bool
  separate : Bool
  inPlace : Bool
  width : Nat
  mark : Char

-- What is put out at the end of a round.
inductive Later where
  | text (t : Text)
  | file (name : Text)

-- The editor between two commands: input that is left, the current line, the space that is
-- held, output so far (latest first) and whether its last line lacks its end, the files that
-- lack one, how many lines of which files were read, ranges that are open with the lines where they end, ranges that are over, the
-- pattern that was used last, whether a substitution was made, output for the files that are
-- done, what there is to say at the end of the input and the status so far, and the host.
structure Editing where
  inputs : List Source
  number : Nat
  file : Text
  isLast : Bool
  space : Line
  held : Line
  output : List Text
  owes : Bool
  owing : List Text
  taken : List (Text × Nat)
  later : List Later
  ranges : List (Nat × Option Nat)
  passed : List Nat
  pattern : Option Regex
  substituted : Bool
  done : List (Text × Text)
  notices : Notices
  status : Nat
  host : State

def linesIn (mode : Mode) (t : Text) : List Line :=
  let parts := Text.splitOn mode.mark t
  let ended := parts.dropLast.map fun line => Line.mk line true
  match parts.getLast? with
  | some last => if last = [] then ended else ended ++ [⟨last, false⟩]
  | none => ended

def Editing.raw (mode : Mode) (t : Text) (e : Editing) : Editing :=
  { e with output := t :: (if e.owes then [mode.mark] :: e.output else e.output), owes := false }

def Editing.put (mode : Mode) (line : Line) (e : Editing) : Editing :=
  { e.raw mode (if line.ended then line.text ++ [mode.mark] else line.text) with owes := !line.ended }

-- The content of a file as text; a file that cannot be read has none.
def Editing.contentOf (e : Editing) (name : Text) : Text :=
  match e.host.find name with
  | .ok (_, .file bytes) => Text.ofUtf8 bytes
  | _ => []

def Editing.settle (mode : Mode) (e : Editing) : Editing :=
  let after := e.later.foldl (fun e later => match later with
    | .text t => e.raw mode t
    | .file name => e.raw mode (e.contentOf name)) e
  { after with later := [] }

-- Puts a line into a file of its own.
def Editing.write (mode : Mode) (name : Text) (line : Line) (e : Editing) : Editing :=
  let t := if line.ended then line.text ++ [mode.mark] else line.text
  if name = "/dev/stdout".toList then
    if mode.inPlace then { e with host := e.host.emit 1 (Octets.ofText t) } else e.put mode line
  else if name = "/dev/stderr".toList then { e with host := e.host.emit 2 (Octets.ofText t) }
  else match e.host.find name with
    | .ok (location, .file bytes) =>
      let gap := if e.owing.contains name then [mode.mark] else []
      { e with
        host := e.host.writeFile location (bytes ++ Text.utf8 (gap ++ t))
        owing := if line.ended then e.owing.filter (· ≠ name) else name :: e.owing.filter (· ≠ name) }
    | _ => e

-- The output so far belongs to the file that was edited.
def Editing.finish (e : Editing) : Editing :=
  { e with done := e.done ++ [(e.file, e.output.reverse.flatten)], output := [], owes := false }

def Editing.complain (notices : Notices) (e : Editing) : Editing :=
  { e with
    host := notices.texts.foldl (fun s t => Tool.complain "sed" t s) e.host
    status := max e.status notices.status }

-- Looks for more input behind the current file.
def Editing.lookAhead (e : Editing) : Editing :=
  match e.inputs with
  | [] => { e.complain e.notices with notices := ⟨[], 0⟩ }
  | source :: rest => { e.complain source.notices with inputs := { source with notices := ⟨[], 0⟩ } :: rest }

-- Whether the current line is the last one. To know that, one has to look ahead.
def Editing.atLast (mode : Mode) (e : Editing) : Bool × Editing :=
  (e.isLast, if mode.separate || !(e.inputs.head?.all Source.opens) then e else e.lookAhead)

-- The next line becomes the current one, or is joined to it.
def Editing.advance? (mode : Mode) (joins : Bool) (e : Editing) : Option Editing :=
  match e.inputs with
  | [] => none
  | source :: rest =>
    let e := (e.settle mode).complain source.notices
    let e := if mode.separate && source.opens then
        { (if mode.inPlace && e.number ≠ 0 then e.finish else e) with ranges := [], passed := [], held := ⟨[], true⟩ }
      else e
    let text := if joins then e.space.text ++ [mode.mark] ++ source.line.text else source.line.text
    some { e with
      inputs := rest
      number := source.number
      file := source.file
      isLast := source.isLast
      space := ⟨text, source.line.ended⟩
      substituted := false }

-- The pattern that is meant, and the editor that remembers it.
def Editing.remember (r : Option Regex) (e : Editing) : Option Regex × Editing :=
  match r with
  | some r => (some r, { e with pattern := some r })
  | none => (e.pattern, e)

-- Whether an address is that of the current line; none if there is no pattern to go by.
def meets (mode : Mode) (a : Address) (e : Editing) : Option (Bool × Editing) :=
  match a with
  | .every => some (true, e)
  | .line n => some (e.number = n, e)
  | .step first step => some (first ≤ e.number && (e.number - first) % step = 0, e)
  | .last => some (e.atLast mode)
  | .pattern r =>
    match e.remember r with
    | (some r, e) => some (r.matches_ e.space.text, e)
    | (none, _) => none

-- Whether a range that is not open starts at the current line. One that starts at a line may be
-- late, but it starts once only.
def starts (mode : Mode) (place : Nat) (a : Address) (b : End) (e : Editing) : Option (Bool × Editing) := do
  let fromLine := match a with
    | .line n => some n
    | _ => none
  let (hit, e) ← match fromLine with
    | some n => some (n ≤ e.number && !e.passed.contains place, e)
    | none => meets mode a e
  if !hit then some (false, e)
  else
    let e := { e with passed := place :: e.passed }
    let upTo := fun (n : Nat) =>
      if n < e.number then (fromLine.all (· = e.number), e)
      else (true, if n = e.number then e else { e with ranges := (place, some n) :: e.ranges })
    match b with
    | .after n => some (upTo (e.number + n))
    | .multiple 0 => some (true, e)
    | .address (.line n) => some (upTo n)
    | .address .last =>
      let (isLast, e) := e.atLast mode
      some (true, if isLast then e else { e with ranges := (place, none) :: e.ranges })
    | .multiple _ | .address _ => some (true, { e with ranges := (place, none) :: e.ranges })

-- Whether a command is for the current line; the range of a command is known by its place.
-- A range that starts at the line zero is open from the beginning.
def applies (mode : Mode) (place : Nat) (command : Command) (e : Editing) : Option (Bool × Editing) := do
  let (hit, e) ← match command.first, command.second with
    | none, _ => some (true, e)
    | some a, none => meets mode a e
    | some a, some b =>
      let fromZero := match a with
        | .line 0 => !e.passed.contains place
        | _ => false
      match (if fromZero then some (place, none) else e.ranges.find? fun entry => entry.1 = place) with
      | none => starts mode place a b e
      | some (_, stop) =>
        let closed := fun (e : Editing) => { e with ranges := e.ranges.filter fun entry => entry.1 ≠ place }
        let e := { e with passed := place :: e.passed }
        match stop, b with
        | some n, _ => some (e.number ≤ n, if n ≤ e.number then closed e else e)
        | none, .address b =>
          let (hit, e) ← meets mode b e
          some (true, if hit then closed e else { closed e with ranges := (place, none) :: (closed e).ranges })
        | none, .multiple n => some (true, if e.number % n = 0 then closed e else e)
        | none, .after _ => some (true, closed e)
  some (hit ≠ command.negated, e)

-- What case the characters of a replacement get: all of them, and the next one.
structure Casing where
  all : Char → Char
  next : Option (Char → Char)

def Casing.apply (casing : Casing) (t : Text) : Text × Casing :=
  match t, casing.next with
  | c :: r, some f => (f c :: r.map casing.all, { casing with next := none })
  | t, _ => (t.map casing.all, casing)

def renderPieces (m : Regex.Match) : List Replacement → Casing → Text
  | [], _ => []
  | piece :: rest, casing =>
    let shown := fun (t : Text) =>
      let (t, casing) := casing.apply t
      t ++ renderPieces m rest casing
    match piece with
    | .text t => shown t
    | .group n => shown (Regex.held m n)
    | .upper => renderPieces m rest ⟨Char.toUpper, none⟩
    | .lower => renderPieces m rest ⟨Char.toLower, none⟩
    | .asIs => renderPieces m rest ⟨id, none⟩
    | .upperNext => renderPieces m rest { casing with next := some Char.toUpper }
    | .lowerNext => renderPieces m rest { casing with next := some Char.toLower }

-- Matches from left to right; an empty one right after another does not count.
def substituteIn (r : Regex) (how : Substitution) : Nat → Nat → Bool → Text → Option Char → Text × Bool
  | 0, _, _, t, _ => (t, false)
  | fuel + 1, nth, afterMatch, t, before =>
    match Regex.search? r [] t before with
    | none => (t, false)
    | some m =>
      let isEmpty := m.whole = [] && m.front = [] && afterMatch
      let counts := !isEmpty && how.number ≤ nth
      let shown := if counts then renderPieces m how.replacement ⟨id, none⟩ else m.whole
      let nth := if isEmpty then nth else nth + 1
      if counts && !how.all then (m.front ++ shown ++ m.after.rest, true)
      else if m.whole = [] then
        match m.after.rest with
        | [] => (m.front ++ shown, counts)
        | c :: rest =>
          let (more, made) := substituteIn r how fuel nth false rest (some c)
          (m.front ++ shown ++ c :: more, counts || made)
      else
        let (more, made) := substituteIn r how fuel nth true m.after.rest m.after.before
        (m.front ++ shown ++ more, counts || made)

-- A line with its escapes, cut to a width.
def escaped (c : Char) : Text :=
  match c with
  | '\\' => ['\\', '\\']
  | '\x07' => ['\\', 'a']
  | '\x08' => ['\\', 'b']
  | '\x0C' => ['\\', 'f']
  | '\n' => ['\\', 'n']
  | '\r' => ['\\', 'r']
  | '\t' => ['\\', 't']
  | '\x0B' => ['\\', 'v']
  | c =>
    if ' ' ≤ c && c ≤ '~' then [c]
    else
      let n := c.toNat
      ['\\', Char.ofNat (48 + n / 64), Char.ofNat (48 + n / 8 % 8), Char.ofNat (48 + n % 8)]

def shownLine (mode : Mode) (width : Nat) : Nat → Text → Text
  | _, [] => ['$', mode.mark]
  | column, c :: r =>
    let t := escaped c
    if 0 < width && width - 1 < column + t.length then ['\\', mode.mark] ++ t ++ shownLine mode width t.length r
    else t ++ shownLine mode width (column + t.length) r

-- How a command ends.
inductive Turn where
  | goOn
  | jump (place : Nat)
  | endRound
  | again
  | stop (prints : Bool) (status : Nat)
  | lost

def placeOf (commands : List Command) (name : Text) : Nat :=
  if name = [] then commands.length
  else (commands.findIdx? fun command => match command.edit with
    | .label n => n = name
    | _ => false).getD commands.length

-- The next line of a file that is read line by line.
def Editing.takeLine (mode : Mode) (name : Text) (e : Editing) : Editing :=
  let count := ((e.taken.find? fun entry => entry.1 = name).map Prod.snd).getD 0
  match (linesIn mode (e.contentOf name))[count]? with
  | some line =>
    { e with
      later := e.later ++ [.text (if line.ended then line.text ++ [mode.mark] else line.text)]
      taken := (name, count + 1) :: e.taken.filter fun entry => entry.1 ≠ name }
  | none => e

def firstLine (mode : Mode) (line : Line) : Line :=
  ⟨line.text.takeWhile (· ≠ mode.mark), line.ended || line.text.contains mode.mark⟩

-- A text that is put in, with the mark at its end that lines have.
def marked (mode : Mode) (t : Text) : Text :=
  if t.getLast? = some '\n' && !t.dropLast.contains '\n' then t.dropLast ++ [mode.mark] else t

def applyEdit (mode : Mode) (commands : List Command) (place : Nat) (edit : Edit) (e : Editing) : Turn × Editing :=
  let shown := fun (e : Editing) => if mode.silent then e else e.put mode e.space
  match edit with
  | .substitute how =>
    match e.remember how.pattern with
    | (none, e) => (.lost, e)
    | (some r, e) =>
      let (t, made) := substituteIn r how (e.space.text.length + 2) 1 false e.space.text none
      let e := { e with space := { e.space with text := t }, substituted := e.substituted || made }
      let e := if made && how.prints then e.put mode e.space else e
      (.goOn, match how.file with
        | some file => if made then e.write mode file e.space else e
        | none => e)
  | .delete => (.endRound, e)
  | .deleteFirst =>
    match e.space.text.dropWhile (· ≠ mode.mark) with
    | [] => (.endRound, e)
    | _ :: rest => (.again, { e with space := { e.space with text := rest } })
  | .print_ => (.goOn, e.put mode e.space)
  | .printFirst => (.goOn, e.put mode (firstLine mode e.space))
  | .next =>
    let (isLast, e) := (shown e).atLast mode
    if isLast then (.endRound, e)
    else match e.advance? mode false with
      | some e => (.goOn, e)
      | none => (.endRound, e)
  | .nextAppended =>
    let (isLast, e) := e.atLast mode
    if isLast then (.endRound, shown e)
    else match e.advance? mode true with
      | some e => (.goOn, e)
      | none => (.endRound, shown e)
  | .quit prints status => (.stop prints status, e)
  | .append t => (.goOn, { e with later := e.later ++ [.text t] })
  | .read name => (.goOn, { e with later := e.later ++ [.file name] })
  | .readLine name => (.goOn, e.takeLine mode name)
  | .insert t => (.goOn, e.raw mode (marked mode t))
  | .change t => (.endRound, if e.ranges.any fun entry => entry.1 = place then e else e.raw mode (marked mode t))
  | .translate pairs =>
    let turn := fun (c : Char) => ((pairs.find? fun pair => pair.1 = c).map Prod.snd).getD c
    (.goOn, { e with space := { e.space with text := e.space.text.map turn } })
  | .hold false => (.goOn, { e with held := e.space })
  | .hold true =>
    (.goOn, { e with held := { e.space with text := e.held.text ++ [mode.mark] ++ e.space.text } })
  | .get false => (.goOn, { e with space := e.held })
  | .get true =>
    (.goOn, { e with space := { e.held with text := e.space.text ++ [mode.mark] ++ e.held.text } })
  | .exchange => (.goOn, { e with space := e.held, held := e.space })
  | .number => (.goOn, e.raw mode (Text.ofNat e.number ++ [mode.mark]))
  | .fileName => (.goOn, e.put mode ⟨e.file, true⟩)
  | .empty => (.goOn, { e with space := { e.space with text := [] } })
  | .show_ width => (.goOn, e.raw mode (shownLine mode (width.getD mode.width) 0 (Octets.ofText e.space.text)))
  | .write name firstOnly =>
    (.goOn, e.write mode name (if firstOnly then firstLine mode e.space else e.space))
  | .branch name ifSubstituted unlessSubstituted =>
    if ifSubstituted && !e.substituted then (.goOn, e)
    else if unlessSubstituted && e.substituted then (.goOn, { e with substituted := false })
    else (.jump (placeOf commands name), { e with substituted := e.substituted && !ifSubstituted })
  | .label _ | .group _ | .nothing => (.goOn, e)

-- The commands from a place on.
def runFrom (mode : Mode) (commands : List Command) : Nat → Nat → Editing → Turn × Editing
  | 0, _, e => (.stop true 0, e)
  | fuel + 1, place, e =>
    match commands[place]? with
    | none => (.goOn, e)
    | some command =>
      match applies mode place command e with
      | none => (.lost, e)
      | some (false, e) =>
        match command.edit with
        | .group count => runFrom mode commands fuel (place + 1 + count) e
        | _ => runFrom mode commands fuel (place + 1) e
      | some (true, e) =>
        match applyEdit mode commands place command.edit e with
        | (.goOn, e) => runFrom mode commands fuel (place + 1) e
        | (.jump place, e) => runFrom mode commands fuel place e
        | other => other

-- Far more commands and rounds than any text of ordinary length takes.
def mostSteps : Nat := 1000000

-- The status of the editor when it is told to end.
def Editing.ended (status : Nat) (e : Editing) : Editing := { e with status := if e.status = 0 then status else e.status }

-- Rounds of the editor, each with a new line unless the last one left some. The result is
-- whether every pattern was there.
def editAll (mode : Mode) (commands : List Command) : Nat → Bool → Editing → Bool × Editing
  | 0, _, e => (true, e)
  | fuel + 1, takesLine, e =>
    match (if takesLine then e.advance? mode false else some (e.settle mode)) with
    | none => (true, (e.settle mode).lookAhead)
    | some e =>
      match runFrom mode commands mostSteps 0 e with
      | (.goOn, e) => editAll mode commands fuel true (if mode.silent then e else e.put mode e.space)
      | (.again, e) => editAll mode commands fuel false e
      | (.stop true status, e) =>
        (true, (((if mode.silent then e else e.put mode e.space).settle mode).raw mode []).ended status)
      | (.stop false status, e) => (true, e.ended status)
      | (.lost, e) => (false, e)
      | (_, e) => editAll mode commands fuel true e

-- A file as it was found: its text, or what there is to say.
inductive Found where
  | text (name t : Text)
  | notice (t : Text) (status : Nat)

-- The lines of the files. Numbers and the last line count for all of them, or for each apart.
def sourcesOf (mode : Mode) : List Found → Nat → Notices → List Source × Notices
  | [], _, notices => ([], notices)
  | .notice t status :: rest, count, notices =>
    sourcesOf mode rest count ⟨notices.texts ++ [t], max status notices.status⟩
  | .text name t :: rest, count, notices =>
    match linesIn mode t with
    | [] => sourcesOf mode rest count notices
    | lines =>
      let start := if mode.separate then 0 else count
      let (more, others) := sourcesOf mode rest (count + lines.length) ⟨[], 0⟩
      let here := ((List.range lines.length).zip lines).map fun entry =>
        Source.mk entry.2 (start + entry.1 + 1) name
          (entry.1 + 1 = lines.length && (mode.separate || more.isEmpty)) (entry.1 = 0)
          (if entry.1 = 0 then notices else ⟨[], 0⟩)
      (here ++ more, others)

end PortableActions.Shell.Tool
