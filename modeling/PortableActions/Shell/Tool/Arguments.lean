import PortableActions.Shell.Escape
import PortableActions.Shell.Tool.Basic
import PortableActions.Text.Scan
-- Commands that are made of a text: words are read from it, and so many of them at a time
-- become arguments. Of several ways to say how many, the last one counts.
namespace PortableActions.Shell.Tool

-- What bounds the arguments of one command.
inductive Share where
  | all
  | words (n : Nat)
  | lines (n : Nat)
  | inserted (mark : Text)

-- How the words are read and used.
structure Gathering where
  share : Share
  stop : Option Char
  traced : Bool
  skipsEmpty : Bool
  strict : Bool
  last : Option Text
  source : Option Text
  warnings : List Text

def exclusive (kept lost : String) (how : Gathering) : Gathering :=
  { how with warnings := how.warnings ++ ["warning: options ".toList ++ (if lost = "replace" then "--replace".toList
      else if lost = "max-args" then "--max-args".toList else "--max-lines".toList) ++ " and ".toList ++ kept.toList ++
      " are mutually exclusive, ignoring previous --".toList ++ lost.toList ++ " value".toList] }

-- A share in place of another one.
def Gathering.sharing (how : Gathering) (kept : String) (share : Share) : Gathering :=
  let told := match how.share, share with
    | .inserted _, .inserted _ | .words _, .words _ | .lines _, .lines _ | .all, _ | _, .all => how
    | .inserted _, _ => exclusive kept "replace" how
    | .words _, _ => exclusive kept "max-args" how
    | .lines _, _ => exclusive kept "max-lines" how
  { told with share := share }

def seeHelp (message : Text) : Text := message ++ advice "xargs"

def gatheringCount (letter : Char) (t : Text) : Except Text Nat :=
  match Numeral.integer? t with
  | none => .error (seeHelp ("invalid number \"".toList ++ t ++ "\" for -".toList ++ [letter] ++ " option".toList))
  | some n =>
    if n < 1 then .error (seeHelp ("value ".toList ++ Text.ofInt n ++ " for -".toList ++ [letter] ++ " option should be >= 1".toList))
    else .ok n.toNat

-- A character that separates words, written as it is or as an escape.
def delimiter (t : Text) : Except Text Char :=
  match t with
  | [c] => .ok c
  | '\\' :: c :: r =>
    match (if c = 'e' then none else Escape.named? c), r with
    | some d, [] => .ok d
    | _, _ =>
      let digits := if c = 'x' then r else c :: r
      let valid := digits.takeWhile (if c = 'x' then Numeral.isHexDigit else Numeral.isOctal)
      if valid.length = digits.length then .ok (Escape.byte (Numeral.valueIn (if c = 'x' then 16 else 8) valid))
      else .error ("Invalid escape sequence ".toList ++ t ++ " in input delimiter specification; trailing characters ".toList ++
        digits.drop valid.length ++ " not recognised.".toList)
  | _ => .error ("Invalid input delimiter specification ".toList ++ t ++ ": the delimiter must be either a ".toList ++
      "single character or an escape sequence starting with \\.".toList)

def Gathering.take (how : Gathering) (option : Char × Text) : Except Text Gathering :=
  let t := option.2
  match option.1 with
  | '0' => .ok { how with stop := some '\x00' }
  | 'd' => (delimiter t).map fun c => { how with stop := some c }
  | 'r' => .ok { how with skipsEmpty := true }
  | 't' => .ok { how with traced := true }
  | 'x' => .ok { how with strict := true }
  | 'a' => .ok { how with source := some t }
  | 'E' | 'e' => .ok { how with last := if t = [] then none else some t }
  | 'I' | 'i' => .ok (how.sharing "--replace/-I/-i" (.inserted (if t = [] then ['\x7b', '\x7d'] else t)))
  | 'L' => (gatheringCount 'L' t).map fun n => { how.sharing "-L" (.lines n) with strict := true }
  | 'l' =>
    (if t = [] then .ok 1 else gatheringCount 'l' t).map fun n =>
      { how.sharing "--max-lines/-l" (.lines n) with strict := true }
  | 'n' => (gatheringCount 'n' t).map fun n => match n, how.share with
    | 1, .inserted _ => how
    | n, _ => how.sharing "--max-args/-n" (.words n)
  | _ => .ok how

def plainGathering : Gathering := ⟨.all, none, false, false, false, none, none, []⟩

def gatheringGrammar : Grammar :=
  ⟨"0a:E:e::i::I:l::L:n:prs:txP:d:", [("null", '0'), ("arg-file", 'a'), ("replace", 'i'), ("max-lines", 'l'), ("max-args", 'n'),
    ("no-run-if-empty", 'r'), ("max-chars", 's'), ("verbose", 't'), ("exit", 'x'), ("max-procs", 'P'), ("delimiter", 'd'),
    ("eof", 'e')]⟩

-- What is found in the text: words, and ends of lines right behind a word.
inductive Piece where
  | word (t : Text)
  | lineEnd

-- The pieces, and the quote that has no partner if there is one.
abbrev Pieces := List Piece × Option Char

def Pieces.lead (piece : Piece) (pieces : Pieces) : Pieces := (piece :: pieces.1, pieces.2)

-- Words between blanks; quotes and backslashes keep them together. Whole lines are words if
-- they are to be inserted. The word that is being read is held backward.
def pieces (ofLines : Bool) : Nat → Option Text → Text → Pieces
  | 0, _, _ => ([], none)
  | _ + 1, none, [] => ([], none)
  | _ + 1, some word, [] => ([.word word.reverse], none)
  | fuel + 1, none, c :: r =>
    if Numeral.isSpace c then pieces ofLines fuel none r else pieces ofLines fuel (some []) (c :: r)
  | fuel + 1, some word, c :: r =>
    if c = '\n' then Pieces.lead (.word word.reverse) (Pieces.lead .lineEnd (pieces ofLines fuel none r))
    else if Source.isBlank c && !ofLines then Pieces.lead (.word word.reverse) (pieces ofLines fuel none r)
    else if c = '\'' || c = '"' then
      let inner := r.takeWhile fun d => d ≠ c && d ≠ '\n'
      match r.drop inner.length with
      | d :: rest => if d = c then pieces ofLines fuel (some (inner.reverse ++ word)) rest else ([], some c)
      | [] => ([], some c)
    else match c, r with
      | '\\', d :: r => pieces ofLines fuel (some (d :: word)) r
      | '\\', [] => pieces ofLines fuel (some word) []
      | c, r => pieces ofLines fuel (some (c :: word)) r

-- Pieces up to a word that stands for the end.
def upToLast (last : Option Text) : List Piece → List Piece
  | [] => []
  | .word t :: rest => if last = some t then [] else .word t :: upToLast last rest
  | .lineEnd :: rest => .lineEnd :: upToLast last rest

-- The arguments of each command: those that are full, and those that are left.
def shares (share : Share) : List Piece → Nat → List Text → List (List Text) × List Text
  | [], _, open_ => ([], open_)
  | .word t :: rest, lines, open_ =>
    let open_ := open_ ++ [t]
    let isFull : Bool := match share with
      | .words n => n ≤ open_.length
      | _ => false
    if isFull then
      let (full, left) := shares share rest lines []
      (open_ :: full, left)
    else shares share rest lines open_
  | .lineEnd :: rest, lines, open_ =>
    let isFull : Bool := match share with
      | .lines n => n ≤ lines + 1
      | _ => false
    if isFull then
      let (full, left) := shares share rest 0 []
      (open_ :: full, left)
    else shares share rest (lines + 1) open_

def Gathering.piecesOf (how : Gathering) (input : Text) : Pieces :=
  match how.stop with
  | some c => ((records c input).flatMap fun t => [.word t, .lineEnd], none)
  | none =>
    let ofLines : Bool := match how.share with
      | .inserted _ => true
      | _ => false
    let (found, open_) := pieces ofLines (2 * input.length + 2) none input
    (upToLast how.last found, open_)

-- The commands that a text makes of some first words, and what is wrong with the text.
def Gathering.commands (how : Gathering) (first : List Text) (input : Text) : List (List Text) × Option Text :=
  let (found, open_) := how.piecesOf input
  let fault := open_.map fun c => "unmatched ".toList ++ (if c = '"' then "double".toList else "single".toList) ++
    " quote; by default quotes are special to xargs unless you use the -0 option".toList
  match how.share with
  | .inserted mark =>
    let lines := found.filterMap fun piece => match piece with
      | .word t => some t
      | .lineEnd => none
    (lines.map fun line => first.map fun word => if mark = [] then word else Text.replaceAll mark line word, fault)
  | share =>
    let (full, left) := shares share found 0 []
    let left := if fault.isSome then (if left.isEmpty || how.strict then [] else [left])
      else if left.isEmpty && (!full.isEmpty || how.skipsEmpty) then [] else [left]
    ((full ++ left).map (first ++ ·), fault)

end PortableActions.Shell.Tool
