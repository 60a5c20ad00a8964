import PortableActions.Shell.Regex
import PortableActions.Shell.Tool.Show
-- The program that puts numbers in front of lines. A file may be divided into pages with a
-- head, a body and a foot, each of which has its own way of numbering.
namespace PortableActions.Shell.Tool

-- Which lines have numbers.
inductive Numbering where
  | all
  | filled
  | none
  | holding (regex : Regex)

inductive Alignment where
  | left
  | right
  | zeros

inductive Section where
  | head
  | body
  | foot
  deriving DecidableEq

structure LineNumbers where
  head : Numbering
  body : Numbering
  foot : Numbering
  first : Int
  step : Int
  joined : Nat
  keepsOn : Bool
  width : Nat
  alignment : Alignment
  separator : Text
  mark : Text

def plainNumbers : LineNumbers :=
  ⟨.none, .filled, .none, 1, 1, 1, false, 6, .right, ['\t'], ['\\', ':']⟩

def numbering (part : String) (t : Text) : Except Text Numbering :=
  match t with
  | ['a'] => .ok .all
  | ['t'] => .ok .filled
  | ['n'] => .ok .none
  | 'p' :: pattern =>
    match Regex.read ⟨false, false, .lenient, false⟩ (Octets.toText pattern) with
    | .ok reading => .ok (.holding reading.regex)
    | .error e => .error e.message
  | _ => .error ("invalid ".toList ++ part.toList ++ " numbering style: ".toList ++ Quoting.curled t)

def integerOf (what : String) (least : Int) (t : Text) : Except Text Int :=
  match Numeral.integer? t with
  | some n => if least ≤ n then .ok n
    else .error (what.toList ++ ": ".toList ++ Quoting.curled t ++ ": Numerical result out of range".toList)
  | none => .error (what.toList ++ ": ".toList ++ Quoting.curled t)

-- Takes one option. Some faults end the reading at once; the others are told in order.
def LineNumbers.take (how : LineNumbers) (option : Char × Text) : Except Text LineNumbers :=
  let t := option.2
  match option.1 with
  | 'h' => (numbering "header" t).map fun n => { how with head := n }
  | 'b' => (numbering "body" t).map fun n => { how with body := n }
  | 'f' => (numbering "footer" t).map fun n => { how with foot := n }
  | 'v' => (integerOf "invalid starting line number" (-Numeral.largest) t).map fun n => { how with first := n }
  | 'i' => (integerOf "invalid line number increment" (-Numeral.largest) t).map fun n => { how with step := n }
  | 'l' => (integerOf "invalid line number of blank lines" 1 t).map fun n => { how with joined := n.toNat }
  | 'w' => (integerOf "invalid line number field width" 1 t).map fun n => { how with width := n.toNat }
  | 'p' => .ok { how with keepsOn := true }
  | 's' => .ok { how with separator := t }
  | 'd' => .ok { how with mark := match t with
      | [c] => [c, ':']
      | t => t }
  | 'n' =>
    match String.ofList t with
    | "ln" => .ok { how with alignment := .left }
    | "rn" => .ok { how with alignment := .right }
    | "rz" => .ok { how with alignment := .zeros }
    | _ => .error ("invalid line numbering format: ".toList ++ Quoting.curled t)
  | _ => .ok how

def LineNumbers.label (how : LineNumbers) (n : Int) : Text :=
  let t := Text.ofInt n
  let number := match how.alignment with
    | .left => t ++ List.replicate (how.width - t.length) ' '
    | .right => padded how.width t
    | .zeros =>
      let digits := if n < 0 then t.tail else t
      let sign := if n < 0 then ['-'] else []
      sign ++ List.replicate (how.width - t.length) '0' ++ digits
  number ++ how.separator

def LineNumbers.blank (how : LineNumbers) : Text := List.replicate (how.width + how.separator.length) ' '

-- The part of a page that a line begins.
def LineNumbers.section? (how : LineNumbers) (line : Text) : Option Section :=
  if how.mark.length < 2 then none
  else if line = how.mark ++ how.mark ++ how.mark then some .head
  else if line = how.mark ++ how.mark then some .body
  else if line = how.mark then some .foot
  else none

def LineNumbers.style (how : LineNumbers) : Section → Numbering
  | .head => how.head
  | .body => how.body
  | .foot => how.foot

-- Where the numbering is: the part of the page, the next number, and empty lines since the
-- last number.
structure Numbered where
  part : Section
  next : Int
  blanks : Nat

def LineNumbers.line (how : LineNumbers) (at_ : Numbered) (line : Text) : Text × Numbered :=
  match how.section? line with
  | some part => (['\n'], { at_ with part := part, next := if how.keepsOn then at_.next else how.first })
  | none =>
    let counted := (how.label at_.next ++ line ++ ['\n'], { at_ with next := at_.next + how.step, blanks := 0 })
    let passed := (how.blank ++ line ++ ['\n'], at_)
    match how.style at_.part with
    | .all =>
      if line = [] && 1 < how.joined && at_.blanks + 1 ≠ how.joined then (passed.1, { at_ with blanks := at_.blanks + 1 })
      else counted
    | .filled => if line = [] then passed else counted
    | .none => passed
    | .holding regex => if regex.matches_ (Octets.toText line) then counted else passed

def LineNumbers.lines (how : LineNumbers) (at_ : Numbered) (t : Text) : Text × Numbered :=
  (bareLines t).foldl (fun (shown, at_) line =>
    let (more, at_) := how.line at_ line
    (shown ++ more, at_)) ([], at_)

def LineNumbers.files (how : LineNumbers) : List Text → Numbered → State → State × Nat
  | [], _, s => (s, 0)
  | name :: rest, at_, s =>
    match content name s with
    | (.ok t, s) =>
      let (shown, at_) := how.lines at_ t
      how.files rest at_ (print shown s)
    | (.error e, s) => ((how.files rest at_ (complain "nl" (plainReason name e) s)).1, 1)

def nlGrammar : Grammar :=
  ⟨"h:b:f:v:i:pl:s:w:n:d:", [("header-numbering", 'h'), ("body-numbering", 'b'), ("footer-numbering", 'f'),
    ("starting-line-number", 'v'), ("line-increment", 'i'), ("no-renumber", 'p'), ("join-blank-lines", 'l'),
    ("number-separator", 's'), ("number-width", 'w'), ("number-format", 'n'), ("section-delimiter", 'd')]⟩

-- Faults of styles and formats are told together with where help is; those of numbers and
-- patterns end the program at once.
def isGathered (option : Char) : Bool := "hbfn".toList.contains option

def nlOptions : List (Char × Text) → LineNumbers → List Text → Except (List Text × Text) (LineNumbers × List Text)
  | [], how, gathered => .ok (how, gathered)
  | option :: rest, how, gathered =>
    match how.take option with
    | .ok how => nlOptions rest how gathered
    | .error e =>
      if isGathered option.1 && option.2.head? ≠ some 'p' then nlOptions rest how (gathered ++ [e])
      else .error (gathered, e)

def nl : Tool := fun args s =>
  let given := scan nlGrammar args
  let told := fun (messages : List Text) (s : State) => messages.foldl (fun s e => complain "nl" e s) s
  match nlOptions given.letters plainNumbers [], given.fault with
  | .error (before, e), _ => (told (before ++ [e]) s, 1)
  | .ok (_, before), some e => fails (told before s) "nl" (e ++ advice "nl") 1
  | .ok (how, []), none => how.files (orInput given.operands) ⟨.body, how.first, 0⟩ s
  | .ok (_, before), none => ((told before s).emit 2 ((advice "nl").drop 1 ++ ['\n']), 1)

end PortableActions.Shell.Tool
