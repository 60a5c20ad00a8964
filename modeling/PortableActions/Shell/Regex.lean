import PortableActions.Shell.Pattern
-- Regular expressions as programs read them, in the basic and in the extended form. Of the
-- matches at the leftmost place the longest one counts.
namespace PortableActions.Shell

inductive Regex where
  | empty
  | one (accepts : Char → Bool)
  | start
  | stop
  | lineStart
  | lineStop
  | wordStart
  | wordEnd
  | wordEdge (inside : Bool)
  | notAfterWord
  | notBeforeWord
  | followed (first second : Regex)
  | either (first second : Regex)
  | times (body : Regex) (low : Nat) (high : Option Nat)
  | group (number : Nat) (body : Regex)
  | again (number : Nat)

namespace Regex

-- A place in a text: the character before it, what follows, and what groups have held.
structure Spot where
  before : Option Char
  rest : Text
  held : List (Nat × Text)

def Spot.move (spot : Spot) (n : Nat) : Spot :=
  if n = 0 then spot else { spot with before := (spot.rest.take n).getLast?, rest := spot.rest.drop n }

def isWordCharacter (c : Char) : Bool := c.isAlphanum || c = '_' || 0x7F < c.toNat

def Spot.isAfterWord (spot : Spot) : Bool := (spot.before.map isWordCharacter).getD false

def Spot.isBeforeWord (spot : Spot) : Bool := (spot.rest.head?.map isWordCharacter).getD false

-- One spot for each place; the first one counts.
def distinct (spots : List Spot) : List Spot :=
  spots.foldr (fun spot kept => spot :: kept.filter fun other => other.rest.length ≠ spot.rest.length) []

def when_ (b : Bool) (spot : Spot) : List Spot := if b then [spot] else []

-- All places where a match from a spot may end. The number bounds the depth.
def ends : Nat → Regex → Spot → List Spot
  | 0, _, _ => []
  | fuel + 1, r, spot =>
    match r with
    | empty => [spot]
    | one accepts =>
      match spot.rest with
      | c :: _ => if accepts c then [spot.move 1] else []
      | [] => []
    | start => when_ spot.before.isNone spot
    | stop => when_ spot.rest.isEmpty spot
    | lineStart => when_ (spot.before.all (· = '\n')) spot
    | lineStop => when_ (spot.rest.head?.all (· = '\n')) spot
    | wordStart => when_ (!spot.isAfterWord && spot.isBeforeWord) spot
    | wordEnd => when_ (spot.isAfterWord && !spot.isBeforeWord) spot
    | notAfterWord => when_ (!spot.isAfterWord) spot
    | notBeforeWord => when_ (!spot.isBeforeWord) spot
    | wordEdge inside => when_ ((spot.isAfterWord = spot.isBeforeWord) = inside) spot
    | followed first second => distinct ((ends fuel first spot).flatMap (ends fuel second))
    | either first second => distinct (ends fuel first spot ++ ends fuel second spot)
    | times body low high =>
      if high = some 0 then [spot]
      else
        let onward := (ends fuel body spot).filter fun next => next.rest.length < spot.rest.length || low ≠ 0
        let more := onward.flatMap fun next => ends fuel (times body (low - 1) (high.map (· - 1))) next
        distinct (more ++ (if low = 0 then [spot] else []))
    | group number body =>
      (ends fuel body spot).map fun after =>
        { after with held := (number, spot.rest.take (spot.rest.length - after.rest.length)) ::
            after.held.filter fun entry => entry.1 ≠ number }
    | again number =>
      match spot.held.find? fun entry => entry.1 = number with
      | some (_, t) => if t.isPrefixOf spot.rest then [spot.move t.length] else []
      | none => []

def size : Regex → Nat
  | followed first second | either first second => first.size + second.size + 1
  | times body low high => body.size + low + high.getD 0 + 1
  | group _ body => body.size + 1
  | _ => 1

-- The longest match from a spot: where it ends.
def longest? (r : Regex) (spot : Spot) : Option Spot :=
  (ends (r.size + 2 * spot.rest.length + 4) r spot).foldl (fun best next => match best with
    | some found => if next.rest.length < found.rest.length then some next else best
    | none => some next) none

-- A match: what is in front of it, what it holds, and where it ends.
structure Match where
  front : Text
  whole : Text
  after : Spot

def search? (r : Regex) (front : Text) : Text → Option Char → Option Match
  | [], before => (r.longest? ⟨before, [], []⟩).map fun after => ⟨front.reverse, [], after⟩
  | c :: rest, before =>
    match r.longest? ⟨before, c :: rest, []⟩ with
    | some after => some ⟨front.reverse, (c :: rest).take (rest.length + 1 - after.rest.length), after⟩
    | none => search? r (c :: front) rest (some c)

def find? (r : Regex) (t : Text) : Option Match := search? r [] t none

def matches_ (r : Regex) (t : Text) : Bool := (r.find? t).isSome

def held (m : Match) (number : Nat) : Text :=
  if number = 0 then m.whole else ((m.after.held.find? fun entry => entry.1 = number).map Prod.snd).getD []

-- Who reads an expression. `strict` takes no second repetition right after one and no
-- repetition of nothing. `lenient` takes both, and braces that are no repetition stand for
-- themselves. `searching` is `lenient` for searches in lines.
inductive Manner where
  | strict
  | lenient
  | searching
  deriving DecidableEq, Repr

-- How an expression is written: whether operators are bare or have a backslash, whether
-- upper and lower case count as the same, who reads it, and whether the anchors are those of
-- every line of a text.
structure Form where
  extended : Bool
  folds : Bool
  manner : Manner
  perLine : Bool

inductive Fault where
  | bracket
  | parenthesis
  | closing
  | brace
  | braceContent
  | size
  | repetition
  | reference
  | trailing
  | rangeEnd
  | className
  | collation
  | lone
  deriving DecidableEq, Repr

def Fault.message : Fault → Text
  | bracket => "Unmatched [, [^, [:, [., or [=".toList
  | parenthesis => "Unmatched ( or \\(".toList
  | closing => "Unmatched ) or \\)".toList
  | brace => "Unmatched \\\x7b".toList
  | braceContent => "Invalid content of \\\x7b\\\x7d".toList
  | size => "Regular expression too big".toList
  | repetition => "Invalid preceding regular expression".toList
  | reference => "Invalid back reference".toList
  | trailing => "Trailing backslash".toList
  | rangeEnd => "Invalid range end".toList
  | className => "Invalid character class name".toList
  | collation => "Invalid collation character".toList
  | lone => "Invalid regular expression".toList

def bareClassMessage : Text := "character class syntax is [[:space:]], not [:space:]".toList

-- A member of a set in brackets: a character, or a class with its name.
inductive Member where
  | single (c : Char)
  | class_ (holds : Char → Bool)
  | same (c : Char)

-- The text up to a mark and a closing bracket, as names of classes and characters end.
def upTo (mark : Char) : Text → Option (Text × Text)
  | c :: ']' :: r => if c = mark then some ([], r) else (upTo mark (']' :: r)).map fun (t, rest) => (c :: t, rest)
  | c :: r => (upTo mark r).map fun (t, rest) => (c :: t, rest)
  | [] => none

def member (t : Text) : Except Fault (Member × Text) :=
  match t with
  | '[' :: ':' :: r =>
    match upTo ':' r with
    | none => .ok (.single '[', ':' :: r)
    | some (name, rest) =>
      match Pattern.classes.find? fun entry => entry.1.toList = name with
      | some entry => .ok (.class_ entry.2, rest)
      | none => .error .className
  | '[' :: '=' :: r =>
    match upTo '=' r with
    | some ([c], rest) => .ok (.same c, rest)
    | some _ => .error .collation
    | none => .error .bracket
  | '[' :: '.' :: r =>
    match upTo '.' r with
    | some ([c], rest) => .ok (.single c, rest)
    | some _ => .error .collation
    | none => .error .bracket
  | c :: r => .ok (.single c, r)
  | [] => .error .bracket

-- The members up to the closing bracket, as tests, and what follows it. The first member may
-- be a closing bracket itself, and a dash stands for itself only at either end.
def members : Nat → Bool → Text → Except Fault (List (Char → Bool) × Text)
  | 0, _, _ => .error .bracket
  | _ + 1, _, [] => .error .bracket
  | fuel + 1, isFirst, c :: r => do
    if c = ']' && !isFirst then pure ([], r)
    else if c = '-' && !isFirst && r.head?.any (· ≠ ']') then throw .rangeEnd
    else
      let (found, rest) ← member (c :: r)
      match found, rest with
      | .class_ holds, rest =>
        let (more, after) ← members fuel false rest
        pure (holds :: more, after)
      | .same c, rest =>
        let (more, after) ← members fuel false rest
        pure ((· = c) :: more, after)
      | .single low, '-' :: next :: rest =>
        if next = ']' then
          let (more, after) ← members fuel false ('-' :: next :: rest)
          pure ((· = low) :: more, after)
        else
          let (high, rest) ← member (next :: rest)
          match high with
          | .single high =>
            if high < low then throw .rangeEnd
            else
              let (more, after) ← members fuel false rest
              pure ((fun c => low ≤ c && c ≤ high) :: more, after)
          | _ => throw .rangeEnd
      | .single c, rest =>
        let (more, after) ← members fuel false rest
        pure ((· = c) :: more, after)

-- Whether a set is written like the name of a class that has lost its brackets.
def isBareClass (t : Text) : Bool :=
  match t with
  | ':' :: r =>
    let body := r.takeWhile (· ≠ ']')
    1 < body.length && body.getLast? = some ':' && (r.drop body.length).head? = some ']' &&
      body.dropLast.all fun c => c ≠ '[' && c ≠ '-'
  | _ => false

def bracket (form : Form) (t : Text) : Except Fault (Regex × Text) := do
  let negated := t.head? = some '^'
  let inner := if negated then t.tail else t
  if inner = [] then throw .lone
  else
    let (tests, rest) ← members (inner.length + 1) true inner
    let holds := fun (c : Char) => tests.any fun test => test c
    let matchesCase := fun (c : Char) => holds c || (form.folds && (holds c.toLower || holds c.toUpper))
    let accepts := fun (c : Char) =>
      if negated then !matchesCase c && !(form.perLine && c = '\n') else matchesCase c
    pure (one accepts, rest)

def literal (folds : Bool) (c : Char) : Regex :=
  one fun d => d = c || (folds && d.toLower = c.toLower)

inductive Lexeme where
  | atom (r : Regex)
  | anchor (r : Regex)
  | star
  | plus
  | question
  | brace
  | braceEnd
  | open_
  | close
  | bar
  | caret
  | dollar
  | done

def escape (form : Form) (c : Char) (r : Text) : Lexeme × Text :=
  let bare := fun (lexeme : Lexeme) => (if form.extended then .atom (literal form.folds c) else lexeme, r)
  match c with
  | '(' => bare .open_
  | ')' => bare .close
  | '|' => bare .bar
  | '+' => bare .plus
  | '?' => bare .question
  | '\x7b' => bare .brace
  | '\x7d' => bare .braceEnd
  | 'w' => (.atom (one isWordCharacter), r)
  | 'W' => (.atom (one fun c => !isWordCharacter c), r)
  | 's' => (.atom (one fun c => c = ' ' || ('\t' ≤ c && c ≤ '\r')), r)
  | 'S' => (.atom (one fun c => !(c = ' ' || ('\t' ≤ c && c ≤ '\r'))), r)
  | '<' => (.anchor wordStart, r)
  | '>' => (.anchor wordEnd, r)
  | 'b' => (.anchor (wordEdge false), r)
  | 'B' => (.anchor (wordEdge true), r)
  | '\x60' => (.anchor start, r)
  | '\'' => (.anchor stop, r)
  | _ => if '1' ≤ c && c ≤ '9' then (.atom (again (c.toNat - 48)), r) else (.atom (literal form.folds c), r)

-- The next lexeme. In the basic form a caret is an anchor only at the start of a branch, and
-- a dollar only at the end of one.
def lexeme (form : Form) (atStart : Bool) (t : Text) : Except Fault (Lexeme × Text) :=
  match t with
  | [] => .ok (.done, [])
  | ['\\'] => .error .trailing
  | '\\' :: c :: r => .ok (escape form c r)
  | '[' :: r => (bracket form r).map fun (b, rest) => (.atom b, rest)
  | '.' :: r => .ok (.atom (one fun c => !form.perLine || c ≠ '\n'), r)
  | '*' :: r => .ok (.star, r)
  | '^' :: r => .ok (if form.extended || atStart then .caret else .atom (literal form.folds '^'), r)
  | '$' :: r =>
    let ends := form.extended || r = [] || Text.startsWith ['\\', ')'] r || Text.startsWith ['\\', '|'] r
    .ok (if ends then .dollar else .atom (literal form.folds '$'), r)
  | c :: r =>
    if !form.extended then .ok (.atom (literal form.folds c), r)
    else match c with
      | '(' => .ok (.open_, r)
      | ')' => .ok (.close, r)
      | '|' => .ok (.bar, r)
      | '+' => .ok (.plus, r)
      | '?' => .ok (.question, r)
      | '\x7b' => .ok (.brace, r)
      | '\x7d' => .ok (.braceEnd, r)
      | c => .ok (.atom (literal form.folds c), r)

-- The digits of a bound: none if there are no digits, a fault if there is something else.
-- What follows begins with a comma or the end of the braces.
def bound (form : Form) : Nat → Option Nat → Bool → Text → Option Nat × Bool × Text
  | 0, n, bad, t => (n, bad, t)
  | fuel + 1, n, bad, t =>
    match t with
    | [] => (n, true, [])
    | ',' :: _ => (n, bad, t)
    | '\\' :: c :: r =>
      if !form.extended && c = '\x7d' then (n, bad, t) else bound form fuel n true r
    | c :: r =>
      if form.extended && c = '\x7d' then (n, bad, t)
      else if c.isDigit then bound form fuel (some (n.getD 0 * 10 + (c.toNat - 48))) bad r
      else bound form fuel n true r

def maxRepetition : Nat := 32767

-- The bounds of a repetition in braces, and what follows them.
def interval (form : Form) (t : Text) : Except Fault (Nat × Option Nat × Text) := do
  let ending := if form.extended then ['\x7d'] else ['\\', '\x7d']
  let closed := fun (low : Nat) (high : Option Nat) (rest : Text) =>
    if rest = [] then .error .brace
    else if !Text.startsWith ending rest || high.any (· < low) then .error .braceContent
    else if maxRepetition < high.getD low then .error .size
    else .ok (low, high, rest.drop ending.length)
  let (low, bad, rest) := bound form (t.length + 1) none false t
  match rest with
  | ',' :: more =>
    if bad then throw .braceContent
    else
      let (high, bad, rest) := bound form (more.length + 1) none false more
      if bad then throw (if rest = [] then .brace else .braceContent)
      else closed (low.getD 0) high rest
  | _ =>
    match low with
    | some n => if bad then throw (if rest = [] then .brace else .braceContent) else closed n (some n) rest
    | none => throw (if rest = [] then .brace else .braceContent)

-- What has been read of an expression: the branches before, the current one without its last
-- piece, and that piece, if a repetition may follow it. Groups that are open wait below.
structure Open where
  number : Nat
  branches : Option Regex
  before : Regex
  last : Option Regex

def Open.settled (o : Open) : Regex :=
  match o.last with
  | some r => .followed o.before r
  | none => o.before

def Open.whole (o : Open) : Regex :=
  match o.branches with
  | some branches => .either branches o.settled
  | none => o.settled

def Open.push (o : Open) (r : Regex) : Open := { o with before := o.settled, last := some r }

-- An anchor takes no repetition.
def Open.fix (o : Open) (r : Regex) : Open := { o with before := .followed o.settled r, last := none }

def Open.repeat_ (o : Open) (low : Nat) (high : Option Nat) : Open :=
  { o with last := o.last.map fun r => .times r low high }

def freshOpen (number : Nat) : Open := ⟨number, none, .empty, none⟩

-- An expression that was read: itself, how many groups it has, what should be said about it,
-- and whether it has a class without its brackets.
structure Reading where
  regex : Regex
  groups : Nat
  remarks : List Text
  hasBareClass : Bool

-- What becomes of a repetition: it repeats the last piece, stands for itself, or is passed
-- over.
inductive Role where
  | repeats (low : Nat) (high : Option Nat)
  | plain
  | skipped

-- An operator of repetition as it is written.
def operatorText : Lexeme → Text
  | .star => ['*']
  | .plus => ['+']
  | .question => ['?']
  | _ => ['\x7b']

-- What is said about a repetition of nothing.
def startRemark (found : Lexeme) : Text :=
  (match found with
    | .brace => "\x7b...\x7d".toList
    | other => operatorText other) ++ " at start of expression".toList

-- Bounds of an operator without braces.
def boundsOf : Lexeme → Option (Nat × Option Nat)
  | .star => some (0, none)
  | .plus => some (1, none)
  | .question => some (0, some 1)
  | _ => none

-- The part that an operator of repetition plays after the last piece, which may be missing or
-- may have a repetition already, and what follows it.
def roleOf (form : Form) (found : Lexeme) (hasLast wasRepeated : Bool) (rest : Text) : Except Fault (Role × Text) :=
  match boundsOf found with
  | some (low, high) =>
    let isStar := match found with
      | .star => true
      | _ => false
    if hasLast then
      if wasRepeated && isStar && form.manner = .strict && !form.extended then .error .repetition
      else .ok (.repeats low high, rest)
    else if !form.extended then .ok (.plain, rest)
    else if form.manner = .strict then .error .repetition
    else .ok (.skipped, rest)
  | none =>
    if !form.extended && form.manner = .strict && (wasRepeated || !hasLast) then .error .repetition
    else if form.extended && form.manner = .strict && !hasLast then .error .repetition
    else if !form.extended && !hasLast then .ok (.plain, rest)
    else match interval form rest with
      | .ok (low, high, after) =>
        .ok (if hasLast then .repeats low high else .skipped, after)
      | .error fault =>
        let hasBounds := rest.takeWhile (fun c => c.isDigit || c = ',') ≠ [] &&
          (rest.dropWhile fun c => c.isDigit || c = ',').head? = some '\x7d'
        if form.extended && form.manner ≠ .strict && !hasBounds then .ok (.plain, rest) else .error fault

def build (form : Form) : Nat → Nat → Bool → Bool → List Text → List Open → Open → Text → Except Fault Reading
  | 0, _, _, _, _, _, _, _ => .error .trailing
  | fuel + 1, groups, atStart, wasRepeated, remarks, below, o, t => do
    let (found, rest) ← lexeme form atStart t
    let goOn := fun (o : Open) (rest : Text) => build form fuel groups false false remarks below o rest
    let anchored := fun (r : Regex) => build form fuel groups false false remarks below (o.fix r) rest
    let asItself := fun (c : Char) => goOn (o.push (literal form.folds c)) rest
    match found with
    | .done => if below.isEmpty then pure ⟨o.whole, groups, remarks.reverse, false⟩ else throw .parenthesis
    | .atom (again n) => if groups < n then throw .reference else goOn (o.push (again n)) rest
    | .atom r =>
      let isBare := t.head? = some '[' && isBareClass t.tail
      (goOn (o.push r) rest).map fun reading => { reading with hasBareClass := isBare || reading.hasBareClass }
    | .anchor r => if form.manner = .searching then goOn (o.push r) rest else anchored r
    | .caret =>
      if form.manner = .searching && form.extended then build form fuel groups true false remarks below (o.push start) rest
      else anchored (if form.perLine then lineStart else start)
    | .dollar =>
      if form.manner = .searching && form.extended then goOn (o.push stop) rest
      else anchored (if form.perLine then lineStop else stop)
    | .bar => build form fuel groups true false remarks below { o with branches := some o.whole, before := .empty, last := none } rest
    | .open_ => build form fuel (groups + 1) true false remarks (o :: below) (freshOpen (groups + 1)) rest
    | .braceEnd => asItself '\x7d'
    | .close =>
      match below with
      | [] => if form.extended && form.manner ≠ .strict then asItself ')' else throw .closing
      | outer :: below => build form fuel groups false false remarks below (outer.push (.group o.number o.whole)) rest
    | .star | .plus | .question | .brace =>
      let (role, rest) ← roleOf form found o.last.isSome wasRepeated rest
      let noted := if atStart then startRemark found :: remarks else remarks
      match role with
      | .repeats low high => build form fuel groups false true noted below (o.repeat_ low high) rest
      | .plain => goOn (o.push ((operatorText found).foldr (fun c r => .followed (literal form.folds c) r) .empty)) rest
      | .skipped => build form fuel groups atStart false noted below o rest

-- The number of groups counts from one; the whole expression has the number zero.
def read (form : Form) (t : Text) : Except Fault Reading := build form (t.length + 2) 0 true false [] [] (freshOpen 0) t

end Regex
end PortableActions.Shell
