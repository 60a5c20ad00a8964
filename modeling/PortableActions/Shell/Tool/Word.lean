import PortableActions.Shell.Condition
import PortableActions.Shell.Regex
import PortableActions.Shell.Tool.Select
import PortableActions.Shell.Tool.Sort
-- Programs that compute words: paths taken apart, numbers in a row, values, expressions.
namespace PortableActions.Shell.Tool

def missing (name : String) (s : State) : State × Nat := fails s name ("missing operand".toList ++ advice name) 1

def extraOperand (name : String) (operand : Text) (s : State) : State × Nat :=
  fails s name ("extra operand ".toList ++ Quoting.curled operand ++ advice name) 1

def withoutSlashes (t : Text) : Text := (t.reverse.dropWhile (· = '/')).reverse

def baseName (path ending : Text) : Text :=
  if path = [] then []
  else
    let last := ((withoutSlashes path).reverse.takeWhile (· ≠ '/')).reverse
    if last = [] then ['/']
    else if ending ≠ [] && last ≠ ending && Text.endsWith ending last then last.take (last.length - ending.length)
    else last

def basename : Tool := fun args s =>
  let grammar : Grammar := ⟨"as:z", [("multiple", 'a'), ("suffix", 's'), ("zero", 'z')]⟩
  match parseLeading grammar args with
  | .error e => fails s "basename" (e ++ advice "basename") 1
  | .ok given =>
    let ending := (given.argument? 's').getD []
    let stop := if given.has 'z' then '\x00' else '\n'
    if given.has 'a' || given.has 's' then
      if given.operands.isEmpty then missing "basename" s
      else (print (endedBy stop (given.operands.map fun path => baseName path ending)) s, 0)
    else match given.operands with
      | [] => missing "basename" s
      | [path] => (print (baseName path [] ++ [stop]) s, 0)
      | [path, ending] => (print (baseName path ending ++ [stop]) s, 0)
      | _ :: _ :: extra :: _ => extraOperand "basename" extra s

def directoryName (path : Text) : Text :=
  let lead := withoutSlashes ((withoutSlashes path).reverse.dropWhile (· ≠ '/')).reverse
  if lead ≠ [] then lead else if path.head? = some '/' then ['/'] else ['.']

def dirname : Tool := fun args s =>
  match parseLeading ⟨"z", [("zero", 'z')]⟩ args with
  | .error e => fails s "dirname" (e ++ advice "dirname") 1
  | .ok given =>
    if given.operands.isEmpty then missing "dirname" s else (print (endedBy (if given.has 'z' then '\x00' else '\n') (given.operands.map directoryName)) s, 0)

-- A whole number, perhaps negative.
def number? (t : Text) : Option Int :=
  let digits := if t.head? = some '-' then t.tail else t
  if Numeral.isDecimal digits then some (if t.head? = some '-' then -(Numeral.number digits : Int) else Numeral.number digits)
  else none

-- A number with digits behind the point.
structure Fixed where
  digits : Int
  places : Nat

def fixed? (t : Text) : Option Fixed :=
  let body := if t.head? = some '-' || t.head? = some '+' then t.tail else t
  let whole := body.takeWhile Char.isDigit
  let rest := body.drop whole.length
  let fraction := if rest.head? = some '.' then rest.tail else []
  if (whole ++ fraction) = [] || !fraction.all Char.isDigit || (rest ≠ [] && rest.head? ≠ some '.') then none
  else
    let n : Int := Numeral.number (whole ++ fraction)
    some ⟨if t.head? = some '-' then -n else n, fraction.length⟩

def Fixed.scaledTo (places : Nat) (x : Fixed) : Int := x.digits * (Nat.pow 10 (places - x.places) : Nat)

-- A bound of a row of numbers: its value, its sign, and how wide it was written once an
-- exponent is worked into it.
structure Bound where
  value : Fixed
  negative : Bool
  width : Int

def Fixed.shifted (exponent : Int) (x : Fixed) : Fixed :=
  let places := (x.places : Int) - exponent
  if 0 ≤ places then ⟨x.digits, places.toNat⟩ else ⟨x.digits * (Nat.pow 10 (-places).toNat : Nat), 0⟩

def decimalWidth (mantissa : Text) (exponent : Option Int) : Int :=
  let fraction := (mantissa.dropWhile (· ≠ '.')).length - 1
  let hasPoint := mantissa.contains '.'
  let before := mantissa.takeWhile (· ≠ '.')
  let plain : Int := (mantissa.length : Int) +
    (if !hasPoint then 0 else if fraction = 0 then -1 else if (before.getLast?.getD ' ').isDigit then 0 else 1)
  match exponent with
  | none => plain
  | some e =>
    if e < 0 then plain - e + (if !hasPoint || fraction = 0 then 1 else 0)
    else plain - (if hasPoint && fraction ≠ 0 && (fraction : Int) ≤ e then 1 else 0) + (e - min (fraction : Int) e)

-- A bound in decimal or hexadecimal digits.
def bound? (t : Text) : Option Bound :=
  let t := t.dropWhile fun c => Numeral.isSpace c || c = '+'
  let negative := t.head? = some '-'
  let body := if negative then t.tail else t
  let lower := body.map Char.toLower
  if Text.startsWith ['0', 'x'] lower then
    let digits := lower.drop 2
    let n : Int := Numeral.valueIn 16 digits
    if digits = [] || !digits.all Numeral.isHexDigit then none
    else some ⟨⟨if negative then -n else n, 0⟩, negative, t.length⟩
  else
    let mantissa := t.takeWhile fun c => c ≠ 'e' && c ≠ 'E'
    let exponent := if mantissa.length = t.length then some none
      else (number? (match t.drop (mantissa.length + 1) with
        | '+' :: r => if r.head? = some '-' then [] else r
        | r => r)).bind fun e => if e.natAbs ≤ 400 then some (some e) else none
    match fixed? mantissa, exponent with
    | some x, some e => some ⟨x.shifted (e.getD 0), negative, decimalWidth mantissa e⟩
    | _, _ => none

-- A scaled number with some places behind the point, filled up with zeros to a width.
def fixedText (scale places width : Nat) (n : Int) : Text :=
  let digits := Text.ofNat (n.natAbs / Nat.pow 10 (scale - places))
  let digits := List.replicate (places + 1 - digits.length) '0' ++ digits
  let body := digits.take (digits.length - places) ++
    (if places = 0 then [] else ['.'] ++ digits.drop (digits.length - places))
  let sign := if n < 0 then ['-'] else []
  sign ++ List.replicate (width - body.length - sign.length) '0' ++ body

def row (step last : Int) : Nat → Int → List Int
  | 0, _ => []
  | fuel + 1, n =>
    if (0 < step ∧ last < n) ∨ (step < 0 ∧ n < last) then [] else n :: row step last fuel (n + step)

-- Options of `seq` end at the first number, even if that is negative.
def seqOptions : Nat → List Text → Given → Given
  | 0, args, given => { given with operands := args }
  | fuel + 1, args, given =>
    match args with
    | ['-', '-'] :: rest => { given with operands := rest }
    | ('-' :: '-' :: name) :: rest =>
      let found := longOption ⟨"s:f:w", [("separator", 's'), ("format", 'f'), ("equal-width", 'w')]⟩ ofOperands name rest
      let given := { given with letters := given.letters ++ found.letters, fault := found.fault }
      if found.fault.isSome then given else seqOptions fuel found.operands given
    | ('-' :: c :: r) :: rest =>
      if c.isDigit || c = '.' then { given with operands := args }
      else
        let found := lettersOf ⟨"s:f:w", []⟩ ofOperands (c :: r) rest
        let given := { given with letters := given.letters ++ found.letters, fault := found.fault }
        if found.fault.isSome then given else seqOptions fuel found.operands given
    | _ => { given with operands := args }

-- The first directive of a form, what follows it, and whether there is one.
def afterPercent : Text → Option Text
  | [] => none
  | '%' :: '%' :: r => afterPercent r
  | '%' :: r => some r
  | _ :: r => afterPercent r

-- What is wrong with a form for numbers: it has one directive, for numbers with a fraction.
def formFault (form : Text) : Option Text :=
  let named := "format ".toList ++ Quoting.curled form
  match afterPercent form with
  | none => some (named ++ " has no % directive".toList)
  | some r =>
    let r := ((r.dropWhile "-+#0 '".toList.contains).dropWhile Char.isDigit)
    let r := if r.head? = some '.' then r.tail.dropWhile Char.isDigit else r
    match (if r.head? = some 'L' then r.tail else r) with
    | [] => some (named ++ " ends in %".toList)
    | c :: rest =>
      if !"efgaEFGA".toList.contains c then some (named ++ " has unknown %".toList ++ [c] ++ " directive".toList)
      else if (afterPercent rest).isSome then some (named ++ " has too many % directives".toList)
      else none

-- The numbers from a bound to another, as they are printed.
def rowText (given : Given) (first step last : Bound) : Text :=
  let places := max first.value.places step.value.places
  let scale := max places last.value.places
  let low := first.value.scaledTo scale
  let high := last.value.scaledTo scale
  let by_ := step.value.scaledTo scale
  let found := row by_ high ((high - low).natAbs / by_.natAbs + 1) low
  let widthOf := fun (b : Bound) (isLast : Bool) =>
    b.width + (places : Int) - b.value.places + (if b.value.places = 0 && places ≠ 0 then 1
      else if isLast && b.value.places ≠ 0 && places = 0 then -1 else 0)
  let width := if given.has 'w' then (max (widthOf first false) (widthOf last true)).toNat else 0
  let sign := fun (t : Text) => if first.negative && first.value.digits = 0 then
      '-' :: (if t.length = width && 1 < t.length then t.tail else t)
    else t
  let texts := found.map (fixedText scale places width)
  let texts := match texts with
    | t :: rest => sign t :: rest
    | [] => []
  let shown := match given.argument? 'f' with
    | some form => texts.map fun t => (Escape.printAll form 1 [t]).text
    | none => texts
  if shown.isEmpty then [] else Text.join ((given.argument? 's').getD ['\n']) shown ++ ['\n']

def seq : Tool := fun args s =>
  let given := seqOptions (args.length + 1) args (ofOperands [])
  let refuse := fun (e : Text) => fails s "seq" (e ++ advice "seq") 1
  match given.fault, given.operands with
  | some e, _ => refuse e
  | none, [] => missing "seq" s
  | none, _ :: _ :: _ :: extra :: _ => extraOperand "seq" extra s
  | none, operands =>
    match (given.argument? 'f').bind formFault with
    | some e => fails s "seq" e 1
    | none =>
      if given.has 'f' && given.has 'w' then
        refuse "format string may not be specified when printing equal width strings".toList
      else
        let badNumber := (operands.find? fun t => (bound? t).isNone).map fun t =>
          if ["nan".toList, "-nan".toList].contains (t.map Char.toLower) then
            "invalid ".toList ++ Quoting.curled "not-a-number".toList ++ " argument: ".toList ++ Quoting.curled t
          else "invalid floating point argument: ".toList ++ Quoting.curled t
        let isZeroStep := fun (t : Text) => operands.length = 3 && ((bound? t).map fun b => decide (b.value.digits = 0)).getD false
        let step := operands.getD 1 []
        if isZeroStep step && (bound? (operands.headD [])).isSome then
          refuse ("invalid Zero increment value: ".toList ++ Quoting.curled step)
        else match badNumber with
          | some e => refuse e
          | none =>
            let one : Bound := ⟨⟨1, 0⟩, false, 1⟩
            let text := match operands.filterMap bound? with
              | [last] => rowText given one one last
              | [first, last] => rowText given first one last
              | [first, step, last] => rowText given first step last
              | _ => []
            (if text = [] then s else print text s, 0)

def printenv : Tool := fun args s =>
  match parseLeading ⟨"0", [("null", '0')]⟩ args with
  | .error e => fails s "printenv" (e ++ advice "printenv") 2
  | .ok given =>
    let stop := if given.has '0' then '\x00' else '\n'
    let entries := s.environment
    if given.operands.isEmpty then (print (endedBy stop (entries.map fun entry => entry.1 ++ ['='] ++ entry.2)) s, 0)
    else
      let value? := fun (name : Text) => (entries.find? fun entry => entry.1 = name).map Prod.snd
      (print (endedBy stop (given.operands.filterMap value?)) s, if given.operands.all fun name => (value? name).isSome then 0 else 1)

-- Letters in front of the words of `echo`, up to the first word that has another one.
def echoOptions : List Text → Bool → Bool → Bool × Bool × List Text
  | [], newline, escapes => (newline, escapes, [])
  | arg :: rest, newline, escapes =>
    match arg with
    | '-' :: c :: r =>
      if (c :: r).all "neE".toList.contains then
        let escapes := (c :: r).foldl (fun b c => if c = 'e' then true else if c = 'E' then false else b) escapes
        echoOptions rest (newline && !(c :: r).contains 'n') escapes
      else (newline, escapes, arg :: rest)
    | _ => (newline, escapes, arg :: rest)

def echo : Tool := fun args s =>
  let (newline, escapes, words) := echoOptions args true false
  let line := Text.unwords words
  let (t, wasCut) := if escapes then Escape.expand (line.length + 1) line else (line, false)
  (print (if newline && !wasCut then t ++ ['\n'] else t) s, 0)

def printf : Tool := fun args s =>
  match (if args.head? = some ['-', '-'] then args.tail else args) with
  | [] => missing "printf" s
  | template :: rest =>
    let printed := Escape.printAll template (rest.length + 1) rest
    let s := printed.complaints.foldl (fun s e => complain "printf" e s) s
    (print printed.text s, if printed.fault || !printed.complaints.isEmpty then 1 else 0)

def test (name : String) (needsBracket : Bool) : Tool := fun args s =>
  if needsBracket && args.getLast? ≠ some [']'] then fails s name "missing ']'".toList 2
  else match Condition.evaluate s (if needsBracket then args.dropLast else args) with
    | .ok b => (s, if b then 0 else 1)
    | .error e => fails s name e 2

def pwd : Tool := fun _ s => (print (s.workingDirectory ++ ['\n']) s, 0)

def isInterval (t : Text) : Bool :=
  let body := if "smhd".toList.contains (t.getLast?.getD ' ') then t.dropLast else t
  match fixed? body with
  | some x => 0 ≤ x.digits && body.head? ≠ some '+'
  | none => body = "inf".toList || body = "infinity".toList

def sleep : Tool := withOptions "sleep" ⟨"", []⟩ 1 fun given s =>
  if given.operands.isEmpty then missing "sleep" s
  else match given.operands.filter fun t => !isInterval t with
    | [] => (s, 0)
    | bad =>
      let s := bad.foldl (fun s t => complain "sleep" ("invalid time interval ".toList ++ Quoting.curled t) s) s
      (s.emit 2 ((advice "sleep").drop 1 ++ ['\n']), 1)

-- As much as a reader will want.
def yes : Tool := fun args s =>
  let line := (if args.isEmpty then ['y'] else Text.unwords args) ++ ['\n']
  (print (List.replicate (8192 / line.length + 1) line).flatten s, 1)

def quietly (status : Nat) : Tool := fun _ s => (s, status)

-- Values of `expr`: how they are told, and whether they count as true.
inductive ExprFault where
  | syntaxError (message : Text)
  | failure (message : Text)

abbrev Reckoning := StateT (List Text) (Except ExprFault)

def isTrue (t : Text) : Bool := t ≠ [] && !((if t.head? = some '-' then t.tail else t).all (· = '0') && t ≠ ['-'])

def wholeNumber (t : Text) : Reckoning Int :=
  match number? t with
  | some n => pure n
  | none => throw (.failure "non-integer argument".toList)

def truth (b : Bool) : Text := if b then ['1'] else ['0']

-- How much of a text matches from its start, or what its first group holds.
def matchedPart (t pattern : Text) : Reckoning Text := do
  match Regex.read ⟨false, false, .lenient, false⟩ (Octets.toText pattern) with
  | .error e => throw (.failure e.message)
  | .ok reading =>
    let subject := Octets.toText t
    let hasGroup := reading.groups ≠ 0
    match reading.regex.longest? ⟨none, subject, []⟩ with
    | some after =>
      let found : Regex.Match := ⟨[], subject.take (subject.length - after.rest.length), after⟩
      pure (if hasGroup then Octets.ofText (Regex.held found 1) else Text.ofNat found.whole.length)
    | none => pure (if hasGroup then [] else ['0'])

def calculate (operator : Text) (a b : Text) : Reckoning Text := do
  match String.ofList operator with
  | "+" => pure (Text.ofInt ((← wholeNumber a) + (← wholeNumber b)))
  | "-" => pure (Text.ofInt ((← wholeNumber a) - (← wholeNumber b)))
  | "*" => pure (Text.ofInt ((← wholeNumber a) * (← wholeNumber b)))
  | ":" => matchedPart a b
  | "|" => pure (if isTrue a then a else if isTrue b then b else ['0'])
  | "&" => pure (if isTrue a && isTrue b then a else ['0'])
  | "/" | "%" =>
    let n ← wholeNumber a
    let m ← wholeNumber b
    if m = 0 then throw (.failure "division by zero".toList)
    else pure (Text.ofInt (if operator = ['/'] then n.tdiv m else n.tmod m))
  | _ =>
    let order := match number? a, number? b with
      | some n, some m => compare n m
      | _, _ => compareTexts a b
    pure (truth (match String.ofList operator with
      | "<" => order = .lt
      | "<=" => order ≠ .gt
      | "=" | "==" => order = .eq
      | "!=" => order ≠ .eq
      | ">=" => order ≠ .lt
      | _ => order = .gt))

-- Operators from those that bind least to those that bind most.
def levels : List (List String) :=
  [["|"], ["&"], ["<", "<=", "=", "==", "!=", ">=", ">"], ["+", "-"], ["*", "/", "%"], [":"]]

def nextWord (latest : Text) : Reckoning Text := do
  match ← get with
  | [] => throw (.syntaxError ("missing argument after ".toList ++ Quoting.curled latest))
  | word :: rest =>
    set rest
    pure word

mutual

def reckon : Nat → List (List String) → Text → Reckoning Text
  | 0, _, _ => throw (.syntaxError [])
  | fuel + 1, [], latest => primary fuel latest
  | fuel + 1, operators :: tighter, latest => do
    let first ← reckon fuel tighter latest
    onward fuel operators tighter first

def onward : Nat → List String → List (List String) → Text → Reckoning Text
  | 0, _, _, _ => throw (.syntaxError [])
  | fuel + 1, operators, tighter, left => do
    match ← get with
    | operator :: rest =>
      if operators.contains (String.ofList operator) then
        set rest
        let right ← reckon fuel tighter operator
        onward fuel operators tighter (← calculate operator left right)
      else pure left
    | [] => pure left

def primary : Nat → Text → Reckoning Text
  | 0, _ => throw (.syntaxError [])
  | fuel + 1, latest => do
    let word ← nextWord latest
    match String.ofList word with
    | "(" =>
      let inner ← reckon fuel levels word
      match ← get with
      | [')'] :: rest =>
        set rest
        pure inner
      | other :: _ => throw (.syntaxError ("expecting ')' instead of ".toList ++ Quoting.curled other))
      | [] => throw (.syntaxError ("expecting ')' after ".toList ++ Quoting.curled inner))
    | "length" =>
      let t ← primary fuel word
      pure (Text.ofNat (Octets.toText t).length)
    | "match" =>
      let t ← primary fuel word
      let pattern ← primary fuel t
      matchedPart t pattern
    | "index" =>
      let t ← primary fuel word
      let set_ ← primary fuel t
      pure (Text.ofNat (((Octets.toText t).findIdx? (Octets.toText set_).contains).map (· + 1) |>.getD 0))
    | "substr" =>
      let t ← primary fuel word
      let from_ ← primary fuel t
      let size ← primary fuel from_
      match number? from_, number? size with
      | some n, some m =>
        pure (if n < 1 || m < 1 then [] else Octets.ofText (((Octets.toText t).drop (n.toNat - 1)).take m.toNat))
      | _, _ => pure []
    | "+" => nextWord word
    | ")" => throw (.syntaxError "unexpected ')'".toList)
    | _ => pure word

end

def expr : Tool := fun args s =>
  let args := if args.head? = some ['-', '-'] then args.tail else args
  if args.isEmpty then fails s "expr" ("missing operand".toList ++ advice "expr") 2
  else match reckon (16 * args.length + 16) levels [] args with
    | .error (.syntaxError message) => fails s "expr" ("syntax error: ".toList ++ message) 2
    | .error (.failure message) => fails s "expr" message 2
    | .ok (t, []) => (print (t ++ ['\n']) s, if isTrue t then 0 else 1)
    | .ok (_, extra :: _) => fails s "expr" ("syntax error: unexpected argument ".toList ++ Quoting.curled extra) 2

end PortableActions.Shell.Tool
