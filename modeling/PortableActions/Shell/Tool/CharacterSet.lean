import PortableActions.Shell.Decimal
import PortableActions.Shell.Escape
import PortableActions.Shell.Tool.Show
-- Sets of characters in a row, and the program that replaces, squeezes and removes what is
-- in them. A set is written with escapes, ranges, classes and repetitions.
namespace PortableActions.Shell.Tool

def setClasses : List (String × (Char → Bool)) :=
  [("alpha", Char.isAlpha), ("digit", Char.isDigit), ("alnum", Char.isAlphanum), ("upper", Char.isUpper), ("lower", Char.isLower),
    ("space", isBlankByte), ("blank", Source.isBlank), ("punct", fun c => '!' ≤ c && c ≤ '~' && !c.isAlphanum),
    ("cntrl", fun c => c < ' ' || c = '\x7f'), ("print", fun c => ' ' ≤ c && c ≤ '~'), ("graph", fun c => '!' ≤ c && c ≤ '~'),
    ("xdigit", Numeral.isHexDigit)]

def allBytes : Text := (List.range 256).map Char.ofNat

-- A character of a set as it is written; an escaped one never has a meaning of its own.
structure SetCharacter where
  char : Char
  escaped : Bool
  deriving DecidableEq

def SetCharacter.signs (c : SetCharacter) (sign : Char) : Bool := c.char = sign && !c.escaped

-- The characters with their escapes read, and warnings.
def setCharacters : Nat → Text → List SetCharacter × List Text
  | 0, _ => ([], [])
  | _ + 1, [] => ([], [])
  | _ + 1, ['\\'] => ([⟨'\\', false⟩], ["warning: an unescaped backslash at end of string is not portable".toList])
  | fuel + 1, '\\' :: c :: r =>
    match (if c = 'e' then none else Escape.named? c) with
    | some d =>
      let (rest, warnings) := setCharacters fuel r
      (⟨d, true⟩ :: rest, warnings)
    | none =>
      let digits := ((c :: r).take 3).takeWhile Numeral.isOctal
      let isLarge := 255 < Numeral.octalValue digits
      let used := if isLarge then digits.take 2 else digits
      let (rest, warnings) := setCharacters fuel (if digits = [] then r else (c :: r).drop used.length)
      let warning := "warning: the ambiguous octal escape \\".toList ++ digits ++ " is being\n\tinterpreted as the 2-byte sequence \\0".toList ++
        digits.take 2 ++ ", ".toList ++ digits.drop 2
      (⟨if digits = [] then c else Escape.byte (Numeral.octalValue used), true⟩ :: rest, if isLarge then warning :: warnings else warnings)
  | fuel + 1, c :: r =>
    let (rest, warnings) := setCharacters fuel r
    (⟨c, false⟩ :: rest, warnings)

inductive SetPart where
  | one (c : Char)
  | range (low high : Char)
  | named (name : String) (members : Text)
  | equivalent (c : Char)
  | repeated (c : Char) (times : Nat)

def visibleCharacter (c : Char) : Text :=
  if ' ' ≤ c && c ≤ '~' then [c] else '\\' :: Decimal.padZeros 3 (Nat.toDigits 8 c.toNat)

def visibleCharacters (t : List SetCharacter) : Text :=
  t.flatMap fun c => if c.char = '\\' then ['\\', '\\']
    else match "\x07\x08\x0c\n\r\t\x0b".toList.findIdx? (· = c.char) with
      | some n => ['\\', "abfnrtv".toList.getD n ' ']
      | none => visibleCharacter c.char

-- What stands in front of a sign and a bracket that closes it, and what follows.
def closedBy (sign : Char) : List SetCharacter → Option (List SetCharacter × List SetCharacter)
  | c :: d :: r =>
    if c.signs sign && d.signs ']' then some ([], r)
    else (closedBy sign (d :: r)).map fun found => (c :: found.1, found.2)
  | _ => none

-- Whether a star, digits and a bracket stand at the front.
def isRepetition (t : List SetCharacter) : Bool :=
  match t with
  | c :: r => c.signs '*' && ((r.dropWhile fun d => d.char.isDigit).head?.map (·.signs ']')).getD false
  | [] => false

-- A repetition behind its bracket: none if there is none, an error if its number is wrong.
def repetition (t : List SetCharacter) : Except Text (Option (SetPart × List SetCharacter)) :=
  match t with
  | c :: star :: r =>
    let inner := r.takeWhile fun d => !d.escaped && d.char ≠ ']'
    match star.signs '*', r.drop inner.length with
    | true, close :: rest =>
      if !close.signs ']' then .ok none
      else
        let digits := inner.map SetCharacter.char
        let base := if digits.head? = some '0' then 8 else 10
        let isNumber := digits.all fun d => if base = 8 then Numeral.isOctal d else d.isDigit
        let times := Numeral.valueIn base digits
        if isNumber && times < Numeral.wordRange then .ok (some (.repeated c.char times, rest))
        else .error ("invalid repeat count ".toList ++ Quoting.curled (visibleCharacters inner) ++ " in [c*n] construct".toList)
    | _, _ => .ok none
  | _ => .ok none

-- A class in brackets: none if what stands there is something else.
def bracketed (t : List SetCharacter) : Except Text (Option (SetPart × List SetCharacter)) :=
  match t with
  | sign :: r =>
    match (if sign.signs ':' || sign.signs '=' then closedBy sign.char r else none) with
    | none => repetition t
    | some (inner, rest) =>
      let name := inner.map SetCharacter.char
      if sign.char = ':' then
        match setClasses.find? fun entry => entry.1.toList = name with
        | some entry => .ok (some (.named entry.1 (allBytes.filter entry.2), rest))
        | none =>
          if name = [] then .error "missing character class name '[::]'".toList
          else if isRepetition r then repetition t
          else .error ("invalid character class ".toList ++ Quoting.curled (visibleCharacters inner))
      else
        match name with
        | [c] => .ok (some (.equivalent c, rest))
        | [] => .error "missing equivalence class character '[==]'".toList
        | _ =>
          if isRepetition r then repetition t
          else .error (visibleCharacters inner ++ ": equivalence class operand must be a single character".toList)
  | [] => .ok none

def setParts : Nat → List SetCharacter → Except Text (List SetPart)
  | 0, _ => .ok []
  | fuel + 1, t =>
    match t with
    | c :: d :: e :: r => do
      let found ← if c.signs '[' then bracketed (d :: e :: r) else pure none
      match found with
      | some (part, rest) => pure (part :: (← setParts fuel rest))
      | none =>
        if d.signs '-' then
          if e.char < c.char then
            throw ("range-endpoints of '".toList ++ visibleCharacter c.char ++ ['-'] ++ visibleCharacter e.char ++
              "' are in reverse collating sequence order".toList)
          else pure (.range c.char e.char :: (← setParts fuel r))
        else pure (.one c.char :: (← setParts fuel (d :: e :: r)))
    | _ => pure (t.map fun c => .one c.char)

-- A repetition without a number is as long as it has to be; none are longer than all bytes
-- together ever need.
def SetPart.expand (filler : Nat) : SetPart → Text
  | .one c | .equivalent c => [c]
  | .range low high => (List.range (high.toNat + 1 - low.toNat)).map fun n => Char.ofNat (low.toNat + n)
  | .named _ members => members
  | .repeated c times => List.replicate (min 100000 (if times = 0 then filler else times)) c

def SetPart.isOpen : SetPart → Bool
  | .repeated _ 0 => true
  | _ => false

def SetPart.isNamed : SetPart → Bool
  | .named _ _ => true
  | _ => false

-- Whether a part is one of the two classes that letters can be brought into.
def SetPart.letterCase : SetPart → Option String
  | .named name _ => if name = "upper" || name = "lower" then some name else none
  | _ => none

def SetPart.isEquivalent : SetPart → Bool
  | .equivalent _ => true
  | _ => false

def charactersOf (filler : Nat) (parts : List SetPart) : Text := parts.flatMap (SetPart.expand filler)

-- A character in its part: the case of the letters that the part stands for, and whether
-- the part begins there.
structure Slot where
  char : Char
  letterCase : Option String
  part : Nat
  begins : Bool

def slots (filler : Nat) (parts : List SetPart) : List Slot :=
  ((List.range parts.length).zip parts).flatMap fun entry =>
    let t := entry.2.expand filler
    ((List.range t.length).zip t).map fun c => ⟨c.2, entry.2.letterCase, entry.1, c.1 = 0⟩

-- Pairs of characters in the same place. Two classes of letters stand for one pair each;
-- one that has no partner is misplaced.
def pairs : Nat → List Slot → List Slot → Option (List (Slot × Slot))
  | 0, _, _ => some []
  | fuel + 1, a :: r, b :: q =>
    if b.begins && b.letterCase.isSome && !(a.begins && a.letterCase.isSome) then none
    else if b.letterCase.isSome then
      (pairs fuel (r.dropWhile fun slot => slot.part = a.part) (q.dropWhile fun slot => slot.part = b.part)).map ((a, b) :: ·)
    else (pairs fuel r q).map ((a, b) :: ·)
  | _ + 1, [], b :: _ => if b.begins && b.letterCase.isSome then none else some []
  | _ + 1, _, [] => some []

def squeeze (set : Text) : Text → Text
  | [] => []
  | [c] => [c]
  | c :: d :: r => if c = d && set.contains c then squeeze set (d :: r) else c :: squeeze set (d :: r)

-- What is asked for.
structure Translation where
  complement : Bool
  delete : Bool
  squeezes : Bool
  truncates : Bool

def Translation.operandFault (how : Translation) (operands : List Text) : Option Text :=
  let least := if how.delete = how.squeezes then 2 else 1
  let most := if how.delete && !how.squeezes then 1 else 2
  if operands.length < least then
    match operands.getLast? with
    | none => some "missing operand".toList
    | some last => some ("missing operand after ".toList ++ Quoting.curled last ++
      (if how.squeezes then "\nTwo strings must be given when both deleting and squeezing repeats.".toList
        else "\nTwo strings must be given when translating.".toList))
  else if most < operands.length then
    some ("extra operand ".toList ++ Quoting.curled (operands.getD most []) ++
      (if operands.length = 2 then "\nOnly one string may be given when deleting without squeezing repeats.".toList else []))
  else none

-- What every character becomes, given the pairs of the two sets. Letters of one case become
-- those of the other as a whole.
def replaced (found : List (Slot × Slot)) (c : Char) : Char :=
  found.foldl (fun d pair => match pair.1.letterCase, pair.2.letterCase with
    | some "lower", some "upper" => if c.isLower then c.toUpper else d
    | some "upper", some "lower" => if c.isUpper then c.toLower else d
    | _, _ => if pair.1.char = c then pair.2.char else d) c

def filled (size : Nat) (parts : List SetPart) : List SetPart :=
  let fixed := (charactersOf 0 parts).length
  parts.map fun part => match part with
    | .repeated c 0 => .repeated c (size - fixed)
    | part => part

-- How the first set is brought into the second one, or why it cannot be.
def Translation.table (how : Translation) (first second : List SetPart) : Except Text (Char → Char) := do
  let listed := charactersOf 0 first
  let others := allBytes.filter fun c => !listed.contains c
  let size := if how.complement then others.length else listed.length
  let second := (filled size second).filter fun part => !part.isOpen
  let found := slots 0 (if how.complement then others.map .one else first)
  if second.any SetPart.isEquivalent then throw "[=c=] expressions may not appear in string2 when translating".toList
  if second.any fun part => part.isNamed && part.letterCase.isNone then
    throw "when translating, the only character classes that may appear in\nstring2 are 'upper' and 'lower'".toList
  let begun := slots 0 second
  let aligned := pairs (found.length + begun.length + 1) found begun
  if aligned.isNone && !how.complement then throw "misaligned [:upper:] and/or [:lower:] construct".toList
  let matched := if how.complement then 0
    else ((aligned.getD []).map fun pair => match pair.2.letterCase with
      | some _ => (found.filter fun slot => slot.part = pair.1.part).length - 1
      | none => 0).foldl (· + ·) 0
  let spread := if how.complement then 0
    else ((aligned.getD []).map fun pair => match pair.2.letterCase with
      | some _ => (begun.filter fun slot => slot.part = pair.2.part).length - 1
      | none => 0).foldl (· + ·) 0
  let firstLength := found.length - matched
  let secondLength := begun.length - spread
  let isShort := secondLength < firstLength && !how.truncates
  if isShort && secondLength = 0 then throw "when not truncating set1, string2 must be non-empty".toList
  if isShort && ((second.getLast?.map SetPart.isNamed).getD false) then
    throw ("when translating with string1 longer than string2,\nthe latter string must not end with a " ++ "character class").toList
  let last := (begun.getLast?.map Slot.char).getD ' '
  let second := if isShort then second ++ [.repeated last (firstLength - secondLength)] else second
  let target := charactersOf 0 second
  if how.complement && first.any SetPart.isNamed && !(target.length = size && target.all (· = target.headD ' ')) then
    throw "when translating with complemented character classes,\nstring2 must map all characters in the domain to one".toList
  if how.complement then
    let table := others.zip target
    pure fun c => ((table.find? fun entry => entry.1 = c).map Prod.snd).getD c
  else
    let found := (pairs (found.length + target.length + 1) found (slots 0 second)).getD []
    let table := allBytes.map fun c => (c, replaced found c)
    pure fun c => ((table.find? fun entry => entry.1 = c).map Prod.snd).getD c

-- What becomes of the input, or why nothing can.
def Translation.apply (how : Translation) (first : List SetPart) (second : Option (List SetPart)) :
    Except Text (Text → Text) := do
  let listed := charactersOf 0 first
  let meant := if how.complement then allBytes.filter fun c => !listed.contains c else listed
  if first.any SetPart.isOpen then throw "the [c*] repeat construct may not appear in string1".toList
  match second with
  | none => pure fun t => if how.delete then t.filter fun c => !meant.contains c else squeeze meant t
  | some second =>
    if 1 < second.countP SetPart.isOpen then throw "only one [c*] repeat construct may appear in string2".toList
    if how.delete then
      if second.any SetPart.isOpen then throw "the [c*] construct may appear in string2 only when translating".toList
      pure fun t => squeeze (charactersOf 0 second) (t.filter fun c => !meant.contains c)
    else
      let table ← how.table first second
      let target := charactersOf 0 (filled meant.length second)
      pure fun t => if how.squeezes then squeeze target (t.map table) else t.map table

-- A set as it is written, with the warnings told.
def readSet (t : Text) (s : State) : Except Text (List SetPart) × State :=
  let (characters, warnings) := setCharacters (t.length + 1) t
  (setParts (characters.length + 1) characters, warnings.foldl (fun s e => complain "tr" e s) s)

def trGrammar : Grammar :=
  ⟨"AcCdst", [("complement", 'c'), ("delete", 'd'), ("squeeze-repeats", 's'), ("truncate-set1", 't')]⟩

def tr : Tool := fun args s =>
  let given := scanLeading trGrammar args
  let how : Translation := ⟨given.has 'c' || given.has 'C', given.has 'd', given.has 's', given.has 't'⟩
  let fault := match given.fault with
    | some e => some e
    | none => how.operandFault given.operands
  match fault with
  | some e => fails s "tr" (e ++ advice "tr") 1
  | none =>
    match readSet (given.operands.headD []) s with
    | (.error e, s) => fails s "tr" e 1
    | (.ok first, s) =>
      let (second, s) := match given.operands with
        | [_, t] =>
          let (second, s) := readSet t s
          (second.map some, s)
        | _ => (.ok none, s)
      match second.bind fun second => how.apply first second with
      | .error e => fails s "tr" e 1
      | .ok change =>
        let (t, s) := takeInput s
        (print (change t) s, 0)

end PortableActions.Shell.Tool
