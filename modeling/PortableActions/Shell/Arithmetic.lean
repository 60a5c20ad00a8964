import PortableActions.Shell.Outcome
-- Arithmetic of the shell on 64-bit integers. Variables hold text; one that is unset or
-- blank counts as zero. Operands that cannot matter are read but not evaluated.
namespace PortableActions.Shell.Arithmetic

inductive Mark where
  | number (n : Int)
  | name (t : Text)
  | operator (t : String)
  -- A character that no expression holds.
  | alien
  deriving DecidableEq, Repr

def operators : List String :=
  ["<<=", ">>=", "&&", "||", "==", "!=", "<=", ">=", "<<", ">>", "+=", "-=", "*=", "/=", "%=", "&=", "|=", "^=",
    "+", "-", "*", "/", "%", "<", ">", "=", "!", "~", "&", "|", "^", "?", ":", "(", ")"]

def marks : Nat → Text → List Mark
  | 0, _ => []
  | _ + 1, [] => []
  | fuel + 1, c :: r =>
    if c = ' ' || c = '\t' || c = '\n' then marks fuel r
    else if c.isDigit then
      let found := Numeral.numeral (c :: r)
      .number (min found.1 Numeral.largest) :: marks fuel found.2
    else if isNameStart c then
      .name ((c :: r).takeWhile isNameChar) :: marks fuel ((c :: r).dropWhile isNameChar)
    else match operators.find? fun operator => Text.startsWith operator.toList (c :: r) with
      | some operator => .operator operator :: marks fuel ((c :: r).drop operator.length)
      | none => [.alien]

-- Evaluation with the marks that are still to be read.
abbrev Eval := StateT (List Mark) Expand

def complain {α : Type} (text : Text) (what : String) : Eval α :=
  StateT.lift (Expand.fail ("arithmetic expression: ".toList ++ what.toList ++ ": \"".toList ++ text ++ ['"']))

def wrap (n : Int) : Int := Int.bmod n Numeral.wordRange

def valueOf (name : Text) : Expand Int := do
  let t := ((← get).value? name).getD []
  match Numeral.operand? t with
  | some n => pure n
  | none => Expand.fail ("Illegal number: ".toList ++ t)

def assign (name : Text) (n : Int) : Expand Int := do
  Expand.assign name (Text.ofInt n)
  pure n

-- Binary operators from the weakest to the strongest.
def levels : List (List String) :=
  [["|"], ["^"], ["&"], ["==", "!="], ["<=", ">=", "<", ">"], ["<<", ">>"], ["+", "-"], ["*", "/", "%"]]

def changes : List String := ["<<=", ">>=", "+=", "-=", "*=", "/=", "%=", "&=", "|=", "^="]

def truth (b : Bool) : Int := if b then 1 else 0

-- The quotient of the least number by minus one has no place in 64 bits, and kills.
def divide (text : Text) (a b : Int) (operation : Int → Int → Int) : Eval Int := do
  if b = 0 then complain text "division by zero"
  else if b = -1 ∧ a = -Int.ofNat (Numeral.largest + 1) then StateT.lift (throw (.killed 8))
  else pure (wrap (operation a b))

def shifted (b : Int) : Int := Int.ofNat (Nat.pow 2 (b % 64).toNat)

def apply (text : Text) (operator : String) (a b : Int) : Eval Int :=
  match operator with
  | "|" => pure (wrap (Int.ofNat (BitVec.ofInt 64 a ||| BitVec.ofInt 64 b).toNat))
  | "^" => pure (wrap (Int.ofNat (BitVec.ofInt 64 a ^^^ BitVec.ofInt 64 b).toNat))
  | "&" => pure (wrap (Int.ofNat (BitVec.ofInt 64 a &&& BitVec.ofInt 64 b).toNat))
  | "==" => pure (truth (a = b))
  | "!=" => pure (truth (a ≠ b))
  | "<=" => pure (truth (a ≤ b))
  | ">=" => pure (truth (b ≤ a))
  | "<" => pure (truth (a < b))
  | ">" => pure (truth (b < a))
  | "<<" => pure (wrap (a * shifted b))
  | ">>" => pure (a / shifted b)
  | "+" => pure (wrap (a + b))
  | "-" => pure (wrap (a - b))
  | "*" => pure (wrap (a * b))
  | "/" => divide text a b Int.tdiv
  | _ => divide text a b Int.tmod

def drop : Eval Unit := modify List.tail

mutual

def expression (text : Text) : Nat → Bool → Eval Int
  | 0, _ => complain text "expecting primary"
  | fuel + 1, live => do
    match ← get with
    | .name name :: .operator operator :: rest =>
      if operator = "=" then
        set rest
        let n ← expression text fuel live
        if live then StateT.lift (assign name n) else pure n
      else if changes.contains operator then
        set rest
        let right ← expression text fuel live
        if live then
          let left ← StateT.lift (valueOf name)
          let n ← apply text (String.ofList operator.toList.dropLast) left right
          StateT.lift (assign name n)
        else pure right
      else conditional text fuel live
    | _ => conditional text fuel live

def conditional (text : Text) : Nat → Bool → Eval Int
  | 0, _ => complain text "expecting primary"
  | fuel + 1, live => do
    let test ← disjunction text fuel live
    if (← get).head? = some (.operator "?") then
      drop
      let yes ← expression text fuel (live && test ≠ 0)
      if (← get).head? = some (.operator ":") then
        drop
        let no ← conditional text fuel (live && test = 0)
        pure (if test ≠ 0 then yes else no)
      else complain text "expecting ':'"
    else pure test

def disjunction (text : Text) : Nat → Bool → Eval Int
  | 0, _ => complain text "expecting primary"
  | fuel + 1, live => do
    let left ← conjunction text fuel live
    if (← get).head? = some (.operator "||") then
      drop
      let right ← disjunction text fuel (live && left = 0)
      pure (truth (left ≠ 0 || right ≠ 0))
    else pure left

def conjunction (text : Text) : Nat → Bool → Eval Int
  | 0, _ => complain text "expecting primary"
  | fuel + 1, live => do
    let left ← binary text fuel levels live
    if (← get).head? = some (.operator "&&") then
      drop
      let right ← conjunction text fuel (live && left ≠ 0)
      pure (truth (left ≠ 0 && right ≠ 0))
    else pure left

def binary (text : Text) : Nat → List (List String) → Bool → Eval Int
  | 0, _, _ => complain text "expecting primary"
  | fuel + 1, [], live => unary text fuel live
  | fuel + 1, level :: stronger, live => do
    let left ← binary text fuel stronger live
    binaryAfter text fuel level stronger live left

def binaryAfter (text : Text) : Nat → List String → List (List String) → Bool → Int → Eval Int
  | 0, _, _, _, _ => complain text "expecting primary"
  | fuel + 1, level, stronger, live, left => do
    match ← get with
    | .operator operator :: rest =>
      if level.contains operator then
        set rest
        let right ← binary text fuel stronger live
        let n ← if live then apply text operator left right else pure right
        binaryAfter text fuel level stronger live n
      else pure left
    | _ => pure left

def unary (text : Text) : Nat → Bool → Eval Int
  | 0, _ => complain text "expecting primary"
  | fuel + 1, live => do
    let found ← get
    drop
    match found with
    | .number n :: _ => pure n
    | .name name :: _ => if live then StateT.lift (valueOf name) else pure 0
    | .operator operator :: _ =>
      match operator with
      | "(" =>
        let inside ← expression text fuel live
        if (← get).head? = some (.operator ")") then
          drop
          pure inside
        else complain text "expecting ')'"
      | "-" => pure (wrap (-(← unary text fuel live)))
      | "+" => unary text fuel live
      | "!" => pure (truth ((← unary text fuel live) = 0))
      | "~" => pure (-(← unary text fuel live) - 1)
      | _ => complain text "expecting primary"
    | _ => complain text "expecting primary"

end

-- The value of an expression.
def evaluate (text : Text) : Expand Int := do
  let found := marks (text.length + 1) text
  let (n, rest) ← (expression text (16 * (found.length + 4)) true).run found
  if rest.isEmpty then pure n
  else Expand.fail ("arithmetic expression: expecting EOF: \"".toList ++ text ++ ['"'])

end PortableActions.Shell.Arithmetic
