import PortableActions.Shell.Numeral
import PortableActions.Shell.State
-- Conditions of `test`: comparisons and questions about files, joined by "-a" and "-o",
-- negated by "!" and grouped by parentheses.
namespace PortableActions.Shell.Condition
open Numeral

inductive Kind where
  | unary
  | binary
  | negation
  | conjunction
  | disjunction
  | opening
  | closing
  deriving DecidableEq, Repr

def kind? (t : Text) : Option Kind :=
  let word := String.ofList t
  if ["-r", "-w", "-x", "-e", "-f", "-d", "-c", "-b", "-p", "-u", "-g", "-k", "-s", "-t", "-z", "-n", "-h", "-O", "-G",
      "-L", "-S"].contains word then some .unary
  else if ["=", "!=", "<", ">", "-eq", "-ne", "-ge", "-gt", "-le", "-lt", "-nt", "-ot", "-ef"].contains word then
    some .binary
  else match word with
    | "!" => some .negation
    | "-a" => some .conjunction
    | "-o" => some .disjunction
    | "(" => some .opening
    | ")" => some .closing
    | _ => none

-- What the first of some words counts as: nothing, an operator, or a word like any other.
-- A unary operator with nothing to ask about, or in front of a binary one, is such a word,
-- and so is a parenthesis that stands last.
inductive Sense where
  | nothing
  | operand
  | operator (kind : Kind)
  deriving DecidableEq, Repr

def sense : List Text → Sense
  | [] => .nothing
  | word :: rest =>
    match kind? word with
    | none => .operand
    | some .unary =>
      match rest with
      | [] => .operand
      | [_] => .operator .unary
      | next :: _ => if kind? next = some .binary then .operand else .operator .unary
    | some .opening => if rest.isEmpty then .operand else .operator .opening
    | some kind => .operator kind

-- Questions about a text or about what a path leads to.
def ask (s : State) (operator t : Text) : Except Text Bool :=
  let found := s.find t
  let device := match found with
    | .ok (location, .file _) => State.isDevice location
    | _ => false
  match String.ofList operator with
  | "-n" => .ok (t ≠ [])
  | "-z" => .ok (t = [])
  | "-e" | "-r" | "-w" | "-O" | "-G" => .ok found.isOk
  | "-f" => .ok (!device && match found with
    | .ok (_, .file _) => true
    | _ => false)
  | "-d" => .ok (match found with
    | .ok (_, .directory) => true
    | _ => false)
  | "-x" => .ok (match found with
    | .ok (_, .directory) => true
    | .ok (location, .file _) => s.executables.contains location
    | .error _ => false)
  | "-s" => .ok (match found with
    | .ok (_, .file bytes) => !bytes.isEmpty
    | .ok (_, .directory) => true
    | .error _ => false)
  | "-c" => .ok device
  | "-h" | "-L" => .ok (match found with
    | .ok (location, _) => State.links.contains location
    | .error _ => false)
  | "-t" => if (count? t).isNone then .error ("Illegal number: ".toList ++ t) else .ok false
  | _ => .ok false

def sameFile (s : State) (a b : Text) : Bool :=
  match s.find a, s.find b with
  | .ok (x, _), .ok (y, _) => x = y
  | _, _ => false

def compare (s : State) (a operator b : Text) : Except Text Bool :=
  let numbers := fun (test : Int → Int → Bool) =>
    match integer? a, integer? b with
    | some x, some y => .ok (test x y)
    | none, _ => .error ("Illegal number: ".toList ++ a)
    | _, none => .error ("Illegal number: ".toList ++ b)
  match String.ofList operator with
  | "=" => .ok (a = b)
  | "!=" => .ok (a ≠ b)
  | "<" => .ok (!Text.atMost b a)
  | ">" => .ok (!Text.atMost a b)
  | "-eq" => numbers fun x y => x = y
  | "-ne" => numbers fun x y => x ≠ y
  | "-lt" => numbers fun x y => x < y
  | "-le" => numbers fun x y => x ≤ y
  | "-gt" => numbers fun x y => y < x
  | "-ge" => numbers fun x y => y ≤ x
  | "-ef" => .ok (sameFile s a b)
  | _ => .ok false

-- A value, and the words from the last one that was used for it on.
abbrev Found := Bool × List Text

mutual

def disjunction (s : State) : Nat → List Text → Except Text Found
  | 0, _ => .error "unexpected operator".toList
  | fuel + 1, words => do
    let (left, at_) ← conjunction s fuel words
    if sense at_.tail = .operator .disjunction then
      let (right, at_) ← disjunction s fuel (at_.drop 2)
      pure (left || right, at_)
    else pure (left, at_)

def conjunction (s : State) : Nat → List Text → Except Text Found
  | 0, _ => .error "unexpected operator".toList
  | fuel + 1, words => do
    let (left, at_) ← negation s fuel words
    if sense at_.tail = .operator .conjunction then
      let (right, at_) ← conjunction s fuel (at_.drop 2)
      pure (left && right, at_)
    else pure (left, at_)

def negation (s : State) : Nat → List Text → Except Text Found
  | 0, _ => .error "unexpected operator".toList
  | fuel + 1, words => do
    if sense words = .operator .negation then
      if words.tail.isEmpty then pure (true, words)
      else
        let (value, at_) ← negation s fuel words.tail
        pure (!value, at_)
    else primary s fuel words

def primary (s : State) : Nat → List Text → Except Text Found
  | 0, _ => .error "unexpected operator".toList
  | fuel + 1, words =>
    match sense words with
    | .nothing => .ok (false, [])
    | .operator .opening =>
      if sense words.tail = .operator .closing then .ok (false, words.tail)
      else do
        let (value, at_) ← disjunction s fuel words.tail
        if sense at_.tail = .operator .closing then pure (value, at_.tail)
        else throw "closing paren expected".toList
    | .operator .unary =>
      match words with
      | operator :: t :: rest => (ask s operator t).map fun value => (value, t :: rest)
      | _ => .error ((words.headD []) ++ ": argument expected".toList)
    | _ =>
      let word := words.headD []
      match sense words.tail with
      | .operator .binary =>
        match words.tail with
        | operator :: b :: rest => (compare s word operator b).map fun value => (value, b :: rest)
        | _ => .error ((words.tail.headD []) ++ ": argument expected".toList)
      | _ => .ok (word ≠ [], words)

end

-- Words from left to right; more than one may not be left over.
def general (s : State) (words : List Text) : Except Text Bool := do
  let (value, at_) ← disjunction s (4 * words.length + 8) words
  match at_ with
  | word :: _ :: _ => throw ((if word = [] then [] else word ++ ": ".toList) ++ "unexpected operator".toList)
  | _ => pure value

-- A binary operator in the middle of three words comes first. Parentheses around three or
-- four words, and an exclamation mark in front of them, come next.
def evaluateFrom (s : State) : Nat → Bool → List Text → Except Text Bool
  | 0, _, _ => .ok false
  | fuel + 1, negated, words =>
    let answer := fun (value : Except Text Bool) => value.map fun v => v != negated
    match words with
    | [] => .ok negated
    | [a, operator, b] =>
      if kind? operator = some .binary then answer (compare s a operator b)
      else if a = ['('] ∧ b = [')'] then answer (general s [operator])
      else if a = ['!'] then evaluateFrom s fuel true [operator, b]
      else answer (general s words)
    | [a, b, c, d] =>
      if a = ['('] ∧ d = [')'] then answer (general s [b, c])
      else if a = ['!'] then evaluateFrom s fuel true [b, c, d]
      else answer (general s words)
    | _ => answer (general s words)

def evaluate (s : State) (words : List Text) : Except Text Bool := evaluateFrom s (words.length + 1) false words

end PortableActions.Shell.Condition
