import PortableActions.Text
-- Shell scripts as trees: words made of parts, and commands made of words.
namespace PortableActions.Shell

def isNameStart (c : Char) : Bool := c.isAlpha || c = '_'

def isNameChar (c : Char) : Bool := c.isAlphanum || c = '_'

def isName : Text → Bool
  | [] => false
  | c :: r => isNameStart c && r.all isNameChar

-- Parameters that are named by one special character.
def isSpecialName (c : Char) : Bool := "!#$*-?@".toList.contains c

-- What is done to the value of a parameter: left as it is, counted, replaced if it is not
-- there (for once, for good, or by a complaint) or if it is there, or cut at one end.
-- The last kind is read but cannot be carried out.
inductive Change where
  | asIs
  | length
  | otherwise
  | assigned
  | required
  | instead
  | trimmed (atStart longest : Bool)
  | unknown
  deriving DecidableEq, Repr

inductive RedirectKind where
  | read
  | write
  | overwrite
  | append
  | readWrite
  | copy
  -- A here-document by its number.
  | here (number : Nat)
  deriving DecidableEq, Repr

mutual

-- What a word is made of. A mark is a quotation mark: text between two of them is quoted.
inductive Part where
  | plain (t : Text)
  | quoted (t : Text)
  | mark
  -- All arguments alone in double quotes.
  | arguments
  -- With the colon an empty value counts as unset.
  | parameter (name : Text) (change : Change) (colon : Bool) (operand : List Part)
  | output (script : Script)
  | arithmetic (expression : List Part)

inductive Redirect where
  | mk (fd : Nat) (kind : RedirectKind) (target : List Part)

-- Commands carry the line that complaints about them name.
inductive Script where
  | nothing
  | simple (line : Nat) (assignments : List (Text × List Part)) (words : List (List Part)) (redirects : List Redirect)
  | pipe (inBackground : Bool) (stages : List Script)
  | not (body : Script)
  | andThen (left right : Script)
  | orElse (left right : Script)
  | sequence (left right : Script)
  | background (line : Nat) (body : Script) (redirects : List Redirect)
  | subshell (line : Nat) (body : Script) (redirects : List Redirect)
  | redirected (line : Nat) (body : Script) (redirects : List Redirect)
  | choose (test yes no : Script)
  | loop (stopsOnSuccess : Bool) (test body : Script)
  | each (line : Nat) (name : Text) (items : List (List Part)) (body : Script)
  | branches (line : Nat) (subject : List Part) (cases : List (List (List Part) × Script))
  | define (name : Text) (body : Script)

end

abbrev Word := List Part

namespace Script

def isNothing : Script → Bool
  | nothing => true
  | _ => false

end Script

namespace Word

-- Runs of plain text are kept in one part.
def push (part : Part) (w : Word) : Word :=
  match part, w with
  | .plain t, .plain u :: rest => .plain (t ++ u) :: rest
  | .plain [], w => w
  | part, w => part :: w

-- The text of a word that is written without quotes and substitutions.
def bare? : Word → Option Text
  | [.plain t] => some t
  | _ => none

def isQuoted (w : Word) : Bool := w.any fun part => match part with
  | .quoted _ | .mark | .arguments => true
  | _ => false

-- The word as it was written, quotes removed; only where no substitution is read.
def literal (w : Word) : Text := w.flatMap fun part => match part with
  | .plain t | .quoted t => t
  | _ => []

-- A word of the form NAME=VALUE.
def assignment? (w : Word) : Option (Text × Word) :=
  match w with
  | .plain t :: rest =>
    match t.dropWhile (· ≠ '=') with
    | _ :: value =>
      let name := t.takeWhile (· ≠ '=')
      if isName name then some (name, push (.plain value) rest) else none
    | [] => none
  | _ => none

end Word
end PortableActions.Shell
