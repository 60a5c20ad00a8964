import PortableActions.Shell.Script
-- The text that a script is read from, character by character. Lines are counted, a
-- backslash in front of a newline joins two lines, and aliases are put in place as text.
namespace PortableActions.Shell

structure SyntaxFault where
  line : Nat
  message : Text
  deriving DecidableEq, Repr

inductive Token where
  | ending
  | newline
  | operator (t : Text)
  | keyword (t : Text)
  | redirect (fd : Option Nat) (operator : Text)
  | word (w : Word)

-- A here-document that is announced and still has to be read.
structure Announced where
  number : Nat
  delimiter : Text
  isQuoted : Bool
  dropsTabs : Bool
  deriving DecidableEq, Repr

structure Source where
  rest : Text
  line : Nat
  aliases : List (Text × Text)
  -- Here-documents by number, and how many numbers are taken.
  documents : List (Nat × Word)
  numbers : Nat
  announced : List Announced
  -- A token that was read and not used.
  ahead : Option Token
  -- Names of the aliases whose text is being read, and whether the next word may be an
  -- alias because the text of one has ended in a blank.
  active : List Text
  aliasNext : Bool
  -- The latest word that was read.
  latest : Word
  -- More steps than reading takes.
  size : Nat

namespace Source

def ofText (t : Text) (line : Nat) : Source := ⟨t, line, [], [], 0, [], none, [], false, [], 64 + 16 * t.length⟩

-- The source with what the shell knows by now.
def knowing (source : Source) (aliases : List (Text × Text)) (documents : List (Nat × Word)) (numbers : Nat) : Source :=
  let growth := aliases.foldl (fun n entry => n + entry.2.length + 1) 1
  { source with
    aliases := aliases
    documents := documents
    numbers := numbers
    size := (64 + 16 * source.rest.length) * growth }

-- Ends the text of an alias; no byte of a script is this character.
def aliasEnd : Char := '\u0100'

def isBlank (c : Char) : Bool := c = ' ' || c = '\t'

def leaveAlias (source : Source) : Source :=
  let value := (source.active.head?.bind fun name => (source.aliases.find? (·.1 = name)).map Prod.snd).getD []
  { source with
    active := source.active.tail
    aliasNext := source.aliasNext || (value.getLast?.map isBlank).getD false }

-- Brings the next character to the front.
def settle (joins : Bool) : Text → Source → Source
  | [], source => { source with rest := [] }
  | [c], source => if c = aliasEnd then { source.leaveAlias with rest := [] } else { source with rest := [c] }
  | c :: d :: r, source =>
    if c = aliasEnd then settle joins (d :: r) source.leaveAlias
    else if joins && c = '\\' && d = '\n' then settle joins r { source with line := source.line + 1 }
    else { source with rest := c :: d :: r }

-- Takes characters from the front as long as they have a property.
def span (joins : Bool) (p : Char → Bool) : Text → Text → Source → Text × Source
  | found, [], source => (found.reverse, { source with rest := [] })
  | found, [c], source =>
    if c = aliasEnd then (found.reverse, { source.leaveAlias with rest := [] })
    else if p c then
      ((c :: found).reverse, { source with rest := [], line := if c = '\n' then source.line + 1 else source.line })
    else (found.reverse, { source with rest := [c] })
  | found, c :: d :: r, source =>
    if c = aliasEnd then span joins p found (d :: r) source.leaveAlias
    else if joins && c = '\\' && d = '\n' then span joins p found r { source with line := source.line + 1 }
    else if p c then
      span joins p (c :: found) (d :: r) (if c = '\n' then { source with line := source.line + 1 } else source)
    else (found.reverse, { source with rest := c :: d :: r })

end Source

abbrev Reading := StateT Source (Except SyntaxFault)

namespace Reading

def fail {α : Type} (message : Text) : Reading α := fun source => .error ⟨source.line, message⟩

-- The next character, joined lines passed over.
def peek : Reading (Option Char) := fun source =>
  let source := source.settle true source.rest
  .ok (source.rest.head?, source)

-- The next character as it stands.
def peekRaw : Reading (Option Char) := fun source =>
  let source := source.settle false source.rest
  .ok (source.rest.head?, source)

-- Passes over the character that was peeked at.
def advance : Reading Unit := modify fun source =>
  match source.rest with
  | '\n' :: r => { source with rest := r, line := source.line + 1 }
  | _ :: r => { source with rest := r }
  | [] => source

def takeWhile (joins : Bool) (p : Char → Bool) : Reading Text := fun source => .ok (source.span joins p [] source.rest)

-- Passes over the next character if it is the one.
def skip (c : Char) : Reading Bool := do
  if (← peek) = some c then
    advance
    pure true
  else pure false

def putBack (token : Token) : Reading Unit := modify fun source => { source with ahead := some token }

end Reading
end PortableActions.Shell
