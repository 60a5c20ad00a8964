import PortableActions.Shell.Script.Word
-- Reading tokens: words, operators, redirections, and the here-documents that begin after
-- the line on which they are announced.
namespace PortableActions.Shell

namespace Script

def reserved : List Text := ["!".toList, "case".toList, "do".toList, "done".toList, "elif".toList,
  "else".toList, "esac".toList, "fi".toList, "for".toList, "if".toList, "in".toList, "then".toList,
  "until".toList, "while".toList, ['\x7b'], ['\x7d']]

-- Words that end a list of commands.
def closers : List Text := ["do".toList, "done".toList, "elif".toList, "else".toList, "esac".toList,
  "fi".toList, "then".toList, ['\x7d']]

end Script

namespace Token

def quotedName (t : Text) : Text := ['"'] ++ t ++ ['"']

-- The name of a token in complaints.
def name : Token → Text
  | ending => "end of file".toList
  | newline => "newline".toList
  | operator t => quotedName t
  | keyword t => quotedName t
  | redirect _ _ => "redirection".toList
  | word _ => "word".toList

def isOperator (token : Token) (t : Text) : Bool :=
  match token with
  | operator u => u = t
  | _ => false

def isKeyword (token : Token) (t : Text) : Bool :=
  match token with
  | keyword u => u = t
  | _ => false

-- Whether a list of commands ends in front of the token.
def closes : Token → Bool
  | ending => true
  | operator t => t = [')'] || t = [';', ';']
  | keyword t => Script.closers.contains t
  | _ => false

end Token

-- What the next token may be taken for: newlines may be passed over, words may be reserved
-- or be aliases, or the word ends a here-document.
structure Wanted where
  newlines : Bool := false
  keywords : Bool := false
  aliases : Bool := false
  delimiter : Bool := false
  deriving DecidableEq, Repr

namespace Wanted

def plain : Wanted := ⟨false, false, false, false⟩

-- At the start of a command, and at the start of one that may be on a later line.
def command : Wanted := ⟨false, true, true, false⟩

def laterCommand : Wanted := ⟨true, true, true, false⟩

end Wanted

namespace Reading

def unexpected {α : Type} (token : Token) : Reading α := fail (token.name ++ " unexpected".toList)

def unexpectedFor {α : Type} (token : Token) (expected : Text) : Reading α :=
  fail (token.name ++ " unexpected (expecting ".toList ++ expected ++ [')'])

-- The operator of a redirection after its first character.
def redirectOperator (first : Char) : Reading Text := do
  if first = '>' then
    if ← skip '>' then pure ['>', '>']
    else if ← skip '|' then pure ['>', '|']
    else if ← skip '&' then pure ['>', '&']
    else pure ['>']
  else if ← skip '<' then
    if ← skip '-' then pure ['<', '<', '-'] else pure ['<', '<']
  else if ← skip '&' then pure ['<', '&']
  else if ← skip '>' then pure ['<', '>']
  else pure ['<']

-- A digit right in front of a redirection is its file descriptor.
def descriptor? (w : Word) : Option (Option Nat) :=
  match w with
  | [] => some none
  | [.plain [c]] => if c.isDigit then some (some (c.toNat - 48)) else none
  | _ => none

def wordOrRedirect (commands : Reading Script) (closing : Reading Unit) (fuel : Nat) (isDelimiter : Bool) :
    Reading Token := do
  let w ← bare commands closing fuel ⟨false, none, isDelimiter⟩
  let c ← peek
  match (if c = some '<' || c = some '>' then descriptor? w else none) with
  | some fd =>
    advance
    pure (.redirect fd (← redirectOperator (c.getD '<')))
  | none =>
    modify fun source => { source with latest := w }
    pure (.word w)

-- The next token as it stands; comments are passed over.
def scan (commands : Reading Script) (closing : Reading Unit) (isDelimiter : Bool) : Nat → Reading Token
  | 0 => tooLong
  | fuel + 1 => do
    let _ ← takeWhile true Source.isBlank
    match ← peek with
    | none => pure .ending
    | some '\n' =>
      advance
      pure .newline
    | some '#' =>
      let _ ← takeWhile false (· ≠ '\n')
      scan commands closing isDelimiter fuel
    | some '&' =>
      advance
      pure (.operator (if ← skip '&' then ['&', '&'] else ['&']))
    | some '|' =>
      advance
      pure (.operator (if ← skip '|' then ['|', '|'] else ['|']))
    | some ';' =>
      advance
      pure (.operator (if ← skip ';' then [';', ';'] else [';']))
    | some '(' =>
      advance
      pure (.operator ['('])
    | some ')' =>
      advance
      pure (.operator [')'])
    | some _ => wordOrRedirect commands closing fuel isDelimiter

-- The lines of a here-document whose delimiter is quoted.
def verbatim (around : Around) : Nat → Reading Text
  | 0 => tooLong
  | fuel + 1 => do
    if ← atDelimiter around then pure []
    else
      let line ← takeWhile false (· ≠ '\n')
      if (← peekRaw).isNone then pure line
      else
        advance
        let rest ← verbatim around fuel
        pure (line ++ ['\n'] ++ rest)

-- Reads the here-documents that have been announced.
def readDocuments (commands : Reading Script) (closing : Reading Unit) : Nat → Reading Unit
  | 0 => tooLong
  | fuel + 1 => do
    match (← get).announced with
    | [] => pure ()
    | document :: rest =>
      modify fun source => { source with announced := rest }
      let around : Around := ⟨false, some document, false⟩
      let body ← if document.isQuoted then do pure [.quoted (← verbatim around fuel)]
        else if ← atDelimiter around then pure []
        else double commands closing fuel .document around
      modify fun source => { source with documents := (document.number, body) :: source.documents }
      readDocuments commands closing fuel

-- Puts the text of an alias in place of its name; an alias is not taken up again in its
-- own text.
def replaceAlias (t : Text) : Reading Bool := do
  let source ← get
  match source.aliases.find? fun entry => entry.1 = t && !source.active.contains t with
  | none => pure false
  | some entry =>
    set { source with rest := entry.2 ++ [Source.aliasEnd] ++ source.rest, active := t :: source.active }
    pure true

-- The next token, taken for what is wanted.
def next (commands : Reading Script) (closing : Reading Unit) : Nat → Wanted → Reading Token
  | 0, _ => tooLong
  | fuel + 1, wanted => do
    let token ← match (← get).ahead with
      | some token => do
        modify fun source => { source with ahead := none }
        pure token
      | none => scan commands closing wanted.delimiter fuel
    let aliasNext := (← get).aliasNext
    modify fun source => { source with aliasNext := false }
    match token with
    | .newline =>
      if wanted.newlines then
        readDocuments commands closing fuel
        next commands closing fuel wanted
      else pure token
    | .word w =>
      match w.bare? with
      | none => pure token
      | some t =>
        if wanted.keywords && Script.reserved.contains t then pure (.keyword t)
        else if wanted.aliases || aliasNext then
          if ← replaceAlias t then next commands closing fuel { wanted with aliases := true } else pure token
        else pure token
    | _ => pure token

end Reading
end PortableActions.Shell
