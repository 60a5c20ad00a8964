import PortableActions.Shell.Script.Source
-- Reading words. How the commands of a substitution are read is a parameter.
namespace PortableActions.Shell

-- Where the text being read stands: inside the braces of a parameter, in a
-- here-document, or in the word that ends one, where no substitution is read.
structure Around where
  inBraces : Bool
  document : Option Announced
  isDelimiter : Bool

-- What ends text that is read as if between double quotes.
inductive Ending where
  | quote
  | brace
  | document
  deriving DecidableEq, Repr

namespace Reading

-- Where a word ends outside quotes and braces.
def isEnd (c : Char) : Bool := " \t\n;&|<>()".toList.contains c

def isBarePlain (c : Char) : Bool := !(isEnd c || "\\'\"`$\x7d".toList.contains c)

def isDoublePlain (c : Char) : Bool := !"\\\"`$\x7d\n".toList.contains c

def isSumPlain (c : Char) : Bool := !"\\`$()\n".toList.contains c

def missingBrace : Text := "Missing '\x7d'".toList

def tooLong {α : Type} : Reading α := fail "too long".toList

-- What is wrong if the text ends inside double quotes.
def unclosed (around : Around) : Text :=
  if around.document.isSome then missingBrace else "Unterminated quoted string".toList

def marked (around : Around) (inside : Word) : Word :=
  if around.document.isSome then inside
  else match inside with
    | [.parameter ['@'] .asIs false []] => [.arguments]
    | _ => .mark :: (inside ++ [.mark])

-- At the start of a line of a here-document: passes over the line if it ends the document.
def atDelimiter (around : Around) : Reading Bool := do
  match around.document with
  | none => pure false
  | some document =>
    let _ ← if document.isQuoted then peekRaw else peek
    if document.dropsTabs then
      let _ ← takeWhile false (· = '\t')
    let source ← get
    if Text.startsWith document.delimiter source.rest then
      match source.rest.drop document.delimiter.length with
      | [] =>
        set { source with rest := [] }
        pure true
      | c :: r =>
        if c = '\n' then
          set { source with rest := r, line := source.line + 1 }
          pure true
        else pure false
    else pure false

-- Takes a newline inside braces, sums and quotes; a here-document must not end there.
def innerNewline (around : Around) (fault : Text) : Reading Unit := do
  advance
  if ← atDelimiter around then fail fault

-- The text between backquotes. A backslash keeps a backquote, a backslash or a dollar sign
-- after it, and inside double quotes a double quote too.
def backquotedText (inQuotes : Bool) : Nat → Reading Text
  | 0 => tooLong
  | fuel + 1 => do
    let run ← takeWhile true fun c => c ≠ '`' && c ≠ '\\'
    match ← peek with
    | none => fail "EOF in backquote substitution".toList
    | some '`' =>
      advance
      pure run
    | some _ =>
      advance
      match ← peekRaw with
      | none => fail "EOF in backquote substitution".toList
      | some c =>
        advance
        let kept := c ≠ '\\' && c ≠ '`' && c ≠ '$' && !(inQuotes && c = '"')
        let rest ← backquotedText inQuotes fuel
        pure (run ++ (if kept then ['\\', c] else [c]) ++ rest)

def backquoted (commands : Reading Script) (inQuotes : Bool) (fuel : Nat) : Reading Part := do
  let text ← backquotedText inQuotes fuel
  let outer ← get
  set { outer with rest := text, line := 1, announced := [], ahead := none }
  let body ← commands
  modify fun inner => { outer with documents := inner.documents, numbers := inner.numbers }
  pure (.output body)

-- Commands up to a closing parenthesis.
def parenthesized (commands : Reading Script) (closing : Reading Unit) : Reading Part := do
  let announced := (← get).announced
  modify fun source => { source with announced := [] }
  let body ← commands
  closing
  modify fun source => { source with announced := announced }
  pure (.output body)

-- What a backslash and the character after it stand for inside double quotes.
def escaped (around : Around) (c : Char) : Text :=
  let kept := c ≠ '\\' && c ≠ '`' && c ≠ '$' && (c ≠ '"' || (around.document.isSome && !around.inBraces)) &&
    (c ≠ '\x7d' || !around.inBraces)
  if kept then ['\\', c] else [c]

-- Passes over a character of the head of a parameter; a newline there does not count.
def pass : Reading Unit := do
  let line := (← get).line
  advance
  modify fun source => { source with line := line }

-- The change that a character between name and operand asks for.
def changeOf (c : Char) : Change :=
  match c with
  | '-' => .otherwise
  | '=' => .assigned
  | '?' => .required
  | '+' => .instead
  | _ => .unknown

-- What stands between the name of a parameter and the operand, when the first character
-- of it has been taken; the flag says whether an operand follows.
def changeAfter (c : Option Char) : Reading (Change × Bool × Bool) := do
  match c with
  | none => pure (.unknown, false, true)
  | some '\x7d' => pure (.asIs, false, false)
  | some ':' =>
    let kind ← peek
    pass
    match kind with
    | some '\x7d' => pure (.asIs, true, true)
    | some c => pure (changeOf c, true, true)
    | none => pure (.unknown, true, true)
  | some '#' => pure (.trimmed true (← skip '#'), false, true)
  | some '%' => pure (.trimmed false (← skip '%'), false, true)
  | some c => pure (changeOf c, false, true)

def nextTaken : Reading (Option Char) := do
  let c ← peek
  pass
  pure c

def named (name : Text) : Reading (Text × Change × Bool × Bool) := do
  let (change, colon, hasOperand) ← changeAfter (← nextTaken)
  pure (name, change, colon, hasOperand)

-- Name and change of a parameter in braces. An opening "#" asks for the length if a name
-- follows; otherwise it is a name itself.
def bracedHead : Reading (Text × Change × Bool × Bool) := do
  match ← peek with
  | none => pure ([], .unknown, false, true)
  | some c =>
    if isNameStart c then named (← takeWhile true isNameChar)
    else if c.isDigit then named (← takeWhile true Char.isDigit)
    else if c = '\x7d' then pure ([], .unknown, false, true)
    else if c = '#' then
      pass
      match ← peek with
      | none => pure (['#'], .unknown, false, true)
      | some d =>
        if d.isDigit then pure (← takeWhile true Char.isDigit, .length, false, true)
        else if isNameChar d then pure (← takeWhile true isNameChar, .length, false, true)
        else
          pass
          if d = '\x7d' || (← peek) ≠ some '\x7d' then
            let (change, colon, hasOperand) ← changeAfter (some d)
            pure (['#'], change, colon, hasOperand)
          else if isSpecialName d then pure ([d], .length, false, true)
          else pure ([], .unknown, false, true)
    else
      pass
      if isSpecialName c then named [c] else pure ([], .unknown, false, true)

mutual

-- Text outside quotes, up to the end of the word or the closing brace.
def bare (commands : Reading Script) (closing : Reading Unit) : Nat → Around → Reading Word
  | 0, _ => tooLong
  | fuel + 1, around => do
    match ← peek with
    | none => if around.inBraces then fail missingBrace else pure []
    | some c =>
      if !around.inBraces && isEnd c then pure []
      else if c = '\\' then
        advance
        match ← peekRaw with
        | none => pure [.quoted ['\\']]
        | some d =>
          advance
          pure (.quoted [d] :: (← bare commands closing fuel around))
      else if c = '\'' then
        advance
        let inside ← takeWhile false (· ≠ '\'')
        if (← peekRaw).isNone then fail (unclosed around)
        advance
        let rest ← bare commands closing fuel around
        pure (marked around [.quoted inside] ++ rest)
      else if c = '"' then
        advance
        let inside ← double commands closing fuel .quote around
        let rest ← bare commands closing fuel around
        pure (marked around inside ++ rest)
      else if c = '`' && !around.isDelimiter then
        advance
        let part ← backquoted commands false fuel
        pure (part :: (← bare commands closing fuel around))
      else if c = '$' && !around.isDelimiter then
        advance
        let part ← dollar commands closing fuel true around
        pure (Word.push part (← bare commands closing fuel around))
      else if c = '\x7d' && around.inBraces then
        advance
        pure []
      else if c = '\n' then
        innerNewline around missingBrace
        pure (Word.push (.plain ['\n']) (← bare commands closing fuel around))
      else
        let run ← takeWhile true isBarePlain
        if run = [] then
          advance
          pure (Word.push (.plain [c]) (← bare commands closing fuel around))
        else pure (Word.push (.plain run) (← bare commands closing fuel around))

-- Text that is read as if between double quotes.
def double (commands : Reading Script) (closing : Reading Unit) : Nat → Ending → Around → Reading Word
  | 0, _, _ => tooLong
  | fuel + 1, ending, around => do
    match ← peek with
    | none => if ending = .document then pure [] else fail (unclosed around)
    | some c =>
      if c = '"' then
        advance
        match ending with
        | .quote => pure []
        | .brace =>
          let inside ← double commands closing fuel .quote around
          let rest ← double commands closing fuel ending around
          pure (marked around inside ++ rest)
        | .document => pure (.quoted ['"'] :: (← double commands closing fuel ending around))
      else if c = '\x7d' && ending = .brace then
        advance
        pure []
      else if c = '\\' then
        advance
        match ← peekRaw with
        | none => pure (.quoted ['\\'] :: (← double commands closing fuel ending around))
        | some d =>
          advance
          pure (.quoted (escaped around d) :: (← double commands closing fuel ending around))
      else if c = '`' && !around.isDelimiter then
        advance
        let part ← backquoted commands true fuel
        pure (part :: (← double commands closing fuel ending around))
      else if c = '$' && !around.isDelimiter then
        advance
        let part ← dollar commands closing fuel false around
        pure (part :: (← double commands closing fuel ending around))
      else if c = '\n' then
        advance
        if ← atDelimiter around then
          if ending = .document then pure [.quoted ['\n']] else fail (unclosed around)
        else pure (.quoted ['\n'] :: (← double commands closing fuel ending around))
      else
        let run ← takeWhile true isDoublePlain
        if run = [] then
          advance
          pure (.quoted [c] :: (← double commands closing fuel ending around))
        else pure (.quoted run :: (← double commands closing fuel ending around))

-- An arithmetic expression up to its two closing parentheses.
def sum (commands : Reading Script) (closing : Reading Unit) : Nat → Nat → Around → Reading Word
  | 0, _, _ => tooLong
  | fuel + 1, depth, around => do
    match ← peek with
    | none => fail "Missing '))'".toList
    | some c =>
      if c = '(' then
        advance
        pure (Word.push (.plain [c]) (← sum commands closing fuel (depth + 1) around))
      else if c = ')' then
        advance
        let closes ← if depth = 0 then skip ')' else pure false
        if closes then pure []
        else pure (Word.push (.plain [c]) (← sum commands closing fuel (depth - 1) around))
      else if c = '\\' then
        advance
        match ← peekRaw with
        | none => fail "Missing '))'".toList
        | some d =>
          advance
          pure (.quoted (escaped { around with inBraces := false } d) :: (← sum commands closing fuel depth around))
      else if c = '`' then
        advance
        let part ← backquoted commands true fuel
        pure (part :: (← sum commands closing fuel depth around))
      else if c = '$' then
        advance
        let part ← dollar commands closing fuel false { around with inBraces := false }
        pure (Word.push part (← sum commands closing fuel depth around))
      else if c = '\n' then
        innerNewline around "Missing '))'".toList
        pure (Word.push (.plain ['\n']) (← sum commands closing fuel depth around))
      else
        let run ← takeWhile true isSumPlain
        pure (Word.push (.plain run) (← sum commands closing fuel depth around))

-- What follows a dollar sign; where nothing can follow it, it stands for itself.
def dollar (commands : Reading Script) (closing : Reading Unit) : Nat → Bool → Around → Reading Part
  | 0, _, _ => tooLong
  | fuel + 1, isBare, around => do
    match ← peek with
    | none => pure (.plain ['$'])
    | some c =>
      if c = '(' then
        advance
        if ← skip '(' then
          let expression ← sum commands closing fuel 0 around
          pure (.arithmetic expression)
        else parenthesized commands closing
      else if c = '\x7b' then
        advance
        let (name, change, colon, hasOperand) ← bracedHead
        if !hasOperand then pure (.parameter name change colon [])
        else
          let inside := { around with inBraces := true }
          let isTrim := match change with
            | .trimmed _ _ => true
            | _ => false
          let operand ← if isBare || isTrim then bare commands closing fuel inside
            else double commands closing fuel .brace inside
          pure (.parameter name change colon operand)
      else if isNameStart c then pure (.parameter (← takeWhile true isNameChar) .asIs false [])
      else if isSpecialName c || c.isDigit then
        advance
        pure (.parameter [c] .asIs false [])
      else pure (.plain ['$'])

end

end Reading
end PortableActions.Shell
