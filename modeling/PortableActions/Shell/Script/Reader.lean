import PortableActions.Shell.Script.Token
-- Reading shell scripts. A script is read one complete line of commands at a time, so
-- that a fault in a later line is met only after the earlier ones have run.
namespace PortableActions.Shell

namespace Reading

-- Builtin commands that have no function of the same name, and whose faults end the shell.
def specialNames : List String :=
  [".", ":", "break", "continue", "eval", "exec", "exit", "export", "local", "readonly", "return", "set", "shift",
    "times", "trap", "unset"]

def followedBy (first rest : Script) : Script := if rest.isNothing then first else .sequence first rest

def inBackground : Script → Script
  | .pipe _ stages => .pipe true stages
  | .redirected line body redirects => .background line body redirects
  | tree => .background 0 tree []

def withRedirects (line : Nat) (redirects : List Redirect) (tree : Script) : Script :=
  if redirects.isEmpty then tree
  else match tree with
    | .subshell line body _ => .subshell line body redirects
    | tree => .redirected line tree redirects

-- Assignments, words and redirections of a simple command, each with the latest first.
structure Gathered where
  assignments : List (Text × Word)
  words : List Word
  redirects : List Redirect

def Gathered.script (line : Nat) (g : Gathered) : Script :=
  .simple line g.assignments.reverse g.words.reverse g.redirects.reverse

def kindOf (operator : Text) : RedirectKind :=
  match String.ofList operator with
  | "<" => .read
  | ">" => .write
  | ">|" => .overwrite
  | ">>" => .append
  | "<>" => .readWrite
  | _ => .copy

-- What a redirection leads to. A here-document gets its number here and is read later.
def redirectTo (fd : Option Nat) (operator : Text) (w : Word) : Reading Redirect := do
  let fd := fd.getD (if operator.head? = some '<' then 0 else 1)
  if Text.startsWith ['<', '<'] operator then
    let source ← get
    let announced : Announced := ⟨source.numbers, w.literal, w.isQuoted, operator.length = 3⟩
    set { source with announced := source.announced ++ [announced], numbers := source.numbers + 1 }
    pure (.mk fd (.here announced.number) [])
  else pure (.mk fd (kindOf operator) w)

def functionName (w : Word) : Reading Text := do
  match w.bare? with
  | some name =>
    if isName name && !specialNames.contains (String.ofList name) then pure name
    else fail "Bad function name".toList
  | none => fail "Bad function name".toList

def loopName (token : Token) : Reading Text := do
  match token with
  | .word w =>
    match w.bare? with
    | some name => if isName name then pure name else fail "Bad for loop variable".toList
    | none => fail "Bad for loop variable".toList
  | _ => fail "Bad for loop variable".toList

mutual

def token : Nat → Wanted → Reading Token
  | 0, _ => tooLong
  | fuel + 1, wanted => next (list fuel true) (expectOperator fuel [')']) (fuel + 1) wanted

def documents : Nat → Reading Unit
  | 0 => tooLong
  | fuel + 1 => readDocuments (list fuel true) (expectOperator fuel [')']) (fuel + 1)

def expectOperator : Nat → Text → Reading Unit
  | 0, _ => tooLong
  | fuel + 1, t => do
    let found ← token fuel .plain
    if found.isOperator t then pure () else unexpectedFor found (Token.quotedName t)

def expectKeyword : Nat → Wanted → Text → Reading Unit
  | 0, _, _ => tooLong
  | fuel + 1, wanted, t => do
    let found ← token fuel wanted
    if found.isKeyword t then pure () else unexpectedFor found (Token.quotedName t)

-- Commands up to a token that ends the list; at the very start such a token counts as the
-- end only if the list may be empty.
def list : Nat → Bool → Reading Script
  | 0, _ => tooLong
  | fuel + 1, mayEnd => do
    let found ← token fuel .laterCommand
    match found with
    | .ending =>
      documents fuel
      putBack found
      pure .nothing
    | _ =>
      putBack found
      if mayEnd && found.closes then pure .nothing
      else
        let first ← andOr fuel
        let after ← token fuel .plain
        match after with
        | .ending =>
          documents fuel
          putBack after
          pure first
        | .newline =>
          putBack after
          pure (followedBy first (← list fuel true))
        | .operator ['&'] => pure (followedBy (inBackground first) (← list fuel true))
        | .operator [';'] => pure (followedBy first (← list fuel true))
        | _ =>
          putBack after
          pure first

def andOr : Nat → Reading Script
  | 0 => tooLong
  | fuel + 1 => do
    let first ← pipeline fuel .plain
    andOrAfter fuel first

def andOrAfter : Nat → Script → Reading Script
  | 0, _ => tooLong
  | fuel + 1, left => do
    let found ← token fuel .plain
    if found.isOperator ['&', '&'] then
      let right ← pipeline fuel .laterCommand
      andOrAfter fuel (.andThen left right)
    else if found.isOperator ['|', '|'] then
      let right ← pipeline fuel .laterCommand
      andOrAfter fuel (.orElse left right)
    else
      putBack found
      pure left

def pipeline : Nat → Wanted → Reading Script
  | 0, _ => tooLong
  | fuel + 1, wanted => do
    let found ← token fuel wanted
    let negated := found.isKeyword ['!']
    if !negated then putBack found
    let first ← command fuel (if negated then .command else .plain)
    let more ← stages fuel
    let body := if more.isEmpty then first else .pipe false (first :: more)
    pure (if negated then .not body else body)

def stages : Nat → Reading (List Script)
  | 0 => tooLong
  | fuel + 1 => do
    let found ← token fuel .plain
    if found.isOperator ['|'] then
      let stage ← command fuel .laterCommand
      pure (stage :: (← stages fuel))
    else
      putBack found
      pure []

def command : Nat → Wanted → Reading Script
  | 0, _ => tooLong
  | fuel + 1, wanted => do
    let line := (← get).line
    let found ← token fuel wanted
    match found with
    | .keyword t =>
      match String.ofList t with
      | "if" =>
        let tree ← conditional fuel
        compound fuel line tree
      | "while" => loopOf fuel line false
      | "until" => loopOf fuel line true
      | "for" => forOf fuel line
      | "case" => caseOf fuel line
      | _ =>
        if t = ['\x7b'] then
          let body ← list fuel false
          expectKeyword fuel .plain ['\x7d']
          compound fuel line body
        else unexpected found
    | .operator ['('] =>
      let body ← list fuel false
      expectOperator fuel [')']
      compound fuel line (.subshell line body [])
    | .word _ | .redirect _ _ =>
      putBack found
      simple fuel (← get).line ⟨[], [], []⟩
    | _ => unexpected found

-- The redirections after a command of several words.
def compound : Nat → Nat → Script → Reading Script
  | 0, _, _ => tooLong
  | fuel + 1, line, tree => do
    let redirects ← redirectsAfter fuel
    pure (withRedirects line redirects tree)

def redirectsAfter : Nat → Reading (List Redirect)
  | 0 => tooLong
  | fuel + 1 => do
    let found ← token fuel .command
    match found with
    | .redirect fd operator =>
      let first ← target fuel fd operator
      pure (first :: (← redirectsAfter fuel))
    | _ =>
      putBack found
      pure []

def target : Nat → Option Nat → Text → Reading Redirect
  | 0, _, _ => tooLong
  | fuel + 1, fd, operator => do
    let found ← token fuel { delimiter := Text.startsWith ['<', '<'] operator }
    match found with
    | .word w => redirectTo fd operator w
    | _ => unexpected found

-- After "if" or "elif", up to and with "fi".
def conditional : Nat → Reading Script
  | 0 => tooLong
  | fuel + 1 => do
    let test ← list fuel false
    expectKeyword fuel .plain "then".toList
    let yes ← list fuel false
    let found ← token fuel .plain
    if found.isKeyword "elif".toList then
      pure (.choose test yes (← conditional fuel))
    else if found.isKeyword "else".toList then
      let no ← list fuel false
      expectKeyword fuel .plain "fi".toList
      pure (.choose test yes no)
    else
      putBack found
      expectKeyword fuel .plain "fi".toList
      pure (.choose test yes .nothing)

def loopOf : Nat → Nat → Bool → Reading Script
  | 0, _, _ => tooLong
  | fuel + 1, line, stopsOnSuccess => do
    let test ← list fuel false
    expectKeyword fuel .plain "do".toList
    let body ← list fuel false
    expectKeyword fuel .plain "done".toList
    compound fuel line (.loop stopsOnSuccess test body)

def forOf : Nat → Nat → Reading Script
  | 0, _ => tooLong
  | fuel + 1, line => do
    let name ← loopName (← token fuel .plain)
    let found ← token fuel .laterCommand
    let items ← if found.isKeyword "in".toList then words fuel
      else do
        if !found.isOperator [';'] then putBack found
        pure [[.arguments]]
    expectKeyword fuel .laterCommand "do".toList
    let body ← list fuel false
    expectKeyword fuel .plain "done".toList
    compound fuel line (.each line name items body)

-- Words up to the newline or semicolon that has to follow them.
def words : Nat → Reading (List Word)
  | 0 => tooLong
  | fuel + 1 => do
    let found ← token fuel .plain
    match found with
    | .word w => pure (w :: (← words fuel))
    | .newline => pure []
    | .operator [';'] => pure []
    | _ => unexpected found

def caseOf : Nat → Nat → Reading Script
  | 0, _ => tooLong
  | fuel + 1, line => do
    let found ← token fuel .plain
    match found with
    | .word subject =>
      expectKeyword fuel .laterCommand "in".toList
      let cases ← branches fuel
      compound fuel line (.branches line subject cases)
    | _ => unexpectedFor found "word".toList

def branches : Nat → Reading (List (List Word × Script))
  | 0 => tooLong
  | fuel + 1 => do
    let found ← token fuel ⟨true, true, false, false⟩
    if found.isKeyword "esac".toList then pure []
    else
      let found ← if found.isOperator ['('] then token fuel .plain else pure found
      let patterns ← patterns fuel found
      let body ← list fuel true
      let after ← token fuel ⟨true, true, false, false⟩
      if after.isKeyword "esac".toList then pure [(patterns, body)]
      else if after.isOperator [';', ';'] then pure ((patterns, body) :: (← branches fuel))
      else unexpectedFor after "\";;\"".toList

-- Patterns up to the closing parenthesis. A token that is no word leaves the latest word
-- standing as the pattern.
def patterns : Nat → Token → Reading (List Word)
  | 0, _ => tooLong
  | fuel + 1, _ => do
    let w := (← get).latest
    let after ← token fuel .plain
    if after.isOperator ['|'] then
      let found ← token fuel .plain
      pure (w :: (← patterns fuel found))
    else if after.isOperator [')'] then pure [w]
    else unexpectedFor after "\")\"".toList

def simple : Nat → Nat → Gathered → Reading Script
  | 0, _, _ => tooLong
  | fuel + 1, line, g => do
    let found ← token fuel { aliases := g.words.isEmpty }
    match found with
    | .word w =>
      match (if g.words.isEmpty then w.assignment? else none) with
      | some entry => simple fuel line { g with assignments := entry :: g.assignments }
      | none => simple fuel line { g with words := w :: g.words }
    | .redirect fd operator =>
      let redirect ← target fuel fd operator
      simple fuel line { g with redirects := redirect :: g.redirects }
    | .operator ['('] =>
      match g.words, g.assignments, g.redirects with
      | [w], [], [] =>
        expectOperator fuel [')']
        let name ← functionName w
        pure (.define name (← command fuel .laterCommand))
      | _, _, _ =>
        putBack found
        pure (g.script line)
    | _ =>
      putBack found
      pure (g.script line)

end

-- The commands of a line at the top; none if the text has come to its end.
def line : Nat → Bool → Reading (Option Script)
  | 0, _ => tooLong
  | fuel + 1, isFirst => do
    let found ← token fuel .command
    match found with
    | .newline =>
      documents fuel
      pure (some .nothing)
    | .ending =>
      documents fuel
      pure (if isFirst then none else some .nothing)
    | _ =>
      putBack found
      let first ← andOr fuel
      let after ← token fuel .plain
      let rest := do
        let tree ← line fuel false
        pure (tree.getD .nothing)
      match after with
      | .ending =>
        documents fuel
        pure (some first)
      | .newline =>
        documents fuel
        pure (some first)
      | .operator ['&'] => pure (some (followedBy (inBackground first) (← rest)))
      | .operator [';'] => pure (some (followedBy first (← rest)))
      | _ => unexpected after

def quotedText (fuel : Nat) : Reading Word :=
  double (list fuel true) (expectOperator fuel [')']) fuel .document ⟨false, none, false⟩

end Reading

namespace Script

-- The next line of commands and the source after it; none at the end.
def readLine (source : Source) : Except SyntaxFault (Option Script × Source) :=
  let fresh := { source with announced := [], ahead := none, active := [], aliasNext := false }
  Reading.line fresh.size true fresh

-- A text that is read as if between double quotes.
def readQuoted (t : Text) : Except SyntaxFault Word :=
  let source := Source.ofText t 1
  (Reading.quotedText source.size source).map Prod.fst

end Script
end PortableActions.Shell
