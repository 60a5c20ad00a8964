import PortableActions.Text.Blank
-- Words and operators of a command template. Only `;`, `&&`, `||` and parentheses are
-- operators; a lone `&` or `|` belongs to the word it stands in. A quote suspends word
-- ends until the same quote comes again, and stays in the text of the word.
namespace PortableActions.Template

inductive Separator where
  | sequence
  | and
  | or
  deriving DecidableEq, Repr

def Separator.text : Separator → Text
  | sequence => [';']
  | and => ['&', '&']
  | or => ['|', '|']

inductive Token where
  | word (text : Text)
  | opening
  | closing
  | separator (kind : Separator)
  deriving DecidableEq, Repr

namespace Token

def text : Token → Text
  | word t => t
  | opening => ['(']
  | closing => [')']
  | separator kind => kind.text

-- A token with the offset of its first character.
structure Placed where
  start : Nat
  token : Token
  deriving DecidableEq, Repr

def isQuote (c : Char) : Bool := c = '\'' || c = '"'

def isSingle (c : Char) : Bool := c = '(' || c = ')' || c = ';'

def isDoubled (c : Char) (after : Text) : Bool := (c = '&' || c = '|') && after.head? = some c

-- Where a word stops outside quotes: at a blank, or where an operator starts.
def endsWord (c : Char) (after : Text) : Bool :=
  Text.isBlank c || isSingle c || isDoubled c after

def quoteAfter (quote : Option Char) (c : Char) : Option Char :=
  match quote with
  | some open_ => if c = open_ then none else some open_
  | none => if isQuote c then some c else none

-- The rest of a word that is being read, and the text after it.
def spanWord : Option Char → Text → Text × Text
  | _, [] => ([], [])
  | quote, c :: r =>
    if quote.isNone && endsWord c r then ([], c :: r)
    else
      let found := spanWord (quoteAfter quote c) r
      (c :: found.1, found.2)

theorem spanWord_append (quote : Option Char) (t : Text) :
    (spanWord quote t).1 ++ (spanWord quote t).2 = t := by
  induction t generalizing quote with
  | nil => rfl
  | cons c r ih =>
    simp only [spanWord]
    split
    · rfl
    · simp [ih]

theorem spanWord_length (quote : Option Char) (t : Text) : (spanWord quote t).2.length ≤ t.length := by
  have := congrArg List.length (spanWord_append quote t)
  simp at this
  omega

-- The operator that starts here, and the text after it.
def operator? (c : Char) (after : Text) : Option (Token × Text) :=
  if c = '(' then some (opening, after)
  else if c = ')' then some (closing, after)
  else if c = ';' then some (separator .sequence, after)
  else if isDoubled c after then some (separator (if c = '&' then .and else .or), after.drop 1)
  else none

theorem operator?_length {c : Char} {after : Text} {found : Token × Text}
    (seen : operator? c after = some found) : found.2.length ≤ after.length := by
  unfold operator? at seen
  split at seen
  · cases seen; simp
  split at seen
  · cases seen; simp
  split at seen
  · cases seen; simp
  split at seen
  · cases seen; simp
  · cases seen

def readFrom (start : Nat) : Text → List Placed
  | [] => []
  | c :: r =>
    if Text.isBlank c then readFrom (start + 1) r
    else match seen : operator? c r with
      | some found => ⟨start, found.1⟩ :: readFrom (start + found.1.text.length) found.2
      | none =>
        let found := spanWord (quoteAfter none c) r
        ⟨start, word (c :: found.1)⟩ :: readFrom (start + (found.1.length + 1)) found.2
  termination_by t => t.length
  decreasing_by
  · simp
  · have := operator?_length seen; simp; omega
  · have := spanWord_length (quoteAfter none c) r; simp; omega

-- The tokens of a template with their offsets.
def readPlaced (t : Text) : List Placed := readFrom 0 t

def read (t : Text) : List Token := (readPlaced t).map Placed.token

end Token
end PortableActions.Template
