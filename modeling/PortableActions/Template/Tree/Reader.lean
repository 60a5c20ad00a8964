import PortableActions.Template.Tree
-- Reading a tree from tokens, one token at a time:
--   sequence ::= element+      element ::= group | separator | command
--   group ::= "(" sequence ")" command ::= word+
-- The state is what has been read of the innermost open group and of the groups around
-- it. Tokens are never taken back, so the first token that no continuation can mend is
-- where a fault is reported.
namespace PortableActions.Template

inductive Fault where
  | emptyCommand
  | unexpectedClose
  | missingClose
  deriving DecidableEq, Repr

def Fault.description : Fault → Text
  | emptyCommand => "Empty command".toList
  | unexpectedClose => "Unexpected ')'".toList
  | missingClose => "Unexpected end of input, missing ')'".toList

-- A fault and the offset in the template where reading stopped.
structure Refusal where
  fault : Fault
  position : Nat
  deriving DecidableEq, Repr

-- Latest first throughout: finished elements and pending words of the innermost group,
-- and the finished elements of the groups around it, innermost first.
structure Reading where
  done : List Node
  words : List Text
  outer : List (List Node)

namespace Reading

def start : Reading := ⟨[], [], []⟩

-- Finished elements, with the pending words as a command of their own.
def elements (s : Reading) : List Node :=
  match s.words.reverse with
  | [] => s.done
  | program :: args => .command program args :: s.done

def advance (s : Reading) : Token → Except Fault Reading
  | .word text => .ok { s with words := text :: s.words }
  | .separator kind => .ok ⟨.separator kind :: s.elements, [], s.outer⟩
  | .opening => .ok ⟨[], [], s.elements :: s.outer⟩
  | .closing =>
    if s.elements.isEmpty then .error .emptyCommand
    else match s.outer with
      | [] => .error .unexpectedClose
      | around :: outer => .ok ⟨.group s.elements.reverse :: around, [], outer⟩

def finish (s : Reading) : Except Fault (List Node) :=
  if s.elements.isEmpty then .error .emptyCommand
  else match s.outer with
    | [] => .ok s.elements.reverse
    | _ :: _ => .error .missingClose

-- The second number is where a fault of the end of input is reported.
def run (s : Reading) (length : Nat) : List Token.Placed → Except Refusal (List Node)
  | [] => s.finish.mapError fun fault => ⟨fault, length⟩
  | placed :: rest =>
    match s.advance placed.token with
    | .ok next => next.run length rest
    | .error fault => .error ⟨fault, placed.start⟩

-- What a step may do, stated apart from the function.
inductive Step : Reading → Token → Reading → Prop where
  | word (s : Reading) (text : Text) : Step s (.word text) ⟨s.done, text :: s.words, s.outer⟩
  | separator (s : Reading) (kind : Separator) :
      Step s (.separator kind) ⟨.separator kind :: s.elements, [], s.outer⟩
  | opening (s : Reading) : Step s .opening ⟨[], [], s.elements :: s.outer⟩
  | closing {s : Reading} {around : List Node} {outer : List (List Node)}
      (filled : s.elements ≠ []) (nested : s.outer = around :: outer) :
      Step s .closing ⟨.group s.elements.reverse :: around, [], outer⟩

theorem advance_sound {s next : Reading} {token : Token} (read : s.advance token = .ok next) :
    Step s token next := by
  cases token with
  | word text => cases read; exact .word s text
  | separator kind => cases read; exact .separator s kind
  | opening => cases read; exact .opening s
  | closing =>
    simp only [advance] at read
    split at read
    · cases read
    · rename_i filled
      cases nested : s.outer with
      | nil => simp [nested] at read
      | cons around outer =>
        simp only [nested] at read
        cases read
        exact .closing (by simpa using filled) nested

theorem advance_complete {s next : Reading} {token : Token} (step : Step s token next) :
    s.advance token = .ok next := by
  cases step with
  | word | separator | opening => rfl
  | closing filled nested => simp [advance, filled, nested]

end Reading

-- The tree of a template, or the first fault.
def parse (template : Text) : Except Refusal (List Node) :=
  Reading.start.run template.length (Token.readPlaced template)

def parse? (template : Text) : Option (List Node) := (parse template).toOption

end PortableActions.Template
