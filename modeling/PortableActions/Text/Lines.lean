import PortableActions.Text
-- Line ends. A carriage return, alone or before a line feed, reads as one line feed;
-- nothing else ends a line.
namespace PortableActions.Text

def foldLineEnds : Text → Text
  | [] => []
  | '\r' :: '\n' :: r => '\n' :: foldLineEnds r
  | '\r' :: r => '\n' :: foldLineEnds r
  | c :: r => c :: foldLineEnds r

-- Lines with the line feed that ends them; only the last may be without.
def lines : Text → List Text
  | [] => []
  | c :: r =>
    if c = '\n' then ['\n'] :: lines r
    else match lines r with
      | [] => [[c]]
      | line :: rest => (c :: line) :: rest

-- One line as it is passed on: stripped of line feeds at its end, then ended by one.
def printLine (line : Text) : Text :=
  (line.reverse.dropWhile (· = '\n')).reverse ++ ['\n']

def printLines (t : Text) : Text := (lines t).flatMap printLine

end PortableActions.Text
