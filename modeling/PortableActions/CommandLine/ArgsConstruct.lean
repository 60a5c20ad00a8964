import PortableActions.Text.Blank
import PortableActions.Template.Marker
-- Args constructs of a command line. Escaped brackets are hidden before constructs are
-- looked for and come back afterwards: as plain brackets in what a construct holds, as
-- escapes everywhere else.
namespace PortableActions.CommandLine.ArgsConstruct
open PortableActions.Template

def pieces (command : Text) : List Text.Piece :=
  Text.pieces Marker.argsConstruct (Marker.protect command)

def content (held : Text) : Text :=
  Text.trim (Text.replaceAll [Marker.standIn] [']'] held)

def contentsOf : List Text.Piece → List Text
  | [] => []
  | .plain _ :: rest => contentsOf rest
  | .hit held :: rest => content held :: contentsOf rest

-- What the constructs hold, in order.
def contents (command : Text) : List Text := contentsOf (pieces command)

-- Every construct replaced by what it holds.
def inline (command : Text) : Text :=
  Marker.unprotect (Text.write content (pieces command))

-- Every construct handed over, in order, and replaced by "@" and the path that comes
-- back. The first failure ends it; what was done before stays done.
def spillPieces {ε σ : Type} (create : Text → EStateM ε σ Text) : List Text.Piece → EStateM ε σ Text
  | [] => pure []
  | .plain c :: rest => do
    let after ← spillPieces create rest
    pure (c :: after)
  | .hit held :: rest => do
    let path ← create (content held)
    let after ← spillPieces create rest
    pure ('@' :: path ++ after)

def spill {ε σ : Type} (create : Text → EStateM ε σ Text) (command : Text) : EStateM ε σ Text := do
  let written ← spillPieces create (pieces command)
  pure (Marker.unprotect written)

end PortableActions.CommandLine.ArgsConstruct
