import PortableActions.Text
-- Leftmost, non-overlapping occurrences of a pattern in a text. A text falls apart
-- into pieces, plain characters and occurrences; every substitution of this library
-- writes the pieces back, and none reads again what another occurrence has written.
namespace PortableActions.Text

-- What a pattern sees at the front of a text: what the occurrence holds, and how
-- many characters it takes up.
structure Hit where
  held : Text
  size : Nat
  deriving DecidableEq, Repr

abbrev Pattern := Text → Option Hit

inductive Piece where
  | plain (c : Char)
  | hit (held : Text)
  deriving DecidableEq, Repr

-- The number says how many characters still belong to the occurrence just met.
def piecesAfter (pattern : Pattern) : Nat → Text → List Piece
  | _, [] => []
  | left + 1, _ :: r => piecesAfter pattern left r
  | 0, c :: r =>
    match pattern (c :: r) with
    | some found => .hit found.held :: piecesAfter pattern (found.size - 1) r
    | none => .plain c :: piecesAfter pattern 0 r

def pieces (pattern : Pattern) (t : Text) : List Piece := piecesAfter pattern 0 t

def Piece.write (render : Text → Text) : Piece → Text
  | .plain c => [c]
  | .hit held => render held

def write (render : Text → Text) (ps : List Piece) : Text := ps.flatMap (Piece.write render)

def replace (pattern : Pattern) (render : Text → Text) (t : Text) : Text :=
  write render (pieces pattern t)

def occurs (pattern : Pattern) : Text → Bool
  | [] => false
  | c :: r => (pattern (c :: r)).isSome || occurs pattern r

-- A fixed word as a pattern. The empty word never occurs.
def literal (word : Text) : Pattern := fun t =>
  if word.isEmpty then none
  else if word.isPrefixOf t then some ⟨word, word.length⟩
  else none

def replaceAll (word new : Text) (t : Text) : Text := replace (literal word) (fun _ => new) t

def mentions (word t : Text) : Bool := occurs (literal word) t

theorem piecesAfter_eq_drop (pattern : Pattern) (n : Nat) (t : Text) :
    piecesAfter pattern n t = pieces pattern (t.drop n) := by
  induction t generalizing n with
  | nil => cases n <;> simp [pieces, piecesAfter]
  | cons c r ih =>
    cases n with
    | zero => rfl
    | succ n => simp only [piecesAfter, List.drop_succ_cons]; exact ih n

theorem pieces_hit {pattern : Pattern} {c : Char} {r : Text} {found : Hit}
    (seen : pattern (c :: r) = some found) :
    pieces pattern (c :: r) = .hit found.held :: pieces pattern (r.drop (found.size - 1)) := by
  rw [← piecesAfter_eq_drop]
  simp [pieces, piecesAfter, seen]

theorem pieces_plain {pattern : Pattern} {c : Char} {r : Text} (unseen : pattern (c :: r) = none) :
    pieces pattern (c :: r) = .plain c :: pieces pattern r := by
  simp [pieces, piecesAfter, unseen]

-- A text in which the pattern does not occur is left as it is.
theorem replace_of_not_occurs {pattern : Pattern} (render : Text → Text) {t : Text}
    (absent : occurs pattern t = false) : replace pattern render t = t := by
  induction t with
  | nil => rfl
  | cons c r ih =>
    simp only [occurs, Bool.or_eq_false_iff, Option.isSome_eq_false_iff, Option.isNone_iff_eq_none] at absent
    have rest := ih absent.2
    simp only [replace, write] at rest ⊢
    rw [pieces_plain absent.1]
    simp [Piece.write, rest]

end PortableActions.Text
