import PortableActions.Text.Lines
import PortableActions.Proofs.Text.Replacement
import PortableActions.Proofs.Text.Trimming
-- Line ends of a text that is passed on line by line. Nothing is changed but carriage returns,
-- and a line feed that the last line lacks.
namespace PortableActions.Text

-- A line feed for every carriage return with a line feed behind it, then for every other.
def unifyEnds (t : Text) : Text := replaceAll ['\r'] ['\n'] (replaceAll ['\r', '\n'] ['\n'] t)

-- A text whose last line is ended; the empty text has no line.
def endLast (t : Text) : Text := if t = [] ∨ t.getLast? = some '\n' then t else t ++ ['\n']

-- What is left of a text without carriage returns and line feeds.
def withoutEnds (t : Text) : Text := t.filter fun c => c ≠ '\r' && c ≠ '\n'

variable {c : Char} {r : Text}

theorem unifyEnds_plain (plain : c ≠ '\r') (r : Text) : unifyEnds (c :: r) = c :: unifyEnds r := by
  rw [unifyEnds, replaceAll_plain (literal_unlike ['\n'] r plain), replaceAll_plain (literal_unlike [] _ plain)]
  rfl

theorem unifyEnds_pair (r : Text) : unifyEnds ('\r' :: '\n' :: r) = '\n' :: unifyEnds r := by
  have pair : replaceAll ['\r', '\n'] ['\n'] ('\r' :: '\n' :: r) = '\n' :: replaceAll ['\r', '\n'] ['\n'] r :=
    replaceAll_hit (by simp) ['\n'] r
  rw [unifyEnds, pair, replaceAll_plain (literal_unlike [] _ (by decide))]
  rfl

theorem unifyEnds_single (other : ∀ t, r = '\n' :: t → False) : unifyEnds ('\r' :: r) = '\n' :: unifyEnds r := by
  have unseen : literal ['\r', '\n'] ('\r' :: r) = none := by
    rw [literal_none (by simp)]
    rintro ⟨t, whole⟩
    exact other t (List.cons.inj whole).2.symm
  have single : ∀ t, replaceAll ['\r'] ['\n'] ('\r' :: t) = '\n' :: replaceAll ['\r'] ['\n'] t :=
    replaceAll_hit (by simp) ['\n']
  rw [unifyEnds, replaceAll_plain unseen, single]
  rfl

theorem foldLineEnds_exact (t : Text) : foldLineEnds t = unifyEnds t := by
  induction t using foldLineEnds.induct with
  | case1 => rfl
  | case2 r ih => rw [foldLineEnds, unifyEnds_pair, ih]
  | case3 r other ih =>
    rw [foldLineEnds, unifyEnds_single other, ih]
    exact other
  | case4 c r pair single ih =>
    rw [foldLineEnds, unifyEnds_plain single, ih]
    · exact pair
    · exact single

-- Characters that end no line stay, in their order.
theorem withoutEnds_fold (t : Text) : withoutEnds (foldLineEnds t) = withoutEnds t := by
  induction t using foldLineEnds.induct with
  | case1 => rfl
  | case2 r ih =>
    rw [foldLineEnds]
    exact ih
  | case3 r other ih =>
    rw [foldLineEnds]
    · exact ih
    · exact other
  | case4 c r pair single ih =>
    rw [foldLineEnds]
    · simp only [withoutEnds, List.filter_cons] at ih ⊢
      rw [ih]
    · exact pair
    · exact single

theorem withoutEnds_endLast (t : Text) : withoutEnds (endLast t) = withoutEnds t := by
  unfold endLast withoutEnds
  split
  · rfl
  · simp

theorem lines_ne_nil (filled : r ≠ []) : lines r ≠ [] := by
  cases r with
  | nil => exact absurd rfl filled
  | cons c r =>
    rw [lines]
    split
    · simp
    · split <;> simp

theorem printLine_char (inside : c ≠ '\n') (line : Text) : printLine (c :: line) = c :: printLine line := by
  have kept : decide (c = '\n') = false := by simp [inside]
  rw [printLine, List.reverse_cons, dropWhile_front kept, List.reverse_append, List.append_assoc]
  rfl

-- A text is printed character by character, and a line feed is printed for the end that is missing.

theorem printLines_feed (r : Text) : printLines ('\n' :: r) = '\n' :: printLines r := by
  simp [printLines, lines, printLine]

theorem printLines_last (inside : c ≠ '\n') : printLines [c] = [c, '\n'] := by
  simp [printLines, lines, printLine, inside]

theorem printLines_char (inside : c ≠ '\n') (more : r ≠ []) : printLines (c :: r) = c :: printLines r := by
  cases split : lines r with
  | nil => exact absurd split (lines_ne_nil more)
  | cons line rest => simp [printLines, lines, inside, split, printLine_char]

theorem endLast_cons (c : Char) (more : r ≠ []) : endLast (c :: r) = c :: endLast r := by
  cases r with
  | nil => exact absurd rfl more
  | cons d r =>
    have same : (c :: d :: r = [] ∨ (c :: d :: r).getLast? = some '\n') ↔ (d :: r = [] ∨ (d :: r).getLast? = some '\n') := by simp
    simp only [endLast, same]
    split
    · rfl
    · rfl

theorem printLines_exact (t : Text) : printLines t = endLast t := by
  induction t with
  | nil => rfl
  | cons c r ih =>
    by_cases feed : c = '\n'
    · subst c
      rw [printLines_feed, ih]
      cases r with
      | nil => rfl
      | cons d r => exact (endLast_cons _ (by simp)).symm
    · cases r with
      | nil => simp [printLines_last feed, endLast, feed]
      | cons d r => rw [printLines_char feed (by simp), ih, endLast_cons c (by simp)]

end PortableActions.Text
