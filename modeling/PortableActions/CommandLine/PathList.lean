import PortableActions.Text.Letter
import PortableActions.Platform
-- Lists of paths joined by colons. A colon stays inside its entry when it is a drive
-- colon: since the last boundary there is exactly one letter, and a slash follows.
-- A semicolon is a boundary too, but ends no entry.
namespace PortableActions.CommandLine.PathList

def isDrive (sinceBoundary after : Text) : Bool :=
  match sinceBoundary with
  | [letter] => Text.isLetter letter && (after.head? = some '/' || after.head? = some '\\')
  | _ => false

-- Both accumulators are read backwards: the entry so far, and its end since the boundary.
def splitFrom (entry sinceBoundary : Text) : Text → List Text
  | [] => [entry.reverse]
  | c :: r =>
    if c = ':' then
      if isDrive sinceBoundary r then splitFrom (c :: entry) (c :: sinceBoundary) r
      else entry.reverse :: splitFrom [] [] r
    else if c = ';' then splitFrom (c :: entry) [] r
    else splitFrom (c :: entry) (c :: sinceBoundary) r

def split (paths : Text) : List Text := splitFrom [] [] paths

-- Every entry as the platform writes it; POSIX keeps the list as it is.
def native (platform : Platform) (paths : Text) : Text :=
  if platform.isWindows then
    Text.join platform.pathSeparator ((split paths).map platform.nativePath)
  else paths

theorem splitFrom_ne_nil (entry sinceBoundary t : Text) : splitFrom entry sinceBoundary t ≠ [] := by
  induction t generalizing entry sinceBoundary with
  | nil => simp [splitFrom]
  | cons c r ih =>
    simp only [splitFrom]
    split
    · split
      · exact ih _ _
      · simp
    · split <;> exact ih _ _

end PortableActions.CommandLine.PathList
