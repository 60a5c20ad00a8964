import PortableActions.Disk
import PortableActions.Proofs.Text.Parts
import Mathlib.Data.List.Induction
-- Where paths lead. Without links the disk decides only whether a path leads anywhere; to
-- which location is read off its names.
namespace PortableActions

namespace Location

-- One name further, as far as it leads anywhere.
def step (location : Location) (name : Text) : Location :=
  if name = [] ∨ name = ['.'] then location
  else if name = ['.', '.'] then location.dropLast
  else location ++ [name]

def descend (location : Location) (names : List Text) : Location := names.foldl step location

theorem mem_step {location : Location} {name n : Text} (member : n ∈ location.step name) : n ∈ location ∨ n = name := by
  unfold step at member
  split at member
  · exact .inl member
  split at member
  · exact .inl (List.dropLast_subset _ member)
  · simpa using member

theorem mem_descend {location : Location} {names : List Text} {n : Text} (member : n ∈ location.descend names) :
    n ∈ location ∨ n ∈ names := by
  induction names generalizing location with
  | nil => exact .inl member
  | cons name rest ih =>
    rcases ih member with old | later
    · rcases mem_step old with old | rfl
      · exact .inl old
      · exact .inr (by simp)
    · exact .inr (by simp [later])

end Location

namespace Disk

-- The names of a path, from left to right.
def names (path : Text) : List Text := (Text.splitOn '/' path).filter (· ≠ [])

theorem names_append (a b : Text) : names (a ++ '/' :: b) = names a ++ names b := by
  simp [names, Text.splitOn_append]

theorem names_single {name : Text} (plain : '/' ∉ name) (named : name ≠ []) : names name = [name] := by
  simp [names, Text.splitOn_of_not_mem plain, named]

-- The last name of a path follows the others.
theorem splitLast_names (path : Text) (named : (splitLast path).2.1 ≠ []) :
    names path = (splitLast path).1 ++ [(splitLast path).2.1] := by
  have parts : splitLast path = ((names path).dropLast, (names path).getLast?.getD [], Text.endsWith ['/'] path) := rfl
  rw [parts] at named ⊢
  dsimp only at named ⊢
  generalize names path = listed at named
  cases listed using List.reverseRecOn with
  | nil => exact absurd rfl named
  | append_singleton front last => simp

theorem enter_ok {disk : Disk} {location next : Location} {name : Text}
    (entered : disk.enter location name = .ok next) : next = location.step name := by
  unfold enter at entered
  unfold Location.step
  split at entered
  · cases entered; simp [*]
  split at entered
  · cases entered; simp [*]
  split at entered
  · cases entered
  split at entered
  · cases entered; simp [*]
  · cases entered
  · cases entered

theorem walk_ok {disk : Disk} {location last : Location} {names : List Text}
    (walked : disk.walk location names = .ok last) : last = location.descend names := by
  induction names generalizing location with
  | nil => cases walked; rfl
  | cons name rest ih =>
    simp only [walk] at walked
    cases entered : disk.enter location name with
    | error e => simp [entered] at walked
    | ok next =>
      simp only [entered] at walked
      rw [ih walked, enter_ok entered]
      rfl

-- A path with a vacancy at its end has a last name, the others lead to a directory, and
-- nothing stands there under the last name.
theorem vacancy_ok {disk : Disk} {path : Text} {location : Location} (vacant : disk.vacancy path = .ok location) :
    ∃ parents name, names path = parents ++ [name] ∧ location = Location.descend [] parents ++ [name] ∧
      disk.lookup location = none := by
  have last := splitLast_names path
  unfold vacancy at vacant
  generalize splitLast path = parts at vacant last
  obtain ⟨parents, name, slash⟩ := parts
  dsimp only at vacant last
  split at vacant
  · cases vacant
  split at vacant
  · cases vacant
  rename_i parent walked
  split at vacant
  · cases vacant
  split at vacant
  · cases vacant
  rename_i proper
  split at vacant
  · cases vacant
  split at vacant
  · cases vacant
  rename_i free
  cases vacant
  exact ⟨parents, name, last fun unnamed => proper (.inl unnamed), by rw [walk_ok walked], free⟩

theorem vacancy_inner {disk : Disk} {path : Text} {location : Location} (vacant : disk.vacancy path = .ok location) :
    location ≠ [] := by
  obtain ⟨parents, name, _, rfl, _⟩ := vacancy_ok vacant
  simp

theorem vacancy_free {disk : Disk} {path : Text} {location : Location} (vacant : disk.vacancy path = .ok location) :
    disk.lookup location = none := by
  obtain ⟨_, _, _, _, free⟩ := vacancy_ok vacant
  exact free

-- Every name of the location is a name of the path.
theorem vacancy_names {disk : Disk} {path : Text} {location : Location} (vacant : disk.vacancy path = .ok location) :
    ∀ n ∈ location, n ∈ Text.splitOn '/' path := by
  obtain ⟨parents, name, split, rfl, _⟩ := vacancy_ok vacant
  intro n member
  have among : n ∈ names path := by
    rcases List.mem_append.mp member with inside | last
    · rcases Location.mem_descend inside with none | named
      · cases none
      · simp [split, named]
    · simp [split, List.mem_singleton.mp last]
  exact (List.mem_filter.mp among).1

theorem names_extended {base name : Text} (plain : '/' ∉ name) (named : name ≠ []) :
    names (Path.Posix.append base name) = names base ++ [name] := by
  have relative : Path.Posix.isAbsolute name = false := by
    cases name with
    | nil => rfl
    | cons c r =>
      simp only [List.mem_cons, not_or] at plain
      simp [Path.Posix.isAbsolute, Text.startsWith, List.isPrefixOf, plain.1]
  rw [Path.Posix.append, relative]
  simp only [Bool.false_eq_true, if_false]
  split
  · rename_i closed
    rcases Bool.or_eq_true_iff.mp closed with empty | slash
    · rw [List.isEmpty_iff.mp empty]
      exact names_single plain named
    · obtain ⟨front, rfl⟩ := List.isSuffixOf_iff_suffix.mp slash
      rw [List.append_assoc, List.singleton_append, names_append, names_append, names_single plain named]
      simp [names, Text.splitOn]
  · rw [List.append_assoc, List.singleton_append, names_append, names_single plain named]

-- The location of a new file depends on its directory and its name alone.
theorem vacancy_place {disk : Disk} {base name : Text} {location : Location} (plain : '/' ∉ name) (named : name ≠ [])
    (vacant : disk.vacancy (Path.Posix.append base name) = .ok location) :
    location = Location.descend [] (names base) ++ [name] := by
  obtain ⟨parents, last, split, rfl, _⟩ := vacancy_ok vacant
  rw [names_extended plain named] at split
  obtain ⟨rfl, same⟩ := List.append_inj' split rfl
  rw [List.singleton_inj.mp same]

end Disk
end PortableActions
