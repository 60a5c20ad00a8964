import PortableActions.Proofs.Text.Measure
import PortableActions.Template.Marker
-- What the patterns of rooted paths and args constructs find: an opening, and all up to the
-- first character that closes it.
namespace PortableActions.Template.Marker

theorem upTo?_closed {close : Char} {s : Text} (absent : close ∉ s) (rest : Text) :
    upTo? close (s ++ close :: rest) = some s := by
  have held : (s ++ close :: rest).takeWhile (· ≠ close) = s := by
    have each : ∀ c ∈ s, decide (c ≠ close) = true := fun c inside => decide_eq_true fun same : c = close => absent (same ▸ inside)
    rw [List.takeWhile_append_of_pos each]
    simp
  simp only [upTo?, held]
  simp

theorem upTo?_parts {close : Char} {r held : Text} (seen : upTo? close r = some held) :
    ∃ rest, r = held ++ close :: rest ∧ close ∉ held := by
  simp only [upTo?] at seen
  split at seen
  · rename_i shorter
    cases seen
    have halves := List.takeWhile_append_dropWhile (p := (· ≠ close)) (l := r)
    have absent : close ∉ r.takeWhile (· ≠ close) := fun inside => by
      have each := List.all_eq_true.mp (List.all_takeWhile (p := (· ≠ close)) (l := r)) close inside
      simp at each
    cases behind : r.dropWhile (· ≠ close) with
    | nil =>
      have sizes := congrArg List.length halves
      rw [behind] at sizes
      simp only [List.append_nil] at sizes
      omega
    | cons d rest =>
      have some_ : r.dropWhile (· ≠ close) ≠ [] := by rw [behind]; simp
      have stopped := List.head_dropWhile_not (p := (· ≠ close)) (l := r) some_
      simp only [behind] at stopped
      have same : d = close := Decidable.not_not.mp (of_decide_eq_false stopped)
      rw [behind, same] at halves
      exact ⟨rest, halves.symm, absent⟩
  · cases seen

theorem bracedPath_closed {root : Char} {body : Text} (isRoot : isRoot root = true) (absent : '}' ∉ body) (rest : Text) :
    bracedPath ('{' :: root :: '/' :: (body ++ '}' :: rest)) = some ⟨root :: '/' :: body, body.length + 4⟩ := by
  have held := upTo?_closed absent rest
  simp [bracedPath, isRoot, held]

theorem bracedPath_parts {t : Text} {found : Text.Hit} (seen : bracedPath t = some found) :
    ∃ root body rest, isRoot root = true ∧ '}' ∉ body ∧ t = '{' :: root :: '/' :: (body ++ '}' :: rest) ∧
      found = ⟨root :: '/' :: body, body.length + 4⟩ := by
  unfold bracedPath at seen
  split at seen
  · rename_i root r
    split at seen
    · rename_i isRoot
      obtain ⟨body, held, same⟩ := Option.map_eq_some_iff.mp seen
      obtain ⟨rest, split, absent⟩ := upTo?_parts held
      exact ⟨root, body, rest, isRoot, absent, by rw [split], same.symm⟩
    · cases seen
  · cases seen

theorem argsConstruct_closed {held : Text} (free : ']' ∉ held) (rest : Text) :
    argsConstruct ('@' :: '[' :: (held ++ ']' :: rest)) = some ⟨held, held.length + 3⟩ := by
  have found := upTo?_closed free rest
  simp [argsConstruct, found]

theorem argsConstruct_parts {t : Text} {found : Text.Hit} (seen : argsConstruct t = some found) :
    ∃ held rest, t = '@' :: '[' :: (held ++ ']' :: rest) ∧ ']' ∉ held ∧ found = ⟨held, held.length + 3⟩ := by
  unfold argsConstruct at seen
  split at seen
  · obtain ⟨held, got, same⟩ := Option.map_eq_some_iff.mp seen
    obtain ⟨rest, split, absent⟩ := upTo?_parts got
    exact ⟨held, rest, by rw [split], absent, same.symm⟩
  · cases seen

theorem bracedPath_sized : Text.Sized bracedPath := by
  intro t found seen
  obtain ⟨root, body, rest, _, _, rfl, rfl⟩ := bracedPath_parts seen
  simp

theorem argsConstruct_sized : Text.Sized argsConstruct := by
  intro t found seen
  obtain ⟨held, rest, rfl, _, rfl⟩ := argsConstruct_parts seen
  simp

-- The front part of a text that an occurrence takes up.

theorem bracedPath_front {front rest held : Text} (seen : bracedPath (front ++ rest) = some ⟨held, front.length⟩) :
    front = '{' :: (held ++ ['}']) ∧ '}' ∉ held := by
  obtain ⟨root, body, behind, isRoot, absent, split, same⟩ := bracedPath_parts seen
  injection same with shown size
  have apart : root ≠ '}' := by rintro rfl; cases isRoot
  have whole : front ++ rest = '{' :: (held ++ ['}']) ++ behind := by rw [split, shown]; simp
  refine ⟨List.append_inj_left whole (by simp [size, shown]), ?_⟩
  simp [shown, absent, Ne.symm apart]

theorem argsConstruct_front {front rest held : Text} (seen : argsConstruct (front ++ rest) = some ⟨held, front.length⟩) :
    front = '@' :: '[' :: (held ++ [']']) ∧ ']' ∉ held := by
  obtain ⟨held', behind, split, absent, same⟩ := argsConstruct_parts seen
  injection same with shown size
  subst shown
  have whole : front ++ rest = '@' :: '[' :: (held ++ [']']) ++ behind := by rw [split]; simp
  exact ⟨List.append_inj_left whole (by simp [size]), absent⟩

end PortableActions.Template.Marker
