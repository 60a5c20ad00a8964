import PortableActions.Text.Blank
-- Trimming takes blanks from both ends and keeps everything between the first and the
-- last character that is none.
namespace PortableActions.Text

theorem dropWhile_front {p : Char → Bool} {u v : Text} {c : Char} (stays : p c = false) :
    (u ++ c :: v).dropWhile p = u.dropWhile p ++ c :: v := by
  induction u with
  | nil => simp [stays]
  | cons d r ih => cases gone : p d <;> simp [gone, ih]

theorem trimEnd_back {u v : Text} {c : Char} (solid : isBlank c = false) :
    trimEnd (u ++ c :: v) = u ++ c :: trimEnd v := by
  simp [trimEnd, dropWhile_front solid]

-- What is trimmed around a character that is no blank.
theorem trim_around {u v : Text} {c : Char} (solid : isBlank c = false) :
    trim (u ++ c :: v) = trimStart u ++ c :: trimEnd v := by
  rw [trim, trimStart, dropWhile_front solid, trimEnd_back solid]
  rfl

theorem mem_trim_of_solid {t : Text} {c : Char} (solid : isBlank c = false) (inside : c ∈ t) : c ∈ trim t := by
  obtain ⟨u, v, rfl⟩ := List.append_of_mem inside
  rw [trim_around solid]
  simp

theorem count_trimStart (t : Text) {c : Char} (solid : isBlank c = false) : (trimStart t).count c = t.count c := by
  induction t with
  | nil => rfl
  | cons d r ih =>
    rw [trimStart] at ih ⊢
    cases blank : isBlank d with
    | true =>
      have other : d ≠ c := fun same => by rw [same, solid] at blank; cases blank
      simp [blank, ih, List.count_cons_of_ne other]
    | false => simp [blank]

theorem count_trim (t : Text) {c : Char} (solid : isBlank c = false) : (trim t).count c = t.count c := by
  have back : ∀ s : Text, (trimEnd s).count c = s.count c := by
    intro s
    have front := count_trimStart s.reverse solid
    rw [trimStart, List.count_reverse] at front
    rw [trimEnd, List.count_reverse, front]
  rw [trim, back, count_trimStart t solid]

theorem length_trim (t : Text) : (trim t).length ≤ t.length := by
  have front := (List.dropWhile_suffix (l := t) isBlank).length_le
  have back := (List.dropWhile_suffix (l := (trimStart t).reverse) isBlank).length_le
  rw [trim, trimEnd, List.length_reverse]
  rw [List.length_reverse] at back
  exact Nat.le_trans back front

theorem trim_solid {t : Text} {c d : Char} (first : isBlank c = false) (last : isBlank d = false) :
    trim (c :: (t ++ [d])) = c :: (t ++ [d]) := by
  have whole := trim_around (u := c :: t) (v := []) last
  have start : trimStart (c :: t) = c :: t := by simp [trimStart, first]
  rw [start] at whole
  exact whole

end PortableActions.Text
