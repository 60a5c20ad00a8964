import PortableActions.Proofs.Template.Rewriting
-- Arguments in args constructs, once escaped brackets are hidden. In front of a boundary the
-- bracket that closes a construct is never taken for the end of an escape, and every bracket
-- that the argument holds is.
namespace PortableActions.Template

namespace Marker

-- Hiding goes word by word.

theorem protect_boundary {r : Text} (boundary : Boundary r) (t : Text) : protect (t ++ r) = protect t ++ protect r := by
  cases r with
  | nil =>
    have nothing : protect [] = [] := rfl
    rw [nothing, List.append_nil, List.append_nil]
  | cons d rest =>
    have outside : d ∉ escapedBracket := by rcases boundary with rfl | rfl | rfl <;> decide
    have other : d ≠ '{' := by rintro rfl; exact outside (by decide)
    rw [protect_unlike other]
    exact Text.replaceAll_split (by decide) outside _ _ _

theorem boundary_protect {r : Text} (boundary : Boundary r) : Boundary (protect r) := by
  cases r with
  | nil => trivial
  | cons d rest =>
    have other : d ≠ '{' := by rcases boundary with rfl | rfl | rfl <;> decide
    rw [protect_unlike other]
    exact boundary

theorem protect_closing {r : Text} (boundary : Boundary r) (held : Text) :
    protect (held ++ ']' :: r) = protect held ++ ']' :: protect r := by
  have last : protect (held ++ [']']) = protect held ++ [']'] := by
    refine Text.replaceAll_snoc (by decide) _ fun ends => ?_
    obtain ⟨front, whole⟩ := ends
    have same := congrArg List.getLast? whole
    rw [List.getLast?_append, List.getLast?_concat] at same
    cases same
  have split : held ++ ']' :: r = (held ++ [']']) ++ r := by simp
  rw [split, protect_boundary boundary, last]
  simp

-- A text with all its brackets hidden.
def hide (t : Text) : Text := t.map fun c => if c = ']' then standIn else c

theorem protect_escaped (t : Text) : protect (Text.replaceAll [']'] escapedBracket t) = hide t := by
  rw [Text.replaceAll_char]
  induction t with
  | nil => rfl
  | cons c r ih =>
    rw [List.flatMap_cons]
    by_cases bracket : c = ']'
    · subst bracket
      rw [if_pos rfl, protect_escape, ih]
      rfl
    · -- What follows does not start with a bracket, since brackets are escaped.
      have unseen : Text.literal escapedBracket (c :: r.flatMap fun d => if d = ']' then escapedBracket else [d]) = none := by
        rw [Text.literal_none (by decide)]
        rintro ⟨back, same⟩
        obtain ⟨_, tail⟩ := List.cons.inj same
        cases r with
        | nil => cases tail
        | cons d rest =>
          rw [List.flatMap_cons] at tail
          split at tail
          · cases (List.cons.inj tail).1
          · rename_i other
            exact other (List.cons.inj tail).1.symm
      rw [if_neg bracket, List.singleton_append, protect_plain unseen, ih, hide, hide, List.map_cons, if_neg bracket]

theorem hide_free (t : Text) : ']' ∉ hide t := by
  intro inside
  obtain ⟨c, _, shown⟩ := List.mem_map.mp inside
  split at shown
  · cases shown
  · rename_i other
    exact other shown

-- What is hidden comes back.
theorem hide_shown {t : Text} (quiet : standIn ∉ t) : Text.replaceAll [standIn] [']'] (hide t) = t := by
  rw [Text.replaceAll_char]
  induction t with
  | nil => rfl
  | cons c r ih =>
    simp only [List.mem_cons, not_or] at quiet
    have back := ih quiet.2
    rw [hide] at back
    rw [hide, List.map_cons, List.flatMap_cons, back]
    by_cases bracket : c = ']'
    · simp [bracket]
    · simp [bracket, Ne.symm quiet.1]

-- No opening comes from hiding.
theorem opening_protect {t : Text} (inside : ['@', '['] <:+: protect t) : ['@', '['] <:+: t := by
  obtain ⟨front, back, whole⟩ := inside
  have place : '@' :: '[' :: back <:+ protect t := ⟨front, by simpa using whole⟩
  obtain ⟨shown, within, same⟩ := suffix_shown place
  obtain ⟨_, rfl, second⟩ := protect_shown same (by decide)
  obtain ⟨r, rfl, _⟩ := protect_shown second (by decide)
  exact (List.prefix_append ['@', '['] r).isInfix.trans within.isInfix

end Marker

namespace Suggestion

theorem wrapArgument_deps {b : Text} (mentions : mentionsDeps b = true) :
    wrapArgument b = '@' :: '[' :: (Text.replaceAll [']'] Marker.escapedBracket b ++ [']']) := by
  simp [wrapArgument, mentions]

theorem wrapArgument_other {b : Text} (silent : mentionsDeps b ≠ true) : wrapArgument b = b := by
  simp [wrapArgument, silent]

theorem protect_wrapped {b r : Text} (mentions : mentionsDeps b = true) (boundary : Boundary r) :
    Marker.protect (wrapArgument b ++ r) = '@' :: '[' :: (Marker.hide b ++ ']' :: Marker.protect r) := by
  have split : wrapArgument b ++ r = '@' :: '[' :: (Text.replaceAll [']'] Marker.escapedBracket b ++ ']' :: r) := by
    simp [wrapArgument_deps mentions]
  rw [split, Marker.protect_unlike (by decide), Marker.protect_unlike (by decide), Marker.protect_closing boundary,
    Marker.protect_escaped]

-- A program whose arguments are wrapped: it has a sign in front, or is a tool that is known.
def Eligible (program : Text) : Prop := (word program).head? = some '@' ∨ takesArgsFiles (word program) = true

instance (program : Text) : Decidable (Eligible program) := inferInstanceAs (Decidable (_ ∨ _))

-- A program as it is written, without its sign.
def named (program : Text) : Text :=
  match word program with
  | '@' :: bare => bare
  | shown => shown

theorem named_signed {program bare : Text} (signed : word program = '@' :: bare) : named program = bare := by
  simp [named, signed]

theorem named_unsigned {program : Text} (unsigned : (word program).head? ≠ some '@') : named program = word program := by
  unfold named
  split
  · rename_i bare signed
    simp [signed] at unsigned
  · rfl

theorem named_suffix (program : Text) : named program <:+ word program := by
  unfold named
  split
  · rename_i bare signed
    exact signed ▸ List.suffix_cons '@' bare
  · exact List.suffix_refl _

-- An argument as it is written.
def shownArgument (program w : Text) : Text := if Eligible program then wrapArgument (word w) else word w

theorem shownArgument_other {program w : Text} (bare : ¬ (Eligible program ∧ mentionsDeps (word w) = true)) :
    shownArgument program w = word w := by
  unfold shownArgument
  split
  · rename_i eligible
    exact wrapArgument_other fun mentions => bare ⟨eligible, mentions⟩
  · rfl

theorem words_shown (program : Text) (args : List Text) :
    words program args = named program :: args.map (shownArgument program) := by
  rcases words_cases program args with ⟨bare, signed, same⟩ | ⟨unsigned, same⟩
  · have eligible : Eligible program := .inl (by rw [signed]; rfl)
    have each : shownArgument program = wrapArgument ∘ word := funext fun w => if_pos eligible
    rw [same, named_signed signed, each, List.map_map]
  · have only : Eligible program ↔ takesArgsFiles (word program) = true := or_iff_right unsigned
    rw [same, named_unsigned unsigned]
    by_cases known : takesArgsFiles (word program) = true
    · have each : shownArgument program = wrapArgument ∘ word := funext fun w => if_pos (only.mpr known)
      rw [if_pos known, each, List.map_map]
    · have each : shownArgument program = word := funext fun w => if_neg fun eligible => known (only.mp eligible)
      rw [if_neg known, each]

end Suggestion
end PortableActions.Template
