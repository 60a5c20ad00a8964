import PortableActions.Proofs.CommandLine.Delivery
import PortableActions.Proofs.CommandLine.Spending
-- A classpath wrapped by itself, between texts that hold no markers. It is handed over
-- whole exactly when no stage finds a marker in it and it does not close the construct.
namespace PortableActions.CommandLine
open PortableActions.Template

-- Text without signs falls into plain pieces, and the first args construct behind it is found.

theorem pieces_signless {t : Text} (signless : '@' ∉ t) :
    Text.Passes (Text.pieces Marker.argsConstruct) t (t.map .plain) :=
  Text.pieces_passes_absent (fun _ r => argsConstruct_unlike r) signless

theorem content_plain {held : Text} (bell : Marker.standIn ∉ held) : ArgsConstruct.content held = Text.trim held := by
  rw [ArgsConstruct.content, Text.replaceAll_char]
  congr 1
  induction held with
  | nil => rfl
  | cons c r ih =>
    simp only [List.mem_cons, not_or] at bell
    rw [List.flatMap_cons, ih bell.2, if_neg (Ne.symm bell.1)]
    rfl

theorem contents_first {held : Text} (front : Text) (signless : '@' ∉ front) (free : ']' ∉ held) (bell : Marker.standIn ∉ held)
    (back : Text) :
    ArgsConstruct.contentsOf (Text.pieces Marker.argsConstruct (front ++ ('@' :: '[' :: (held ++ [']']) ++ back))) =
      Text.trim held :: ArgsConstruct.contentsOf (Text.pieces Marker.argsConstruct back) := by
  rw [pieces_signless signless, construct_pieces free, contentsOf_append, contentsOf_plain, List.nil_append,
    List.singleton_append, ArgsConstruct.contentsOf, content_plain bell]

theorem paths_braceless (t : Text) (braceless : '{' ∉ t) : Text.Passes pathsPlaced t t :=
  Text.passes_absent (fun _ r => bracedPath_unlike r) braceless

-- The patterns of the stages start and end with braces, and see a marker where they see
-- its braces, whatever follows.
structure Braced (pattern : Text.Pattern) : Prop where
  opens : ∀ c r, c ≠ '{' → pattern (c :: r) = none
  closes : ∀ t found, pattern t = some found →
    ∃ marker rest, t = marker ++ '}' :: rest ∧ ∀ other, pattern (marker ++ '}' :: other) ≠ none

theorem paths_framed : Braced Marker.bracedPath where
  opens := fun _ r other => bracedPath_unlike r other
  closes := by
    intro t found seen
    obtain ⟨root, body, rest, isRoot, absent, rfl, _⟩ := Marker.bracedPath_parts seen
    refine ⟨'{' :: root :: '/' :: body, rest, rfl, fun other => ?_⟩
    have closed := Marker.bracedPath_closed isRoot absent other
    simp [closed]

theorem symbol_framed (k : Char) : Braced (Text.literal ['{', k, '}']) where
  opens := fun _ r other => Text.literal_unlike _ r other
  closes := by
    intro t found seen
    obtain ⟨rfl, _, rest, rfl⟩ := Text.literal_some seen
    refine ⟨['{', k], rest, rfl, fun other => ?_⟩
    simp [Text.literal]

-- Around a text, other text without braces adds no marker and takes none away.

theorem Braced.unseen {pattern : Text.Pattern} (braced : Braced pattern) {t : Text} (closeless : '}' ∉ t) : pattern t = none := by
  cases seen : pattern t with
  | none => rfl
  | some found =>
    obtain ⟨marker, rest, rfl, _⟩ := braced.closes t found seen
    exact absurd (by simp) closeless

theorem Braced.front {pattern : Text.Pattern} (braced : Braced pattern) {front : Text} (openless : '{' ∉ front) (t : Text) :
    Text.occurs pattern (front ++ t) = Text.occurs pattern t := by
  induction front with
  | nil => rfl
  | cons c r ih =>
    simp only [List.mem_cons, not_or] at openless
    simp [Text.occurs, braced.opens c _ (Ne.symm openless.1), ih openless.2]

theorem Braced.seen {pattern : Text.Pattern} (braced : Braced pattern) {back : Text} (closeless : '}' ∉ back) (t : Text) :
    (pattern (t ++ back)).isSome = (pattern t).isSome := by
  cases short : pattern t with
  | some found =>
    obtain ⟨marker, rest, rfl, seen⟩ := braced.closes t found short
    have longer := seen (rest ++ back)
    rw [List.append_assoc, List.cons_append, Option.isSome_iff_ne_none.mpr longer, Option.isSome_some]
  | none =>
    cases long : pattern (t ++ back) with
    | none => rfl
    | some found =>
      obtain ⟨marker, rest, split, seen⟩ := braced.closes _ found long
      -- The closing brace stands in the text, not behind it.
      rcases List.append_eq_append_iff.mp split with ⟨more, _, rfl⟩ | ⟨more, rfl, tail⟩
      · exact absurd (by simp) closeless
      · cases more with
        | nil =>
          rw [List.nil_append] at tail
          exact absurd (tail ▸ List.mem_cons_self) closeless
        | cons d more =>
          obtain ⟨rfl, _⟩ := List.cons.inj tail
          exact absurd short (seen more)

theorem Braced.back {pattern : Text.Pattern} (braced : Braced pattern) {back : Text} (closeless : '}' ∉ back) (t : Text) :
    Text.occurs pattern (t ++ back) = Text.occurs pattern t := by
  induction t with
  | nil =>
    induction back with
    | nil => rfl
    | cons c r ih =>
      have here := braced.unseen closeless
      have later := ih fun inside => closeless (by simp [inside])
      simpa [Text.occurs, here] using later
  | cons c r ih =>
    rw [List.cons_append, Text.occurs, Text.occurs, ih, ← List.cons_append, braced.seen closeless]

theorem untouched_around {front t back : Text} (openless : '{' ∉ front) (closeless : '}' ∉ back) :
    Untouched (front ++ (t ++ back)) ↔ Untouched t := by
  have same : ∀ {pattern}, Braced pattern → Text.occurs pattern (front ++ (t ++ back)) = Text.occurs pattern t :=
    fun braced => (braced.front openless _).trans (braced.back closeless t)
  constructor
  · intro untouched
    exact ⟨same paths_framed ▸ untouched.paths, fun k among => same (symbol_framed k) ▸ untouched.symbols k among⟩
  · intro untouched
    exact ⟨(same paths_framed).trans untouched.paths, fun k among => (same (symbol_framed k)).trans (untouched.symbols k among)⟩

-- A classpath that is an args construct of its own.
theorem wrapped_exact {front joined back : Text} (clear : ∀ c ∈ ['@', '{', '}'], c ∉ front ++ back) :
    ArgsConstruct.contents (settleAll (pathsPlaced (front ++ ('@' :: '[' :: (joined ++ [']']) ++ back)))) = [Text.trim joined] ↔
      ']' ∉ joined ∧ Marker.standIn ∉ joined ∧ Untouched joined := by
  simp only [List.forall_mem_cons, List.mem_append, not_or] at clear
  obtain ⟨⟨signless, signlessBack⟩, ⟨openless, _⟩, ⟨closelessFront, closeless⟩, _⟩ := clear
  have text : front ++ ('@' :: '[' :: (joined ++ [']']) ++ back) = front ++ ['@', '['] ++ (joined ++ ']' :: back) := by simp
  have around : Untouched (front ++ ('@' :: '[' :: (joined ++ [']']) ++ back)) ↔ Untouched joined := by
    rw [text]
    exact untouched_around (by simp [openless]) (by simp [closeless])
  have shown : Untouched joined → ArgsConstruct.contents (settleAll (pathsPlaced
      (front ++ ('@' :: '[' :: (joined ++ [']']) ++ back)))) =
      ArgsConstruct.contentsOf (Text.pieces Marker.argsConstruct (front ++ ('@' :: '[' :: (joined ++ [']']) ++ back))) := by
    intro untouched
    have still := around.mpr untouched
    rw [ArgsConstruct.contents, ArgsConstruct.pieces, ← hidden, still.pathsPlaced, still.hidden]
  constructor
  · intro given
    have untouched : Untouched joined := by
      refine around.mp (untouched_of_handed given ?_)
      simp [closes, List.count_append, List.count_eq_zero.mpr closeless, List.count_eq_zero.mpr closelessFront]
    have quiet : Marker.standIn ∉ joined := by
      intro inside
      have bells := ArgsConstruct.contentsOf_quiet (ArgsConstruct.pieces (settleAll (pathsPlaced
        (front ++ ('@' :: '[' :: (joined ++ [']']) ++ back)))))
      rw [← ArgsConstruct.contents, given] at bells
      exact bells _ (by simp) (Text.mem_trim_of_solid rfl inside)
    refine ⟨fun inside => ?_, quiet, untouched⟩
    rw [shown untouched] at given
    obtain ⟨before, after, rfl, free⟩ := List.eq_append_cons_of_mem inside
    -- The construct ends at the first bracket of the classpath.
    have first := contents_first front signless free (fun member => quiet (by simp [member])) (after ++ ']' :: back)
    have same : front ++ ('@' :: '[' :: (before ++ [']']) ++ (after ++ ']' :: back)) =
        front ++ ('@' :: '[' :: (before ++ ']' :: after ++ [']']) ++ back) := by simp
    rw [← same, first] at given
    have short := (List.cons.inj given).1
    have cut : ']' ∈ Text.trim before := short ▸ Text.mem_trim_of_solid rfl (by simp)
    exact free (ArgsConstruct.mem_trim cut)
  · rintro ⟨free, quiet, untouched⟩
    have rest := (pieces_signless signlessBack).whole rfl
    rw [shown untouched, contents_first front signless free quiet, rest, contentsOf_plain]

end PortableActions.CommandLine
