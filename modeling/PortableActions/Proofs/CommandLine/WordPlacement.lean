import PortableActions.Proofs.CommandLine.Placement
-- Whole planned words with the classpath and the rooted paths put in. The escape of a
-- bracket survives inside a rooted path only at its very end: the braces of the path are
-- taken to close with the escape.
namespace PortableActions.CommandLine
open PortableActions.Template
open PortableActions.Template.Suggestion (Item items rooted word braced Led Tame Apart)

theorem filled_append (joined : Text) {a : Text} (clean : Clean a) (b : Text) :
    filled joined (a ++ b) = filled joined a ++ filled joined b := by
  induction clean with
  | nil => rfl
  | char opens _ _ ih => rw [List.cons_append, filled_char _ _ opens, filled_char _ _ opens, ih, List.cons_append]
  | deps _ ih => rw [List.append_assoc, filled_deps, filled_deps, ih, List.append_assoc]

theorem glyphs_append (escaping : Bool) (joined : Text) {a : Text} (clean : Clean a) (b : Text) :
    glyphs escaping joined (a ++ b) = glyphs escaping joined a ++ glyphs escaping joined b := by
  induction clean with
  | nil => rfl
  | char opens _ _ ih =>
    rw [List.cons_append, glyphs_char _ _ opens, glyphs_char _ _ opens, ih, List.append_assoc]
  | deps _ ih => rw [List.append_assoc, glyphs_deps, glyphs_deps, ih, List.append_assoc]

-- Without a bracket to escape, glyphs are plain.
theorem glyphs_plain (escaping : Bool) (joined : Text) {t : Text} (clean : Clean t) (free : escaping = true → ']' ∉ t) :
    glyphs escaping joined t = (filled joined t).map .plain := by
  induction clean with
  | nil => rfl
  | @char c r opens _ _ ih =>
    have here : (escaping && decide (c = ']')) = false := by
      cases escaping with
      | false => rfl
      | true =>
        have other : c ≠ ']' := fun same => free rfl (by simp [same])
        simp [other]
    rw [glyphs_char _ _ opens, here, ih (fun yes inside => free yes (by simp [inside])), filled_char _ _ opens]
    rfl
  | deps _ ih =>
    rw [glyphs_deps, ih (fun yes inside => free yes (by simp [inside])), filled_deps, List.map_append]

theorem filled_absent {joined : Text} {c : Char} {t : Text} (clean : Clean t) (outside : c ∉ joined) (free : c ∉ t) :
    c ∉ filled joined t := by
  induction clean with
  | nil => exact free
  | char opens _ _ ih =>
    simp only [List.mem_cons, not_or] at free
    rw [filled_char _ _ opens]
    simp [free.1, ih free.2]
  | deps _ ih =>
    rw [filled_deps]
    simp [outside, ih fun inside => free (by simp [inside])]

theorem clean_closes {t : Text} (clean : Clean t) (brace : '}' ∉ joined) : '}' ∉ filled joined t := by
  induction clean with
  | nil => simp [filled, Text.replaceAll_nil]
  | char opens closes _ ih =>
    rw [filled_char _ _ opens]
    simp [Ne.symm closes, ih]
  | deps _ ih =>
    rw [filled_deps]
    simp [brace, ih]

-- Text in braces that starts with a root goes on to the first closing brace.
theorem paths_braced {s : Text} (led : Led s) (closes : '}' ∉ s) : Text.Passes pathsPlaced ('{' :: (s ++ ['}'])) s := by
  obtain ⟨root, body, rfl, isRoot⟩ := led
  refine Text.passes_hit (fun held => held) (by simp) fun rest => ?_
  simp only [List.mem_cons, not_or] at closes
  have found := Marker.bracedPath_closed isRoot closes.2.2 rest
  simpa using found

theorem led_filled {path : Text} (joined : Text) (led : Led path) : Led (filled joined path) := by
  obtain ⟨root, body, rfl, isRoot⟩ := led
  have apart : root ≠ '{' := by rintro rfl; cases isRoot
  exact ⟨root, filled joined body, by rw [filled_char _ _ apart, filled_char _ _ (by decide)], isRoot⟩

theorem fills_plain (joined : Text) {c : Char} (opens : c ≠ '{') : Text.Passes (filled joined) [c] [c] :=
  fun rest => filled_char joined rest opens

-- The brace in front of a rooted path belongs to no classpath marker.
theorem fills_braced (escaping : Bool) (joined : Text) {path : Text} (clean : Clean path) (led : Led path) :
    Text.Passes (filled joined) ('{' :: source escaping path) ('{' :: spellAll (glyphs escaping joined path)) := by
  intro rest
  have behind := fills escaping joined clean rest
  obtain ⟨root, body, rfl, isRoot⟩ := led
  have apart : root ≠ '{' := by rintro rfl; cases isRoot
  have plain : root ≠ ']' := by rintro rfl; cases isRoot
  rw [source_cons] at behind ⊢
  simp only [plain, decide_false, Bool.and_false, Bool.false_eq_true, if_false, List.cons_append, List.nil_append] at behind ⊢
  have unseen : Text.literal Marker.deps ('{' :: root :: (source escaping ('/' :: body) ++ rest)) = none := by
    rw [Text.literal_none (by decide)]
    simp [Marker.deps, Ne.symm apart]
  exact (Text.replaceAll_plain unseen).trans (congrArg ('{' :: ·) behind)

theorem led_front {front back : Text} {c : Char} (unrooted : Marker.isRoot c = false) (other : c ≠ '/')
    (led : Led (front ++ c :: back)) : Led front := by
  obtain ⟨root, body, split, isRoot⟩ := led
  cases front with
  | nil =>
    rw [← (List.cons.inj split).1, unrooted] at isRoot
    cases isRoot
  | cons d rest =>
    cases rest with
    | nil => exact absurd (List.cons.inj (List.cons.inj split).2).1 other
    | cons e more =>
      simp only [List.cons_append, List.cons.injEq] at split
      exact ⟨root, more, by rw [split.1, split.2.1], isRoot⟩

theorem led_more {front : Text} (led : Led front) (back : Text) : Led (front ++ back) := by
  obtain ⟨root, body, rfl, isRoot⟩ := led
  exact ⟨root, body ++ back, rfl, isRoot⟩

-- Up to and with its first escaped bracket a rooted path loses both its braces and the
-- closing brace of the escape.
theorem bracket_placed {joined front : Text} (brace : '}' ∉ joined) (clean : Clean front) (led : Led front) (free : ']' ∉ front) :
    Text.Passes (placed joined) ('{' :: (front ++ Marker.escapedBracket)) (filled joined front ++ ['{', ']']) := by
  have closes := clean_closes clean brace
  have stage : Text.Passes (filled joined) ('{' :: (front ++ Marker.escapedBracket))
      ('{' :: (filled joined front ++ ['{', ']'] ++ ['}'])) := by
    have inner := fills_braced true joined clean led
    have escape := fills true joined (t := [']']) (.braceless (by simp) (by simp))
    rw [source_same true free, glyphs_plain true joined clean (fun _ => free), spellAll_plain] at inner
    have whole := inner.append escape
    simpa [source, Marker.escapedBracket, glyphs, Text.pieces, Text.piecesAfter, Piece.glyphs, spellAll, Glyph.spell,
      Text.literal, Marker.deps] using whole
  refine stage.comp (paths_braced (led_more (led_filled joined led) _) ?_)
  simp [closes]

-- An escape stays whole if nothing follows it in its path.
def KeepsBrackets (joined : Text) : Item → Prop
  | .rooted path => ']' ∉ (filled joined path).dropLast
  | _ => True

instance (joined : Text) : DecidablePred (KeepsBrackets joined)
  | .rooted path => inferInstanceAs (Decidable (']' ∉ (filled joined path).dropLast))
  | .plain _ | .colon | .home => isTrue trivial

theorem source_braced (escaping : Bool) (path : Text) : source escaping (braced path) = '{' :: source escaping path ++ ['}'] := by
  have opens : source escaping ['{'] = ['{'] := source_same escaping (by simp)
  have closes : source escaping ['}'] = ['}'] := source_same escaping (by simp)
  rw [braced, source_append, source_append, opens, closes]
  rfl

theorem bracketless_placed {escaping : Bool} {path : Text} (brace : '}' ∉ joined) (clean : Clean path) (led : Led path)
    (free : escaping = true → ']' ∉ path) :
    Text.Passes (placed joined) (source escaping (braced path)) (spellAll (glyphs escaping joined path)) := by
  have stage := (fills_braced escaping joined clean led).append (fills_plain joined (c := '}') (by decide))
  rw [glyphs_plain escaping joined clean free, spellAll_plain] at stage ⊢
  rw [source_braced]
  exact stage.comp (paths_braced (led_filled joined led) (clean_closes clean brace))

-- The braces of a path that ends with its only bracket: the first is taken to close with
-- the escape, whose own brace is replaced by the last.
theorem bracketed_placed {front back : Text} (inert : Inert joined) (clean : Clean (front ++ ']' :: back))
    (led : Led (front ++ ']' :: back)) (free : ']' ∉ front) (nothing : filled joined back = []) :
    Text.Passes (placed joined) (source true (braced (front ++ ']' :: back)))
      (spellAll (glyphs true joined (front ++ ']' :: back))) := by
  obtain ⟨one, two⟩ := clean.cut_at (by decide)
  have empty : glyphs true joined back = [] := by
    have read := glyphs_read true joined two
    rw [nothing] at read
    exact List.map_eq_nil_iff.mp read
  have first := bracket_placed inert.brace one (led_front rfl (by decide) led) free
  have middle := clean_placed true inert two
  rw [empty] at middle
  have last : Text.Passes (placed joined) ['}'] ['}'] := (fills_plain joined (by decide)).comp (paths_plain (by decide))
  have written : source true (braced (front ++ ']' :: back)) =
      '{' :: (front ++ Marker.escapedBracket) ++ source true back ++ ['}'] := by
    rw [source_braced, source_append, source_same true free, source_cons]
    simp
  have spelled : spellAll (glyphs true joined (front ++ ']' :: back)) =
      filled joined front ++ ['{', ']'] ++ spellAll [] ++ ['}'] := by
    rw [glyphs_append true joined one, glyphs_char true joined (by decide), empty, spellAll_append,
      glyphs_plain true joined one (fun _ => free), spellAll_plain]
    simp [spellAll, Glyph.spell]
  rw [written, spelled]
  exact (first.append middle).append last

theorem rooted_placed {escaping : Bool} {path : Text} (inert : Inert joined) (clean : Clean path) (led : Led path)
    (keeps : escaping = true → ']' ∉ (filled joined path).dropLast) :
    Text.Passes (placed joined) (source escaping (braced path)) (spellAll (glyphs escaping joined path)) := by
  by_cases escapes : escaping = true ∧ ']' ∈ path
  · obtain ⟨rfl, inside⟩ := escapes
    obtain ⟨front, back, rfl, free⟩ := List.eq_append_cons_of_mem inside
    refine bracketed_placed inert clean led free ?_
    -- Nothing is left behind the bracket.
    have last := keeps rfl
    rw [filled_append joined (clean.cut_at (by decide)).1, filled_char _ _ (by decide)] at last
    cases behind : filled joined back with
    | nil => rfl
    | cons c r => simp [behind, List.dropLast_append_of_ne_nil] at last
  · exact bracketless_placed inert.brace clean led fun yes inside => escapes ⟨yes, inside⟩

end PortableActions.CommandLine
