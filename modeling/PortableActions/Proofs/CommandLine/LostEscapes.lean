import PortableActions.Proofs.CommandLine.Delivery
-- What goes wrong in an unsafe command. An argument with a bracket that is not the end of
-- its rooted path is cut short there, and ends in the brace of the broken escape.
namespace PortableActions.CommandLine
open PortableActions.Template
open PortableActions.Template.Suggestion (Item items rooted word mentionsDeps takesArgsFiles braced Tame Led)

theorem split_first {α : Type} {P : α → Prop} {xs : List α} (some_ : ¬ ∀ x ∈ xs, P x) :
    ∃ before x after, xs = before ++ x :: after ∧ (∀ y ∈ before, P y) ∧ ¬ P x := by
  induction xs with
  | nil => exact absurd (by simp) some_
  | cons x rest ih =>
    by_cases here : P x
    · have later : ¬ ∀ y ∈ rest, P y := fun all => some_ (List.forall_mem_cons.mpr ⟨here, all⟩)
      obtain ⟨before, y, after, split, kept, broken⟩ := ih later
      exact ⟨x :: before, y, after, by rw [split, List.cons_append], List.forall_mem_cons.mpr ⟨here, kept⟩, broken⟩
    · exact ⟨[], x, rest, rfl, by simp, here⟩

-- The first bracket of a path that breaks its escape, and something behind it.
theorem broken_parts {path : Text} (outside : ']' ∉ joined) (clean : Clean path)
    (broken : ¬ KeepsBrackets joined (.rooted path)) :
    ∃ front back, path = front ++ ']' :: back ∧ ']' ∉ front ∧ Clean front ∧ Clean back ∧ filled joined back ≠ [] := by
  have inside : ']' ∈ path := Classical.byContradiction fun absent =>
    broken fun last => filled_absent clean outside absent (List.dropLast_subset _ last)
  obtain ⟨front, back, rfl, free⟩ := List.eq_append_cons_of_mem inside
  obtain ⟨one, two⟩ := clean.cut_at (by decide)
  refine ⟨front, back, rfl, free, one, two, fun nothing => broken ?_⟩
  have shown : filled joined (front ++ ']' :: back) = filled joined front ++ [']'] := by
    rw [filled_append joined one, filled_char _ _ (by decide), nothing]
  intro last
  rw [shown, List.dropLast_concat] at last
  exact filled_absent one outside free last

theorem unclosed_glyphs {gs : List Glyph} (fit : ∀ g ∈ gs, g.IsFit) (some_ : gs ≠ []) (rest : Text) :
    Unclosed (spellAll gs ++ rest) := by
  cases gs with
  | nil => exact absurd rfl some_
  | cons g later =>
    cases g with
    | symbol k => simp [Unclosed, spellAll_cons, Glyph.spell]
    | plain c =>
      have other : c ≠ '}' := fit (.plain c) (by simp)
      simpa [Unclosed, spellAll_cons, Glyph.spell] using other

-- The glyphs of the items in front of a broken escape, and of its path up to there.
def cutGlyphs (joined : Text) (before : List Item) (front : Text) : List Glyph :=
  before.flatMap (itemGlyphs true joined) ++ (filled joined front).map .plain

section
variable {before : List Item} {front : Text} (fits : ∀ item ∈ before, item.Fit signs)
include fits

theorem cutGlyphs_fit (inert : Inert joined) (clean : Clean front) : ∀ g ∈ cutGlyphs joined before front, g.IsFit := by
  refine List.forall_mem_append.mpr ⟨?_, ?_⟩
  · intro g among
    obtain ⟨item, member, inside⟩ := List.mem_flatMap.mp among
    exact itemGlyphs_fit true inert.brace (fits item member) g inside
  · intro g among
    obtain ⟨c, inside, rfl⟩ := List.mem_map.mp among
    exact fun same => clean_closes clean inert.brace (same ▸ inside)

theorem cutGlyphs_escaped (inert : Inert joined) (clean : Clean front) (free : ']' ∉ front) (bell : Marker.standIn ∉ front) :
    ∀ g ∈ cutGlyphs joined before front, Escaped g := by
  refine List.forall_mem_append.mpr ⟨items_escaped inert fits (by simp [signs]), ?_⟩
  intro g among
  obtain ⟨c, inside, rfl⟩ := List.mem_map.mp among
  exact ⟨fun same => filled_absent clean inert.bracket free (same ▸ inside),
    fun same => filled_absent clean inert.bell bell (same ▸ inside)⟩

theorem cutGlyphs_read : (cutGlyphs joined before front).map Glyph.read =
    filled joined (before.flatMap Item.read) ++ filled joined front := by
  have plain : ((filled joined front).map Glyph.plain).map Glyph.read = filled joined front := by
    rw [List.map_map]
    exact List.map_id' _
  rw [cutGlyphs, List.map_append, items_read true joined fits, plain]

-- The braces of the path are taken to close with the escape, and only its own are left.
theorem cut_placed (inert : Inert joined) (keeps : ∀ item ∈ before, KeepsBrackets joined item) (clean : Clean front)
    (led : Led front) (free : ']' ∉ front) :
    Text.Passes (placed joined)
      ('@' :: '[' :: (source true (before.flatMap Item.write) ++ '{' :: (front ++ Marker.escapedBracket)))
      (spellAll (.plain '@' :: .plain '[' :: cutGlyphs joined before front) ++ ['{', ']']) := by
  have char : ∀ c : Char, c ≠ '{' → Text.Passes (placed joined) [c] [c] := fun c opens =>
    (fills_plain joined opens).comp (paths_plain opens)
  have opening := (char '@' (by decide)).append (char '[' (by decide))
  have inner := (items_placed true inert fits fun _ => keeps).append (bracket_placed inert.brace clean led free)
  simpa [spellAll_append, spellAll_cons, spellAll_plain, Glyph.spell, cutGlyphs] using opening.append inner

-- What is handed over for items up to a broken escape.
theorem contents_broken {part back : Text} {ps : List Text.Piece} (inert : Inert joined) (gives : Gives joined part ps)
    (keeps : ∀ item ∈ before, KeepsBrackets joined item) (clean : Clean front) (cleanBack : Clean back) (led : Led front)
    (free : ']' ∉ front) (bell : Marker.standIn ∉ front) (behind : filled joined back ≠ []) (rest : Text) :
    ∃ later, ArgsConstruct.contents (settleAll (placed joined (part ++
        ('@' :: '[' :: (source true (before.flatMap Item.write) ++ '{' :: (front ++ Marker.escapedBracket)) ++
          (source true back ++ rest))))) =
      ArgsConstruct.contentsOf ps ++
        Text.trim (filled joined (before.flatMap Item.read) ++ filled joined front ++ ['{']) :: later := by
  obtain ⟨gs, fit, placedPart, piecesPart⟩ := gives
  have fitCut := cutGlyphs_fit fits inert clean
  have tail : Unclosed (placed joined (source true back ++ rest)) := by
    rw [clean_placed true inert cleanBack rest]
    refine unclosed_glyphs (glyphs_fit true inert.brace cleanBack) (fun nothing => behind ?_) _
    rw [← glyphs_read true joined cleanBack, nothing]
    rfl
  have spelled := (placedPart.append (cut_placed fits inert keeps clean led free)) (source true back ++ rest)
  rw [List.append_assoc part] at spelled
  generalize placed joined (source true back ++ rest) = later at spelled tail
  have fitAll : ∀ g ∈ gs ++ (.plain '@' :: .plain '[' :: cutGlyphs joined before front), g.IsFit := by
    simp only [List.forall_mem_append, List.forall_mem_cons]
    exact ⟨fit, by simp [Glyph.IsFit], by simp [Glyph.IsFit], fitCut⟩
  have shown := hidden_glyphs fitAll (.bracket tail)
  rw [hidden_bracket tail] at shown
  -- The construct now ends at the bracket of the broken escape.
  have brace : ∀ g ∈ cutGlyphs joined before front ++ [.plain '{'], Escaped g :=
    List.forall_mem_append.mpr
      ⟨cutGlyphs_escaped fits inert clean free bell, List.forall_mem_singleton.mpr ⟨by decide, by decide⟩⟩
  have fitBrace : ∀ g ∈ cutGlyphs joined before front ++ [.plain '{'], g.IsFit :=
    List.forall_mem_append.mpr ⟨fitCut, List.forall_mem_singleton.mpr (by simp [Glyph.IsFit])⟩
  have pieces := (piecesPart.append (construct_pieces (held_free fitBrace brace))) (hidden later)
  have content := content_glyphs brace fitBrace
  have read : (cutGlyphs joined before front ++ [Glyph.plain '{']).map Glyph.read =
      filled joined (before.flatMap Item.read) ++ filled joined front ++ ['{'] := by
    rw [List.map_append, cutGlyphs_read fits]
    rfl
  rw [read] at content
  have whole : spellAll gs ++ (spellAll (.plain '@' :: .plain '[' :: cutGlyphs joined before front) ++ ['{', ']']) ++ later =
      spellAll (gs ++ (.plain '@' :: .plain '[' :: cutGlyphs joined before front)) ++ '{' :: ']' :: later := by
    simp [spellAll_append]
  have cut : (gs ++ (Glyph.plain '@' :: .plain '[' :: cutGlyphs joined before front)).map Glyph.show_ ++ '{' :: ']' :: hidden later =
      gs.map Glyph.show_ ++ '@' :: '[' :: ((cutGlyphs joined before front ++ [Glyph.plain '{']).map Glyph.show_ ++ [']']) ++
        hidden later := by
    simp [Glyph.show_]
  refine ⟨ArgsConstruct.contentsOf (Text.pieces Marker.argsConstruct (hidden later)), ?_⟩
  rw [ArgsConstruct.contents, ArgsConstruct.pieces, spelled, ← hidden, whole, shown, cut, pieces]
  simp only [contentsOf_append, List.append_assoc, ArgsConstruct.contentsOf, List.cons_append, List.nil_append, content]

end

theorem unwords_split (xs : List Text) (y : Text) (zs : List Text) :
    Text.unwords (xs ++ y :: zs) = xs.flatMap (· ++ [' ']) ++ (y ++ zs.flatMap (' ' :: ·)) := by
  induction xs with
  | nil =>
    induction zs generalizing y with
    | nil => simp [Text.unwords, Text.join]
    | cons z rest ih =>
      have later := ih z
      simp only [Text.unwords, List.nil_append, List.flatMap_nil] at later ⊢
      rw [Text.join_cons (by simp), later]
      simp
  | cons x rest ih =>
    rw [List.cons_append, Text.unwords, Text.join_cons (by simp), ← Text.unwords, ih]
    simp

theorem hands_front {parts : List Text} {given : List (List Text)} (each : List.Forall₂ (Hands joined) parts given) :
    Hands joined (parts.flatMap (· ++ [' '])) given.flatten := by
  induction each with
  | nil => exact hands_nil
  | cons first _ ih =>
    have whole := (first.append hands_blank).append ih
    rwa [List.append_nil] at whole

-- A tool that is no longer known wraps nothing.
theorem contents_unknown {program : Text} {args : List Text} (inert : Inert joined)
    (tame : ∀ w ∈ program :: args, Tame signs w) (unknown : takesArgsFiles (word program) = false) :
    ArgsConstruct.contents (settleAll (placed joined (Suggestion.command program args))) = [] := by
  obtain ⟨named, each⟩ := List.forall_mem_cons.mp tame
  have given : List.Forall₂ (Hands joined) (args.map (written false)) (args.map fun _ => []) := by
    rw [List.forall₂_map_left_iff, List.forall₂_map_right_iff]
    exact List.forall₂_same.mpr fun w among => hands_word inert (each w among)
  obtain ⟨ps, gives, contents⟩ := hands_words (.cons (hands_word inert named) given)
  rw [command_written (named.free '@' (by simp [signs])), unknown, ArgsConstruct.contents, gives.whole, contents]
  simp

-- The argument that breaks an escape is handed over cut.
theorem contents_unsafe {program bad : Text} {good others : List Text} (inert : Inert joined)
    (tame : ∀ w ∈ program :: (good ++ bad :: others), Tame signs w) (known : takesArgsFiles (word program) = true)
    (kept : ∀ w ∈ good, mentionsDeps w = true → ∀ item ∈ items w, KeepsBrackets joined item)
    (mentions : mentionsDeps bad = true) (broken : ¬ ∀ item ∈ items bad, KeepsBrackets joined item) :
    ∃ u v later, filled joined (rooted bad) = u ++ ']' :: v ∧
      ArgsConstruct.contents (settleAll (placed joined (Suggestion.command program (good ++ bad :: others)))) =
        argumentsOf joined good ++ Text.trim (u ++ ['{']) :: later := by
  obtain ⟨named, each⟩ := List.forall_mem_cons.mp tame
  have tameBad : Tame signs bad := each bad (by simp)
  obtain ⟨before, item, after, split, keeps, lost⟩ := split_first broken
  have fits := Suggestion.items_fit signs_apart tameBad
  rw [split] at fits
  have fitItem := fits item (by simp)
  cases item with
  | plain t => exact absurd trivial lost
  | colon => exact absurd trivial lost
  | home => exact absurd trivial lost
  | rooted path =>
    -- Everything in front of this path is handed over as it reads.
    obtain ⟨tamePath, led⟩ := fitItem
    obtain ⟨front, back, rfl, free, clean, cleanBack, behind⟩ := broken_parts inert.bracket tamePath.clean lost
    have fitsBefore : ∀ item ∈ before, item.Fit signs := fun item among => fits item (by simp [among])
    have bell : Marker.standIn ∉ front := fun inside => tamePath.free Marker.standIn (by simp [signs]) (by simp [inside])
    have given := hands_arguments inert (fun w among => each w (by simp [among]))
      fun w among mentions => ⟨rfl, kept w among mentions⟩
    obtain ⟨ps, gives, contents⟩ := hands_front (.cons (hands_word inert named) given)
    rw [List.flatten_cons, List.nil_append, flatten_arguments] at contents
    obtain ⟨later, shown⟩ := contents_broken fitsBefore inert gives keeps clean cleanBack (led_front rfl (by decide) led) free bell behind
      ('}' :: (source true (after.flatMap Item.write) ++ (']' :: (others.map (written true)).flatMap (' ' :: ·))))
    refine ⟨filled joined (before.flatMap Item.read) ++ filled joined front,
      filled joined back ++ filled joined (after.flatMap Item.read), later, ?_, ?_⟩
    · rw [Suggestion.rooted_items, split, List.flatMap_append, List.flatMap_cons, Item.read,
        filled_append joined (Suggestion.items_clean fitsBefore), filled_append joined tamePath.clean, filled_append joined clean,
        filled_char _ _ (by decide)]
      simp
    · have cut : source true (word bad) = source true (before.flatMap Item.write) ++
          ('{' :: (front ++ Marker.escapedBracket) ++ (source true back ++ ('}' :: source true (after.flatMap Item.write)))) := by
        rw [Suggestion.word_items, split]
        simp [source_append, source_cons, Item.write, braced, source_same true free]
      rw [← contents, command_written (named.free '@' (by simp [signs])), known, List.map_append, List.map_cons,
        written_wrapped tameBad mentions, ← List.cons_append, unwords_split, cut]
      simp only [List.append_assoc, List.cons_append, List.nil_append] at shown ⊢
      exact shown

theorem argumentsOf_append (joined : Text) (one two : List Text) :
    argumentsOf joined (one ++ two) = argumentsOf joined one ++ argumentsOf joined two := by
  simp [argumentsOf]

theorem argumentsOf_nil {args : List Text} (nothing : argumentsOf joined args = []) : ∀ w ∈ args, mentionsDeps w = false := by
  intro w among
  cases mentions : mentionsDeps w with
  | false => rfl
  | true =>
    have inside : Text.trim (filled joined (rooted w)) ∈ argumentsOf joined args :=
      List.mem_map.mpr ⟨w, List.mem_filter.mpr ⟨among, mentions⟩, rfl⟩
    rw [nothing] at inside
    cases inside

theorem contents_exact {program : Text} {args : List Text} (inert : Inert joined)
    (tame : ∀ w ∈ program :: args, Tame signs w) :
    ArgsConstruct.contents (settleAll (placed joined (Suggestion.command program args))) = argumentsOf joined args ↔
      Safe joined program args := by
  constructor
  · intro same
    cases known : takesArgsFiles (word program) with
    | false =>
      rw [contents_unknown inert tame known] at same
      intro w among mentions
      rw [argumentsOf_nil same.symm w among] at mentions
      cases mentions
    | true =>
      refine fun w among mentions => ⟨known, ?_⟩
      refine Classical.byContradiction fun lost => ?_
      have some_ : ¬ ∀ w ∈ args, mentionsDeps w = true → ∀ item ∈ items w, KeepsBrackets joined item :=
        fun all => lost (all w among mentions)
      obtain ⟨good, bad, others, rfl, kept, broken⟩ := split_first some_
      obtain ⟨mentionsBad, brokenBad⟩ := Classical.not_imp.mp broken
      obtain ⟨u, v, later, read, given⟩ := contents_unsafe inert tame known kept mentionsBad brokenBad
      -- The cut argument ends in a brace where a bracket should stand.
      have next : argumentsOf joined (bad :: others) = Text.trim (u ++ ']' :: v) :: argumentsOf joined others := by
        simp [argumentsOf, mentionsBad, read]
      rw [given, argumentsOf_append, next] at same
      have trimmed := (List.cons.inj (List.append_cancel_left same)).1
      rw [Text.trim_around rfl, Text.trim_around rfl] at trimmed
      have brace := (List.cons.inj (List.append_cancel_left trimmed)).1
      cases brace
  · intro safe
    obtain ⟨ps, gives, contents⟩ := hands_command inert tame safe
    rw [ArgsConstruct.contents, gives.whole, contents]

-- On a classpath that opens no marker, exactly the safe commands are handed over whole.
theorem hands_inert {template program home : Text} {args : List Text} {classpath : Option Classpath}
    (inert : Inert (joinedOf classpath)) (command : PlainCommand template program args) :
    HandsOver template classpath home (argumentsOf (joinedOf classpath) args) ↔ Safe (joinedOf classpath) program args :=
  (contents_planned command).trans (contents_exact inert command.tame)

end PortableActions.CommandLine
