import PortableActions.Proofs.CommandLine.Handover
import PortableActions.Proofs.CommandLine.WordGlyphs
import PortableActions.Proofs.Template.Mentions
-- What each part of a planned template contributes to the pieces of the command line on a
-- POSIX platform, whatever stands behind it: words contribute plain text, and each
-- wrapped argument one args construct.
namespace PortableActions.CommandLine
open PortableActions.Template
open PortableActions.Template.Suggestion (Item items rooted word Tame Apart)

-- The part is spelled with glyphs by the first stages, and these fall into the pieces.
def Gives (joined part : Text) (ps : List Text.Piece) : Prop :=
  ∃ gs, (∀ g ∈ gs, g.IsFit) ∧ Text.Passes (placed joined) part (spellAll gs) ∧
    Text.Passes (Text.pieces Marker.argsConstruct) (gs.map Glyph.show_) ps

theorem Gives.nil : Gives joined [] [] := ⟨[], by simp, .nil, .nil⟩

theorem Gives.append (one : Gives joined a ps) (two : Gives joined b qs) : Gives joined (a ++ b) (ps ++ qs) := by
  obtain ⟨gs, fitOne, placedOne, piecesOne⟩ := one
  obtain ⟨hs, fitTwo, placedTwo, piecesTwo⟩ := two
  refine ⟨gs ++ hs, List.forall_mem_append.mpr ⟨fitOne, fitTwo⟩, ?_, ?_⟩
  · rw [spellAll_append]
    exact placedOne.append placedTwo
  · rw [List.map_append]
    exact piecesOne.append piecesTwo

-- Text that belongs to no word: blanks, operators and parentheses.
theorem gives_char {c : Char} (plain : c ∉ ['{', '}', '@']) : Gives joined [c] [.plain c] := by
  simp only [List.mem_cons, List.not_mem_nil, or_false, not_or] at plain
  obtain ⟨opens, closes, sign⟩ := plain
  exact ⟨[.plain c], List.forall_mem_singleton.mpr closes, (fills_plain joined opens).comp (paths_plain opens),
    Text.pieces_passes_plain fun rest => argsConstruct_unlike rest sign⟩

theorem gives_chars {t : Text} (plain : ∀ c ∈ t, c ∉ ['{', '}', '@']) : Gives joined t (t.map .plain) := by
  induction t with
  | nil => exact .nil
  | cons c r ih =>
    obtain ⟨here, later⟩ := List.forall_mem_cons.mp plain
    exact (gives_char here).append (ih later)

theorem gives_separator : Gives joined Marker.commandSeparator [.plain ';'] :=
  ⟨[.symbol ';'], List.forall_mem_singleton.mpr (by simp [Glyph.IsFit]), symbol_placed joined (by simp [Glyph.IsFit]),
    Text.pieces_passes_plain fun rest => argsConstruct_unlike rest (by decide)⟩

-- No args construct starts in filled text that has no sign of its own.
theorem pieces_filled {t : Text} (inert : Inert joined) (clean : Clean t) (unsigned : '@' ∉ t) :
    Text.Passes (Text.pieces Marker.argsConstruct) (filled joined t) ((filled joined t).map .plain) := by
  induction clean with
  | nil => exact .nil
  | char opens _ _ ih =>
    simp only [List.mem_cons, not_or] at unsigned
    rw [filled_char _ _ opens]
    exact (Text.pieces_passes_plain fun rest => argsConstruct_unlike rest (Ne.symm unsigned.1)).append (ih unsigned.2)
  | deps _ ih =>
    rw [filled_deps, List.map_append]
    exact (Text.pieces_passes_unseen inert.argsConstruct).append (ih fun inside => unsigned (by simp [inside]))

-- The characters that words of the templates in question do without.
def signs : List Char := ['@', Marker.standIn]

theorem signs_apart : Apart signs := by
  unfold Apart
  decide

theorem rooted_clean {w : Text} (tame : Tame signs w) : Clean (rooted w) := by
  rw [Suggestion.rooted_items]
  exact Suggestion.items_clean (Suggestion.items_fit signs_apart tame)

theorem rooted_free {w : Text} {c : Char} (tame : Tame signs w) (banned : c ∈ signs) : c ∉ rooted w := by
  rw [Suggestion.rooted_items]
  have fits := Suggestion.items_fit signs_apart tame
  intro inside
  obtain ⟨item, among, here⟩ := List.mem_flatMap.mp inside
  have fit := fits item among
  cases item with
  | plain t => exact fit.free c banned here
  | rooted path => exact fit.1.free c banned here
  | colon => exact absurd banned (signs_apart c (by simp [List.mem_singleton.mp here]))
  | home =>
    rw [List.mem_singleton.mp here] at banned
    exact absurd banned (by decide)

-- A word that is not wrapped is read with its paths rooted and the classpath in its place.
theorem gives_word {w : Text} (inert : Inert joined) (tame : Tame signs w) :
    Gives joined (word w) ((filled joined (rooted w)).map .plain) := by
  have fits := Suggestion.items_fit signs_apart tame
  have fit : ∀ g ∈ wordGlyphs false joined w, g.IsFit := by
    intro g among
    obtain ⟨item, member, inside⟩ := List.mem_flatMap.mp among
    exact itemGlyphs_fit false inert.brace (fits item member) g inside
  refine ⟨wordGlyphs false joined w, fit, ?_, ?_⟩
  · have placed_ := items_placed false inert fits (by simp)
    rwa [source_false, ← Suggestion.word_items] at placed_
  · rw [wordGlyphs, items_unescaped joined fits, items_read false joined fits, ← Suggestion.rooted_items]
    exact pieces_filled inert (rooted_clean tame) (rooted_free tame (by simp [signs]))

theorem construct_pieces {held : Text} (free : ']' ∉ held) :
    Text.Passes (Text.pieces Marker.argsConstruct) ('@' :: '[' :: (held ++ [']'])) [.hit held] := by
  refine Text.pieces_passes_hit (by simp) fun rest => ?_
  have found := Marker.argsConstruct_closed free rest
  simpa using found

-- A wrapped argument gives one args construct, which holds the argument as it is read.
theorem gives_argument {w : Text} (inert : Inert joined) (tame : Tame signs w)
    (keeps : ∀ item ∈ items w, KeepsBrackets joined item) :
    ∃ held, ArgsConstruct.content held = Text.trim (filled joined (rooted w)) ∧
      Gives joined ('@' :: '[' :: (source true (word w) ++ [']'])) [.hit held] := by
  have fits := Suggestion.items_fit signs_apart tame
  have fit : ∀ g ∈ wordGlyphs true joined w, g.IsFit := by
    intro g among
    obtain ⟨item, member, inside⟩ := List.mem_flatMap.mp among
    exact itemGlyphs_fit true inert.brace (fits item member) g inside
  have escaped : ∀ g ∈ wordGlyphs true joined w, Escaped g := items_escaped inert fits (by simp [signs])
  refine ⟨(wordGlyphs true joined w).map Glyph.show_, ?_, ?_⟩
  · rw [content_glyphs escaped fit, wordGlyphs, items_read true joined fits, ← Suggestion.rooted_items]
  · refine ⟨.plain '@' :: .plain '[' :: (wordGlyphs true joined w ++ [.plain ']']), ?_, ?_, ?_⟩
    · simp only [List.forall_mem_cons, List.forall_mem_append]
      exact ⟨by simp [Glyph.IsFit], by simp [Glyph.IsFit], fit, by simp [Glyph.IsFit]⟩
    · have placed_ := items_placed true inert fits fun _ => keeps
      rw [← Suggestion.word_items] at placed_
      have char : ∀ c : Char, c ≠ '{' → Text.Passes (placed joined) [c] [c] := fun c opens =>
        (fills_plain joined opens).comp (paths_plain opens)
      have whole := (char '@' (by decide)).append ((char '[' (by decide)).append (placed_.append (char ']' (by decide))))
      simpa [spellAll, Glyph.spell, wordGlyphs] using whole
    · have pieces := construct_pieces (held_free fit escaped)
      simpa [Glyph.show_] using pieces

-- How an argument is written: as an args construct if the tool is known.
def written (wraps : Bool) (w : Text) : Text := if wraps then Suggestion.wrapArgument (word w) else word w

theorem wrapArgument_mentions {w : Text} (mentions : Suggestion.mentionsDeps w = true) :
    Suggestion.wrapArgument w = '@' :: '[' :: (source true w ++ [']']) := by
  simp [Suggestion.wrapArgument, mentions, source_true]

theorem written_plain {wraps : Bool} {w : Text} (tame : Tame signs w) (bare : ¬ (wraps = true ∧ Suggestion.mentionsDeps w = true)) :
    written wraps w = word w := by
  have same := Suggestion.mentions_word (w := w) ⟨tame.clean, by simp⟩
  cases wraps with
  | false => rfl
  | true =>
    have silent : Suggestion.mentionsDeps w = false := by simpa using bare
    simp [written, Suggestion.wrapArgument, same, silent]

theorem written_wrapped {w : Text} (tame : Tame signs w) (mentions : Suggestion.mentionsDeps w = true) :
    written true w = '@' :: '[' :: (source true (word w) ++ [']']) := by
  have same := Suggestion.mentions_word (w := w) ⟨tame.clean, by simp⟩
  rw [written, if_pos rfl, wrapArgument_mentions (same.trans mentions)]

theorem command_written {program : Text} {args : List Text} (unsigned : '@' ∉ program) :
    Suggestion.command program args = Text.unwords (word program :: args.map (written (Suggestion.takesArgsFiles (word program)))) := by
  rw [Suggestion.command_words]
  rcases Suggestion.words_cases program args with ⟨bare, led, _⟩ | ⟨_, shown⟩
  · -- The program has no sign to lead it.
    have signs := Suggestion.count_word (c := '@') (by decide) program
    rw [led, List.count_eq_zero.mpr unsigned] at signs
    simp at signs
  · have wraps : (if Suggestion.takesArgsFiles (word program) then (args.map word).map Suggestion.wrapArgument
        else args.map word) = args.map (written (Suggestion.takesArgsFiles (word program))) := by
      cases Suggestion.takesArgsFiles (word program) <;> simp [written]
    rw [shown, wraps]

-- The entries of a classpath as they stand in a POSIX command line.
def joinedOf (classpath : Option Classpath) : Text := Text.join [':'] ((classpath.getD []).map Entry.print)

def standard (home : Text) (threshold : Int) : Platform := { Platform.posix home with argsThreshold := threshold }

theorem expand_standard (planned : Text) (classpath : Option Classpath) (home : Text) (threshold : Int) :
    expand planned classpath (standard home threshold) = settleAll (placed (joinedOf classpath) planned) := rfl

theorem Gives.whole {planned : Text} {ps : List Text.Piece} (gives : Gives joined planned ps) :
    ArgsConstruct.pieces (settleAll (placed joined planned)) = ps := by
  obtain ⟨gs, fit, placed_, pieces⟩ := gives
  have spelled : placed joined planned = spellAll gs := placed_.whole rfl
  have shown := hidden_glyphs fit .nothing
  have empty : hidden [] = [] := rfl
  rw [List.append_nil, empty, List.append_nil] at shown
  rw [ArgsConstruct.pieces, spelled, ← hidden, shown]
  exact pieces.whole rfl

end PortableActions.CommandLine
