import PortableActions.Proofs.CommandLine.Glyphs
import PortableActions.Proofs.Template.Items
import PortableActions.Proofs.Template.Patterns
-- What becomes of planned words when the classpath and the rooted paths are put in. A
-- classpath that opens no marker of its own goes into its place as it is.
namespace PortableActions.CommandLine
open PortableActions.Template
open PortableActions.Template.Suggestion (Item items rooted word braced Led Tame Apart)

-- One of the two starts the other.
def Agrees (a b : Text) : Prop := a <+: b ∨ b <+: a

-- A joined classpath that no stage mistakes for a marker, whatever stands around it: it
-- closes nothing, and nowhere in it does a rooted path or an args construct begin, not
-- even one that goes on behind it.
structure Inert (joined : Text) : Prop where
  bracket : ']' ∉ joined
  brace : '}' ∉ joined
  bell : Marker.standIn ∉ joined
  quiet : ∀ place, place <:+ joined → place ≠ [] →
    ¬ Agrees place ['{', '.', '/'] ∧ ¬ Agrees place ['{', '~', '/'] ∧ ¬ Agrees place ['@', '[']

-- A classpath without braces, signs and brackets opens no marker.
theorem inert_of_free {joined : Text} (free : ∀ c ∈ ['{', '}', '@', ']', Marker.standIn], c ∉ joined) : Inert joined := by
  refine ⟨free _ (by simp), free _ (by simp), free _ (by simp), fun place inside filled => ?_⟩
  obtain ⟨c, r, rfl⟩ := List.exists_cons_of_ne_nil filled
  have here : c ∈ joined := inside.subset (by simp)
  have first : ∀ {lead : Text} {d : Char}, Agrees (c :: r) (d :: lead) → c = d := by
    intro lead d agrees
    rcases agrees with ⟨_, same⟩ | ⟨_, same⟩
    · exact (List.cons.inj same).1
    · exact (List.cons.inj same).1.symm
  refine ⟨fun agrees => ?_, fun agrees => ?_, fun agrees => ?_⟩
  · exact free '{' (by simp) (first agrees ▸ here)
  · exact free '{' (by simp) (first agrees ▸ here)
  · exact free '@' (by simp) (first agrees ▸ here)

theorem agrees_of_leads {place rest lead : Text} (leads : lead <+: place ++ rest) : Agrees place lead :=
  List.prefix_or_prefix_of_prefix (List.prefix_append place rest) leads

theorem bracedPath_leads {t : Text} {found : Text.Hit} (seen : Marker.bracedPath t = some found) :
    ['{', '.', '/'] <+: t ∨ ['{', '~', '/'] <+: t := by
  unfold Marker.bracedPath at seen
  split at seen
  · rename_i root r
    split at seen
    · rename_i isRoot
      simp only [Marker.isRoot, Bool.or_eq_true, decide_eq_true_eq] at isRoot
      rcases isRoot with rfl | rfl
      · exact .inl ⟨r, rfl⟩
      · exact .inr ⟨r, rfl⟩
    · cases seen
  · cases seen

theorem argsConstruct_leads {t : Text} {found : Text.Hit} (seen : Marker.argsConstruct t = some found) :
    ['@', '['] <+: t := by
  unfold Marker.argsConstruct at seen
  split at seen
  · rename_i r
    exact ⟨r, rfl⟩
  · cases seen

theorem bracedPath_unlike {c : Char} (r : Text) (other : c ≠ '{') : Marker.bracedPath (c :: r) = none := by
  cases seen : Marker.bracedPath (c :: r) with
  | none => rfl
  | some found => rcases bracedPath_leads seen with ⟨_, same⟩ | ⟨_, same⟩ <;> exact absurd (List.cons.inj same).1.symm other

theorem argsConstruct_unlike {c : Char} (r : Text) (other : c ≠ '@') : Marker.argsConstruct (c :: r) = none := by
  cases seen : Marker.argsConstruct (c :: r) with
  | none => rfl
  | some found =>
    obtain ⟨_, same⟩ := argsConstruct_leads seen
    exact absurd (List.cons.inj same).1.symm other

theorem Inert.bracedPath (inert : Inert joined) : ∀ place, place <:+ joined → place ≠ [] → ∀ rest,
    Marker.bracedPath (place ++ rest) = none := by
  intro place inside filled rest
  obtain ⟨dot, tilde, _⟩ := inert.quiet place inside filled
  cases seen : Marker.bracedPath (place ++ rest) with
  | none => rfl
  | some found =>
    rcases bracedPath_leads seen with leads | leads
    · exact absurd (agrees_of_leads leads) dot
    · exact absurd (agrees_of_leads leads) tilde

theorem Inert.argsConstruct (inert : Inert joined) : ∀ place, place <:+ joined → place ≠ [] → ∀ rest,
    Marker.argsConstruct (place ++ rest) = none := by
  intro place inside filled rest
  cases seen : Marker.argsConstruct (place ++ rest) with
  | none => rfl
  | some found => exact absurd (agrees_of_leads (argsConstruct_leads seen)) (inert.quiet place inside filled).2.2

-- A text as planning writes it, outside of args constructs or inside.
def source (escaping : Bool) (t : Text) : Text :=
  t.flatMap fun c => if escaping && c = ']' then Marker.escapedBracket else [c]

def Piece.glyphs (escaping : Bool) (joined : Text) : Text.Piece → List Glyph
  | .plain c => if escaping && c = ']' then [.symbol ']'] else [.plain c]
  | .hit _ => joined.map .plain

-- What the text is spelled with once the classpath stands in its place.
def glyphs (escaping : Bool) (joined t : Text) : List Glyph :=
  (Text.pieces (Text.literal Marker.deps) t).flatMap (Piece.glyphs escaping joined)

def filled (joined t : Text) : Text := Text.replaceAll Marker.deps joined t

theorem filled_char (joined : Text) {c : Char} (r : Text) (opens : c ≠ '{') : filled joined (c :: r) = c :: filled joined r :=
  Text.replaceAll_plain (Text.literal_unlike _ _ opens)

theorem filled_deps (joined r : Text) : filled joined (Marker.deps ++ r) = joined ++ filled joined r :=
  Text.replaceAll_hit (by decide) joined r

def pathsPlaced (t : Text) : Text := Text.replace Marker.bracedPath (fun held => held) t

def placed (joined t : Text) : Text := pathsPlaced (filled joined t)

theorem source_true (t : Text) : source true t = Text.replaceAll [']'] Marker.escapedBracket t := by
  simp [source, Text.replaceAll_char]

theorem source_false (t : Text) : source false t = t := by
  simp [source]

theorem source_cons (escaping : Bool) (c : Char) (r : Text) :
    source escaping (c :: r) = (if escaping && c = ']' then Marker.escapedBracket else [c]) ++ source escaping r := rfl

theorem source_append (escaping : Bool) (a b : Text) : source escaping (a ++ b) = source escaping a ++ source escaping b :=
  List.flatMap_append

theorem source_same (escaping : Bool) {t : Text} (free : ']' ∉ t) : source escaping t = t := by
  induction t with
  | nil => rfl
  | cons c r ih =>
    simp only [List.mem_cons, not_or] at free
    simp [source_cons, Ne.symm free.1, ih free.2]

theorem glyphs_char (escaping : Bool) (joined : Text) {c : Char} {r : Text} (opens : c ≠ '{') :
    glyphs escaping joined (c :: r) =
      (if escaping && c = ']' then [.symbol ']'] else [.plain c]) ++ glyphs escaping joined r := by
  rw [glyphs, Clean.pieces_char opens]
  rfl

theorem glyphs_deps (escaping : Bool) (joined r : Text) :
    glyphs escaping joined (Marker.deps ++ r) = joined.map .plain ++ glyphs escaping joined r := by
  rw [glyphs, Clean.pieces_deps]
  rfl

theorem glyphs_fit (escaping : Bool) {t : Text} (brace : '}' ∉ joined) (clean : Clean t) :
    ∀ g ∈ glyphs escaping joined t, g.IsFit := by
  induction clean with
  | nil => simp [glyphs, Text.pieces, Text.piecesAfter]
  | @char c r opens closes _ ih =>
    rw [glyphs_char escaping joined opens]
    refine List.forall_mem_append.mpr ⟨?_, ih⟩
    split
    · exact List.forall_mem_singleton.mpr (by simp [Glyph.IsFit])
    · exact List.forall_mem_singleton.mpr closes
  | deps _ ih =>
    rw [glyphs_deps]
    refine List.forall_mem_append.mpr ⟨?_, ih⟩
    intro g among
    obtain ⟨c, inside, rfl⟩ := List.mem_map.mp among
    exact fun same => brace (same ▸ inside)

theorem glyphs_read (escaping : Bool) (joined : Text) {t : Text} (clean : Clean t) :
    (glyphs escaping joined t).map Glyph.read = filled joined t := by
  induction clean with
  | nil => rfl
  | @char c r opens closes _ ih =>
    rw [glyphs_char escaping joined opens, List.map_append, ih, filled_char joined r opens]
    split
    · rename_i bracket
      simp only [Bool.and_eq_true, decide_eq_true_eq] at bracket
      rw [bracket.2]
      rfl
    · rfl
  | deps _ ih =>
    have same : (joined.map Glyph.plain).map Glyph.read = joined := by
      rw [List.map_map]
      exact List.map_id' joined
    rw [glyphs_deps, List.map_append, ih, filled_deps, same]

-- The stages one by one.

theorem fills (escaping : Bool) (joined : Text) {t : Text} (clean : Clean t) :
    Text.Passes (filled joined) (source escaping t) (spellAll (glyphs escaping joined t)) := by
  induction clean with
  | nil => exact .nil
  | @char c r opens closes _ ih =>
    rw [source_cons, glyphs_char escaping joined opens, spellAll_append]
    refine .append ?_ ih
    split
    · intro rest
      have first : Text.literal Marker.deps ('{' :: ']' :: '}' :: rest) = none := by
        rw [Text.literal_none (by decide)]
        simp [Marker.deps]
      have second := Text.literal_unlike (k := '{') (c := ']') (Marker.deps.drop 1) ('}' :: rest) (by decide)
      have third := Text.literal_unlike (k := '{') (c := '}') (Marker.deps.drop 1) rest (by decide)
      exact (Text.replaceAll_plain first).trans (congrArg ('{' :: ·) ((Text.replaceAll_plain second).trans
        (congrArg (']' :: ·) (Text.replaceAll_plain third))))
    · exact fun rest => filled_char joined rest opens
  | @deps r _ ih =>
    have free : source escaping (Marker.deps ++ r) = Marker.deps ++ source escaping r := by
      rw [source_append, source_same escaping (by decide)]
    rw [free, glyphs_deps, spellAll_append, spellAll_plain]
    exact .append (filled_deps joined) ih

theorem paths_plain {c : Char} (other : c ≠ '{') : Text.Passes pathsPlaced [c] [c] :=
  Text.passes_plain fun rest => bracedPath_unlike rest other

theorem paths_symbol {k : Char} (fit : (Glyph.symbol k).IsFit) :
    Text.Passes pathsPlaced (Glyph.symbol k).spell (Glyph.symbol k).spell := by
  intro rest
  have first : Marker.bracedPath ('{' :: k :: '}' :: rest) = none := by
    cases seen : Marker.bracedPath ('{' :: k :: '}' :: rest) with
    | none => rfl
    | some found => rcases bracedPath_leads seen with ⟨_, same⟩ | ⟨_, same⟩ <;> simp at same
  have behind := (paths_plain fit.opens).append (paths_plain (c := '}') (by decide)) rest
  exact (Text.replace_plain first).trans (congrArg ('{' :: ·) behind)

theorem paths_glyphs (escaping : Bool) {t : Text} (inert : Inert joined) (clean : Clean t) :
    Text.Passes pathsPlaced (spellAll (glyphs escaping joined t)) (spellAll (glyphs escaping joined t)) := by
  induction clean with
  | nil => exact .nil
  | @char c r opens closes _ ih =>
    rw [glyphs_char escaping joined opens, spellAll_append]
    refine .append ?_ ih
    split
    · exact paths_symbol (k := ']') (by simp [Glyph.IsFit])
    · exact paths_plain opens
  | deps _ ih =>
    rw [glyphs_deps, spellAll_append, spellAll_plain]
    exact .append (Text.passes_unseen inert.bracedPath) ih

theorem clean_placed (escaping : Bool) {t : Text} (inert : Inert joined) (clean : Clean t) :
    Text.Passes (placed joined) (source escaping t) (spellAll (glyphs escaping joined t)) :=
  (fills escaping joined clean).comp (paths_glyphs escaping inert clean)

end PortableActions.CommandLine
