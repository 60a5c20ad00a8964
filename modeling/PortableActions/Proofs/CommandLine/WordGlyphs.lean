import PortableActions.Proofs.CommandLine.WordPlacement
-- The glyphs of planned words, item by item: how they are read, and what is left of them
-- when all stages are done.
namespace PortableActions.CommandLine
open PortableActions.Template
open PortableActions.Template.Suggestion (Item items rooted word braced Led Tame Apart)

def itemGlyphs (escaping : Bool) (joined : Text) : Item → List Glyph
  | .plain t => glyphs escaping joined t
  | .rooted path => glyphs escaping joined path
  | .colon => [.symbol ':']
  | .home => [.symbol '~']

def wordGlyphs (escaping : Bool) (joined w : Text) : List Glyph := (items w).flatMap (itemGlyphs escaping joined)

theorem symbol_placed (joined : Text) {k : Char} (fit : (Glyph.symbol k).IsFit) :
    Text.Passes (placed joined) ['{', k, '}'] (Glyph.symbol k).spell := by
  have stage : Text.Passes (filled joined) ['{', k, '}'] ['{', k, '}'] := by
    intro rest
    have unseen : Text.literal Marker.deps ('{' :: k :: '}' :: rest) = none := by
      rw [Text.literal_none (by decide)]
      simp [Marker.deps, Ne.symm fit.opens]
    have behind := (fills_plain joined fit.opens).append (fills_plain joined (c := '}') (by decide)) rest
    exact (Text.replaceAll_plain unseen).trans (congrArg ('{' :: ·) behind)
  exact stage.comp (paths_symbol fit)

theorem item_placed {escaping : Bool} {item : Item} (inert : Inert joined) (fit : item.Fit banned)
    (keeps : escaping = true → KeepsBrackets joined item) :
    Text.Passes (placed joined) (source escaping item.write) (spellAll (itemGlyphs escaping joined item)) := by
  cases item with
  | plain t => exact clean_placed escaping inert fit.clean
  | rooted path => exact rooted_placed inert fit.1.clean fit.2 keeps
  | colon =>
    have same : source escaping Item.colon.write = ['{', ':', '}'] := source_same escaping (by decide)
    rw [same]
    exact symbol_placed joined (by simp [Glyph.IsFit])
  | home =>
    have same : source escaping Item.home.write = ['{', '~', '}'] := source_same escaping (by decide)
    rw [same]
    exact symbol_placed joined (by simp [Glyph.IsFit])

theorem items_placed (escaping : Bool) {shown : List Item} (inert : Inert joined) (fits : ∀ item ∈ shown, item.Fit banned)
    (keeps : escaping = true → ∀ item ∈ shown, KeepsBrackets joined item) :
    Text.Passes (placed joined) (source escaping (shown.flatMap Item.write))
      (spellAll (shown.flatMap (itemGlyphs escaping joined))) := by
  have each : Text.Passes (placed joined) (shown.flatMap fun item => source escaping item.write)
      (shown.flatMap fun item => spellAll (itemGlyphs escaping joined item)) :=
    .flatMap fun item among => item_placed inert (fits item among) fun yes => keeps yes item among
  have front : source escaping (shown.flatMap Item.write) = shown.flatMap fun item => source escaping item.write :=
    List.flatMap_assoc
  have written : spellAll (shown.flatMap (itemGlyphs escaping joined)) =
      shown.flatMap fun item => spellAll (itemGlyphs escaping joined item) := List.flatMap_assoc
  rw [front, written]
  exact each

theorem itemGlyphs_fit (escaping : Bool) {item : Item} (brace : '}' ∉ joined) (fit : item.Fit banned) :
    ∀ g ∈ itemGlyphs escaping joined item, g.IsFit := by
  cases item with
  | plain t => exact glyphs_fit escaping brace fit.clean
  | rooted path => exact glyphs_fit escaping brace fit.1.clean
  | colon => exact List.forall_mem_singleton.mpr (by simp [Glyph.IsFit])
  | home => exact List.forall_mem_singleton.mpr (by simp [Glyph.IsFit])

theorem itemGlyphs_read (escaping : Bool) (joined : Text) {item : Item} (fit : item.Fit banned) :
    (itemGlyphs escaping joined item).map Glyph.read = filled joined item.read := by
  cases item with
  | plain t => exact glyphs_read escaping joined fit.clean
  | rooted path => exact glyphs_read escaping joined fit.1.clean
  | colon => rfl
  | home => rfl

theorem items_read (escaping : Bool) (joined : Text) {shown : List Item} (fits : ∀ item ∈ shown, item.Fit banned) :
    (shown.flatMap (itemGlyphs escaping joined)).map Glyph.read = filled joined (shown.flatMap Item.read) := by
  induction shown with
  | nil => rfl
  | cons item rest ih =>
    obtain ⟨here, later⟩ := List.forall_mem_cons.mp fits
    rw [List.flatMap_cons, List.flatMap_cons, List.map_append, itemGlyphs_read escaping joined here, ih later,
      filled_append joined here.clean]

-- What the glyphs of an argument may be: brackets come as symbols only, and the stand-in
-- is not used.
def Escaped : Glyph → Prop
  | .plain c => c ≠ ']' ∧ c ≠ Marker.standIn
  | .symbol _ => True

theorem glyphs_escaped {t : Text} (inert : Inert joined) (clean : Clean t) (free : Marker.standIn ∉ t) :
    ∀ g ∈ glyphs true joined t, Escaped g := by
  induction clean with
  | nil => simp [glyphs, Text.pieces, Text.piecesAfter]
  | @char c r opens _ _ ih =>
    simp only [List.mem_cons, not_or] at free
    rw [glyphs_char true joined opens]
    refine List.forall_mem_append.mpr ⟨?_, ih free.2⟩
    split
    · exact List.forall_mem_singleton.mpr trivial
    · rename_i plain
      exact List.forall_mem_singleton.mpr ⟨by simpa using plain, Ne.symm free.1⟩
  | deps _ ih =>
    rw [glyphs_deps]
    refine List.forall_mem_append.mpr ⟨?_, ih fun inside => free (by simp [inside])⟩
    intro g among
    obtain ⟨c, inside, rfl⟩ := List.mem_map.mp among
    exact ⟨fun same => inert.bracket (same ▸ inside), fun same => inert.bell (same ▸ inside)⟩

theorem items_escaped {shown : List Item} (inert : Inert joined) (fits : ∀ item ∈ shown, item.Fit banned)
    (bell : Marker.standIn ∈ banned) : ∀ g ∈ shown.flatMap (itemGlyphs true joined), Escaped g := by
  intro g among
  obtain ⟨item, member, inside⟩ := List.mem_flatMap.mp among
  have fit := fits item member
  cases item with
  | plain t => exact glyphs_escaped inert fit.clean (fit.free _ bell) g inside
  | rooted path => exact glyphs_escaped inert fit.1.clean (fit.1.free _ bell) g inside
  | colon => rw [List.mem_singleton.mp inside]; trivial
  | home => rw [List.mem_singleton.mp inside]; trivial

theorem held_free {gs : List Glyph} (fit : ∀ g ∈ gs, g.IsFit) (escaped : ∀ g ∈ gs, Escaped g) :
    ']' ∉ gs.map Glyph.show_ := by
  intro inside
  obtain ⟨g, among, same⟩ := List.mem_map.mp inside
  cases g with
  | plain c => exact (escaped _ among).1 same
  | symbol k =>
    have allowed := fit _ among
    simp only [Glyph.IsFit, List.mem_cons, List.not_mem_nil, or_false] at allowed
    rcases allowed with rfl | rfl | rfl | rfl | rfl <;> simp [Glyph.show_, Marker.standIn] at same

theorem content_glyphs {gs : List Glyph} (escaped : ∀ g ∈ gs, Escaped g) (fit : ∀ g ∈ gs, g.IsFit) :
    ArgsConstruct.content (gs.map Glyph.show_) = Text.trim (gs.map Glyph.read) := by
  rw [ArgsConstruct.content, Text.replaceAll_char]
  congr 1
  induction gs with
  | nil => rfl
  | cons g rest ih =>
    obtain ⟨here, later⟩ := List.forall_mem_cons.mp escaped
    obtain ⟨allowed, fits⟩ := List.forall_mem_cons.mp fit
    rw [List.map_cons, List.flatMap_cons, ih later fits, List.map_cons]
    cases g with
    | plain c => simp [Glyph.show_, Glyph.read, here.2]
    | symbol k =>
      simp only [Glyph.IsFit, List.mem_cons, List.not_mem_nil, or_false] at allowed
      rcases allowed with rfl | rfl | rfl | rfl | rfl <;> simp [Glyph.show_, Glyph.read, Marker.standIn]

theorem glyphs_unescaped (joined : Text) {t : Text} (clean : Clean t) :
    (glyphs false joined t).map Glyph.show_ = (glyphs false joined t).map Glyph.read := by
  rw [glyphs_plain false joined clean (by simp), List.map_map, List.map_map]
  rfl

theorem items_unescaped (joined : Text) {shown : List Item} (fits : ∀ item ∈ shown, item.Fit banned) :
    (shown.flatMap (itemGlyphs false joined)).map Glyph.show_ = (shown.flatMap (itemGlyphs false joined)).map Glyph.read := by
  induction shown with
  | nil => rfl
  | cons item rest ih =>
    obtain ⟨here, later⟩ := List.forall_mem_cons.mp fits
    rw [List.flatMap_cons, List.map_append, List.map_append, ih later]
    congr 1
    cases item with
    | plain t => exact glyphs_unescaped joined here.clean
    | rooted path => exact glyphs_unescaped joined here.1.clean
    | colon => rfl
    | home => rfl

end PortableActions.CommandLine
