import PortableActions.CommandLine
import PortableActions.Proofs.Text.Replacement
-- Command lines spelled with glyphs: plain characters, and symbols in braces. As long as
-- no plain character closes a brace, a stage that replaces a symbol replaces its glyphs
-- and nothing else, however many plain opening braces stand around.
namespace PortableActions.CommandLine
open PortableActions.Template

inductive Glyph where
  | plain (c : Char)
  | symbol (k : Char)
  deriving DecidableEq, Repr

namespace Glyph

def spell : Glyph → Text
  | plain c => [c]
  | symbol k => ['{', k, '}']

-- The character a glyph stands for.
def read : Glyph → Char
  | plain c => c
  | symbol k => k

-- The glyph after the stage for one symbol.
def settleOne (k : Char) (g : Glyph) : Glyph := if g = symbol k then plain k else g

-- After all stages for symbols an escaped bracket is left, and becomes its stand-in.
def show_ : Glyph → Char
  | plain c => c
  | symbol k => if k = ']' then Marker.standIn else k

def IsFit : Glyph → Prop
  | plain c => c ≠ '}'
  | symbol k => k ∈ ['/', ':', '~', ';', ']']

theorem settleOne_fit {k : Char} {g : Glyph} (closes : k ≠ '}') (fit : g.IsFit) : (g.settleOne k).IsFit := by
  unfold settleOne
  split
  · exact closes
  · exact fit

theorem IsFit.opens {k : Char} (fit : (symbol k).IsFit) : k ≠ '{' := by
  rintro rfl
  simp [IsFit] at fit

end Glyph

def spellAll (gs : List Glyph) : Text := gs.flatMap Glyph.spell

theorem spellAll_cons (g : Glyph) (gs : List Glyph) : spellAll (g :: gs) = g.spell ++ spellAll gs := rfl

theorem spellAll_append (one two : List Glyph) : spellAll (one ++ two) = spellAll one ++ spellAll two :=
  List.flatMap_append

theorem spellAll_plain (t : Text) : spellAll (t.map .plain) = t := by
  induction t with
  | nil => rfl
  | cons c r ih => rw [List.map_cons, spellAll_cons, ih]; rfl

-- What may follow glyphs: nothing, or an opening brace.
def Opens (rest : Text) : Prop := ∀ c ∈ rest.head?, c = '{'

-- A plain opening brace is not taken for that of a symbol.
theorem symbol_apart {k : Char} {gs : List Glyph} {rest : Text} (fit : ∀ g ∈ gs, g.IsFit) (opens : Opens rest)
    (other : k ≠ '{') : ¬ [k, '}'] <+: spellAll gs ++ rest := by
  rintro ⟨more, same⟩
  cases gs with
  | nil => exact other (opens k (by rw [← show _ = rest from same]; rfl))
  | cons g later =>
    cases g with
    | symbol j => exact other (List.cons.inj same).1
    | plain c =>
      have second : '}' :: more = spellAll later ++ rest := (List.cons.inj same).2
      cases later with
      | nil =>
        have first := opens '}' (by rw [← show _ = rest from second]; rfl)
        simp at first
      | cons h tail =>
        cases h with
        | symbol j => simp [spellAll_cons, Glyph.spell] at second
        | plain d => exact fit (.plain d) (by simp) (List.cons.inj second).1.symm

theorem replace_symbol {k : Char} {gs : List Glyph} {rest : Text} (new : Text) (fit : ∀ g ∈ gs, g.IsFit)
    (opens : Opens rest) (other : k ≠ '{') : Text.replaceAll ['{', k, '}'] new (spellAll gs ++ rest) =
      gs.flatMap (fun g => if g = .symbol k then new else g.spell) ++ Text.replaceAll ['{', k, '}'] new rest := by
  induction gs with
  | nil => rfl
  | cons g later ih =>
    obtain ⟨here, fits⟩ := List.forall_mem_cons.mp fit
    have behind := ih fits
    rw [spellAll_cons, List.append_assoc, List.flatMap_cons, List.append_assoc, ← behind]
    cases g with
    | plain c =>
      have unseen : Text.literal ['{', k, '}'] (c :: (spellAll later ++ rest)) = none := by
        -- A brace on its own is followed by no symbol, or the two would have been one glyph.
        by_cases brace : c = '{'
        · rw [brace, Text.literal_none (by simp)]
          intro leads
          exact symbol_apart fits opens other ((List.cons_prefix_cons.mp leads).2)
        · exact Text.literal_unlike _ _ brace
      have passed : Text.replaceAll ['{', k, '}'] new (c :: (spellAll later ++ rest)) =
          c :: Text.replaceAll ['{', k, '}'] new (spellAll later ++ rest) := Text.replaceAll_plain unseen
      simpa [Glyph.spell] using passed
    | symbol j =>
      by_cases same : j = k
      · subst same
        have symbol : ['{', j, '}'] ≠ [] := by simp
        simpa [Glyph.spell] using Text.replaceAll_hit symbol new (spellAll later ++ rest)
      · -- The three characters of another symbol are passed over.
        have first : Text.literal ['{', k, '}'] ('{' :: j :: '}' :: (spellAll later ++ rest)) = none := by
          rw [Text.literal_none (by simp)]
          simp [Ne.symm same]
        have second := Text.literal_unlike (k := '{') [k, '}'] ('}' :: (spellAll later ++ rest)) here.opens
        have third := Text.literal_unlike (k := '{') (c := '}') [k, '}'] (spellAll later ++ rest) (by decide)
        have apart : Glyph.symbol j ≠ .symbol k := fun equal => same (Glyph.symbol.inj equal)
        simp only [Glyph.spell, apart, if_false, List.cons_append, List.nil_append]
        rw [Text.replaceAll_plain first, Text.replaceAll_plain second, Text.replaceAll_plain third]

theorem settle_spelled {k : Char} {gs : List Glyph} {rest : Text} (fit : ∀ g ∈ gs, g.IsFit) (opens : Opens rest)
    (other : k ≠ '{') : Text.replaceAll ['{', k, '}'] [k] (spellAll gs ++ rest) =
      spellAll (gs.map (Glyph.settleOne k)) ++ Text.replaceAll ['{', k, '}'] [k] rest := by
  have each : (fun g : Glyph => if g = .symbol k then [k] else g.spell) = fun g => (g.settleOne k).spell := by
    funext g
    unfold Glyph.settleOne
    split <;> rfl
  rw [replace_symbol [k] fit opens other, each, spellAll, List.flatMap_map]

theorem fit_settled {k : Char} {gs : List Glyph} (closes : k ≠ '}') (fit : ∀ g ∈ gs, g.IsFit) :
    ∀ g ∈ gs.map (Glyph.settleOne k), g.IsFit := by
  intro g among
  obtain ⟨old, member, rfl⟩ := List.mem_map.mp among
  exact Glyph.settleOne_fit closes (fit old member)

-- A bracket whose escape has lost its closing brace.

def Unclosed (rest : Text) : Prop := rest.head? ≠ some '}'

theorem opens_bracket (rest : Text) : Opens ('{' :: ']' :: rest) := by
  intro c first
  cases first
  rfl

theorem settle_bracket {k : Char} {rest : Text} (other : k ≠ ']') :
    Text.replaceAll ['{', k, '}'] [k] ('{' :: ']' :: rest) = '{' :: ']' :: Text.replaceAll ['{', k, '}'] [k] rest := by
  have first : Text.literal ['{', k, '}'] ('{' :: ']' :: rest) = none := by
    rw [Text.literal_none (by simp)]
    simp [other]
  have second := Text.literal_unlike (k := '{') (c := ']') [k, '}'] rest (by decide)
  rw [Text.replaceAll_plain first, Text.replaceAll_plain second]

theorem settle_unclosed {k : Char} {rest : Text} (closes : k ≠ '}') (unclosed : Unclosed rest) :
    Unclosed (Text.replaceAll ['{', k, '}'] [k] rest) := by
  cases rest with
  | nil => exact unclosed
  | cons c r =>
    cases seen : Text.literal ['{', k, '}'] (c :: r) with
    | none =>
      rw [Text.replaceAll_plain seen]
      exact unclosed
    | some found =>
      obtain ⟨_, filled, more, split⟩ := Text.literal_some seen
      rw [← split, Text.replaceAll_hit filled]
      simpa [Unclosed] using closes

theorem protect_bracket {rest : Text} (unclosed : Unclosed rest) :
    Marker.protect ('{' :: ']' :: rest) = '{' :: ']' :: Marker.protect rest := by
  have first : Text.literal Marker.escapedBracket ('{' :: ']' :: rest) = none := by
    rw [Text.literal_none (by decide)]
    rintro ⟨more, same⟩
    refine unclosed ?_
    have third : '}' :: more = rest := by simpa [Marker.escapedBracket] using same
    rw [← third]
    rfl
  have second := Text.literal_unlike (k := '{') (c := ']') [']', '}'] rest (by decide)
  rw [Marker.protect, Text.replaceAll_plain first]
  exact congrArg ('{' :: ·) (Text.replaceAll_plain second)

-- The stages for symbols on a POSIX platform, and brackets hidden after them.

def settleAll (t : Text) : Text :=
  Text.replaceAll Marker.commandSeparator [';'] (Text.replaceAll Marker.home ['~']
    (Text.replaceAll Marker.pathSeparator [':'] (Text.replaceAll Marker.fileSeparator ['/'] t)))

def hidden (t : Text) : Text := Marker.protect (settleAll t)

-- What may follow glyphs through all these stages.
inductive Behind : Text → Prop where
  | nothing : Behind []
  | bracket {rest : Text} (unclosed : Unclosed rest) : Behind ('{' :: ']' :: rest)

theorem Behind.opens (behind : Behind rest) : Opens rest := by
  cases behind with
  | nothing => intro c first; cases first
  | bracket _ => exact opens_bracket _

theorem Behind.settled {k : Char} (behind : Behind rest) (closes : k ≠ '}') (other : k ≠ ']') :
    Behind (Text.replaceAll ['{', k, '}'] [k] rest) := by
  cases behind with
  | nothing => exact .nothing
  | bracket unclosed => rw [settle_bracket other]; exact .bracket (settle_unclosed closes unclosed)

theorem hidden_bracket {rest : Text} (unclosed : Unclosed rest) : hidden ('{' :: ']' :: rest) = '{' :: ']' :: hidden rest := by
  have one := settle_unclosed (k := '/') (by decide) unclosed
  have two := settle_unclosed (k := ':') (by decide) one
  have three := settle_unclosed (k := '~') (by decide) two
  have four := settle_unclosed (k := ';') (by decide) three
  simp only [hidden, settleAll, Marker.fileSeparator, Marker.pathSeparator, Marker.home, Marker.commandSeparator]
  rw [settle_bracket (by decide), settle_bracket (by decide), settle_bracket (by decide), settle_bracket (by decide),
    protect_bracket four]

theorem show_settled {gs : List Glyph} (fit : ∀ g ∈ gs, g.IsFit) :
    ((((gs.map (Glyph.settleOne '/')).map (Glyph.settleOne ':')).map (Glyph.settleOne '~')).map (Glyph.settleOne ';')).flatMap
      (fun g => if g = .symbol ']' then [Marker.standIn] else g.spell) = gs.map Glyph.show_ := by
  induction gs with
  | nil => rfl
  | cons g later ih =>
    obtain ⟨here, fits⟩ := List.forall_mem_cons.mp fit
    simp only [List.map_cons, List.flatMap_cons]
    rw [ih fits]
    cases g with
    | plain c => rfl
    | symbol k =>
      simp only [Glyph.IsFit, List.mem_cons, List.not_mem_nil, or_false] at here
      rcases here with rfl | rfl | rfl | rfl | rfl <;> rfl

theorem hidden_glyphs {gs : List Glyph} {rest : Text} (fit : ∀ g ∈ gs, g.IsFit) (behind : Behind rest) :
    hidden (spellAll gs ++ rest) = gs.map Glyph.show_ ++ hidden rest := by
  have fit1 := fit_settled (k := '/') (by decide) fit
  have fit2 := fit_settled (k := ':') (by decide) fit1
  have fit3 := fit_settled (k := '~') (by decide) fit2
  have fit4 := fit_settled (k := ';') (by decide) fit3
  have behind1 := behind.settled (k := '/') (by decide) (by decide)
  have behind2 := behind1.settled (k := ':') (by decide) (by decide)
  have behind3 := behind2.settled (k := '~') (by decide) (by decide)
  have behind4 := behind3.settled (k := ';') (by decide) (by decide)
  simp only [hidden, settleAll, Marker.protect, Marker.fileSeparator, Marker.pathSeparator, Marker.home,
    Marker.commandSeparator, Marker.escapedBracket]
  rw [settle_spelled fit behind.opens (by decide), settle_spelled fit1 behind1.opens (by decide),
    settle_spelled fit2 behind2.opens (by decide), settle_spelled fit3 behind3.opens (by decide),
    replace_symbol _ fit4 behind4.opens (by decide)]
  rw [show_settled fit]

end PortableActions.CommandLine
