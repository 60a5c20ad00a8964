import PortableActions.Proofs.Template.Refusals
import PortableActions.Proofs.Template.Rewriting
-- Texts side by side, with a blank between them. A text that closes its quotes is read as it is
-- on its own, a word in front is read as one exactly if nothing in it stops it, and tokens that
-- were read somewhere are read again.
namespace PortableActions.Template.Token

theorem quoteAfter_blank {c : Char} (blank : Text.isBlank c = true) : quoteAfter none c = none := by
  apply quoteAfter_of_not_quote _ quoting_none
  unfold isQuote
  by_contra quote
  simp only [Bool.or_eq_true, decide_eq_true_eq, Bool.not_eq_false] at quote
  rcases quote with rfl | rfl <;> cases blank

-- A text that closes its quotes ends at any place where a word may end.
theorem lexes_front {t after : Text} {ts us : List Token} (lexes : Lexes t ts) (closed : quoteAtEnd none t = none)
    (boundary : Boundary after) (later : Lexes after us) : Lexes (t ++ after) (ts ++ us) := by
  induction lexes with
  | nil => exact later
  | @blank c r ts blank _ ih =>
    have outside : quoteAtEnd none (c :: r) = quoteAtEnd (quoteAfter none c) r := rfl
    rw [outside, quoteAfter_blank blank] at closed
    exact .blank blank (ih closed)
  | opening _ ih => exact .opening (ih closed)
  | closing _ ih => exact .closing (ih closed)
  | separator kind _ ih =>
    rw [List.append_assoc]
    apply Lexes.separator kind
    apply ih
    cases kind <;> exact closed
  | @word w behind ts filled solid ends _ ih =>
    rw [quoteAtEnd_append] at closed
    rw [List.append_assoc]
    cases behind with
    | nil => exact lexes_word filled (solid_of_unbroken solid) (fun _ => closed) boundary (ih rfl)
    | cons c more =>
      rw [ends.1] at closed
      exact .word filled (unbroken_more solid _) ⟨ends.1, endsWord_append ends.2 _⟩ (ih closed)

theorem read_joined {t after : Text} (closed : quoteAtEnd none t = none) (boundary : Boundary after) :
    read (t ++ after) = read t ++ read after :=
  read_of_lexes (lexes_front (lexes_read t) closed boundary (lexes_read after))

theorem read_break {t : Text} (closed : quoteAtEnd none t = none) (y : Text) : read (t ++ ' ' :: y) = read t ++ read y := by
  rw [read_joined closed (boundary_blank y), read_blank Text.isBlank_space]

theorem read_spaced (y : Text) : read (' ' :: y) = read y := read_blank Text.isBlank_space

-- A word in front of the rest of a text, whose first character starts no other token.
theorem read_front {c : Char} {r after : Text} {ts : List Token} (neutral : isNeutral c = true) (boundary : Boundary after) :
    read (c :: r ++ after) = .word (c :: r) :: ts ↔
      (Solid none (c :: r) ∧ (after ≠ [] → quoteAtEnd none (c :: r) = none)) ∧ read after = ts := by
  obtain ⟨free, _, _⟩ := neutral_parts neutral
  have start := free (r ++ after)
  simp only [endsWord, Bool.or_eq_false_iff] at start
  have front := read_word start.1.1 (operator?_none.mpr ⟨start.1.2, start.2⟩)
  have whole := spanWord_append (quoteAfter none c) (r ++ after)
  obtain ⟨solid, ends⟩ := spanWord_parts (quoteAfter none c) (r ++ after)
  constructor
  · intro same
    rw [List.cons_append, front] at same
    obtain ⟨word, later⟩ := List.cons.inj same
    have shown : (spanWord (quoteAfter none c) (r ++ after)).1 = r := (List.cons.inj (Token.word.inj word)).2
    rw [shown] at whole solid ends
    have rest := List.append_cancel_left whole
    rw [rest] at solid ends later
    have word : unbroken none (c :: r) after = true := by simp [unbroken, free, solid]
    refine ⟨⟨solid_of_unbroken word, fun some_ => ?_⟩, later⟩
    cases after with
    | nil => exact absurd rfl some_
    | cons d more => exact ends.1
  · rintro ⟨⟨solid, closed⟩, rfl⟩
    exact read_of_lexes (lexes_word (by simp) solid closed boundary (lexes_read after))

-- A token in front of a text, as it is spelled.
theorem lexes_spelled {token : Token} {rest : List Token} {after : Text} {ts : List Token} (readable : Readable (token :: rest))
    (more : after ≠ [] → rest ≠ []) (boundary : Boundary after) (later : Lexes after ts) :
    Lexes (token.text ++ after) (token :: ts) := by
  cases token with
  | word w =>
    obtain ⟨⟨filled, solid, closed⟩, _⟩ := readable
    exact lexes_word filled solid (fun behind => closed (more behind)) boundary later
  | opening => exact .opening later
  | closing => exact .closing later
  | separator kind => exact .separator kind later

-- A blank between two tokens is as good as what stood there.
theorem lexes_spaced {ts : List Token} (readable : Readable ts) : Lexes (Text.unwords (ts.map text)) ts := by
  induction ts with
  | nil => exact .nil
  | cons token rest ih =>
    have behind : Readable ([token] ++ rest) := readable
    have spaced := ih (readable_back behind)
    cases rest with
    | nil =>
      have boundary : Boundary [] := trivial
      simpa [Text.unwords, Text.join] using lexes_spelled readable (by simp) boundary .nil
    | cons next more =>
      rw [List.map_cons, Text.unwords_cons (by simp)]
      exact lexes_spelled readable (by simp) (boundary_blank _) (.blank Text.isBlank_space spaced)

-- Whatever stands between them, the tokens of a text are read again once they are written with
-- single blanks in between.
theorem spellings_unwords (t : Text) : spellings (Text.unwords (spellings t)) = spellings t := by
  have readable := readable_of_lexes (lexes_read t)
  have again : read (Text.unwords (spellings t)) = read t := read_of_lexes (lexes_spaced readable)
  exact congrArg (List.map text) again

example : Text.unwords (spellings "a&&&b)  'c (\td".toList) = "a && &b ) 'c (\td".toList := by decide +kernel

end PortableActions.Template.Token
