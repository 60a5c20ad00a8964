import PortableActions.Template.Token
-- What the tokens of a text are, stated apart from the function that reads them.
namespace PortableActions.Template.Token

theorem readFrom_nil (start : Nat) : readFrom start [] = [] := by
  rw [readFrom.eq_def]

theorem readFrom_blank (start : Nat) {c : Char} {r : Text} (blank : Text.isBlank c = true) :
    readFrom start (c :: r) = readFrom (start + 1) r := by
  rw [readFrom.eq_def]
  simp [blank]

theorem readFrom_operator (start : Nat) {c : Char} {r : Text} {found : Token × Text}
    (solid : Text.isBlank c = false) (seen : operator? c r = some found) :
    readFrom start (c :: r) = ⟨start, found.1⟩ :: readFrom (start + found.1.text.length) found.2 := by
  rw [readFrom.eq_def]
  simp only [solid, Bool.false_eq_true, if_false]
  split
  · rename_i other same
    rw [seen] at same
    cases same
    rfl
  · rename_i none_
    rw [seen] at none_
    cases none_

theorem readFrom_word (start : Nat) {c : Char} {r : Text} (solid : Text.isBlank c = false)
    (unseen : operator? c r = none) :
    readFrom start (c :: r) = ⟨start, word (c :: (spanWord (quoteAfter none c) r).1)⟩ ::
      readFrom (start + ((spanWord (quoteAfter none c) r).1.length + 1)) (spanWord (quoteAfter none c) r).2 := by
  rw [readFrom.eq_def]
  simp only [solid, Bool.false_eq_true, if_false]
  split
  · rename_i found same
    rw [unseen] at same
    cases same
  · rfl

-- Offsets have no say in which tokens are read.
theorem readFrom_tokens (one two : Nat) (t : Text) :
    (readFrom one t).map Placed.token = (readFrom two t).map Placed.token := by
  induction size : t.length using Nat.strongRecOn generalizing t one two with
  | ind n ih =>
    cases t with
    | nil => rw [readFrom_nil, readFrom_nil]
    | cons c r =>
      cases solid : Text.isBlank c with
      | true =>
        rw [readFrom_blank one solid, readFrom_blank two solid]
        exact ih r.length (by simp at size; omega) _ _ r rfl
      | false =>
        cases seen : operator? c r with
        | some found =>
          have shorter := operator?_length seen
          rw [readFrom_operator one solid seen, readFrom_operator two solid seen, List.map_cons, List.map_cons,
            ih found.2.length (by simp at size; omega) _ _ found.2 rfl]
        | none =>
          have shorter := spanWord_length (quoteAfter none c) r
          rw [readFrom_word one solid seen, readFrom_word two solid seen, List.map_cons, List.map_cons,
            ih (spanWord (quoteAfter none c) r).2.length (by simp at size; omega) _ _ _ rfl]

theorem read_nil : read [] = [] := by
  rw [read, readPlaced, readFrom_nil]
  rfl

theorem read_blank {c : Char} {r : Text} (blank : Text.isBlank c = true) : read (c :: r) = read r := by
  rw [read, readPlaced, readFrom_blank 0 blank, readFrom_tokens _ 0, read, readPlaced]

theorem read_operator {c : Char} {r : Text} {found : Token × Text} (solid : Text.isBlank c = false)
    (seen : operator? c r = some found) : read (c :: r) = found.1 :: read found.2 := by
  rw [read, readPlaced, readFrom_operator 0 solid seen, List.map_cons, readFrom_tokens _ 0, read, readPlaced]

theorem read_word {c : Char} {r : Text} (solid : Text.isBlank c = false) (unseen : operator? c r = none) :
    read (c :: r) = word (c :: (spanWord (quoteAfter none c) r).1) :: read (spanWord (quoteAfter none c) r).2 := by
  rw [read, readPlaced, readFrom_word 0 solid unseen, List.map_cons, readFrom_tokens _ 0, read, readPlaced]

-- The quote that is open after a text.
def quoteAtEnd : Option Char → Text → Option Char := List.foldl quoteAfter

-- No place of the word stops it, with what follows the word in view.
def unbroken : Option Char → Text → Text → Bool
  | _, [], _ => true
  | quote, c :: r, after => !(quote.isNone && endsWord c (r ++ after)) && unbroken (quoteAfter quote c) r after

-- What follows a word: nothing, or outside quotes a place where a word stops.
def Ends (quote : Option Char) : Text → Prop
  | [] => True
  | c :: after => quote = none ∧ endsWord c after = true

theorem spanWord_parts (quote : Option Char) (t : Text) :
    unbroken quote (spanWord quote t).1 (spanWord quote t).2 = true ∧
      Ends (quoteAtEnd quote (spanWord quote t).1) (spanWord quote t).2 := by
  induction t generalizing quote with
  | nil => exact ⟨rfl, trivial⟩
  | cons c r ih =>
    simp only [spanWord]
    split
    · rename_i stop
      simp only [Bool.and_eq_true, Option.isNone_iff_eq_none] at stop
      exact ⟨rfl, stop.1, stop.2⟩
    · rename_i open_
      obtain ⟨rest, ends⟩ := ih (quoteAfter quote c)
      refine ⟨?_, ends⟩
      simp only [unbroken, spanWord_append, rest, Bool.and_true, Bool.not_eq_true']
      exact Bool.eq_false_iff.mpr open_

theorem spanWord_exact {quote : Option Char} {w after : Text} (solid : unbroken quote w after = true)
    (ends : Ends (quoteAtEnd quote w) after) : spanWord quote (w ++ after) = (w, after) := by
  induction w generalizing quote with
  | nil =>
    cases after with
    | nil => rfl
    | cons c rest =>
      obtain ⟨closed, stop⟩ := ends
      have closed : quote = none := closed
      simp [spanWord, closed, stop]
  | cons c r ih =>
    simp only [unbroken, Bool.and_eq_true, Bool.not_eq_true'] at solid
    have rest := ih solid.2 ends
    simp [spanWord, solid.1, rest]

theorem operator?_none {c : Char} {after : Text} :
    operator? c after = none ↔ isSingle c = false ∧ isDoubled c after = false := by
  unfold operator? isSingle
  by_cases opens : c = '('
  · simp [opens]
  by_cases closes : c = ')'
  · simp [closes]
  by_cases sequence : c = ';'
  · simp [sequence]
  by_cases doubled : isDoubled c after = true <;> simp [opens, closes, sequence, doubled]

theorem operator?_parts {c : Char} {r : Text} {found : Token × Text} (seen : operator? c r = some found) :
    (c = '(' ∧ found = (opening, r)) ∨ (c = ')' ∧ found = (closing, r)) ∨
      ∃ kind, found.1 = separator kind ∧ c :: r = kind.text ++ found.2 := by
  unfold operator? at seen
  split at seen
  · rename_i same; exact .inl ⟨same, (Option.some.inj seen).symm⟩
  split at seen
  · rename_i same; exact .inr (.inl ⟨same, (Option.some.inj seen).symm⟩)
  split at seen
  · rename_i same; cases seen; exact .inr (.inr ⟨.sequence, rfl, by rw [same]; rfl⟩)
  split at seen
  · rename_i doubled
    simp only [isDoubled, Bool.and_eq_true, Bool.or_eq_true, decide_eq_true_eq] at doubled
    obtain ⟨either, second⟩ := doubled
    obtain ⟨rest, rfl⟩ : ∃ rest, r = c :: rest := by
      cases r with
      | nil => cases second
      | cons d rest => exact ⟨rest, by rw [Option.some.inj second]⟩
    cases seen
    rcases either with rfl | rfl
    · exact .inr (.inr ⟨.and, rfl, rfl⟩)
    · exact .inr (.inr ⟨.or, rfl, rfl⟩)
  · cases seen

-- A text falls into blanks, operators and words. A word holds no place that stops it, and
-- ends at the end of the text or at such a place.
inductive Lexes : Text → List Token → Prop where
  | nil : Lexes [] []
  | blank {c : Char} {r : Text} {ts : List Token} (blank : Text.isBlank c = true) : Lexes r ts → Lexes (c :: r) ts
  | opening {r : Text} {ts : List Token} : Lexes r ts → Lexes ('(' :: r) (.opening :: ts)
  | closing {r : Text} {ts : List Token} : Lexes r ts → Lexes (')' :: r) (.closing :: ts)
  | separator {r : Text} {ts : List Token} (kind : Separator) :
      Lexes r ts → Lexes (kind.text ++ r) (.separator kind :: ts)
  | word {w after : Text} {ts : List Token} (filled : w ≠ []) (solid : unbroken none w after = true)
      (ends : Ends (quoteAtEnd none w) after) : Lexes after ts → Lexes (w ++ after) (.word w :: ts)

theorem lexes_read (t : Text) : Lexes t (read t) := by
  induction size : t.length using Nat.strongRecOn generalizing t with
  | ind n ih =>
    cases t with
    | nil => rw [read_nil]; exact .nil
    | cons c r =>
      cases solid : Text.isBlank c with
      | true => rw [read_blank solid]; exact .blank solid (ih r.length (by simp at size; omega) r rfl)
      | false =>
        cases seen : operator? c r with
        | some found =>
          have shorter := operator?_length seen
          have later := ih found.2.length (by simp at size; omega) found.2 rfl
          rw [read_operator solid seen]
          rcases operator?_parts seen with ⟨rfl, rfl⟩ | ⟨rfl, rfl⟩ | ⟨kind, same, split⟩
          · exact .opening later
          · exact .closing later
          · rw [split, same]; exact .separator kind later
        | none =>
          -- The word goes on as far as the scan takes it, and its first character ends no word.
          have shorter := spanWord_length (quoteAfter none c) r
          have later := ih _ (by simp at size; omega) (spanWord (quoteAfter none c) r).2 rfl
          obtain ⟨single, doubled⟩ := operator?_none.mp seen
          obtain ⟨rest, ends⟩ := spanWord_parts (quoteAfter none c) r
          have whole := spanWord_append (quoteAfter none c) r
          have start : endsWord c r = false := by simp [endsWord, solid, single, doubled]
          have word : unbroken none (c :: (spanWord (quoteAfter none c) r).1) (spanWord (quoteAfter none c) r).2 = true := by
            simp [unbroken, whole, start, rest]
          rw [read_word solid seen]
          have lexed := Lexes.word (List.cons_ne_nil _ _) word ends later
          rwa [List.cons_append, whole] at lexed

-- A word is a part of the text.
theorem infix_of_word {t w : Text} {ts : List Token} (lexes : Lexes t ts) (among : .word w ∈ ts) : w <:+: t := by
  induction lexes with
  | nil => cases among
  | blank _ _ ih => exact List.infix_cons (ih among)
  | opening _ ih => exact List.infix_cons (ih (by simpa using among))
  | closing _ ih => exact List.infix_cons (ih (by simpa using among))
  | separator kind _ ih => exact (ih (by simpa using among)).trans (List.suffix_append _ _).isInfix
  | word _ _ _ _ ih =>
    rcases List.mem_cons.mp among with same | later
    · cases same
      exact (List.prefix_append _ _).isInfix
    · exact (ih later).trans (List.suffix_append _ _).isInfix

theorem mem_of_word {t w : Text} {ts : List Token} {c : Char} (lexes : Lexes t ts) (among : .word w ∈ ts) (inside : c ∈ w) :
    c ∈ t := (infix_of_word lexes among).subset inside

theorem read_of_lexes {t : Text} {ts : List Token} (lexes : Lexes t ts) : read t = ts := by
  induction lexes with
  | nil => exact read_nil
  | blank blank _ ih => rw [read_blank blank, ih]
  | opening _ ih => rw [read_operator rfl rfl, ih]
  | closing _ ih => rw [read_operator rfl rfl, ih]
  | separator kind _ ih =>
    cases kind with
    | sequence => rw [Separator.text, List.singleton_append, read_operator rfl rfl, ih]
    | and => rw [Separator.text, List.cons_append, List.singleton_append, read_operator rfl rfl]; simp [ih]
    | or => rw [Separator.text, List.cons_append, List.singleton_append, read_operator rfl rfl]; simp [ih]
  | @word w after ts filled solid ends _ ih =>
    obtain ⟨c, r, rfl⟩ := List.exists_cons_of_ne_nil filled
    simp only [unbroken, Option.isNone_none, Bool.true_and, Bool.and_eq_true, Bool.not_eq_true', endsWord,
      Bool.or_eq_false_iff] at solid
    obtain ⟨⟨⟨visible, single⟩, doubled⟩, rest⟩ := solid
    have exact_ := spanWord_exact rest ends
    rw [List.cons_append, read_word visible (operator?_none.mpr ⟨single, doubled⟩), exact_, ih]

theorem read_exact {t : Text} {ts : List Token} : read t = ts ↔ Lexes t ts :=
  ⟨fun same => same ▸ lexes_read t, read_of_lexes⟩

end PortableActions.Template.Token
