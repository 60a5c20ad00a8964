import PortableActions.Proofs.Template.Trees
-- Which templates are read at all, and as what. Only the parentheses decide: none closes a
-- group that is not open, every group is closed, and none is empty. The tree is the only one
-- that spells the template.
namespace PortableActions.Template

namespace Token

-- The texts that are operators wherever they stand as tokens of their own.
def operators : List Text := [['('], [')'], [';'], ['&', '&'], ['|', '|']]

-- No operator passes for a word.
def Proper : Token → Prop
  | word w => w ∉ operators
  | _ => True

-- The tokens of a template as they are spelled.
def spellings (template : Text) : List Text := (read template).map text

-- The token that a text spells.
def spelled (t : Text) : Token :=
  if t = ['('] then opening
  else if t = [')'] then closing
  else if t = [';'] then separator .sequence
  else if t = ['&', '&'] then separator .and
  else if t = ['|', '|'] then separator .or
  else word t

theorem spelled_text {token : Token} (proper : token.Proper) : spelled token.text = token := by
  cases token with
  | word w =>
    simp only [Proper, operators, List.mem_cons, List.not_mem_nil, or_false, not_or] at proper
    simp [spelled, text, proper]
  | opening | closing => rfl
  | separator kind => cases kind <;> rfl

theorem spelled_texts {ts : List Token} (proper : ∀ token ∈ ts, token.Proper) : (ts.map text).map spelled = ts := by
  rw [List.map_map]
  exact (List.map_congr_left fun token among => spelled_text (proper token among)).trans (List.map_id' ts)

theorem tokens_of_texts {one two : List Token} (first : ∀ token ∈ one, token.Proper)
    (second : ∀ token ∈ two, token.Proper) (same : one.map text = two.map text) : one = two := by
  rw [← spelled_texts first, same, spelled_texts second]

theorem proper_of_lexes (lexes : Lexes t ts) : ∀ token ∈ ts, token.Proper := by
  induction lexes with
  | nil => simp
  | blank _ _ ih => exact ih
  | opening _ ih | closing _ ih | separator _ _ ih => exact List.forall_mem_cons.mpr ⟨trivial, ih⟩
  | @word w after ts filled solid ends _ ih =>
    refine List.forall_mem_cons.mpr ⟨?_, ih⟩
    -- A word that starts like an operator would have stopped before its first character.
    intro operator
    simp only [operators, List.mem_cons, List.not_mem_nil, or_false] at operator
    rcases operator with rfl | rfl | rfl | rfl | rfl <;>
      simp [unbroken, endsWord, isSingle, isDoubled] at solid

end Token

-- What a template must be like to be read.
structure Balanced (texts : List Text) : Prop where
  filled : texts ≠ []
  covered : ∀ front, front <+: texts → front.count [')'] ≤ front.count ['(']
  closed : texts.count ['('] = texts.count [')']
  inhabited : ¬ [['('], [')']] <:+: texts

-- A tree that spells texts, in the one form that trees are read in: neither it nor a group
-- in it is empty (a command never is), no two commands stand side by side, and no word is an
-- operator.
structure Spells (nodes : List Node) (texts : List Text) : Prop where
  yield : (Node.tokensAll nodes).map Token.text = texts
  filled : nodes ≠ []
  canonical : Node.CanonicalAll nodes
  proper : ∀ token ∈ Node.tokensAll nodes, token.Proper

namespace Reading

-- What can still be continued to something balanced.
def Legal (texts : List Text) : Prop :=
  (∀ front, front <+: texts → front.count [')'] ≤ front.count ['(']) ∧ ¬ [['('], [')']] <:+: texts

-- The new text neither closes what is not open nor closes what has just been opened.
def Continues (texts : List Text) (next : Text) : Prop :=
  (texts ++ [next]).count [')'] ≤ (texts ++ [next]).count ['('] ∧ ¬ (texts.getLast? = some ['('] ∧ next = [')'])

theorem legal_nil : Legal [] := by
  refine ⟨fun front leads => ?_, by simp⟩
  rw [List.prefix_nil.mp leads]
  simp

theorem pair_suffix {a b next : Text} {texts : List Text} :
    [a, b] <:+ texts ++ [next] ↔ texts.getLast? = some a ∧ next = b := by
  constructor
  · rintro ⟨front, whole⟩
    have split : (front ++ [a]) ++ [b] = texts ++ [next] := by simpa using whole
    obtain ⟨rfl, last⟩ := List.append_inj' split rfl
    exact ⟨by simp, (List.singleton_inj.mp last).symm⟩
  · rintro ⟨last, rfl⟩
    obtain ⟨front, rfl⟩ := List.getLast?_eq_some_iff.mp last
    exact ⟨front, by simp⟩

theorem legal_snoc {texts : List Text} {next : Text} : Legal (texts ++ [next]) ↔ Legal texts ∧ Continues texts next := by
  simp only [Legal, Continues, List.prefix_concat_iff, List.infix_concat_iff, pair_suffix, forall_eq_or_imp, not_or]
  tauto

-- The open groups are the parentheses that are not closed yet, and a group has nothing in it
-- exactly behind its parenthesis.
structure Fits (texts : List Text) (s : Reading) : Prop where
  depth : s.outer.length + texts.count [')'] = texts.count ['(']
  bare : s.elements = [] ↔ texts = [] ∨ texts.getLast? = some ['(']

theorem fits_start : Fits [] .start := ⟨rfl, by simp [start, elements]⟩

theorem elements_filled (s : Reading) (text : Text) : elements { s with words := text :: s.words } ≠ [] := by
  simp only [elements, List.reverse_cons]
  cases s.words.reverse <;> simp

theorem fits_other {next : Reading} {t : Text} (fits : Fits texts s) (outer : next.outer = s.outer)
    (filled : next.elements ≠ []) (unopened : t ≠ ['(']) (unclosed : t ≠ [')']) : Fits (texts ++ [t]) next := by
  have depth := fits.depth
  refine ⟨?_, by simp [filled, unopened]⟩
  simp [outer, unopened, unclosed, depth]

theorem step_fits (fits : Fits texts s) (proper : token.Proper) (step : Step s token next) :
    Fits (texts ++ [token.text]) next := by
  cases step with
  | word w =>
    simp only [Token.Proper, Token.operators, List.mem_cons, not_or] at proper
    exact fits_other fits rfl (elements_filled s w) proper.1 proper.2.1
  | separator kind => exact fits_other fits rfl (by simp [elements]) (by cases kind <;> decide) (by cases kind <;> decide)
  | opening =>
    have depth := fits.depth
    refine ⟨?_, by simp [elements, Token.text]⟩
    simp [Token.text]
    omega
  | closing filled nested =>
    have depth := fits.depth
    refine ⟨?_, by simp [elements, Token.text]⟩
    rw [nested, List.length_cons] at depth
    simp [Token.text]
    omega

theorem step_continues (fits : Fits texts s) (proper : token.Proper) :
    (∃ next, Step s token next) ↔ Continues texts token.text := by
  have depth := fits.depth
  constructor
  · rintro ⟨next, step⟩
    have after := (step_fits fits proper step).depth
    refine ⟨by omega, ?_⟩
    rintro ⟨last, same⟩
    have bare : s.elements = [] := fits.bare.mpr (.inr last)
    cases step with
    | closing filled nested => exact filled bare
    | word w => exact proper (by simp only [Token.text] at same; simp [same, Token.operators])
    | opening => cases same
    | separator kind => cases kind <;> cases same
  · rintro ⟨covered, inhabited⟩
    cases token with
    | word w => exact ⟨_, .word s w⟩
    | separator kind => exact ⟨_, .separator s kind⟩
    | opening => exact ⟨_, .opening s⟩
    | closing =>
      simp only [Token.text, List.count_append, List.count_singleton_self, List.count_singleton] at covered
      cases nested : s.outer with
      | nil => simp [nested] at depth covered; omega
      | cons around outer =>
        refine ⟨_, .closing (fun bare => ?_) nested⟩
        rcases fits.bare.mp bare with rfl | last
        · simp [nested] at depth
        · exact inhabited ⟨last, rfl⟩

theorem advanceAll_snoc {s last : Reading} {ts : List Token} {token : Token} :
    s.advanceAll (ts ++ [token]) = .ok last ↔ ∃ middle, s.advanceAll ts = .ok middle ∧ Step middle token last := by
  rw [advanceAll_append]
  cases s.advanceAll ts with
  | error fault => simp [Except.bind]
  | ok middle =>
    simp only [Except.bind, advanceAll, Except.ok.injEq, exists_eq_left']
    constructor
    · intro read
      cases step : middle.advance token with
      | error fault => simp [step] at read
      | ok next =>
        simp only [step, Except.ok.injEq] at read
        exact read ▸ advance_sound step
    · intro step
      simp [advance_complete step]

theorem advanceAll_fits {ts : List Token} {last : Reading} (proper : ∀ token ∈ ts, token.Proper)
    (read : start.advanceAll ts = .ok last) : Fits (ts.map Token.text) last := by
  induction ts using List.reverseRecOn generalizing last with
  | nil => cases read; exact fits_start
  | append_singleton ts token ih =>
    obtain ⟨middle, before, step⟩ := advanceAll_snoc.mp read
    rw [List.map_append]
    exact step_fits (ih (fun t among => proper t (by simp [among])) before) (proper token (by simp)) step

-- Tokens are read to their end exactly if they can still be continued to something balanced.
theorem advanceAll_legal {ts : List Token} (proper : ∀ token ∈ ts, token.Proper) :
    (∃ last, start.advanceAll ts = .ok last) ↔ Legal (ts.map Token.text) := by
  induction ts using List.reverseRecOn with
  | nil => exact iff_of_true ⟨.start, rfl⟩ legal_nil
  | append_singleton ts token ih =>
    have before : ∀ t ∈ ts, t.Proper := fun t among => proper t (by simp [among])
    have here : token.Proper := proper token (by simp)
    rw [List.map_append, List.map_singleton, legal_snoc, ← ih before]
    constructor
    · rintro ⟨last, read⟩
      obtain ⟨middle, earlier, step⟩ := advanceAll_snoc.mp read
      exact ⟨⟨middle, earlier⟩, (step_continues (advanceAll_fits before earlier) here).mp ⟨last, step⟩⟩
    · rintro ⟨⟨middle, earlier⟩, continues⟩
      obtain ⟨last, step⟩ := (step_continues (advanceAll_fits before earlier) here).mpr continues
      exact ⟨last, advanceAll_snoc.mpr ⟨middle, earlier, step⟩⟩

-- At the end nothing may be open, and then something has been read.
theorem finish_balanced {texts : List Text} {s : Reading} (legal : Legal texts) (fits : Fits texts s) :
    (s.finish.toOption).isSome = true ↔ Balanced texts := by
  have depth := fits.depth
  rw [Option.isSome_iff_exists]
  constructor
  · rintro ⟨nodes, done⟩
    obtain ⟨filled, nested, _⟩ := finish_exact.mp done
    rw [nested, List.length_nil, Nat.zero_add] at depth
    exact ⟨fun empty => filled (fits.bare.mpr (.inl empty)), legal.1, depth.symm, legal.2⟩
  · intro balanced
    have nested : s.outer = [] := List.eq_nil_of_length_eq_zero (by have := balanced.closed; omega)
    refine ⟨_, finish_exact.mpr ⟨fun bare => ?_, nested, rfl⟩⟩
    rcases fits.bare.mp bare with empty | last
    · exact balanced.filled empty
    · -- What stands before a last opening parenthesis would have closed more than it opens.
      obtain ⟨front, rfl⟩ := List.getLast?_eq_some_iff.mp last
      have covered := legal.1 front (List.prefix_append _ _)
      have closed := balanced.closed
      simp at closed
      omega

end Reading

theorem parse?_isSome {template : Text} : (parse? template).isSome = true ↔ Balanced (Token.spellings template) := by
  have proper := Token.proper_of_lexes (Token.lexes_read template)
  rw [parse?, parse, Reading.run_tokens, ← Token.read]
  cases read : Reading.start.advanceAll (Token.read template) with
  | ok last =>
    exact Reading.finish_balanced ((Reading.advanceAll_legal proper).mp ⟨last, read⟩) (Reading.advanceAll_fits proper read)
  | error fault =>
    refine iff_of_false (by simp [Except.toOption]) fun balanced => ?_
    obtain ⟨last, reached⟩ := (Reading.advanceAll_legal proper).mpr ⟨balanced.covered, balanced.inhabited⟩
    rw [read] at reached
    cases reached

theorem parse?_spells {template : Text} {nodes : List Node} :
    parse? template = some nodes ↔ Spells nodes (Token.spellings template) := by
  have proper := Token.proper_of_lexes (Token.lexes_read template)
  rw [parse?_exact]
  constructor
  · rintro ⟨tokens, canonical, filled⟩
    exact ⟨by rw [← tokens, Token.spellings], filled, canonical, tokens ▸ proper⟩
  · intro spells
    exact ⟨Token.tokens_of_texts proper spells.proper spells.yield.symm, spells.canonical, spells.filled⟩

-- A template is read exactly if it is balanced, and then as the only tree that spells it.
theorem parse?_sole_tree (template : Text) :
    ((parse? template).isSome = true ↔ Balanced (Token.spellings template)) ∧
    ∀ nodes, parse? template = some nodes →
      Spells nodes (Token.spellings template) ∧ ∀ other, Spells other (Token.spellings template) → other = nodes := by
  refine ⟨parse?_isSome, fun nodes parsed => ⟨parse?_spells.mp parsed, fun other spells => ?_⟩⟩
  have again := parse?_spells.mpr spells
  rw [parsed] at again
  exact (Option.some.inj again).symm

theorem parse?_sole_tree_group :
    parse? "cd 'a(' && (make||ls b)".toList =
      some [.command "cd".toList ["'a('".toList], .separator .and,
        .group [.command "make".toList [], .separator .or, .command "ls".toList ["b".toList]]] ∧
    Balanced (Token.spellings "cd 'a(' && (make||ls b)".toList) ∧
    ∀ other, Spells other (Token.spellings "cd 'a(' && (make||ls b)".toList) →
      other = [.command "cd".toList ["'a('".toList], .separator .and,
        .group [.command "make".toList [], .separator .or, .command "ls".toList ["b".toList]]] := by
  obtain ⟨accepted, sole⟩ := parse?_sole_tree "cd 'a(' && (make||ls b)".toList
  have parsed : parse? "cd 'a(' && (make||ls b)".toList =
      some [.command "cd".toList ["'a('".toList], .separator .and,
        .group [.command "make".toList [], .separator .or, .command "ls".toList ["b".toList]]] := by decide +kernel
  exact ⟨parsed, accepted.mp (by rw [parsed]; rfl), (sole _ parsed).2⟩

end PortableActions.Template
