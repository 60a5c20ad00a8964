import PortableActions.Failure
import PortableActions.Proofs.Template.Insertion
import PortableActions.Proofs.Template.Prefixes
import PortableActions.Proofs.Template.Words
-- Where a template is refused. The text before that place can still be completed, and if the
-- template goes on there, no text that goes on with the same character can be read.
namespace PortableActions.Template

namespace Reading

-- The ways a state refuses a token, or the end.

theorem advance_refused {s : Reading} {token : Token} {fault : Fault} (refused : s.advance token = .error fault) :
    token = .closing ∧ (fault = .emptyCommand ∧ s.elements = [] ∨ fault = .unexpectedClose ∧ s.elements ≠ []) := by
  cases token with
  | word | separator | opening => cases refused
  | closing =>
    refine ⟨rfl, ?_⟩
    unfold advance at refused
    dsimp only at refused
    split at refused
    · rename_i empty
      cases refused
      exact .inl ⟨rfl, List.isEmpty_iff.mp empty⟩
    · rename_i filled
      have some_ : s.elements ≠ [] := fun empty => filled (List.isEmpty_iff.mpr empty)
      split at refused
      · cases refused
        exact .inr ⟨rfl, some_⟩
      · cases refused

theorem finish_refused {s : Reading} {fault : Fault} (refused : s.finish = .error fault) :
    fault = .emptyCommand ∧ s.elements = [] ∨ fault = .missingClose ∧ s.elements ≠ [] := by
  unfold finish at refused
  split at refused
  · rename_i empty
    cases refused
    exact .inl ⟨rfl, List.isEmpty_iff.mp empty⟩
  · rename_i filled
    have some_ : s.elements ≠ [] := fun empty => filled (List.isEmpty_iff.mpr empty)
    split at refused
    · cases refused
    · cases refused
      exact .inr ⟨rfl, some_⟩

-- A run is refused at the first token that is, or behind the last one.
theorem run_refused {s : Reading} {length : Nat} {placed : List Token.Placed} {refusal : Refusal}
    (refused : s.run length placed = .error refusal) :
    (∃ earlier one later reached, placed = earlier ++ one :: later ∧ refusal.position = one.start ∧
      s.advanceAll (earlier.map Token.Placed.token) = .ok reached ∧ reached.advance one.token = .error refusal.fault) ∨
    (∃ reached, refusal.position = length ∧
      s.advanceAll (placed.map Token.Placed.token) = .ok reached ∧ reached.finish = .error refusal.fault) := by
  induction placed generalizing s with
  | nil =>
    rw [run] at refused
    cases done : s.finish with
    | ok nodes => simp [done, Except.mapError] at refused
    | error fault =>
      simp only [done, Except.mapError, Except.error.injEq] at refused
      subst refused
      exact .inr ⟨s, rfl, rfl, done⟩
  | cons first rest ih =>
    rw [run] at refused
    cases step : s.advance first.token with
    | error fault =>
      simp only [step, Except.error.injEq] at refused
      subst refused
      exact .inl ⟨[], first, rest, s, rfl, rfl, rfl, step⟩
    | ok next =>
      simp only [step] at refused
      rcases ih refused with ⟨earlier, one, later, reached, split, place, read, fault⟩ | ⟨reached, place, read, fault⟩
      · refine .inl ⟨first :: earlier, one, later, reached, by rw [split, List.cons_append], place, ?_, fault⟩
        simpa [advanceAll, step] using read
      · refine .inr ⟨reached, place, ?_, fault⟩
        simpa [advanceAll, step] using read

-- Whatever has been read, one more command closes: in a group of its own, with all groups
-- around it closed behind it.

theorem advanceAll_closings {s : Reading} (filled : s.elements ≠ []) :
    ∃ last nodes, s.advanceAll (List.replicate s.outer.length .closing) = .ok last ∧ last.finish = .ok nodes := by
  generalize around : s.outer = outer
  induction outer generalizing s with
  | nil => exact ⟨s, s.elements.reverse, rfl, by simp [finish, filled, around]⟩
  | cons first more ih =>
    have step : s.advance .closing = .ok ⟨.group s.elements.reverse :: first, [], more⟩ := by simp [advance, filled, around]
    have group : elements ⟨.group s.elements.reverse :: first, [], more⟩ ≠ [] := by simp [elements]
    obtain ⟨last, nodes, read, done⟩ := ih group rfl
    refine ⟨last, nodes, ?_, done⟩
    rw [List.length_cons, List.replicate_succ, advanceAll, step]
    exact read

theorem advanceAll_completed (s : Reading) (w : Text) :
    ∃ last nodes, s.advanceAll (.opening :: .word w :: List.replicate (s.outer.length + 1) .closing) = .ok last ∧
      last.finish = .ok nodes := by
  have filled : elements ⟨[], [w], s.elements :: s.outer⟩ ≠ [] := by simp [elements]
  exact advanceAll_closings filled

-- Tokens that are read wherever others are.
def Leads (ts us : List Token) : Prop := ∀ s last, advanceAll s ts = .ok last → ∃ again, advanceAll s us = .ok again

theorem Leads.refl (ts : List Token) : Leads ts ts := fun _ last read => ⟨last, read⟩

theorem Leads.cons {ts us : List Token} (leads : Leads ts us) (token : Token) : Leads (token :: ts) (token :: us) := by
  intro s last read
  rw [advanceAll] at read ⊢
  cases step : s.advance token with
  | error fault => simp [step] at read
  | ok next =>
    simp only [step] at read ⊢
    exact leads next last read

theorem Leads.word (w v : Text) : Leads [.word w] [.word v] := fun s _ _ => ⟨{ s with words := v :: s.words }, rfl⟩

end Reading

namespace Token

theorem unbroken_append {quote : Option Char} {one two after : Text} :
    unbroken quote (one ++ two) after = (unbroken quote one (two ++ after) && unbroken (quoteAtEnd quote one) two after) := by
  induction one generalizing quote with
  | nil => rfl
  | cons c r ih =>
    have step : quoteAtEnd quote (c :: r) = quoteAtEnd (quoteAfter quote c) r := rfl
    rw [List.cons_append, unbroken, unbroken, ih, step, List.append_assoc, Bool.and_assoc]

theorem endsWord_append {c : Char} {after : Text} (stop : endsWord c after = true) (more : Text) :
    endsWord c (after ++ more) = true := by
  simp only [endsWord, Bool.or_eq_true] at stop ⊢
  exact stop.imp_right isDoubled_of_append

theorem unbroken_more {quote : Option Char} {w : Text} {c : Char} {after : Text} (solid : unbroken quote w (c :: after) = true)
    (more : Text) : unbroken quote w (c :: after ++ more) = true := by
  rw [unbroken_exact] at solid ⊢
  intro front d back split outside stopped
  have alike : Alike (c :: after ++ more) (c :: after) := fun _ _ => Iff.rfl
  exact solid front d back split outside ((alike.append back).stops stopped)

-- The last word of a text, with its open quote closed behind it.
theorem word_closed {w : Text} (solid : Solid none w) :
    ∃ close, ∀ after, Follows after → unbroken none (w ++ close) after = true ∧ quoteAtEnd none (w ++ close) = none := by
  cases end_ : quoteAtEnd none w with
  | none =>
    refine ⟨[], fun after follows => ?_⟩
    rw [List.append_nil]
    exact ⟨unbroken_of_solid solid follows, end_⟩
  | some q =>
    have quotes : isQuote q = true := Suggestion.quoting_atEnd quoting_none w q end_
    refine ⟨[q], fun after _ => ⟨?_, ?_⟩⟩
    · have follows : Follows ([q] ++ after) := by
        intro c first
        cases first
        constructor <;> rintro rfl <;> cases quotes
      rw [unbroken_append, unbroken_of_solid solid follows, end_]
      rfl
    · rw [quoteAtEnd_append, end_]
      simp [quoteAtEnd, quoteAfter]

-- In front of an opening parenthesis every text is read as it is on its own, once what is
-- still quoted at its end is closed.
theorem lexes_closed {t : Text} {ts : List Token} (lexes : Lexes t ts) :
    ∃ close us, Reading.Leads ts us ∧
      ∀ after vs, Lexes ('(' :: after) vs → Lexes (t ++ (close ++ '(' :: after)) (us ++ vs) := by
  induction lexes with
  | nil => exact ⟨[], [], .refl _, fun _ _ later => later⟩
  | blank blank _ ih =>
    obtain ⟨close, us, leads, closes⟩ := ih
    exact ⟨close, us, leads, fun after vs later => .blank blank (closes after vs later)⟩
  | opening _ ih =>
    obtain ⟨close, us, leads, closes⟩ := ih
    exact ⟨close, _, leads.cons .opening, fun after vs later => .opening (closes after vs later)⟩
  | closing _ ih =>
    obtain ⟨close, us, leads, closes⟩ := ih
    exact ⟨close, _, leads.cons .closing, fun after vs later => .closing (closes after vs later)⟩
  | separator kind _ ih =>
    obtain ⟨close, us, leads, closes⟩ := ih
    refine ⟨close, _, leads.cons (.separator kind), fun after vs later => ?_⟩
    rw [List.append_assoc]
    exact .separator kind (closes after vs later)
  | @word w after ts filled solid ends rest ih =>
    cases after with
    | cons c more =>
      obtain ⟨close, us, leads, closes⟩ := ih
      refine ⟨close, _, leads.cons (.word w), fun after vs later => ?_⟩
      rw [List.append_assoc]
      exact .word filled (unbroken_more solid _) ⟨ends.1, endsWord_append ends.2 _⟩ (closes after vs later)
    | nil =>
      -- The text stops inside this word, maybe in a quote or on half an operator.
      have none_ : ts = [] := (read_of_lexes rest).symm.trans read_nil
      obtain ⟨close, closed⟩ := word_closed (solid_of_unbroken solid)
      refine ⟨close, [.word (w ++ close)], ?_, fun after vs later => ?_⟩
      · rw [none_]
        exact .word w (w ++ close)
      · have follows : Follows ('(' :: after) := by
          intro c first
          cases first
          decide
        obtain ⟨whole, outside⟩ := closed _ follows
        rw [List.append_nil, ← List.append_assoc]
        exact .word (by simp [filled]) whole ⟨outside, rfl⟩ later

theorem lexes_closings (count : Nat) : Lexes (List.replicate count ')') (List.replicate count .closing) := by
  induction count with
  | zero => exact .nil
  | succ n ih => exact .closing ih

end Token

theorem parse?_read {t : Text} : (parse? t).isSome = true ↔
    ∃ last nodes, Reading.start.advanceAll (Token.read t) = .ok last ∧ last.finish = .ok nodes := by
  rw [parse?, parse, Reading.run_tokens, ← Token.read]
  cases Reading.start.advanceAll (Token.read t) with
  | error fault => simp [Except.toOption]
  | ok last => cases done : last.finish <;> simp [Except.toOption, done]

-- A text whose tokens are all read is the front of a template.
theorem parse?_completed {t : Text} {reached : Reading} (read : Reading.start.advanceAll (Token.read t) = .ok reached) :
    ∃ more, (parse? (t ++ more)).isSome = true := by
  obtain ⟨close, us, leads, closes⟩ := Token.lexes_closed (Token.lexes_read t)
  obtain ⟨again, lead⟩ := leads _ _ read
  obtain ⟨last, nodes, onward, done⟩ := Reading.advanceAll_completed again ['x']
  have closings := Token.lexes_closings (again.outer.length + 1)
  have word : Token.Lexes ('x' :: List.replicate (again.outer.length + 1) ')')
      (.word ['x'] :: List.replicate (again.outer.length + 1) .closing) :=
    .word (w := ['x']) (by simp) rfl ⟨rfl, rfl⟩ closings
  have tokens := Token.read_of_lexes (closes _ _ (.opening word))
  have whole := Reading.advanceAll_append .start us (.opening :: .word ['x'] :: List.replicate (again.outer.length + 1) .closing)
  rw [← tokens, lead] at whole
  exact ⟨_, parse?_read.mpr ⟨last, nodes, whole.trans onward, done⟩⟩

-- Nothing has been read of the innermost group.
def Bare (texts : List Text) : Prop := texts = [] ∨ texts.getLast? = some ['(']

-- What is reported of a text that is refused.
structure Earliest (t : Text) (position : Nat) (message : Text) : Prop where
  place : position = t.length ∨ ⟨position, .closing⟩ ∈ Token.readPlaced t
  viable : ∃ more, (parse? (t.take position ++ more)).isSome = true
  final : position < t.length → ∀ more, parse? (t.take (position + 1) ++ more) = none
  empty : message = "Empty command".toList ↔ Bare (Token.spelledBefore position t)
  missing : message = "Unexpected end of input, missing ')'".toList ↔
    position = t.length ∧ ¬ Bare (Token.spelledBefore position t)
  unexpected : message = "Unexpected ')'".toList ↔ position ≠ t.length ∧ ¬ Bare (Token.spelledBefore position t)

theorem description_inj {one two : Fault} : one.description = two.description ↔ one = two := by
  cases one <;> cases two <;> decide

-- Which fault it is.
def Blames (t : Text) (position : Nat) (bare : Prop) : Fault → Prop
  | .emptyCommand => bare
  | .missingClose => position = t.length ∧ ¬ bare
  | .unexpectedClose => position ≠ t.length ∧ ¬ bare

theorem Blames.exact {t : Text} {position : Nat} {bare : Prop} {fault : Fault} (blames : Blames t position bare fault)
    (other : Fault) : fault.description = other.description ↔ Blames t position bare other := by
  rw [description_inj]
  constructor
  · rintro rfl
    exact blames
  · intro again
    cases fault <;> cases other <;> simp_all [Blames]

theorem earliest_closing {t : Text} {earlier later : List Token.Placed} {offset : Nat} {reached : Reading} {fault : Fault}
    (split : Token.readPlaced t = earlier ++ ⟨offset, .closing⟩ :: later)
    (read : Reading.start.advanceAll (earlier.map Token.Placed.token) = .ok reached)
    (refused : reached.advance .closing = .error fault) : Earliest t offset fault.description := by
  have proper := Token.proper_of_lexes (Token.lexes_read t)
  rw [Token.read, split, List.map_append] at proper
  have fits := Reading.advanceAll_fits (fun token among => proper token (List.mem_append_left _ among)) read
  have bare : reached.elements = [] ↔ Bare (Token.spelledBefore offset t) := by
    rw [Token.spelledBefore_token split]
    exact fits.bare
  have among : ⟨offset, .closing⟩ ∈ Token.readPlaced t := by rw [split]; simp
  have inside : offset < t.length := (Token.readPlaced_grows t).2 _ among
  have blames : Blames t offset (Bare (Token.spelledBefore offset t)) fault := by
    rcases (Reading.advance_refused refused).2 with ⟨rfl, empty⟩ | ⟨rfl, filled⟩
    · exact bare.mp empty
    · exact ⟨Nat.ne_of_lt inside, fun none_ => filled (bare.mpr none_)⟩
  obtain ⟨front, onward⟩ := Token.read_closing split
  refine ⟨.inr among, parse?_completed (front ▸ read), fun _ more => ?_, blames.exact .emptyCommand, blames.exact .missingClose,
    blames.exact .unexpectedClose⟩
  rw [← Option.not_isSome_iff_eq_none, parse?_read, onward more, Reading.advanceAll_append, read]
  rintro ⟨last, nodes, whole, _⟩
  simp [Except.bind, Reading.advanceAll, refused] at whole

theorem earliest_end {t : Text} {reached : Reading} {fault : Fault}
    (read : Reading.start.advanceAll (Token.read t) = .ok reached) (refused : reached.finish = .error fault) :
    Earliest t t.length fault.description := by
  have fits := Reading.advanceAll_fits (Token.proper_of_lexes (Token.lexes_read t)) read
  have bare : reached.elements = [] ↔ Bare (Token.spelledBefore t.length t) := by
    rw [Token.spelledBefore_end]
    exact fits.bare
  have blames : Blames t t.length (Bare (Token.spelledBefore t.length t)) fault := by
    rcases Reading.finish_refused refused with ⟨rfl, empty⟩ | ⟨rfl, filled⟩
    · exact bare.mp empty
    · exact ⟨rfl, fun none_ => filled (bare.mpr none_)⟩
  refine ⟨.inl rfl, parse?_completed (by rwa [List.take_length]), fun past => absurd past (Nat.lt_irrefl _),
    blames.exact .emptyCommand, blames.exact .missingClose, blames.exact .unexpectedClose⟩

-- Whatever is refused is refused there, as a fault of the template at that offset.
theorem read_refused_earliest {t : Text} {failure : Failure} (refused : Template.read t = .error failure) :
    ∃ position message, failure = .parse ⟨message, some (position : Nat), some t⟩ ∧ Earliest t position message := by
  unfold Template.read at refused
  cases parsed : parse t with
  | ok nodes =>
    rw [parsed] at refused
    cases refused
  | error refusal =>
    rw [parsed] at refused
    cases refused
    refine ⟨refusal.position, refusal.fault.description, rfl, ?_⟩
    unfold parse at parsed
    rcases Reading.run_refused parsed with ⟨earlier, one, later, reached, split, place, read, fault⟩ | ⟨reached, place, read, fault⟩
    · obtain ⟨offset, token⟩ := one
      obtain ⟨closing, _⟩ := Reading.advance_refused fault
      cases closing
      rw [place]
      exact earliest_closing split read fault
    · rw [place]
      exact earliest_end read fault

-- A group that a quoted parenthesis does not close, with the quote open at the end.
theorem read_refused_unclosed :
    Template.read "(a && \"b)".toList =
        .error (.parse ⟨"Unexpected end of input, missing ')'".toList, some (9 : Nat), some "(a && \"b)".toList⟩) ∧
      ∃ position message,
        Failure.parse ⟨"Unexpected end of input, missing ')'".toList, some (9 : Nat), some "(a && \"b)".toList⟩ =
          .parse ⟨message, some (position : Nat), some "(a && \"b)".toList⟩ ∧
        Earliest "(a && \"b)".toList position message := by
  have refused : Template.read "(a && \"b)".toList =
      .error (.parse ⟨"Unexpected end of input, missing ')'".toList, some (9 : Nat), some "(a && \"b)".toList⟩) := by
    decide +kernel
  exact ⟨refused, read_refused_earliest refused⟩

end PortableActions.Template
