import PortableActions.Proofs.Template.Acceptance
import PortableActions.Proofs.Template.Rewriting
-- Trees that are printed and read again. A tree comes back as it was exactly if it is in the
-- form that trees are read in and each of its words, printed among the others, stays that word.
namespace PortableActions.Template
open PortableActions.Template.Token

namespace Node

-- The tokens with more of the tree behind them. All but one of them, if the tree ends with a
-- command: the last word of that command.
def innerTokens : List Node → List Token
  | [] => []
  | [command program args] => ((program :: args).dropLast).map .word
  | node :: rest => node.tokens ++ innerTokens rest

theorem inner_dropLast {nodes : List Node} {w : Text} :
    .word w ∈ innerTokens nodes ↔ .word w ∈ (tokensAll nodes).dropLast := by
  induction nodes with
  | nil => rfl
  | cons node rest ih =>
    cases rest with
    | nil =>
      cases node with
      | command program args => simp [innerTokens, tokensAll, tokens, ← List.map_dropLast, ← List.map_cons]
      | separator kind => simp [innerTokens, tokensAll, tokens]
      | group body =>
        rw [tokensAll, tokensAll, List.append_nil, tokens, List.dropLast_concat]
        simp [innerTokens, tokens]
    | cons next more =>
      have some_ : tokensAll (next :: more) ≠ [] := by simp [tokensAll, tokens_ne_nil]
      rw [tokensAll, List.dropLast_append_of_ne_nil some_, innerTokens, List.mem_append, List.mem_append, ih]
      intro program args _ none_
      cases none_

end Node

-- A tree in the form that trees are read in, each of whose words is one word where it stands
-- alone, with every quote closed that would run on into the rest of the tree.
structure Printable (nodes : List Node) : Prop where
  filled : nodes ≠ []
  canonical : Node.CanonicalAll nodes
  single : ∀ w, .word w ∈ Node.tokensAll nodes → Token.spellings w = [w] ∧ w ∉ Token.operators
  closed : ∀ w, .word w ∈ Node.innerTokens nodes → quoteAtEnd none w = none

theorem single_iff {w : Text} : Token.spellings w = [w] ∧ w ∉ Token.operators ↔ w ≠ [] ∧ Solid none w := by
  constructor
  · rintro ⟨alone, plain⟩
    have proper : ∀ token ∈ [Token.word w], token.Proper := by
      intro token among
      rw [List.mem_singleton.mp among]
      exact plain
    have read : Token.read w = [.word w] := tokens_of_texts (proper_of_lexes (lexes_read w)) proper alone
    have readable := readable_of_lexes (lexes_read w)
    rw [read] at readable
    exact ⟨readable.1.1, readable.1.2.1⟩
  · rintro ⟨filled, solid⟩
    have lexes : Lexes (w ++ []) [.word w] := .word filled solid trivial .nil
    rw [List.append_nil] at lexes
    constructor
    · rw [Token.spellings, read_of_lexes lexes]
      rfl
    · exact proper_of_lexes lexes (.word w) (by simp)

theorem readable_iff {ts : List Token} : Readable ts ↔
    (∀ w, .word w ∈ ts → w ≠ [] ∧ Solid none w) ∧ ∀ w, .word w ∈ ts.dropLast → quoteAtEnd none w = none := by
  induction ts with
  | nil => simp [Readable]
  | cons token rest ih =>
    cases rest with
    | nil => cases token <;> simp [Readable]
    | cons next more =>
      cases token with
      | word v =>
        rw [Readable, ih, List.dropLast_cons_cons]
        constructor
        · rintro ⟨⟨filled, solid, closed⟩, each, later⟩
          refine ⟨?_, ?_⟩
          · intro w among
            rcases List.mem_cons.mp among with same | other
            · cases same
              exact ⟨filled, solid⟩
            · exact each w other
          · intro w among
            rcases List.mem_cons.mp among with same | other
            · cases same
              exact closed (List.cons_ne_nil _ _)
            · exact later w other
        · rintro ⟨each, closed⟩
          obtain ⟨filled, solid⟩ := each v List.mem_cons_self
          refine ⟨⟨filled, solid, fun _ => closed v List.mem_cons_self⟩, ?_, ?_⟩
          · exact fun w among => each w (List.mem_cons_of_mem _ among)
          · exact fun w among => closed w (List.mem_cons_of_mem _ among)
      | opening | closing | separator => simpa [Readable] using ih

theorem arranged_of_readable {ws : List Text} {us : List Token} (readable : Readable (ws.map .word ++ us))
    (more : after ≠ [] → us ≠ []) : Arranged after ws := by
  have kept : List.Forall₂ Suggestion.Kept ws ws := List.forall₂_same.mpr fun w _ solid => ⟨solid, rfl⟩
  exact arranged_of_kept kept readable more

mutual
-- A printed tree is read as its own tokens, whatever it is printed in front of.
theorem print_lexes : ∀ {node : Node} {after : Text} {us ts : List Token}, Readable (node.tokens ++ us) →
    (after ≠ [] → us ≠ []) → Boundary after → Lexes after ts → Lexes (node.print ++ after) (node.tokens ++ ts)
  | .command program args, after, us, ts, readable, more, boundary, later => by
    have words : Readable ((program :: args).map .word ++ us) := readable
    have filled : (program :: args).filter (· ≠ []) = program :: args := by
      rw [List.filter_eq_self]
      intro w among
      have named : .word w ∈ (program :: args).map Token.word ++ us :=
        List.mem_append_left _ (List.mem_map_of_mem among)
      exact decide_eq_true (readable_filled words named)
    have whole := lexes_unwords (arranged_of_readable words more) boundary later
    rw [filled] at whole
    exact whole
  | .separator kind, _, _, _, _, _, _, later => .separator kind later
  | .group body, after, us, ts, readable, _, _, later => by
    have inner : Readable (Node.tokensAll body ++ .closing :: us) := by
      simpa [Node.tokens, Readable] using readable
    have boundary : Boundary (')' :: after) := .inr (.inr rfl)
    have inside := printAll_lexes inner (by simp) boundary (.closing later)
    have whole : Lexes ('(' :: (Node.printAll body ++ ')' :: after)) _ := .opening inside
    simpa [Node.print, Node.tokens] using whole

theorem printAll_lexes : ∀ {nodes : List Node} {after : Text} {us ts : List Token}, Readable (Node.tokensAll nodes ++ us) →
    (after ≠ [] → us ≠ []) → Boundary after → Lexes after ts →
    Lexes (Node.printAll nodes ++ after) (Node.tokensAll nodes ++ ts)
  | [], _, _, _, _, _, _, later => later
  | [node], after, us, ts, readable, more, boundary, later => by
    rw [Node.tokensAll, Node.tokensAll, List.append_nil] at readable ⊢
    exact print_lexes readable more boundary later
  | node :: next :: rest, after, us, ts, readable, more, boundary, later => by
    rw [Node.tokensAll, List.append_assoc] at readable ⊢
    have behind := printAll_lexes (readable_back readable) more boundary later
    have spaced : Lexes (' ' :: (Node.printAll (next :: rest) ++ after)) _ := .blank Text.isBlank_space behind
    have split : Node.printAll (node :: next :: rest) ++ after =
        node.print ++ ' ' :: (Node.printAll (next :: rest) ++ after) := by simp [Node.printAll]
    rw [split]
    refine print_lexes readable ?_ (boundary_blank _) spaced
    simp [Node.tokensAll, Node.tokens_ne_nil]
end

theorem printable_of_readable {nodes : List Node} (filled : nodes ≠ []) (canonical : Node.CanonicalAll nodes)
    (readable : Readable (Node.tokensAll nodes)) : Printable nodes := by
  obtain ⟨each, closed⟩ := readable_iff.mp readable
  exact ⟨filled, canonical, fun w among => single_iff.mpr (each w among),
    fun w among => closed w (Node.inner_dropLast.mp among)⟩

theorem Printable.readable {nodes : List Node} (printable : Printable nodes) : Readable (Node.tokensAll nodes) := by
  refine readable_iff.mpr ⟨fun w among => single_iff.mp (printable.single w among), ?_⟩
  exact fun w among => printable.closed w (Node.inner_dropLast.mpr among)

theorem parse?_printable {template : Text} {nodes : List Node} (parsed : parse? template = some nodes) :
    Printable nodes := by
  obtain ⟨tokens, canonical, filled⟩ := parse?_exact.mp parsed
  exact printable_of_readable filled canonical (tokens ▸ readable_of_lexes (lexes_read template))

theorem Printable.reads {nodes : List Node} (printable : Printable nodes) :
    parse? (Node.printAll nodes) = some nodes := by
  have readable : Readable (Node.tokensAll nodes ++ []) := by simpa using printable.readable
  have boundary : Boundary [] := trivial
  have lexes := printAll_lexes readable (by simp) boundary .nil
  rw [List.append_nil, List.append_nil] at lexes
  exact parse?_exact.mpr ⟨read_of_lexes lexes, printable.canonical, printable.filled⟩

-- A tree survives being printed and read exactly if it is printable, and every tree that was
-- read from a template does.
theorem parse?_printAll :
    (∀ nodes, Printable nodes ↔ parse? (Node.printAll nodes) = some nodes) ∧
    ∀ template nodes, parse? template = some nodes → parse? (Node.printAll nodes) = some nodes := by
  constructor
  · intro nodes
    exact ⟨Printable.reads, parse?_printable⟩
  · intro template nodes parsed
    exact (parse?_printable parsed).reads

-- A group of words with lone signs, and a quote that is open at the end.
def quotedNodes : List Node :=
  [.group [.command "a&".toList ["|b".toList]], .separator .sequence, .command "say".toList ["'it (is".toList]]

theorem parse?_printAll_quoted :
    parse? "(a& |b);say 'it (is".toList = some quotedNodes ∧ Printable quotedNodes ∧
    parse? (Node.printAll quotedNodes) = some quotedNodes := by
  have parsed : parse? "(a& |b);say 'it (is".toList = some quotedNodes := by decide +kernel
  have again := parse?_printAll.2 _ _ parsed
  exact ⟨parsed, (parse?_printAll.1 _).mpr again, again⟩

end PortableActions.Template
