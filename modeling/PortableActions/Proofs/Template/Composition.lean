import PortableActions.Proofs.Template.Adjacency
import PortableActions.Runner
-- Templates that are put together from templates. The tree of the whole consists of the trees of
-- its parts, as long as a part that others follow closes its quotes.
namespace PortableActions.Template

namespace Token

theorem read_separated {t : Text} (closed : quoteAtEnd none t = none) (kind : Separator) (y : Text) :
    read (t ++ [' '] ++ kind.text ++ [' '] ++ y) = read t ++ .separator kind :: read y := by
  have behind : read (kind.text ++ ' ' :: y) = .separator kind :: read y := by
    apply read_of_lexes
    apply Lexes.separator
    exact .blank Text.isBlank_space (lexes_read y)
  have whole := read_break closed (kind.text ++ ' ' :: y)
  rw [behind] at whole
  simpa using whole

theorem read_enclosed {t : Text} (closed : quoteAtEnd none t = none) :
    read (['('] ++ t ++ [')']) = .opening :: (read t ++ [.closing]) := by
  have boundary : Boundary [')'] := .inr (.inr rfl)
  have inside := lexes_front (lexes_read t) closed boundary (.closing .nil)
  apply read_of_lexes
  exact .opening inside

-- One word that closes its quotes.
structure IsArgument (a : Text) : Prop where
  single : read a = [.word a]
  closed : quoteAtEnd none a = none

theorem read_arguments {args : List Text} (each : ∀ a ∈ args, IsArgument a) :
    read (Text.unwords args) = args.map .word := by
  induction args with
  | nil => exact read_nil
  | cons first rest ih =>
    obtain ⟨here, later⟩ := List.forall_mem_cons.mp each
    cases rest with
    | nil => exact here.single
    | cons next more =>
      rw [Text.unwords_cons (by simp), read_break here.closed, here.single, ih later]
      rfl

theorem read_appended {t : Text} {args : List Text} (closed : quoteAtEnd none t = none) (some_ : args ≠ [])
    (each : ∀ a ∈ args, IsArgument a) : read (appendArguments t args) = read t ++ args.map .word := by
  cases args with
  | nil => exact absurd rfl some_
  | cons first rest =>
    have split : appendArguments t (first :: rest) = t ++ ' ' :: Text.unwords (first :: rest) := by simp [appendArguments]
    rw [split, read_break closed, read_arguments each]

end Token

namespace Node

theorem canonicalAll_append {front back : List Node} : CanonicalAll (front ++ back) ↔
    CanonicalAll front ∧ CanonicalAll back ∧ ∀ left ∈ front.getLast?, ∀ right ∈ back.head?, Apart left right := by
  rw [canonicalAll_iff, canonicalAll_iff, canonicalAll_iff, List.forall_mem_append, List.isChain_append]
  constructor
  · intro whole
    exact ⟨⟨whole.1.1, whole.2.1⟩, ⟨whole.1.2, whole.2.2.1⟩, whole.2.2.2⟩
  · intro parts
    exact ⟨⟨parts.1.1, parts.2.1.1⟩, parts.1.2, parts.2.1.2, parts.2.2⟩

theorem canonicalAll_single {node : Node} : CanonicalAll [node] ↔ Canonical node := by
  simp [CanonicalAll]

-- A separator keeps any two sequences apart.
theorem canonicalAll_separated {front back : List Node} (one : CanonicalAll front) (two : CanonicalAll back)
    (kind : Separator) : CanonicalAll (front ++ .separator kind :: back) := by
  apply canonicalAll_append.mpr
  refine ⟨one, ⟨trivial, ?_, two⟩, ?_⟩
  · intro next _ both
    cases both.1
  · intro left _ right first
    cases first
    exact apart_of_other rfl

-- Words behind a sequence belong to the command at its end, or make a command of their own.
def addWords (nodes : List Node) (words : List Text) : List Node :=
  match nodes.getLast? with
  | some (.command program args) => nodes.dropLast ++ [.command program (args ++ words)]
  | _ => nodes ++ Suggestion.commandOf words

theorem addWords_ne_nil {nodes : List Node} (filled : nodes ≠ []) (words : List Text) : addWords nodes words ≠ [] := by
  unfold addWords
  split
  · simp
  · simp [filled]

theorem tokensAll_addWords (nodes : List Node) (words : List Text) :
    tokensAll (addWords nodes words) = tokensAll nodes ++ words.map .word := by
  unfold addWords
  split
  · rename_i program args last
    obtain ⟨front, rfl⟩ := List.getLast?_eq_some_iff.mp last
    simp [tokensAll_append, tokensAll, tokens]
  · rw [tokensAll_append, Suggestion.tokens_commandOf]

theorem canonicalAll_addWords {nodes : List Node} (canonical : CanonicalAll nodes) (words : List Text) :
    CanonicalAll (addWords nodes words) := by
  unfold addWords
  split
  · rename_i program args last
    obtain ⟨front, rfl⟩ := List.getLast?_eq_some_iff.mp last
    obtain ⟨before, _, apart⟩ := canonicalAll_append.mp canonical
    rw [List.dropLast_concat]
    apply canonicalAll_append.mpr
    refine ⟨before, canonicalAll_single.mpr trivial, ?_⟩
    intro left final right first
    cases first
    have known : Apart left (.command program args) := apart left final _ rfl
    exact known
  · rename_i other
    cases words with
    | nil => simpa [Suggestion.commandOf] using canonical
    | cons program args =>
      apply canonicalAll_append.mpr
      refine ⟨canonical, canonicalAll_single.mpr trivial, ?_⟩
      intro left final right _ both
      cases left with
      | command p as => exact other p as final
      | separator => cases both.1
      | group => cases both.1

end Node

-- In front of a separator, in a group, and in front of further arguments a template that closes
-- its quotes is read as it is on its own.
theorem parse?_composed {one : Text} {xs : List Node} (parsed : parse? one = some xs)
    (closed : Token.quoteAtEnd none one = none) :
    (∀ two ys kind, parse? two = some ys →
      parse? (one ++ [' '] ++ Separator.text kind ++ [' '] ++ two) = some (xs ++ .separator kind :: ys)) ∧
    parse? (['('] ++ one ++ [')']) = some [.group xs] ∧
    ∀ args, args ≠ [] → (∀ a ∈ args, Token.IsArgument a) →
      parse? (appendArguments one args) = some (Node.addWords xs args) := by
  obtain ⟨tokens, canonical, filled⟩ := parse?_exact.mp parsed
  refine ⟨?_, ?_, ?_⟩
  · intro two ys kind later
    obtain ⟨tokens', canonical', _⟩ := parse?_exact.mp later
    apply parse?_exact.mpr
    refine ⟨?_, Node.canonicalAll_separated canonical canonical' kind, by simp⟩
    rw [Token.read_separated closed, tokens, tokens', Node.tokensAll_append]
    rfl
  · apply parse?_exact.mpr
    refine ⟨?_, Node.canonicalAll_single.mpr ⟨filled, canonical⟩, by simp⟩
    rw [Token.read_enclosed closed, tokens]
    simp [Node.tokensAll, Node.tokens]
  · intro args some_ each
    apply parse?_exact.mpr
    refine ⟨?_, Node.canonicalAll_addWords canonical args, Node.addWords_ne_nil filled args⟩
    rw [Token.read_appended closed some_ each, tokens, Node.tokensAll_addWords]

-- A separator inside quotes, and a quote that stays open at the very end.
def checkNodes : List Node :=
  [.command "echo".toList ["'a;b'".toList], .separator .and, .command "lint".toList ["x".toList]]

theorem parse?_composed_quoted :
    parse? "echo 'a;b' && lint x".toList = some checkNodes ∧
      Token.quoteAtEnd none "echo 'a;b' && lint x".toList = none ∧
      parse? "(test) 'it".toList = some [.group [.command "test".toList []], .command "'it".toList []] ∧
      (∀ a ∈ ["-v".toList, "\"a b\"".toList], Token.IsArgument a) ∧
      parse? ("echo 'a;b' && lint x".toList ++ [' '] ++ Separator.text .or ++ [' '] ++ "(test) 'it".toList) =
        some (checkNodes ++ .separator .or :: [.group [.command "test".toList []], .command "'it".toList []]) ∧
      parse? (['('] ++ "echo 'a;b' && lint x".toList ++ [')']) = some [.group checkNodes] ∧
      parse? (appendArguments "echo 'a;b' && lint x".toList ["-v".toList, "\"a b\"".toList]) =
        some [.command "echo".toList ["'a;b'".toList], .separator .and,
          .command "lint".toList ["x".toList, "-v".toList, "\"a b\"".toList]] := by
  have parsed : parse? "echo 'a;b' && lint x".toList = some checkNodes := by decide +kernel
  have closed : Token.quoteAtEnd none "echo 'a;b' && lint x".toList = none := by decide
  have later : parse? "(test) 'it".toList = some [.group [.command "test".toList []], .command "'it".toList []] := by
    decide +kernel
  have flag : Token.IsArgument "-v".toList := ⟨by decide +kernel, by decide⟩
  have quoted : Token.IsArgument "\"a b\"".toList := ⟨by decide +kernel, by decide⟩
  have each : ∀ a ∈ ["-v".toList, "\"a b\"".toList], Token.IsArgument a := by
    intro a among
    cases among with
    | head => exact flag
    | tail _ rest =>
      cases rest with
      | head => exact quoted
      | tail _ none_ => cases none_
  obtain ⟨sequence, group, appended⟩ := parse?_composed parsed closed
  exact ⟨parsed, closed, later, each, sequence _ _ .or later, group, appended _ (by simp) each⟩

end PortableActions.Template
