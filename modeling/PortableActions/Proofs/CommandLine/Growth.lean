import Mathlib.Algebra.GroupWithZero.Nat
import PortableActions.Proofs.CommandLine.WordGrowth
-- How much longer planning makes a POSIX command line: besides what it does to the words, it
-- puts blanks around every separator. Args constructs are paid back as braces are.
namespace PortableActions.Template.Suggestion

-- Whether the arguments of a program go into args constructs if they mention the classpath.
def wraps (program : Text) : Bool := (word program).head? = some '@' || takesArgsFiles (word program)

def escapes (wrapped : Bool) (argument : Text) : Nat := if wrapped && mentionsDeps argument then argument.count ']' else 0

mutual
def growth : Node → Nat
  | .command program args =>
    2 * rootings program + (args.map fun b => 2 * rootings b + 2 * escapes (wraps program) b).sum
  | .separator _ => 2
  | .group body => growthAll body

def growthAll : List Node → Nat
  | [] => 0
  | node :: rest => growth node + growthAll rest
end

theorem words_written (program : Text) (args : List Text) :
    ∃ q, words program args = q :: args.map (CommandLine.written (wraps program)) ∧
      (q = word program ∨ word program = '@' :: q) := by
  rcases words_cases program args with ⟨bare, led, shown⟩ | ⟨unled, shown⟩
  · refine ⟨bare, ?_, .inr led⟩
    have wrapped : wraps program = true := by simp [wraps, led]
    simp [shown, CommandLine.written, wrapped]
  · refine ⟨word program, ?_, .inl rfl⟩
    have wrapped : wraps program = takesArgsFiles (word program) := by simp [wraps, unled]
    rw [shown, wrapped]
    cases takesArgsFiles (word program) <;> simp [CommandLine.written]

end PortableActions.Template.Suggestion

namespace PortableActions.CommandLine
open PortableActions.Template
open PortableActions.Template.Suggestion (word Completed rootings wraps escapes growth growthAll)

-- What a text costs in the end, if the stages also take the constructs in it.
def Priced (price : Nat) (t : Text) : Prop :=
  ∃ j k, Braces Inner j t ∧ Constructs k t ∧ weight t ≤ price + 2 * j + 3 * k

theorem Paid.priced (paid : Paid n t) : Priced n t := by
  obtain ⟨j, braces, most⟩ := paid
  exact ⟨j, 0, braces, .none_ t, by omega⟩

theorem Priced.mono (priced : Priced m t) (more : m ≤ n) : Priced n t := by
  obtain ⟨j, k, braces, constructs, most⟩ := priced
  exact ⟨j, k, braces, constructs, by omega⟩

theorem Priced.append (boundary : Boundary b) (one : Priced m a) (two : Priced n b) : Priced (m + n) (a ++ b) := by
  obtain ⟨i, k, braces, constructs, most⟩ := one
  obtain ⟨j, l, bracesLater, constructsLater, mostLater⟩ := two
  have lasting : ∀ _ r : Text, Boundary r → Boundary (r ++ b) := by
    intro _ r here
    cases r with
    | nil => exact boundary
    | cons c rest => exact here
  refine ⟨i + j, k + l, braces.append (fun _ _ inner => inner) bracesLater, constructs.append lasting constructsLater, ?_⟩
  rw [weight_append]
  omega

theorem Priced.char {c : Char} (quiet : c ≠ Marker.standIn) (priced : Priced n t) : Priced (n + 1) (c :: t) := by
  obtain ⟨j, k, braces, constructs, most⟩ := priced
  refine ⟨j, k, .char c braces, .char c constructs, ?_⟩
  have single : weight [c] = 1 := by simp [weight, quiet]
  rw [weight_cons, single]
  omega

-- The words of a command.

theorem priced_wrapped (joined : Text) {b : Text} (mentions : Suggestion.mentionsDeps b = true) (paid : Paid n (filled joined b)) :
    Priced (n + 2 * b.count ']') (filled joined (Suggestion.wrapArgument b)) := by
  have shown : filled joined (Suggestion.wrapArgument b) = '@' :: '[' :: (filled joined (source true b) ++ [']']) := by
    rw [wrapArgument_mentions mentions, filled_char joined _ (by decide), filled_char joined _ (by decide),
      filled_snoc joined (by decide)]
  obtain ⟨j, braces, most⟩ := paid.escaped (filled_source joined b)
  have construct : Constructs 1 ('@' :: (['['] ++ (filled joined (source true b) ++ ']' :: []))) := .part trivial .nil
  refine ⟨j, 1, ?_, shown ▸ construct, ?_⟩
  · rw [shown]
    exact .char _ (.char _ (braces.append (fun _ _ inner => inner) (.none_ [']'])))
  · rw [shown, weight_cons, weight_cons '[', weight_append]
    simp only [weight, List.length_singleton, List.count_singleton, Marker.standIn] at most ⊢
    simp at most ⊢
    omega

theorem priced_argument (joined : Text) (wrapped : Bool) {b : Text} (open_ : ¬ Completed b) :
    Priced (weight (filled joined b) + (2 * rootings b + 2 * escapes wrapped b)) (filled joined (written wrapped b)) := by
  have paid := paid_word joined open_
  have rooted := weight_rooted joined b
  by_cases wrap : (wrapped && Suggestion.mentionsDeps b) = true
  · obtain ⟨rfl, mentions⟩ := Bool.and_eq_true_iff.mp wrap
    have shown := Suggestion.mentions_open open_
    have counted := Suggestion.count_word (c := ']') (by decide) b
    rw [written, if_pos rfl, escapes, if_pos wrap]
    refine (priced_wrapped joined (shown.trans mentions) paid).mono ?_
    omega
  · have plain : written wrapped b = word b := by
      cases wrapped with
      | false => rfl
      | true =>
        have silent : Suggestion.mentionsDeps b = false := by simpa using wrap
        simp [written, Suggestion.wrapArgument, Suggestion.mentions_open open_, silent]
    rw [plain, escapes, if_neg wrap]
    refine paid.priced.mono ?_
    omega

theorem priced_program (joined : Text) {program q : Text} (open_ : ¬ Completed program)
    (named : q = word program ∨ word program = '@' :: q) :
    Priced (weight (filled joined program) + 2 * rootings program) (filled joined q) := by
  have paid := paid_word joined open_
  have rooted := weight_rooted joined program
  rcases named with rfl | led
  · exact paid.priced.mono (by omega)
  · rw [led, filled_char joined _ (by decide)] at paid
    obtain ⟨j, braces, most⟩ := paid
    rw [weight_cons] at most
    have cheaper : Paid (weight (filled joined program) + 2 * rootings program) (filled joined q) :=
      ⟨j, braces.tail (by decide), by omega⟩
    exact cheaper.priced

-- What the tokens of a template cost at least: between two words there is a blank.
def gap : List Token → Nat
  | .word _ :: _ => 1
  | _ => 0

def sizes (joined : Text) : List Token → Nat
  | [] => 0
  | .word w :: ts => weight (filled joined w) + gap ts + sizes joined ts
  | token :: ts => token.text.length + sizes joined ts

-- Words with what planning adds to each.
theorem priced_words (joined : Text) {ws : List (Text × Nat)} {xs : List Text} {us : List Token} {after : Text}
    (each : List.Forall₂ (fun w x => Priced (weight (filled joined w.1) + w.2) (filled joined x)) ws xs)
    (boundary : Boundary after) (later : Priced (sizes joined us + n) (filled joined after)) :
    Priced (sizes joined ((ws.map Prod.fst).map .word ++ us) + (ws.map Prod.snd).sum + n)
      (filled joined (Text.unwords xs ++ after)) := by
  induction each with
  | nil => simpa [Text.unwords, Text.join] using later
  | @cons w x ws xs first rest ih =>
    cases rest with
    | nil =>
      have whole := first.append (boundary_filled joined boundary) later
      rw [← filled_parted joined (.inr boundary.outside)] at whole
      refine Priced.mono whole ?_
      simp only [List.map_cons, List.map_nil, List.singleton_append, sizes, List.sum_cons, List.sum_nil]
      omega
    | @cons w' x' ws xs second rest =>
      have split : Text.unwords (x :: x' :: xs) ++ after = x ++ ' ' :: (Text.unwords (x' :: xs) ++ after) := by
        simp [Text.unwords, Text.join]
      rw [split, filled_split joined (by decide)]
      refine Priced.mono (first.append (boundary_blank _) (ih.char (by decide))) ?_
      simp only [List.map_cons, List.cons_append, sizes, gap, List.sum_cons]
      omega

theorem priced_command (joined : Text) {program : Text} {args : List Text} {us : List Token} {after : Text}
    (open_ : ∀ w ∈ program :: args, ¬ Completed w) (boundary : Boundary after)
    (later : Priced (sizes joined us + n) (filled joined after)) :
    Priced (sizes joined ((Node.command program args).tokens ++ us) + growth (.command program args) + n)
      (filled joined (Suggestion.render (.command program args) ++ after)) := by
  obtain ⟨q, shown, named⟩ := Suggestion.words_written program args
  obtain ⟨openProgram, openArgs⟩ := List.forall_mem_cons.mp open_
  let costs := args.map fun b => (b, 2 * rootings b + 2 * escapes (wraps program) b)
  have each : List.Forall₂ (fun w x => Priced (weight (filled joined w.1) + w.2) (filled joined x))
      ((program, 2 * rootings program) :: costs) (q :: args.map (written (wraps program))) := by
    refine .cons (priced_program joined openProgram named) ?_
    rw [List.forall₂_map_left_iff, List.forall₂_map_right_iff]
    exact List.forall₂_same.mpr fun b among => priced_argument joined (wraps program) (openArgs b among)
  have whole := priced_words joined each boundary later
  rw [Suggestion.render, Suggestion.command_words, shown]
  simpa [costs, growth, Node.tokens, Function.comp_def, List.map_map] using whole

-- What planning puts around the commands.

theorem priced_separator (joined : Text) {us : List Token} {after : Text} (kind : Separator)
    (later : Priced (sizes joined us + n) (filled joined after)) :
    Priced (sizes joined ((Node.separator kind).tokens ++ us) + 2 + n)
      (filled joined (Suggestion.render (.separator kind) ++ after)) := by
  have blank : Priced (sizes joined us + n + 1) (' ' :: filled joined after) := later.char (by decide)
  obtain ⟨shown, spaced, marker⟩ : ∃ shown, Suggestion.separator kind = ' ' :: (shown ++ [' ']) ∧
      Priced kind.text.length (filled joined shown) := by
    cases kind with
    | sequence => exact ⟨Marker.commandSeparator, rfl, (Paid.single (by simp) (by decide)).priced⟩
    | and => exact ⟨['&', '&'], rfl, (Paid.plain ['&', '&']).priced⟩
    | or => exact ⟨['|', '|'], rfl, (Paid.plain ['|', '|']).priced⟩
  have whole : filled joined (Suggestion.render (.separator kind) ++ after) =
      ' ' :: (filled joined shown ++ ' ' :: filled joined after) := by
    have split : Suggestion.render (.separator kind) ++ after = ' ' :: (shown ++ ' ' :: after) := by
      simp [Suggestion.render, spaced]
    rw [split, filled_char joined _ (by decide), filled_split joined (by decide)]
  have cost : sizes joined ((Node.separator kind).tokens ++ us) = kind.text.length + sizes joined us := rfl
  rw [whole, cost]
  exact ((marker.append (boundary_blank _) blank).char (by decide)).mono (by omega)

mutual
theorem priced_node (joined : Text) : ∀ {node : Node} {us : List Token} {after : Text} {n : Nat}, node.Canonical →
    (∀ w, .word w ∈ node.tokens → ¬ Completed w) → (node.isCommand = true → Boundary after) →
    Priced (sizes joined us + n) (filled joined after) →
    Priced (sizes joined (node.tokens ++ us) + growth node + n) (filled joined (Suggestion.render node ++ after))
  | .command program args, us, after, n, _, open_, boundary, later =>
    priced_command joined (fun w among => open_ w (by simpa [Node.tokens] using among)) (boundary rfl) later
  | .separator kind, us, after, n, _, _, _, later => priced_separator joined kind later
  | .group body, us, after, n, ⟨_, canonical⟩, open_, _, later => by
    have closing : Priced (sizes joined (.closing :: us) + n) (filled joined (')' :: after)) := by
      rw [filled_char joined _ (by decide)]
      exact (later.char (by decide)).mono (by simp only [sizes, Token.text, List.length_singleton]; omega)
    have bounded : Boundary (')' :: after) := Or.inr (.inr rfl)
    have inner := priced_nodes joined canonical (fun w among => open_ w (by simp [Node.tokens, among])) bounded closing
    have split : Suggestion.render (.group body) ++ after = '(' :: (Suggestion.renderAll body ++ ')' :: after) := by
      simp [Suggestion.render]
    have shown : (Node.group body).tokens ++ us = .opening :: (Node.tokensAll body ++ .closing :: us) := by
      simp [Node.tokens]
    rw [split, shown, filled_char joined _ (by decide)]
    exact (inner.char (by decide)).mono (by simp only [sizes, growth, Token.text, List.length_singleton]; omega)

theorem priced_nodes (joined : Text) : ∀ {nodes : List Node} {us : List Token} {after : Text} {n : Nat}, Node.CanonicalAll nodes →
    (∀ w, .word w ∈ Node.tokensAll nodes → ¬ Completed w) → Boundary after →
    Priced (sizes joined us + n) (filled joined after) →
    Priced (sizes joined (Node.tokensAll nodes ++ us) + growthAll nodes + n) (filled joined (Suggestion.renderAll nodes ++ after))
  | [], us, after, n, _, _, _, later => by simpa [Node.tokensAll, growthAll, Suggestion.renderAll] using later
  | node :: rest, us, after, n, ⟨canonical, apart, others⟩, open_, boundary, later => by
    have behind := priced_nodes joined others (fun w among => open_ w (List.mem_append_right _ among)) boundary later
    rw [Nat.add_assoc] at behind
    have whole := priced_node joined canonical (fun w among => open_ w (List.mem_append_left _ among))
      (fun command => Suggestion.renderAll_boundary command apart boundary) behind
    rw [Node.tokensAll, Suggestion.renderAll, List.append_assoc, List.append_assoc]
    exact whole.mono (by simp [growthAll]; omega)
end

-- The template itself is no shorter than its tokens.

theorem blank_between {quote : Option Char} {after w : Text} {ts : List Token} (ends : Token.Ends quote after)
    (lexes : Token.Lexes after (.word w :: ts)) : ∃ c r, after = c :: r ∧ Text.isBlank c = true := by
  cases lexes with
  | @blank c r _ blank _ => exact ⟨c, r, rfl, blank⟩
  | @word _ behind _ filled solid _ _ =>
    obtain ⟨c, r, rfl⟩ := List.exists_cons_of_ne_nil filled
    obtain ⟨_, stops⟩ := ends
    simp only [Token.unbroken, Bool.and_eq_true, Bool.not_eq_true'] at solid
    exact absurd (solid.1.symm.trans stops) (by decide)

theorem sizes_le (joined : Text) {t : Text} {ts : List Token} (lexes : Token.Lexes t ts) :
    sizes joined ts ≤ weight (filled joined t) ∧
      ∀ c ∈ t.head?, Text.isBlank c = true → sizes joined ts + 1 ≤ weight (filled joined t) := by
  have front : ∀ {c : Char} {r : Text}, c ≠ '{' → weight (filled joined r) + 1 ≤ weight (filled joined (c :: r)) := by
    intro c r other
    have single := weight_pos c
    rw [filled_char joined r other, weight_cons]
    omega
  induction lexes with
  | nil => exact ⟨Nat.zero_le _, by simp⟩
  | @blank c r ts blank _ ih =>
    have least := front (r := r) fun same : c = '{' => by rw [same] at blank; cases blank
    exact ⟨by omega, fun _ _ _ => by omega⟩
  | @opening r ts _ ih =>
    have least := front (c := '(') (r := r) (by decide)
    refine ⟨by simp only [sizes, Token.text, List.length_singleton]; omega, ?_⟩
    rintro _ ⟨⟩ ⟨⟩
  | @closing r ts _ ih =>
    have least := front (c := ')') (r := r) (by decide)
    refine ⟨by simp only [sizes, Token.text, List.length_singleton]; omega, ?_⟩
    rintro _ ⟨⟩ ⟨⟩
  | @separator r ts kind _ ih =>
    have least : weight (filled joined r) + kind.text.length ≤ weight (filled joined (kind.text ++ r)) := by
      cases kind with
      | sequence => exact front (by decide)
      | and | or => exact (Nat.add_le_add_right (front (by decide)) 1).trans (front (by decide))
    have solid : ∀ c ∈ (kind.text ++ r).head?, Text.isBlank c = false := by cases kind <;> (rintro _ ⟨⟩; rfl)
    refine ⟨by simp only [sizes, Token.text]; omega, fun c first blank => ?_⟩
    rw [solid c first] at blank
    cases blank
  | @word w after ts filled_ solid ends later ih =>
    rw [filled_parted joined (.inr ends.outside), weight_append]
    constructor
    · cases ts with
      | nil => simp only [sizes, gap]; omega
      | cons token ts =>
        cases token with
        | word w' =>
          -- Two words in a row are joined by a blank, and one stood between them.
          obtain ⟨c, r, rfl, blank⟩ := blank_between ends later
          have spaced := ih.2 c rfl blank
          simp only [sizes, gap] at spaced ⊢
          omega
        | opening | closing | separator =>
          have least := ih.1
          simp only [sizes, gap] at least ⊢
          omega
    · -- A word does not start with a blank.
      obtain ⟨c, r, rfl⟩ := List.exists_cons_of_ne_nil filled_
      rintro _ ⟨⟩ blank
      simp [Token.unbroken, Token.endsWord, blank] at solid

theorem planned_length (joined : Text) {template : Text} {nodes : List Node} (parsed : parse? template = some nodes)
    (open_ : ¬ Suggestion.CompletesMarker template) (bare : Marker.holdsConstruct (filled joined template) = false) :
    (ArgsConstruct.inline (settleAll (placed joined (Suggestion.plan template)))).length ≤
      (ArgsConstruct.inline (settleAll (placed joined template))).length + growthAll nodes := by
  cases marked : Marker.isUsedIn template with
  | true => rw [Suggestion.plan_marked marked]; omega
  | false =>
    obtain ⟨tokens, canonical, _⟩ := parse?_exact.mp parsed
    have whole : ∀ w, .word w ∈ Node.tokensAll nodes → ¬ Completed w := fun w among completed =>
      open_ ⟨marked, by simp [parsed], w, tokens ▸ among, completed⟩
    have start : Priced (sizes joined [] + 0) (filled joined []) := (Paid.plain []).priced
    have bounded : Boundary [] := trivial
    have priced := priced_nodes joined canonical whole bounded start
    rw [List.append_nil, List.append_nil, ← tokens] at priced
    obtain ⟨j, k, braces, constructs, most⟩ := priced
    have least := (sizes_le joined (Token.lexes_read template)).1
    have bound := stages_bound braces constructs
    rw [Suggestion.plan_parsed marked parsed, placed, placed, stages_exact bare]
    omega

end PortableActions.CommandLine
