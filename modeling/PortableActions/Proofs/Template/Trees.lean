import Mathlib.Data.List.Chain
import PortableActions.Proofs.Template.Lexing
import PortableActions.Template.Tree.Reader
-- Which trees are read from which tokens. A tree that can be read is canonical: no group is
-- empty and no two commands stand side by side. Every canonical tree is read from its own
-- tokens, and nothing else is read from them.
namespace PortableActions.Template

namespace Node

def isCommand : Node → Bool
  | command _ _ => true
  | _ => false

-- Two neighbours of a sequence are kept apart unless both are commands.
def Apart (left right : Node) : Prop := ¬ (left.isCommand = true ∧ right.isCommand = true)

mutual
def Canonical : Node → Prop
  | command _ _ => True
  | separator _ => True
  | group body => body ≠ [] ∧ CanonicalAll body

def CanonicalAll : List Node → Prop
  | [] => True
  | node :: rest => Canonical node ∧ (∀ next ∈ rest.head?, Apart node next) ∧ CanonicalAll rest
end

theorem Apart.symm (apart : Apart left right) : Apart right left := fun both => apart ⟨both.2, both.1⟩

theorem apart_of_other {left right : Node} (other : right.isCommand = false) : Apart left right := by
  intro both
  rw [both.2] at other
  cases other

theorem canonicalAll_iff {nodes : List Node} :
    CanonicalAll nodes ↔ (∀ node ∈ nodes, Canonical node) ∧ nodes.IsChain Apart := by
  induction nodes with
  | nil => simp [CanonicalAll]
  | cons node rest ih =>
    cases rest with
    | nil => simp [CanonicalAll]
    | cons next more =>
      rw [CanonicalAll, ih, List.isChain_cons_cons]
      simp only [List.mem_cons, List.head?_cons, Option.mem_def, Option.some.injEq, forall_eq',
        forall_eq_or_imp]
      constructor
      · rintro ⟨here, apart, ⟨first, each⟩, chain⟩
        exact ⟨⟨here, first, each⟩, apart, chain⟩
      · rintro ⟨⟨here, first, each⟩, apart, chain⟩
        exact ⟨here, apart, ⟨first, each⟩, chain⟩

theorem tokens_ne_nil (node : Node) : node.tokens ≠ [] := by
  cases node <;> simp [tokens]

theorem tokensAll_append (one two : List Node) : tokensAll (one ++ two) = tokensAll one ++ tokensAll two := by
  induction one with
  | nil => rfl
  | cons node rest ih => simp [tokensAll, ih]

end Node

namespace Reading

def advanceAll (s : Reading) : List Token → Except Fault Reading
  | [] => .ok s
  | token :: rest =>
    match s.advance token with
    | .ok next => next.advanceAll rest
    | .error fault => .error fault

theorem run_tokens (s : Reading) (length : Nat) (placed : List Token.Placed) :
    (s.run length placed).toOption =
      ((s.advanceAll (placed.map Token.Placed.token)).toOption.bind fun last => last.finish.toOption) := by
  induction placed generalizing s with
  | nil => cases done : s.finish <;> simp [run, advanceAll, Except.mapError, Except.toOption, done]
  | cons first rest ih =>
    cases step : s.advance first.token with
    | error fault => simp [run, advanceAll, step, Except.toOption]
    | ok next => simp [run, advanceAll, step, ih]

-- The tokens read so far, outermost group first.
def tokens (s : Reading) : List Token :=
  (s.outer.reverse.flatMap fun around => Node.tokensAll around.reverse ++ [.opening]) ++
    Node.tokensAll s.elements.reverse

theorem elements_word (s : Reading) (text : Text) :
    Node.tokensAll (elements { s with words := text :: s.words }).reverse =
      Node.tokensAll s.elements.reverse ++ [.word text] := by
  cases pending : s.words.reverse with
  | nil =>
    simp [elements, pending, Node.tokensAll_append, Node.tokensAll, Node.tokens]
  | cons program args =>
    simp [elements, pending, Node.tokensAll_append, Node.tokensAll, Node.tokens]

theorem step_tokens (step : Step s token next) : next.tokens = s.tokens ++ [token] := by
  cases step with
  | word text =>
    have grown := elements_word s text
    simp only [tokens, List.append_assoc]
    rw [← grown]
  | separator kind =>
    simp [tokens, elements, Node.tokensAll_append, Node.tokensAll, Node.tokens]
  | opening => simp [tokens, elements, Node.tokensAll]
  | @closing around outer filled nested =>
    simp [tokens, elements, nested, Node.tokensAll_append, Node.tokensAll, Node.tokens]

-- Everything finished is canonical, and no finished sequence that can still grow by a
-- command ends in one.
structure Sound (s : Reading) : Prop where
  done : Node.CanonicalAll s.done.reverse
  ready : ∀ last ∈ s.done.head?, last.isCommand = false
  outer : ∀ around ∈ s.outer, Node.CanonicalAll around.reverse

theorem canonicalAll_push {done : List Node} {node : Node} (old : Node.CanonicalAll done.reverse)
    (new : Node.Canonical node) (apart : ∀ last ∈ done.head?, Node.Apart last node) :
    Node.CanonicalAll (node :: done).reverse := by
  rw [Node.canonicalAll_iff] at old ⊢
  refine ⟨?_, ?_⟩
  · intro n member
    rcases List.mem_cons.mp (List.mem_reverse.mp member) with rfl | inside
    · exact new
    · exact old.1 n (List.mem_reverse.mpr inside)
  · rw [List.reverse_cons, List.isChain_append]
    refine ⟨old.2, .singleton _, ?_⟩
    intro last atEnd next first
    simp only [List.head?_cons, Option.mem_def, Option.some.injEq] at first
    rw [← first]
    exact apart last (by simpa using atEnd)

theorem Sound.elements (sound : Sound s) : Node.CanonicalAll s.elements.reverse := by
  unfold Reading.elements
  split
  · exact sound.done
  · exact canonicalAll_push sound.done trivial fun last first =>
      (Node.apart_of_other (sound.ready last first)).symm

theorem step_sound (sound : Sound s) (step : Step s token next) : Sound next := by
  cases step with
  | word text => exact ⟨sound.done, sound.ready, sound.outer⟩
  | separator kind =>
    refine ⟨canonicalAll_push sound.elements trivial fun _ _ => Node.apart_of_other rfl, ?_, sound.outer⟩
    intro last first
    cases first
    rfl
  | opening =>
    refine ⟨trivial, by simp, ?_⟩
    intro around member
    rcases List.mem_cons.mp member with rfl | old
    · exact sound.elements
    · exact sound.outer around old
  | @closing around outer filled nested =>
    have body : Node.Canonical (.group s.elements.reverse) := ⟨by simpa using filled, sound.elements⟩
    have before := sound.outer around (by simp [nested])
    refine ⟨canonicalAll_push before body fun _ _ => Node.apart_of_other rfl, ?_, ?_⟩
    · intro last first
      cases first
      rfl
    · intro other member
      exact sound.outer other (by simp [nested, member])

theorem advanceAll_sound (sound : Sound s) (read : s.advanceAll ts = .ok last) :
    Sound last ∧ last.tokens = s.tokens ++ ts := by
  induction ts generalizing s with
  | nil => cases read; exact ⟨sound, by simp⟩
  | cons token rest ih =>
    simp only [advanceAll] at read
    cases advanced : s.advance token with
    | error fault => simp [advanced] at read
    | ok next =>
      have step := advance_sound advanced
      obtain ⟨kept, grown⟩ := ih (step_sound sound step) (by simpa [advanced] using read)
      exact ⟨kept, by rw [grown, step_tokens step, List.append_assoc, List.singleton_append]⟩

-- The state once a whole node has been read; a command is still pending.
def add (s : Reading) : Node → Reading
  | .command program args => { s with words := (program :: args).reverse }
  | node => ⟨node :: s.elements, [], s.outer⟩

def addAll (s : Reading) (nodes : List Node) : Reading := nodes.foldl add s

-- A pending command stands in the way of a command only.
def Open (s : Reading) (node : Node) : Prop := node.isCommand = true → s.words = []

theorem add_outer (s : Reading) (node : Node) : (s.add node).outer = s.outer := by
  cases node <;> rfl

theorem addAll_outer (s : Reading) (nodes : List Node) : (s.addAll nodes).outer = s.outer := by
  induction nodes generalizing s with
  | nil => rfl
  | cons node rest ih => exact (ih (s.add node)).trans (add_outer s node)

theorem add_open {s : Reading} {node next : Node} (apart : Node.Apart node next) : (s.add node).Open next := by
  intro command
  cases node with
  | command program args => exact absurd ⟨rfl, command⟩ apart
  | separator | group => rfl

theorem add_elements {s : Reading} {node : Node} (free : s.Open node) :
    (s.add node).elements = node :: s.elements := by
  cases node with
  | command program args =>
    have empty : s.words = [] := free rfl
    simp [add, elements, empty]
  | separator | group => rfl

theorem addAll_elements {s : Reading} {nodes : List Node} (canonical : Node.CanonicalAll nodes)
    (free : ∀ node ∈ nodes.head?, s.Open node) : (s.addAll nodes).elements = nodes.reverse ++ s.elements := by
  induction nodes generalizing s with
  | nil => rfl
  | cons node rest ih =>
    obtain ⟨_, apart, later⟩ := canonical
    have whole := ih (s := s.add node) later fun next first => add_open (apart next first)
    simp only [addAll, List.foldl_cons] at whole ⊢
    rw [whole, add_elements (free node (by simp))]
    simp

theorem advanceAll_words (s : Reading) (texts : List Text) (ts : List Token) :
    s.advanceAll (texts.map .word ++ ts) = advanceAll ⟨s.done, texts.reverse ++ s.words, s.outer⟩ ts := by
  induction texts generalizing s with
  | nil => rfl
  | cons text rest ih =>
    simp only [List.map_cons, List.cons_append, advanceAll, advance, ih]
    simp

mutual
-- Reading the tokens of a canonical node adds that node.
theorem advanceAll_node {s : Reading} : ∀ {node : Node}, Node.Canonical node → s.Open node → ∀ ts,
    s.advanceAll (node.tokens ++ ts) = (s.add node).advanceAll ts
  | .command program args, _, free, ts => by
    have empty : s.words = [] := free rfl
    have read := advanceAll_words s (program :: args) ts
    rw [empty, List.append_nil] at read
    exact read
  | .separator _, _, _, _ => rfl
  | .group body, ⟨filled, inside⟩, _, ts => by
    have fresh : ∀ node ∈ body.head?, Reading.Open ⟨[], [], s.elements :: s.outer⟩ node := fun _ _ _ => rfl
    have read := advanceAll_nodes inside fresh (.closing :: ts)
    have whole := addAll_elements inside fresh
    have around := addAll_outer ⟨[], [], s.elements :: s.outer⟩ body
    have empty : elements ⟨[], [], s.elements :: s.outer⟩ = [] := rfl
    simp only [empty, List.append_nil] at whole
    have closed : (addAll ⟨[], [], s.elements :: s.outer⟩ body).advance .closing = .ok (s.add (.group body)) := by
      simp [advance, whole, around, filled, add]
    have opened : s.advanceAll (.opening :: (Node.tokensAll body ++ .closing :: ts)) =
        advanceAll ⟨[], [], s.elements :: s.outer⟩ (Node.tokensAll body ++ .closing :: ts) := rfl
    simp only [Node.tokens, List.append_assoc, List.cons_append, List.nil_append]
    rw [opened, read, advanceAll, closed]

theorem advanceAll_nodes {s : Reading} : ∀ {nodes : List Node}, Node.CanonicalAll nodes →
    (∀ node ∈ nodes.head?, s.Open node) → ∀ ts, s.advanceAll (Node.tokensAll nodes ++ ts) = (s.addAll nodes).advanceAll ts
  | [], _, _, _ => rfl
  | node :: rest, ⟨here, apart, later⟩, free, ts => by
    rw [Node.tokensAll, List.append_assoc, advanceAll_node here (free node (by simp)),
      advanceAll_nodes later fun next first => add_open (apart next first)]
    rfl
end

theorem finish_exact {s : Reading} {nodes : List Node} :
    s.finish.toOption = some nodes ↔ s.elements ≠ [] ∧ s.outer = [] ∧ nodes = s.elements.reverse := by
  unfold finish
  cases filled : s.elements with
  | nil => simp [Except.toOption]
  | cons node rest =>
    cases nested : s.outer with
    | nil => simp [Except.toOption, eq_comm]
    | cons around outer => simp [Except.toOption]

theorem advanceAll_append (s : Reading) (one two : List Token) :
    s.advanceAll (one ++ two) = (s.advanceAll one).bind fun next => next.advanceAll two := by
  induction one generalizing s with
  | nil => rfl
  | cons token rest ih =>
    cases step : s.advance token with
    | error fault => simp [advanceAll, step, Except.bind]
    | ok next => simp [advanceAll, step, ih]

-- Tokens that no state gets past.
def Refused (ts : List Token) : Prop := ∀ s : Reading, (s.advanceAll ts).toOption = none

theorem Refused.before (refused : Refused ts) (more : List Token) : Refused (ts ++ more) := by
  intro s
  have stopped := refused s
  rw [advanceAll_append]
  cases read : s.advanceAll ts with
  | error fault => rfl
  | ok next => simp [read, Except.toOption] at stopped

theorem Refused.after (refused : Refused ts) (front : List Token) : Refused (front ++ ts) := by
  intro s
  rw [advanceAll_append]
  cases s.advanceAll front with
  | error fault => rfl
  | ok next => exact refused next

theorem refused_empty : Refused [.opening, .closing] := fun _ => rfl

end Reading

-- A template is read as a tree exactly when it has the tokens of that tree, and the tree
-- is one that can be read at all.
theorem parse?_exact {template : Text} {nodes : List Node} :
    parse? template = some nodes ↔
      Token.read template = Node.tokensAll nodes ∧ Node.CanonicalAll nodes ∧ nodes ≠ [] := by
  rw [parse?, parse, Reading.run_tokens, ← Token.read]
  constructor
  · intro read
    cases reached : Reading.start.advanceAll (Token.read template) with
    | error fault => simp [reached, Except.toOption] at read
    | ok last =>
      have sound : Reading.Sound .start := ⟨trivial, by simp [Reading.start], by simp [Reading.start]⟩
      obtain ⟨kept, grown⟩ := Reading.advanceAll_sound sound reached
      rw [reached] at read
      obtain ⟨filled, nested, rfl⟩ := Reading.finish_exact.mp read
      refine ⟨?_, kept.elements, by simpa using filled⟩
      simpa [Reading.tokens, nested, Reading.start, Reading.elements, Node.tokensAll] using grown.symm
  · rintro ⟨tokens, canonical, filled⟩
    have read := Reading.advanceAll_nodes (s := .start) canonical (fun _ _ _ => rfl) []
    have whole := Reading.addAll_elements (s := .start) canonical fun _ _ _ => rfl
    have around := Reading.addAll_outer .start nodes
    have empty : Reading.start.elements = [] := rfl
    rw [empty, List.append_nil] at whole
    rw [List.append_nil] at read
    rw [tokens, read]
    exact Reading.finish_exact.mpr ⟨by simpa [whole] using filled, around, by simp [whole]⟩

theorem parse?_refused {template : Text} (refused : Reading.Refused (Token.read template)) : parse? template = none := by
  rw [parse?, parse, Reading.run_tokens, ← Token.read, refused]
  rfl

end PortableActions.Template
