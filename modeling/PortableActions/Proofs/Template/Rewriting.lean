import PortableActions.Proofs.Template.Detection
import PortableActions.Proofs.Template.Trees
import PortableActions.Proofs.Template.Words
-- Reading back what planning has written. As long as no marker shows, the words that were
-- written are the words that are read, and the tree is the old one with its commands
-- rewritten; a command of which nothing is left is gone.
namespace PortableActions.Template
open PortableActions.Template.Token

-- Every word is filled and solid, and closes its quotes unless it comes last.
def Readable : List Token → Prop
  | [] => True
  | .word w :: rest => (w ≠ [] ∧ Solid none w ∧ (rest ≠ [] → quoteAtEnd none w = none)) ∧ Readable rest
  | _ :: rest => Readable rest

theorem readable_of_lexes (lexes : Lexes t ts) : Readable ts := by
  induction lexes with
  | nil => trivial
  | blank _ _ ih => exact ih
  | opening _ ih => exact ih
  | closing _ ih => exact ih
  | separator _ _ ih => exact ih
  | @word w after ts filled solid ends later ih =>
    refine ⟨⟨filled, solid_of_unbroken solid, ?_⟩, ih⟩
    intro more
    cases after with
    | nil => exact absurd ((read_of_lexes later).symm.trans read_nil) more
    | cons c rest => exact ends.1

theorem readable_back {front back : List Token} (readable : Readable (front ++ back)) : Readable back := by
  induction front with
  | nil => exact readable
  | cons token rest ih =>
    cases token with
    | word w => exact ih readable.2
    | opening | closing | separator => exact ih readable

theorem readable_filled {ts : List Token} {w : Text} (readable : Readable ts) (among : .word w ∈ ts) : w ≠ [] := by
  obtain ⟨front, back, rfl⟩ := List.append_of_mem among
  exact (readable_back readable).1.1

-- What stands behind a command in a text that was written.
def Boundary : Text → Prop
  | [] => True
  | c :: _ => c = ' ' ∨ c = '(' ∨ c = ')'

theorem boundary_blank (after : Text) : Boundary (' ' :: after) := Or.inl rfl

theorem Boundary.follows (boundary : Boundary after) : Follows after := by
  intro c first
  cases after with
  | nil => cases first
  | cons d rest =>
    cases first
    rcases boundary with rfl | rfl | rfl <;> decide

theorem Boundary.ends (boundary : Boundary after) (closed : after ≠ [] → quote = none) : Ends quote after := by
  cases after with
  | nil => trivial
  | cons c rest =>
    refine ⟨closed (by simp), ?_⟩
    rcases boundary with rfl | rfl | rfl <;> rfl

theorem lexes_word (filled : w ≠ []) (solid : Solid none w) (closed : after ≠ [] → quoteAtEnd none w = none)
    (boundary : Boundary after) (later : Lexes after ts) : Lexes (w ++ after) (.word w :: ts) :=
  .word filled (unbroken_of_solid solid boundary.follows) (boundary.ends closed) later

-- Words that can be written side by side in front of a text.
def Arranged (after : Text) : List Text → Prop
  | [] => True
  | w :: rest => (Solid none w ∧ (rest ≠ [] ∨ after ≠ [] → quoteAtEnd none w = none)) ∧ Arranged after rest

theorem lexes_unwords {ws : List Text} (arranged : Arranged after ws) (boundary : Boundary after) (later : Lexes after ts) :
    Lexes (Text.unwords ws ++ after) ((ws.filter (· ≠ [])).map .word ++ ts) := by
  induction ws with
  | nil => exact later
  | cons w rest ih =>
    obtain ⟨⟨solid, closed⟩, others⟩ := arranged
    cases rest with
    | nil =>
      by_cases filled : w = []
      · simpa [Text.unwords, Text.join, filled] using later
      · simpa [Text.unwords, Text.join, filled] using lexes_word filled solid (fun more => closed (.inr more)) boundary later
    | cons next more =>
      have spaced : Lexes (' ' :: (Text.unwords (next :: more) ++ after)) _ := .blank Text.isBlank_space (ih others)
      have split : Text.unwords (w :: next :: more) ++ after = w ++ ' ' :: (Text.unwords (next :: more) ++ after) := by
        simp [Text.unwords, Text.join]
      rw [split]
      by_cases filled : w = []
      · simpa [filled] using spaced
      · have whole := lexes_word filled solid (fun _ => closed (.inl (by simp))) (boundary_blank _) spaced
        simpa [filled] using whole

theorem arranged_of_kept {ws xs : List Text} {us : List Token} (kept : List.Forall₂ Suggestion.Kept ws xs)
    (readable : Readable (ws.map .word ++ us)) (more : after ≠ [] → us ≠ []) : Arranged after xs := by
  induction kept with
  | nil => trivial
  | cons first rest ih =>
    obtain ⟨⟨_, solid, closed⟩, others⟩ := readable
    obtain ⟨shown, same⟩ := first solid
    refine ⟨⟨shown, fun further => same.trans (closed ?_)⟩, ih others⟩
    rcases further with next | behind
    · cases rest with
      | nil => exact absurd rfl next
      | cons => simp
    · simp [more behind]

namespace Suggestion

def commandOf : List Text → List Node
  | [] => []
  | program :: args => [.command program args]

mutual
def rewrite : Node → List Node
  | .command program args => commandOf ((words program args).filter (· ≠ []))
  | .separator kind => [.separator kind]
  | .group body => [.group (rewriteAll body)]

def rewriteAll : List Node → List Node
  | [] => []
  | node :: rest => rewrite node ++ rewriteAll rest
end

theorem tokens_commandOf (ws : List Text) : Node.tokensAll (commandOf ws) = ws.map .word := by
  cases ws <;> simp [commandOf, Node.tokensAll, Node.tokens]

theorem renderAll_boundary {node : Node} {rest : List Node} (command : node.isCommand = true)
    (apart : ∀ next ∈ rest.head?, Node.Apart node next) (boundary : Boundary after) :
    Boundary (renderAll rest ++ after) := by
  cases rest with
  | nil => exact boundary
  | cons next more =>
    cases next with
    | command program args => exact absurd ⟨command, rfl⟩ (apart _ rfl)
    | separator kind => cases kind <;> exact .inl rfl
    | group body => exact Or.inr (.inl rfl)

mutual
theorem render_lexes : ∀ {node : Node} {after : Text} {us ts : List Token}, node.Canonical →
    Readable (node.tokens ++ us) → ¬ Marker.commandSeparator <:+: render node ++ after → (after ≠ [] → us ≠ []) →
    (node.isCommand = true → Boundary after) → Lexes after ts →
    Lexes (render node ++ after) (Node.tokensAll (rewrite node) ++ ts)
  | .command program args, after, us, ts, _, readable, _, more, boundary, later => by
    have arranged : Arranged after (words program args) := arranged_of_kept (words_kept program args) readable more
    have whole := lexes_unwords arranged (boundary rfl) later
    rw [render, command_words, rewrite, tokens_commandOf]
    exact whole
  | .separator kind, after, us, ts, _, _, quiet, _, _, later => by
    cases kind with
    | sequence => exact absurd ⟨[' '], ' ' :: after, by simp [render, separator, Marker.commandSeparator]⟩ quiet
    | and => exact .blank Text.isBlank_space (.separator .and (.blank Text.isBlank_space later))
    | or => exact .blank Text.isBlank_space (.separator .or (.blank Text.isBlank_space later))
  | .group body, after, us, ts, ⟨_, canonical⟩, readable, quiet, more, _, later => by
    have split : render (.group body) ++ after = '(' :: (renderAll body ++ ')' :: after) := by simp [render]
    have shown : Node.tokensAll (rewrite (.group body)) ++ ts =
        .opening :: (Node.tokensAll (rewriteAll body) ++ .closing :: ts) := by
      simp [rewrite, Node.tokensAll, Node.tokens]
    have inner : Readable (Node.tokensAll body ++ .closing :: us) := by
      simpa [Node.tokens, Readable] using readable
    rw [split] at quiet ⊢
    rw [shown]
    refine .opening (renderAll_lexes canonical inner ?_ (by simp) (Or.inr (.inr rfl)) (.closing later))
    exact fun inside => quiet (inside.trans (List.suffix_cons _ _).isInfix)

theorem renderAll_lexes : ∀ {nodes : List Node} {after : Text} {us ts : List Token}, Node.CanonicalAll nodes →
    Readable (Node.tokensAll nodes ++ us) → ¬ Marker.commandSeparator <:+: renderAll nodes ++ after →
    (after ≠ [] → us ≠ []) → Boundary after → Lexes after ts →
    Lexes (renderAll nodes ++ after) (Node.tokensAll (rewriteAll nodes) ++ ts)
  | [], _, _, _, _, _, _, _, _, later => later
  | node :: rest, after, us, ts, ⟨canonical, apart, others⟩, readable, quiet, more, boundary, later => by
    rw [renderAll, List.append_assoc] at quiet ⊢
    rw [Node.tokensAll, List.append_assoc] at readable
    rw [rewriteAll, Node.tokensAll_append, List.append_assoc]
    have behind := renderAll_lexes others (readable_back readable)
      (fun inside => quiet (inside.trans (List.suffix_append _ _).isInfix)) more boundary later
    refine render_lexes canonical readable quiet ?_ (fun command => renderAll_boundary command apart boundary) behind
    intro further
    cases rest with
    | nil => simpa [Node.tokensAll] using more (by simpa [renderAll] using further)
    | cons next tail => cases next <;> simp [Node.tokensAll, Node.tokens]
end

-- A lone sign is a command of which nothing is left. A group that held nothing else is
-- written empty, and an empty group cannot be read.

mutual
def Hollow : Node → Prop
  | .command _ _ => False
  | .separator _ => False
  | .group body => body = [.command ['@'] []] ∨ HollowAll body

def HollowAll : List Node → Prop
  | [] => False
  | node :: rest => Hollow node ∨ HollowAll rest
end

theorem rewrite_lone : rewrite (.command ['@'] []) = [] := by decide

theorem lone_of_rewrite {program : Text} {args : List Text} (filled : ∀ w ∈ program :: args, w ≠ [])
    (gone : rewrite (.command program args) = []) : program = ['@'] ∧ args = [] := by
  obtain ⟨named, each⟩ := List.forall_mem_cons.mp filled
  obtain ⟨q, bs, shown, sized, visible⟩ := words_filled program each
  have blank : ∀ w ∈ q :: bs, w = [] := by
    cases left : (words program args).filter (· ≠ []) with
    | nil => simpa [shown] using left
    | cons first rest =>
      rw [rewrite, left] at gone
      cases gone
  have none_ : bs = [] := by
    cases bs with
    | nil => rfl
    | cons b rest => exact absurd (blank b (by simp)) (visible b (by simp))
  refine ⟨?_, List.length_eq_zero_iff.mp (by rw [← sized, none_]; rfl)⟩
  have empty : q = [] := blank q (by simp)
  rcases words_cases program args with ⟨rest, led, same⟩ | ⟨_, same⟩
  · have nothing : rest = [] := (List.cons.inj (same.symm.trans shown)).1.trans empty
    rw [nothing] at led
    by_cases plain : word program = program
    · rw [← plain, led]
    · have brace := word_braced plain
      rw [led] at brace
      simp at brace
  · have nothing : word program = [] := (List.cons.inj (same.symm.trans shown)).1.trans empty
    exact absurd nothing (word_ne_nil named)

theorem rewrite_other {node : Node} (other : node.isCommand = false) :
    ∃ next, rewrite node = [next] ∧ next.isCommand = false := by
  cases node with
  | command => cases other
  | separator kind => exact ⟨_, by rw [rewrite], rfl⟩
  | group body => exact ⟨_, by rw [rewrite], rfl⟩

theorem rewriteAll_head {node : Node} {rest : List Node} (other : node.isCommand = false) :
    ∀ next ∈ (rewriteAll (node :: rest)).head?, next.isCommand = false := by
  obtain ⟨next, shown, kept⟩ := rewrite_other other
  intro first among
  rw [rewriteAll, shown] at among
  cases among
  exact kept

-- Every word of the nodes is filled.
def Named (nodes : List Node) : Prop := ∀ w, .word w ∈ Node.tokensAll nodes → w ≠ []

theorem named_cons {node : Node} {rest : List Node} (named : Named (node :: rest)) : Named [node] ∧ Named rest := by
  constructor
  · intro w among
    exact named w (by simp only [Node.tokensAll, List.append_nil, List.mem_append] at among ⊢; exact .inl among)
  · intro w among
    exact named w (List.mem_append_right _ among)

theorem named_body {body : List Node} (named : Named [.group body]) : Named body := by
  intro w among
  exact named w (by simp [Node.tokensAll, Node.tokens, among])

theorem lone_of_rewriteAll {nodes : List Node} (canonical : Node.CanonicalAll nodes) (named : Named nodes)
    (filled : nodes ≠ []) (gone : rewriteAll nodes = []) : nodes = [.command ['@'] []] := by
  cases nodes with
  | nil => exact absurd rfl filled
  | cons node rest =>
    obtain ⟨here, later⟩ := List.append_eq_nil_iff.mp (by rwa [rewriteAll] at gone)
    cases node with
    | separator kind => cases here
    | group body => cases here
    | command program args =>
      have words : ∀ w ∈ program :: args, w ≠ [] := fun w among =>
        named w (List.mem_append_left _ (List.mem_map.mpr ⟨w, among, rfl⟩))
      obtain ⟨rfl, rfl⟩ := lone_of_rewrite words here
      cases rest with
      | nil => rfl
      | cons next more =>
        -- What stands beside a command is no command, and does not vanish.
        have other : next.isCommand = false := by
          cases kind : next.isCommand with
          | false => rfl
          | true => exact absurd ⟨rfl, kind⟩ (canonical.2.1 next rfl)
        obtain ⟨_, shown, _⟩ := rewrite_other other
        rw [rewriteAll, shown] at later
        cases later

theorem canonicalAll_append {one two : List Node} (first : Node.CanonicalAll one) (second : Node.CanonicalAll two)
    (apart : ∀ last ∈ one.getLast?, ∀ next ∈ two.head?, Node.Apart last next) : Node.CanonicalAll (one ++ two) := by
  rw [Node.canonicalAll_iff] at first second ⊢
  refine ⟨?_, List.isChain_append.mpr ⟨first.2, second.2, apart⟩⟩
  intro node among
  rcases List.mem_append.mp among with left | right
  · exact first.1 node left
  · exact second.1 node right

theorem rewrite_apart {node : Node} {rest : List Node} (apart : ∀ next ∈ rest.head?, Node.Apart node next) :
    ∀ last ∈ (rewrite node).getLast?, ∀ next ∈ (rewriteAll rest).head?, Node.Apart last next := by
  intro last among next first
  cases command : node.isCommand with
  | false =>
    obtain ⟨only, shown, kept⟩ := rewrite_other command
    rw [shown] at among
    cases among
    exact (Node.apart_of_other kept).symm
  | true =>
    cases rest with
    | nil => cases first
    | cons neighbour more =>
      have other : neighbour.isCommand = false := by
        cases kind : neighbour.isCommand with
        | false => rfl
        | true => exact absurd ⟨command, kind⟩ (apart neighbour rfl)
      exact Node.apart_of_other (rewriteAll_head other next first)

mutual
theorem rewrite_canonical : ∀ {node : Node}, node.Canonical → Named [node] → ¬ Hollow node →
    Node.CanonicalAll (rewrite node)
  | .command program args, _, _, _ => by
    rw [rewrite]
    cases (words program args).filter (· ≠ []) with
    | nil => trivial
    | cons q bs => exact ⟨trivial, by simp, trivial⟩
  | .separator _, _, _, _ => ⟨trivial, by simp, trivial⟩
  | .group body, ⟨filled, inside⟩, named, solid => by
    obtain ⟨some_, full⟩ := not_or.mp (by rwa [Hollow] at solid)
    have inner := named_body named
    have body_ : Node.Canonical (.group (rewriteAll body)) :=
      ⟨fun gone => some_ (lone_of_rewriteAll inside inner filled gone), rewriteAll_canonical inside inner full⟩
    exact ⟨body_, by simp, trivial⟩

theorem rewriteAll_canonical : ∀ {nodes : List Node}, Node.CanonicalAll nodes → Named nodes → ¬ HollowAll nodes →
    Node.CanonicalAll (rewriteAll nodes)
  | [], _, _, _ => trivial
  | node :: rest, ⟨canonical, apart, others⟩, named, solid => by
    obtain ⟨here, later⟩ := not_or.mp (by rwa [HollowAll] at solid)
    obtain ⟨first, more⟩ := named_cons named
    exact canonicalAll_append (rewrite_canonical canonical first here) (rewriteAll_canonical others more later)
      (rewrite_apart apart)
end

mutual
theorem rewrite_refused : ∀ {node : Node}, Hollow node → Reading.Refused (Node.tokensAll (rewrite node))
  | .group body, hollow => by
    rcases (by rwa [Hollow] at hollow : body = [.command ['@'] []] ∨ HollowAll body) with rfl | inside
    · rw [rewrite, rewriteAll, rewriteAll, rewrite_lone]
      exact Reading.refused_empty
    · have inner := (rewriteAll_refused inside).before [.closing]
      simpa [rewrite, Node.tokensAll, Node.tokens] using inner.after [.opening]

theorem rewriteAll_refused : ∀ {nodes : List Node}, HollowAll nodes → Reading.Refused (Node.tokensAll (rewriteAll nodes))
  | node :: rest, hollow => by
    rw [rewriteAll, Node.tokensAll_append]
    rcases (by rwa [HollowAll] at hollow : Hollow node ∨ HollowAll rest) with here | later
    · exact (rewrite_refused here).before _
    · exact (rewriteAll_refused later).after _
end

-- Reading a plan that shows no marker.
theorem read_rendered {template : Text} {nodes : List Node} (parsed : parse? template = some nodes)
    (unused : Marker.isUsedIn (renderAll nodes) = false) :
    Token.read (renderAll nodes) = Node.tokensAll (rewriteAll nodes) := by
  obtain ⟨tokens, canonical, _⟩ := parse?_exact.mp parsed
  have readable : Readable (Node.tokensAll nodes) := readable_of_lexes (tokens ▸ Token.lexes_read template)
  have quiet : ¬ Marker.commandSeparator <:+: renderAll nodes := fun inside =>
    Bool.eq_false_iff.mp unused (Marker.isUsedIn_of_separator inside)
  have lexes := @renderAll_lexes nodes [] [] [] canonical (by simpa using readable) (by simpa using quiet)
    (by simp) trivial .nil
  simpa using Token.read_of_lexes lexes

theorem parse?_rendered {template : Text} {nodes read : List Node} (parsed : parse? template = some nodes)
    (unused : Marker.isUsedIn (renderAll nodes) = false) :
    parse? (renderAll nodes) = some read ↔ ¬ HollowAll nodes ∧ nodes ≠ [.command ['@'] []] ∧ read = rewriteAll nodes := by
  have tokens := read_rendered parsed unused
  obtain ⟨source, canonical, filled⟩ := parse?_exact.mp parsed
  have named : Named nodes := fun w among =>
    readable_filled (readable_of_lexes (Token.lexes_read template)) (source ▸ among)
  by_cases hollow : HollowAll nodes
  · have none_ : parse? (renderAll nodes) = none := parse?_refused (tokens ▸ rewriteAll_refused hollow)
    simp [none_, hollow]
  · have written := rewriteAll_canonical canonical named hollow
    by_cases lone : nodes = [.command ['@'] []]
    · have nothing : rewriteAll nodes = [] := by rw [lone, rewriteAll, rewriteAll, rewrite_lone]; rfl
      have none_ : parse? (renderAll nodes) ≠ some read := fun seen => by
        obtain ⟨same, _, some_⟩ := parse?_exact.mp seen
        cases read with
        | nil => exact some_ rfl
        | cons node rest =>
          rw [tokens, nothing, Node.tokensAll, Node.tokensAll] at same
          exact Node.tokens_ne_nil node (List.append_eq_nil_iff.mp same.symm).1
      exact ⟨fun seen => absurd seen none_, fun parts => absurd lone parts.2.1⟩
    · have whole : parse? (renderAll nodes) = some (rewriteAll nodes) :=
        parse?_exact.mpr ⟨tokens, written, fun gone => lone (lone_of_rewriteAll canonical named filled gone)⟩
      simp [whole, hollow, lone, eq_comm]

end Suggestion
end PortableActions.Template
