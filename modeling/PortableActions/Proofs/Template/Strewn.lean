import PortableActions.Proofs.Template.Wrapping
-- Where the words of a template stand, in it and in its plan. Text that holds no character of
-- the gaps lies inside one word, and what follows it lies in the same word or in a later one,
-- so it can be carried over from a plan that leaves the words alone.
namespace PortableActions.Template

namespace Token

def wordsOf : List Token → List Text
  | [] => []
  | .word w :: rest => w :: wordsOf rest
  | _ :: rest => wordsOf rest

theorem mem_wordsOf {ts : List Token} {w : Text} : w ∈ wordsOf ts ↔ .word w ∈ ts := by
  induction ts with
  | nil => simp [wordsOf]
  | cons token rest ih => cases token <;> simp [wordsOf, ih]

theorem wordsOf_append (ts us : List Token) : wordsOf (ts ++ us) = wordsOf ts ++ wordsOf us := by
  induction ts with
  | nil => rfl
  | cons token rest ih => cases token <;> simp [wordsOf, ih]

theorem wordsOf_words (ws : List Text) : wordsOf (ws.map .word) = ws := by
  induction ws with
  | nil => rfl
  | cons w rest ih => rw [List.map_cons, wordsOf, ih]

-- Behind a word of a text stand all its later words.
theorem lexes_place {t w : Text} {ts : List Token} {earlier later : List Text} (lexes : Lexes t ts)
    (split : wordsOf ts = earlier ++ w :: later) :
    ∃ after, w ++ after <:+ t ∧ ∀ v ∈ later, v ⊆ after := by
  induction lexes generalizing earlier with
  | nil => simp [wordsOf] at split
  | blank _ _ ih =>
    obtain ⟨after, inside, all⟩ := ih split
    exact ⟨after, inside.trans (List.suffix_cons _ _), all⟩
  | opening _ ih =>
    obtain ⟨after, inside, all⟩ := ih split
    exact ⟨after, inside.trans (List.suffix_cons _ _), all⟩
  | closing _ ih =>
    obtain ⟨after, inside, all⟩ := ih split
    exact ⟨after, inside.trans (List.suffix_cons _ _), all⟩
  | separator kind _ ih =>
    obtain ⟨after, inside, all⟩ := ih split
    exact ⟨after, inside.trans (List.suffix_append _ _), all⟩
  | @word first after ts _ _ _ lexes ih =>
    cases earlier with
    | nil =>
      obtain ⟨rfl, rfl⟩ := List.cons.inj split
      exact ⟨after, List.suffix_refl _, fun v among c inside => mem_of_word lexes (mem_wordsOf.mp among) inside⟩
    | cons _ earlier =>
      obtain ⟨_, rest⟩ := List.cons.inj split
      obtain ⟨behind, inside, all⟩ := ih rest
      exact ⟨behind, inside.trans (List.suffix_append _ _), all⟩

end Token

-- The characters of the gaps in a plan without sequences.
def isLoose (c : Char) : Bool := c = ' ' || c = '(' || c = ')' || c = '&' || c = '|'

-- A text shows words, each from some place on, in their order and with gaps behind them.
inductive Strewn : List Text → Text → Prop where
  | nil : Strewn [] []
  | loose {c : Char} {ws : List Text} {r : Text} (loose : isLoose c = true) : Strewn ws r → Strewn ws (c :: r)
  | word {w x after : Text} {ws : List Text} (shown : x <:+ w) (apart : ∀ c ∈ after.head?, isLoose c = true) :
      Strewn ws after → Strewn (w :: ws) (x ++ after)

theorem Boundary.loose {after : Text} (boundary : Boundary after) : ∀ c ∈ after.head?, isLoose c = true := by
  intro c first
  cases after with
  | nil => cases first
  | cons d rest =>
    cases first
    rcases boundary with rfl | rfl | rfl <;> rfl

-- A part without the characters of the gaps ends inside a word in front of a gap.
theorem solid_within {lead rest x after : Text} (solid : ∀ c ∈ lead, isLoose c = false)
    (apart : ∀ c ∈ after.head?, isLoose c = true) (same : lead ++ rest = x ++ after) : ∃ v, x = lead ++ v ∧ rest = v ++ after := by
  rcases List.append_eq_append_iff.mp same with ⟨v, whole, behind⟩ | ⟨v, whole, behind⟩
  · exact ⟨v, whole, behind⟩
  · cases v with
    | nil => exact ⟨[], by simpa using whole.symm, by simpa using behind.symm⟩
    | cons c v =>
      rw [behind] at apart
      have loose := apart c (by simp)
      rw [solid c (by simp [whole])] at loose
      cases loose

theorem Strewn.place {ws : List Text} {r lead rest : Text} (strewn : Strewn ws r) (filled : lead ≠ [])
    (solid : ∀ c ∈ lead, isLoose c = false) (inside : lead ++ rest <:+ r) :
    ∃ earlier w later u v after, ws = earlier ++ w :: later ∧ w = u ++ lead ++ v ∧ rest = v ++ after ∧
      Strewn later after := by
  induction strewn with
  | nil => simp [filled] at inside
  | @loose c ws r loose _ ih =>
    rcases List.suffix_cons_iff.mp inside with whole | later
    · cases lead with
      | nil => exact absurd rfl filled
      | cons d lead =>
        obtain ⟨rfl, _⟩ := List.cons.inj whole
        rw [solid d (by simp)] at loose
        cases loose
    · exact ih later
  | @word w x after ws shown apart strewn ih =>
    have cases_ : lead ++ rest <:+ after ∨ ∃ y, y <:+ x ∧ lead ++ rest = y ++ after := by
      obtain ⟨front, whole⟩ := inside
      rcases List.append_eq_append_iff.mp whole with ⟨y, left, right⟩ | ⟨y, left, right⟩
      · exact .inr ⟨y, ⟨front, left.symm⟩, right⟩
      · exact .inl ⟨y, right.symm⟩
    rcases cases_ with later | ⟨y, within, same⟩
    · obtain ⟨earlier, w', later, u, v, behind, split, found⟩ := ih later
      exact ⟨w :: earlier, w', later, u, v, behind, by rw [split, List.cons_append], found⟩
    · obtain ⟨v, rfl, behind⟩ := solid_within solid apart same
      obtain ⟨u, split⟩ := within.trans shown
      exact ⟨[], w, ws, u, v, after, rfl, by rw [← split, List.append_assoc], behind, strewn⟩

theorem Strewn.mem {ws : List Text} {t : Text} {c : Char} (strewn : Strewn ws t) (solid : isLoose c = false) (inside : c ∈ t) :
    ∃ w ∈ ws, c ∈ w := by
  induction strewn with
  | nil => cases inside
  | loose loose _ ih =>
    rcases List.mem_cons.mp inside with rfl | later
    · rw [solid] at loose
      cases loose
    · exact ih later
  | @word w x after ws shown _ _ ih =>
    rcases List.mem_append.mp inside with here | later
    · exact ⟨w, by simp, shown.subset here⟩
    · obtain ⟨v, among, found⟩ := ih later
      exact ⟨v, by simp [among], found⟩

-- Parts of such a text are parts of the template, with all that follows them but the gaps.
theorem Strewn.kept {t r lead rest : Text} {ts : List Token} (strewn : Strewn (Token.wordsOf ts) r) (lexes : Token.Lexes t ts)
    (filled : lead ≠ []) (solid : ∀ c ∈ lead, isLoose c = false) (inside : lead ++ rest <:+ r) :
    ∃ behind, lead ++ behind <:+ t ∧ ∀ c ∈ rest, isLoose c = false → c ∈ behind := by
  obtain ⟨earlier, _, later, u, v, after, split, rfl, rfl, shown⟩ := strewn.place filled solid inside
  obtain ⟨back, within, all⟩ := Token.lexes_place lexes split
  have whole : u ++ lead ++ v ++ back = u ++ (lead ++ (v ++ back)) := by simp
  rw [whole] at within
  refine ⟨v ++ back, (List.suffix_append u _).trans within, ?_⟩
  intro c among visible
  rcases List.mem_append.mp among with here | behind
  · exact List.mem_append_left _ here
  · obtain ⟨w, member, found⟩ := shown.mem visible behind
    exact List.mem_append_right _ (all w member found)

theorem strewn_unwords {ws xs us : List Text} {after : Text} (shown : List.Forall₂ (fun w x => x <:+ w) ws xs)
    (boundary : Boundary after) (later : Strewn us after) : Strewn (ws ++ us) (Text.unwords xs ++ after) := by
  induction shown with
  | nil => exact later
  | @cons w x ws xs first rest ih =>
    cases rest with
    | nil =>
      have whole : Text.unwords [x] = x := rfl
      rw [whole]
      exact .word first boundary.loose later
    | cons next more =>
      rw [Text.unwords_cons_append (by simp)]
      exact .word first (boundary_blank _).loose (.loose (by rfl) ih)

namespace Node

mutual
-- The commands of a tree, in order.
def commands : Node → List (Text × List Text)
  | command program args => [(program, args)]
  | separator _ => []
  | group body => commandsAll body

def commandsAll : List Node → List (Text × List Text)
  | [] => []
  | node :: rest => commands node ++ commandsAll rest
end

end Node

namespace Suggestion
open PortableActions.Template.Token (wordsOf wordsOf_append wordsOf_words)

-- The words of a command are shown as they are, but for a sign in front of the program.
def Stays (program : Text) (args : List Text) : Prop :=
  List.Forall₂ (fun w x => x <:+ w) (program :: args) (words program args)

mutual
theorem render_strewn : ∀ {node : Node} {after : Text} {us : List Text}, node.Canonical →
    (∀ command ∈ node.commands, Stays command.1 command.2) → .separator .sequence ∉ node.tokens →
    (node.isCommand = true → Boundary after) → Strewn us after → Strewn (wordsOf node.tokens ++ us) (render node ++ after)
  | .command program args, after, us, _, stays, _, boundary, later => by
    have tokens : wordsOf (Node.command program args).tokens = program :: args := wordsOf_words (program :: args)
    rw [tokens, render, command_words]
    exact strewn_unwords (stays (program, args) (by simp [Node.commands])) (boundary rfl) later
  | .separator kind, after, us, _, _, single, _, later => by
    cases kind with
    | sequence => exact absurd (by simp [Node.tokens]) single
    | and => exact .loose (by rfl) (.loose (by rfl) (.loose (by rfl) (.loose (by rfl) later)))
    | or => exact .loose (by rfl) (.loose (by rfl) (.loose (by rfl) (.loose (by rfl) later)))
  | .group body, after, us, ⟨_, canonical⟩, stays, single, _, later => by
    have split : render (.group body) ++ after = '(' :: (renderAll body ++ ')' :: after) := by simp [render]
    have tokens : wordsOf (Node.group body).tokens = wordsOf (Node.tokensAll body) := by
      simp [Node.tokens, wordsOf_append, wordsOf]
    have inner : .separator .sequence ∉ Node.tokensAll body := by simpa [Node.tokens] using single
    rw [split, tokens]
    exact .loose (by rfl) (renderAll_strewn canonical stays inner (Or.inr (.inr rfl)) (.loose (by rfl) later))

theorem renderAll_strewn : ∀ {nodes : List Node} {after : Text} {us : List Text}, Node.CanonicalAll nodes →
    (∀ command ∈ Node.commandsAll nodes, Stays command.1 command.2) → .separator .sequence ∉ Node.tokensAll nodes →
    Boundary after → Strewn us after → Strewn (wordsOf (Node.tokensAll nodes) ++ us) (renderAll nodes ++ after)
  | [], _, _, _, _, _, _, later => later
  | node :: rest, after, us, ⟨canonical, apart, others⟩, stays, single, boundary, later => by
    simp only [Node.commandsAll, List.forall_mem_append] at stays
    simp only [Node.tokensAll, List.mem_append, not_or] at single
    have behind := renderAll_strewn others stays.2 single.2 boundary later
    rw [Node.tokensAll, wordsOf_append, renderAll, List.append_assoc, List.append_assoc]
    exact render_strewn canonical stays.1 single.1 (fun command => renderAll_boundary command apart boundary) behind
end

end Suggestion
end PortableActions.Template
