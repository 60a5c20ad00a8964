import PortableActions.Proofs.Template.Mentions
import PortableActions.Proofs.Template.Replanning
-- Which plans mention the classpath: those of templates that mention it, and those in which
-- a brace that planning puts behind a path completes the marker.
namespace PortableActions.Template

-- No marker reaches into a text that starts like this.
def Outside (after : Text) : Prop := ∀ c ∈ after.head?, c ∉ Marker.deps

-- No marker reaches from one text into the other.
def Parted (before after : Text) : Prop := (∀ c ∈ before.getLast?, c ∉ Marker.deps) ∨ Outside after

theorem Token.Ends.outside {quote : Option Char} {after : Text} (ends : Token.Ends quote after) : Outside after := by
  intro c first
  cases after with
  | nil => cases first
  | cons d rest => cases first; exact Clean.endsWord_outside ends.2

theorem Boundary.outside {after : Text} (boundary : Boundary after) : Outside after := by
  intro c first
  cases after with
  | nil => cases first
  | cons d rest =>
    cases first
    rcases boundary with rfl | rfl | rfl <;> decide

namespace Suggestion

theorem deps_parted {a b : Text} (parted : Parted a b) : Marker.deps <:+: a ++ b ↔ Marker.deps <:+: a ∨ Marker.deps <:+: b := by
  rcases parted with last | first
  · rcases List.eq_nil_or_concat a with rfl | ⟨front, c, rfl⟩
    · simp [Marker.deps]
    · have split : c ∉ Marker.deps := last c (by simp)
      have other : c ≠ '}' := by rintro rfl; exact split (by decide)
      rw [List.concat_eq_append, List.append_assoc, List.singleton_append, deps_around split, deps_snoc other]
  · cases b with
    | nil => simp [Marker.deps]
    | cons c r =>
      have split := first c rfl
      have other : c ≠ '{' := by rintro rfl; exact split (by decide)
      rw [deps_around split, deps_cons other]

-- A text mentions the classpath in its words.
theorem deps_tokens {t : Text} {ts : List Token} (lexes : Token.Lexes t ts) :
    Marker.deps <:+: t ↔ ∃ w, .word w ∈ ts ∧ Marker.deps <:+: w := by
  have passed : ∀ {c : Char} {r : Text}, c ∉ Marker.deps → (Marker.deps <:+: c :: r ↔ Marker.deps <:+: r) :=
    fun split => deps_cons fun same => split (same ▸ by decide)
  induction lexes with
  | nil => simp [Marker.deps]
  | blank blank _ ih => exact (passed (Clean.blank_outside blank)).trans ih
  | opening _ ih => simpa using (passed (by decide)).trans ih
  | closing _ ih => simpa using (passed (by decide)).trans ih
  | separator kind _ ih =>
    have front : ∀ r, Marker.deps <:+: kind.text ++ r ↔ Marker.deps <:+: r := by
      intro r
      cases kind with
      | sequence => exact passed (by decide)
      | and => exact (passed (by decide)).trans (passed (by decide))
      | or => exact (passed (by decide)).trans (passed (by decide))
    simpa using (front _).trans ih
  | word _ _ ends _ ih => simp [deps_parted (.inr ends.outside), ih]

theorem deps_words (program : Text) (args : List Text) :
    (∃ x ∈ words program args, Marker.deps <:+: x) ↔ ∃ w ∈ program :: args, Marker.deps <:+: word w := by
  have signed : ∀ bare, Marker.deps <:+: '@' :: bare ↔ Marker.deps <:+: bare := fun bare => deps_cons (by decide)
  rcases words_cases program args with ⟨bare, led, shown⟩ | ⟨_, shown⟩
  · simp [shown, led, signed, deps_wrapArgument]
  · rw [shown]
    split <;> simp [deps_wrapArgument]

theorem render_parted {node : Node} {rest : List Node} (apart : ∀ next ∈ rest.head?, Node.Apart node next) :
    Parted (render node) (renderAll rest) := by
  cases node with
  | command program args =>
    have boundary : Boundary (renderAll rest ++ []) := renderAll_boundary (by rfl) apart trivial
    rw [List.append_nil] at boundary
    exact .inr boundary.outside
  | separator kind =>
    refine .inl fun c last => ?_
    have blank : c = ' ' := by cases kind <;> (cases last; rfl)
    rw [blank]
    decide
  | group body =>
    refine .inl fun c last => ?_
    rw [render, List.getLast?_concat] at last
    cases last
    decide

mutual
theorem deps_render : ∀ {node : Node}, node.Canonical →
    (Marker.deps <:+: render node ↔ ∃ w, .word w ∈ node.tokens ∧ Marker.deps <:+: word w)
  | .command program args, _ => by
    rw [render, command_words, Text.unwords, Text.infix_join (by decide) (by decide), deps_words]
    simp [Node.tokens]
  | .separator kind, _ => by
    have silent : ¬ Marker.deps <:+: render (.separator kind) := by cases kind <;> decide
    simp [silent, Node.tokens]
  | .group body, ⟨_, canonical⟩ => by
    rw [render, List.singleton_append, List.cons_append, deps_cons (by decide), deps_snoc (by decide),
      deps_renderAll canonical]
    simp [Node.tokens]

theorem deps_renderAll : ∀ {nodes : List Node}, Node.CanonicalAll nodes →
    (Marker.deps <:+: renderAll nodes ↔ ∃ w, .word w ∈ Node.tokensAll nodes ∧ Marker.deps <:+: word w)
  | [], _ => by simp [renderAll, Node.tokensAll, Marker.deps]
  | node :: rest, ⟨canonical, apart, others⟩ => by
    rw [renderAll, deps_parted (render_parted apart), deps_render canonical, deps_renderAll others, Node.tokensAll]
    simp [or_and_right, exists_or]
end

-- A template that is planned, and that has a word in which planning completes a marker.
def CompletesMarker (template : Text) : Prop :=
  Marker.isUsedIn template = false ∧ (parse? template).isSome ∧ ∃ w, .word w ∈ Token.read template ∧ Completed w

theorem completedWord_any {ts : List Token} : (∃ w, .word w ∈ ts ∧ Completed w) ↔
    ts.any (fun | .word w => decide (Completed w) | _ => false) = true := by
  rw [List.any_eq_true]
  constructor
  · rintro ⟨w, among, completed⟩
    exact ⟨_, among, decide_eq_true completed⟩
  · rintro ⟨token, among, found⟩
    cases token with
    | word w => exact ⟨w, among, of_decide_eq_true found⟩
    | opening | closing | separator => cases found

instance (template : Text) : Decidable (CompletesMarker template) :=
  have : Decidable (∃ w, .word w ∈ Token.read template ∧ Completed w) := decidable_of_iff _ completedWord_any.symm
  inferInstanceAs (Decidable (_ ∧ _ ∧ _))

theorem deps_plan (template : Text) :
    Marker.deps <:+: plan template ↔ Marker.deps <:+: template ∨ CompletesMarker template := by
  cases marked : Marker.isUsedIn template with
  | true => simp [plan_marked marked, CompletesMarker, marked]
  | false =>
    cases parsed : parse? template with
    | none => simp [plan_unread parsed, CompletesMarker, parsed]
    | some nodes =>
      obtain ⟨tokens, canonical, _⟩ := parse?_exact.mp parsed
      rw [plan_parsed marked parsed, deps_renderAll canonical, deps_tokens (Token.lexes_read template), tokens]
      simp [deps_word, CompletesMarker, marked, parsed, tokens, and_or_left, exists_or]

end Suggestion
end PortableActions.Template
