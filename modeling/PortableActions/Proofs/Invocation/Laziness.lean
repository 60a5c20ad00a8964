import PortableActions.Proofs.CommandLine.Contribution
import PortableActions.Proofs.CommandLine.Stages
import PortableActions.Proofs.Invocation.Agreement
import PortableActions.Proofs.Template.Completion
-- Which templates may be run without asking for the classpath: those whose plan has no place
-- for it. Where there is one, the entries can be counted in the command line.
namespace PortableActions.Invocation
open PortableActions.Template CommandLine

theorem expand_silent {template : Text} (silent : ¬ Marker.deps <:+: template) (one two : Option Classpath)
    (platform : Platform) : expand template one platform = expand template two platform := by
  have same : ∀ classpath : Option Classpath, Classpath.substitute classpath platform template = template :=
    fun classpath => Text.replaceAll_absent (by decide) _ silent
  rw [expand, expand, same, same]

theorem prepare_silent (settings : Settings) {template : Text} (silent : ¬ Marker.deps <:+: Suggestion.plan template)
    (one two : Option Classpath) (platform : Platform) :
    prepare settings template one platform = prepare settings template two platform := by
  have unmentioned : ¬ Marker.deps <:+: template := fun inside => silent ((Suggestion.deps_plan template).mpr (.inl inside))
  have measured : needsArgsFiles template one platform = needsArgsFiles template two platform := by
    rw [needsArgsFiles, needsArgsFiles, inlined, inlined, expand_silent unmentioned one two]
  have short : inlined (Suggestion.plan template) one platform = inlined (Suggestion.plan template) two platform := by
    rw [inlined, inlined, expand_silent silent one two]
  unfold prepare
  simp only [spilled, measured, short, expand_silent silent one two]

-- A classpath of one letter shows once for each mention.
def letter : Option Classpath := some [.text ['x']]

theorem count_letter (classpath : Option Classpath) (template home : Text) (threshold : Int) :
    ((inlined template classpath (standard home threshold)).count 'x' : Int) =
      template.count 'x' + (joinedOf classpath).count 'x' * Text.hits (Text.literal Marker.deps) template := by
  have ordinary : Ordinary 'x' := by decide
  rw [inlined, expand_standard, placed, count_inline ordinary, count_settled (by decide)]
  refine Text.measure_gain (Text.additive_count 'x') (Text.literal_sized _) (fun front rest held seen => ?_) template
  rw [Text.literal_front seen]
  have none_ : Marker.deps.count 'x' = 0 := by decide
  omega

theorem inlined_differs {template : Text} (mentions : Marker.deps <:+: template) (home : Text) (threshold : Int) :
    inlined template none (standard home threshold) ≠ inlined template letter (standard home threshold) := by
  intro same
  have without := count_letter none template home threshold
  have withLetter := count_letter letter template home threshold
  have shown : 0 < Text.hits (Text.literal Marker.deps) template :=
    (Text.hits_pos (Text.literal_sized _)).mpr ((Text.mentions_exact (by decide)).mpr mentions)
  have none_ : (joinedOf none).count 'x' = 0 := rfl
  have one : (joinedOf letter).count 'x' = 1 := rfl
  rw [same, withLetter, none_, one] at without
  omega

-- The threshold has no part in the measured text.
theorem inlined_threshold (template : Text) (classpath : Option Classpath) (home : Text) (one two : Int) :
    inlined template classpath (standard home one) = inlined template classpath (standard home two) := by
  rw [inlined, inlined, expand_standard, expand_standard]

-- A template is prepared alike on all classpaths exactly if it does not mention the classpath
-- and planning completes no marker in it.
theorem prepare_ignores_classpath (template : Text) :
    (∀ settings platform one two scope,
      prepare settings template one platform scope = prepare settings template two platform scope) ↔
      ¬ Marker.deps <:+: template ∧ ¬ Suggestion.CompletesMarker template := by
  rw [← not_or, ← Suggestion.deps_plan]
  constructor
  · intro alike mentions
    -- A threshold above both measured lengths.
    obtain ⟨threshold, without, withLetter⟩ : ∃ threshold : Int,
        (inlined template none (standard [] 0)).length ≤ threshold ∧ (inlined template letter (standard [] 0)).length ≤ threshold :=
      ⟨_, Int.le_max_left _ _, Int.le_max_right _ _⟩
    rw [inlined_threshold _ _ _ 0 threshold] at without withLetter
    have same := alike {} (standard [] threshold) none letter (.start ⟨[], ⟨[]⟩, 0⟩)
    rw [prepare_short without, prepare_short withLetter] at same
    injection same with line
    exact inlined_differs mentions [] threshold line
  · intro silent settings platform one two scope
    rw [prepare_silent settings silent one two]

-- The braces that planning puts around the path complete a marker that the template does not hold.
def halfMarked : Text := "cat a/\x7b\x7bdeps\x7d".toList

theorem prepare_ignores_classpath_completed :
    ¬ Marker.deps <:+: halfMarked ∧
    prepare {} halfMarked none (standard [] 80) scopeInTmp ≠ prepare {} halfMarked oneJar (standard [] 80) scopeInTmp := by
  have without : ((inlined halfMarked none (standard [] 80)).length : Int) ≤ 80 := by decide +kernel
  have withJar : ((inlined halfMarked oneJar (standard [] 80)).length : Int) ≤ 80 := by decide +kernel
  have apart : inlined (Suggestion.plan halfMarked) none (standard [] 80) ≠
      inlined (Suggestion.plan halfMarked) oneJar (standard [] 80) := by decide +kernel
  refine ⟨by decide +kernel, ?_⟩
  rw [prepare_short without, prepare_short withJar]
  intro same
  injection same with line
  exact apart line

end PortableActions.Invocation
