import PortableActions.Proofs.CommandLine.Growth
import PortableActions.Proofs.Invocation.Agreement
-- What is known of the length of a command line when nothing moved into a file. The limit is
-- kept by the template as it is written; planning can only add to it afterwards.
namespace PortableActions.Invocation
open PortableActions.Template CommandLine CommandLine.ArgsConstruct

theorem within_threshold {settings : Settings} {template command : Text} {classpath : Option Classpath} {platform : Platform}
    {scope after : ArgsFiles} (constructs : contents (expand (Suggestion.plan template) classpath platform) ≠ [])
    (ran : prepare settings template classpath platform scope = .ok command after) (fileless : after.record = scope.record) :
    ((inlined template classpath platform).length : Int) ≤ platform.argsThreshold := by
  by_contra long
  rw [prepare_long settings (Int.not_le.mp long)] at ran
  obtain ⟨answers, calls⟩ := spill_ok ran
  have recorded := ArgsFiles.calls_recorded calls
  have some_ := List.length_pos_iff.mpr constructs
  rw [fileless] at recorded
  omega

-- The length of a command line that was made without args files.
structure Bounded (template : Text) (classpath : Option Classpath) (platform : Platform) (command : Text) : Prop where
  measured : ((inlined template classpath platform).length : Int) ≤ platform.argsThreshold
  planned : command = inlined (Suggestion.plan template) classpath platform
  unchanged : Suggestion.plan template = template → (command.length : Int) ≤ platform.argsThreshold
  grown : ∀ home threshold nodes, platform = standard home threshold → parse? template = some nodes →
    ¬ Suggestion.CompletesMarker template →
    Marker.holdsConstruct (Classpath.substitute classpath platform template) = false →
    (command.length : Int) ≤ threshold + Suggestion.growthAll nodes

theorem prepare_bounded {settings : Settings} {template command : Text} {classpath : Option Classpath} {platform : Platform}
    {scope after : ArgsFiles} (constructs : contents (expand (Suggestion.plan template) classpath platform) ≠ [])
    (ran : prepare settings template classpath platform scope = .ok command after) (fileless : after.record = scope.record) :
    Bounded template classpath platform command := by
  have within := within_threshold constructs ran fileless
  rw [prepare_short within] at ran
  injection ran with shown _
  refine ⟨within, shown.symm, fun same => ?_, ?_⟩
  · rw [← shown, same]
    exact within
  · rintro home threshold nodes rfl parsed open_ bare
    have longer := planned_length (joinedOf classpath) parsed open_ bare
    rw [← expand_standard _ _ home threshold, ← expand_standard _ _ home threshold] at longer
    have limit : ((inlined template classpath (standard home threshold)).length : Int) ≤ threshold := within
    rw [← shown]
    unfold inlined at limit ⊢
    omega

-- The template fits exactly, and the argument that is no option gets a "./" in front.
def fitting : Text := "java -cp {{deps}} a/b".toList

theorem prepare_bounded_fitting :
    contents (expand (Suggestion.plan fitting) oneJar (standard [] 21)) ≠ [] ∧
    prepare {} fitting oneJar (standard [] 21) scopeInTmp =
      .ok (inlined (Suggestion.plan fitting) oneJar (standard [] 21)) scopeInTmp ∧
    Bounded fitting oneJar (standard [] 21) (inlined (Suggestion.plan fitting) oneJar (standard [] 21)) ∧
    ((inlined (Suggestion.plan fitting) oneJar (standard [] 21)).length : Int) ≤ 21 + 2 ∧
    inlined (Suggestion.plan fitting) oneJar (standard [] 21) = "java -cp /x/a.jar ./a/b".toList := by
  have constructs : contents (expand (Suggestion.plan fitting) oneJar (standard [] 21)) ≠ [] := by decide +kernel
  have fits : ((inlined fitting oneJar (standard [] 21)).length : Int) ≤ 21 := by decide +kernel
  have ran : prepare {} fitting oneJar (standard [] 21) scopeInTmp =
      .ok (inlined (Suggestion.plan fitting) oneJar (standard [] 21)) scopeInTmp := prepare_short fits scopeInTmp
  have bounded := prepare_bounded constructs ran rfl
  have parsed : parse? fitting = some [.command "java".toList ["-cp".toList, "{{deps}}".toList, "a/b".toList]] := by
    decide +kernel
  have open_ : ¬ Suggestion.CompletesMarker fitting := by decide +kernel
  have bare : Marker.holdsConstruct (Classpath.substitute oneJar (standard [] 21) fitting) = false := by decide +kernel
  exact ⟨constructs, ran, bounded, bounded.grown [] 21 _ rfl parsed open_ bare, by decide +kernel⟩

-- The limit itself is not kept: there is a construct, no file is made, and the line is longer.
theorem threshold_exceeded : ¬ ∀ settings template classpath platform scope command after,
    contents (expand (Suggestion.plan template) classpath platform) ≠ [] →
    prepare settings template classpath platform scope = .ok command after → after.record = scope.record →
      (command.length : Int) ≤ platform.argsThreshold := by
  intro bound
  have constructs : contents (expand (Suggestion.plan fitting) oneJar (standard [] 21)) ≠ [] := by decide +kernel
  have fits : ((inlined fitting oneJar (standard [] 21)).length : Int) ≤ 21 := by decide +kernel
  have least := bound {} fitting oneJar (standard [] 21) scopeInTmp _ _ constructs (prepare_short fits scopeInTmp) rfl
  have longer : 21 < ((inlined (Suggestion.plan fitting) oneJar (standard [] 21)).length : Int) := by decide +kernel
  exact absurd longer (Int.not_lt.mpr least)

end PortableActions.Invocation
