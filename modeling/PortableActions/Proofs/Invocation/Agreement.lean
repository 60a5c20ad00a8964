import PortableActions.Invocation
import PortableActions.Proofs.ArgsFiles.Creation
-- A command line with args files and its inlined form differ only in what stands for the
-- constructs: in one a reference to a file, in the other what the file holds.
namespace PortableActions.Invocation
open PortableActions.Template CommandLine.ArgsConstruct

-- A file as a command line refers to it.
def reference (location : Location) : Text := '@' :: location.print

-- The inlined command line, cut at the contents that were handed over, and what becomes of
-- the cut under every outcome of the creations.
structure Spilled (settings : Settings) (template : Text) (classpath : Option Classpath) (platform : Platform)
    (scope : ArgsFiles) (gaps contents : List Text) : Prop where
  counted : gaps.length = contents.length + 1
  inlined : CommandLine.inlined (Suggestion.plan template) classpath platform = interleave gaps contents
  settled : (∃ locations after, Calls (ArgsFiles.create settings) scope contents locations after) ∨
    ∃ earlier content later locations failure after, contents = earlier ++ content :: later ∧
      Stops (ArgsFiles.create settings) scope earlier content locations failure after
  created : ∀ locations after, Calls (ArgsFiles.create settings) scope contents locations after →
    prepare settings template classpath platform scope = .ok (interleave gaps (locations.map reference)) after ∧
      after.record = locations ∧ List.Forall₂ (ArgsFiles.Holds settings after.host.disk) locations contents
  stopped : ∀ earlier content later locations failure after, contents = earlier ++ content :: later →
    Stops (ArgsFiles.create settings) scope earlier content locations failure after →
    prepare settings template classpath platform scope = .error failure after ∧
      after.record.length ≤ earlier.length + 1 ∧ locations <+: after.record ∧
      List.Forall₂ (ArgsFiles.Holds settings after.host.disk) locations earlier

theorem prepare_short {settings : Settings} {template : Text} {classpath : Option Classpath} {platform : Platform}
    (short : ((CommandLine.inlined template classpath platform).length : Int) ≤ platform.argsThreshold)
    (scope : ArgsFiles) : prepare settings template classpath platform scope =
      .ok (CommandLine.inlined (Suggestion.plan template) classpath platform) scope := by
  have inside : needsArgsFiles template classpath platform = false := by
    simp only [needsArgsFiles, decide_eq_false_iff_not]
    omega
  simp [prepare, inside, pure, EStateM.pure]

theorem prepare_long (settings : Settings) {template : Text} {classpath : Option Classpath} {platform : Platform}
    (long : platform.argsThreshold < ((CommandLine.inlined template classpath platform).length : Int)) :
    prepare settings template classpath platform =
      spill (ArgsFiles.createPath settings) (CommandLine.expand (Suggestion.plan template) classpath platform) := by
  have needs : needsArgsFiles template classpath platform = true := decide_eq_true long
  rw [prepare, needs]
  rfl

theorem stops_parts {settings : Settings} {scope after : ArgsFiles} {earlier : List Text} {content : Text}
    {locations : List Location} {failure : Failure} (fresh : scope.record = [])
    (stops : Stops (ArgsFiles.create settings) scope earlier content locations failure after) :
    after.record.length ≤ earlier.length + 1 ∧ locations <+: after.record ∧
      List.Forall₂ (ArgsFiles.Holds settings after.host.disk) locations earlier := by
  obtain ⟨middle, calls, failed⟩ := stops
  obtain ⟨record, _, _, holds⟩ := ArgsFiles.calls_hold calls
  obtain ⟨last, untouched⟩ := ArgsFiles.create_failed failed
  have counted := calls.length
  have recorded : middle.record = locations := by simpa [fresh] using record
  refine ⟨?_, ?_, holds.imp fun _ _ held => held.kept untouched⟩
  · rcases last with same | ⟨location, more⟩
    · have kept : after.record.length = earlier.length := by rw [same, recorded, counted]
      omega
    · rw [more, recorded]
      simp [counted]
  · rcases last with same | ⟨location, more⟩
    · exact ⟨[], by rw [same, recorded, List.append_nil]⟩
    · exact ⟨[location], by rw [more, recorded]⟩

-- A host with nothing but a temporary directory, and a platform that has room for ten characters.
def scopeInTmp : ArgsFiles := .start ⟨["tmp".toList], ⟨[(["tmp".toList], none)]⟩, 0⟩

def narrow : Platform := { Platform.posix "/home/dev".toList with argsThreshold := 10 }

def mentionsTwice : Text := "java -cp {{deps}} Main {{deps}}".toList

def oneJar : Option Classpath := some [.text "/x/a.jar".toList]

end PortableActions.Invocation
