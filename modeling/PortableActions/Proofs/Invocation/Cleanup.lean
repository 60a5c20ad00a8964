import PortableActions.Proofs.ArgsFiles.Deletion
import PortableActions.Proofs.Invocation.Agreement
-- No args file outlives the execution it was made for, whichever way the execution ends:
-- while the command line is prepared, when the shell does not start, or with an exit code.
namespace PortableActions

namespace ArgsFiles

-- A scope after some more files were made: they stand where nothing stood, they are the
-- latest of the record, and without them the disk is the one before.
structure Grown (before : ArgsFiles) (added : List Location) (after : ArgsFiles) : Prop where
  record : after.record = before.record ++ added
  rest : (after.host.disk.only fun location => location ∉ added) = before.host.disk
  absent : ∀ location ∈ added, before.host.disk.lookup location = none
  files : ∀ location ∈ added, ∃ bytes, after.host.disk.lookup location = some (.file bytes)

variable {before middle after : ArgsFiles} {added early late : List Location}

theorem Grown.of_same (record : after.record = before.record) (disk : after.host.disk = before.host.disk) :
    Grown before [] after where
  record := by simp [record]
  rest := by rw [disk]; exact Disk.only_all (by simp)
  absent := by simp
  files := by simp

theorem Grown.of_added (one : Added settings content before location after) : Grown before [location] after where
  record := one.record
  rest := by
    have same : ∀ other : Location, other ∉ [location] ↔ other ≠ location := by simp
    rw [Disk.only_congr same, ← Disk.erase_only, one.disk, Disk.write, Disk.erase_put, Disk.erase_absent one.free]
  absent := by simpa using one.free
  files := by
    intro other member
    rw [List.mem_singleton.mp member]
    exact ⟨_, by rw [one.disk, Disk.lookup_write _ one.inner, if_pos rfl]⟩

-- Nothing else has changed.
theorem Grown.lookup (grown : Grown before added after) {location : Location} (other : location ∉ added) :
    after.host.disk.lookup location = before.host.disk.lookup location := by
  by_cases root : location = []
  · simp [root, Disk.lookup_root]
  · rw [← grown.rest, Disk.lookup_only root, if_pos other]

theorem Grown.trans (one : Grown before early middle) (two : Grown middle late after) :
    Grown before (early ++ late) after where
  record := by rw [two.record, one.record, List.append_assoc]
  rest := by
    have same : ∀ location : Location, location ∉ early ++ late ↔ location ∉ late ∧ location ∉ early := by
      intro location
      rw [List.mem_append, not_or, and_comm]
    rw [Disk.only_congr same, ← Disk.only_only, two.rest, one.rest]
  absent := by
    intro location member
    rcases List.mem_append.mp member with first | second
    · exact one.absent location first
    · by_cases first : location ∈ early
      · exact one.absent location first
      · rw [← one.lookup first]
        exact two.absent location second
  files := by
    intro location member
    by_cases second : location ∈ late
    · exact two.files location second
    · have first : location ∈ early := (List.mem_append.mp member).resolve_right second
      rw [two.lookup second]
      exact one.files location first

theorem create_grows (settings : Settings) (content : Text) (before : ArgsFiles) :
    ∃ added, Grown before added (stateAfter (create settings content before)) := by
  rcases create_adds settings content before with refused | ⟨location, one⟩
  · exact ⟨[], .of_same refused.record refused.disk⟩
  · exact ⟨[location], .of_added one⟩

-- From an empty record on, the record tells what was added.
theorem Grown.recorded {host : Host} (grown : Grown (.start host) added after) : Grown (.start host) after.record after := by
  have record : after.record = added := by simpa [start] using grown.record
  rwa [record]

theorem Grown.close {host : Host} (grown : Grown (.start host) after.record after) : after.close.1.host.disk = host.disk := by
  have same : ∀ location, (location ∉ after.record ∨ after.host.disk.lookup location = some .directory) ↔
      location ∉ after.record := by
    intro location
    constructor
    · rintro (other | directory) member
      · exact other member
      · obtain ⟨bytes, file⟩ := grown.files location member
        simp [file] at directory
    · exact .inl
  rw [close_disk, Disk.only_congr same]
  exact grown.rest

theorem close_gone {scope : ArgsFiles} {location : Location} (recorded : location ∈ scope.record)
    (other : scope.host.disk.lookup location ≠ some .directory) : scope.close.1.host.disk.lookup location = none := by
  rw [close_lookup, if_pos ⟨recorded, other⟩]

end ArgsFiles

namespace Invocation

section
variable (launch : Launcher) (settings : Settings) (template : Text) (classpath : Option Classpath) (platform : Platform)

-- The scope of an execution on a host when its command line is prepared, or could not be.
def scopeAfter (host : Host) : ArgsFiles := stateAfter (prepare settings template classpath platform (.start host))

def sessionAfter (session : Session) : Session :=
  stateAfter (execute launch settings template classpath platform session)

-- What is printed of a command line before it is run.
def echo (command : Text) : Text := if settings.verbose then "> ".toList ++ command ++ ['\n'] else []

-- The shell starts for a command line, and this is what it does.
def Starts (command : Text) (host : Host) (child : Child) : Prop :=
  '\x00' ∉ command ∧ launch (platform.shellCommand command) host.here host.disk = .ok child

-- The same of an execution; its shell starts only for a command line that could be prepared.
def Started (host : Host) (child : Child) : Prop :=
  ∃ command scope, prepare settings template classpath platform (.start host) = .ok command scope ∧
    Starts launch platform command scope.host child

theorem prepare_grows (host : Host) :
    let scope := scopeAfter settings template classpath platform host
    ArgsFiles.Grown (.start host) scope.record scope := by
  have kept : ∀ ps before, ∃ added, ArgsFiles.Grown before added
      (stateAfter (CommandLine.ArgsConstruct.spillPieces (ArgsFiles.createPath settings) ps before)) := by
    intro ps before
    refine CommandLine.ArgsConstruct.spillPieces_keeps (fun before after => ∃ added, ArgsFiles.Grown before added after)
      (fun _ => ⟨[], .of_same rfl rfl⟩) ?_ ?_ ps before
    · rintro one two three ⟨early, first⟩ ⟨late, second⟩
      exact ⟨early ++ late, first.trans second⟩
    · intro content state
      rw [ArgsFiles.createPath, stateAfter_map]
      exact ArgsFiles.create_grows settings content state
  unfold scopeAfter
  rcases Int.lt_or_le platform.argsThreshold (CommandLine.inlined template classpath platform).length with long | short
  · rw [prepare_long settings long, CommandLine.ArgsConstruct.spill, stateAfter_map]
    obtain ⟨added, grown⟩ := kept _ (.start host)
    exact grown.recorded
  · rw [prepare_short short]
    exact (ArgsFiles.Grown.of_same rfl rfl).recorded

-- The record names exactly what the preparation has put on the disk.
theorem recorded_iff (host : Host) (location : Location) :
    let scope := scopeAfter settings template classpath platform host
    location ∈ scope.record ↔ host.disk.lookup location = none ∧ scope.host.disk.lookup location ≠ none := by
  have grown := prepare_grows settings template classpath platform host
  constructor
  · intro member
    obtain ⟨bytes, file⟩ := grown.files location member
    exact ⟨grown.absent location member, by rw [file]; simp⟩
  · rintro ⟨absent, there⟩
    by_contra other
    exact there ((grown.lookup other).trans absent)

theorem recorded_plain (host : Host) {location : Location}
    (recorded : location ∈ (scopeAfter settings template classpath platform host).record) :
    (scopeAfter settings template classpath platform host).host.disk.lookup location ≠ some .directory := by
  obtain ⟨bytes, file⟩ := (prepare_grows settings template classpath platform host).files location recorded
  simp [file]

-- A shell does not start, or runs to its end; only then the session changes.
theorem runShell_cases (command : Text) (session : Session) :
    (∃ failure, runShell launch platform command session = .error failure session ∧
      ∀ child, ¬ Starts launch platform command session.host child) ∨
    ∃ child, Starts launch platform command session.host child ∧
      runShell launch platform command session = .ok child.code
        ⟨{ session.host with disk := child.disk }, session.output ++ printed child.written⟩ := by
  unfold runShell Starts
  by_cases zero : '\x00' ∈ command
  · refine .inl ⟨.zeroInArgument, by simp [zero], ?_⟩
    rintro child ⟨clean, _⟩
    exact clean zero
  · cases launched : launch (platform.shellCommand command) session.host.here session.host.disk with
    | error reason =>
      refine .inl ⟨.ofSpawn (platform.shellCommand command) (reason.1.message reason.2), by simp [zero, launched], ?_⟩
      rintro child ⟨_, started⟩
      cases started
    | ok child => exact .inr ⟨child, ⟨zero, rfl⟩, by simp [zero, launched]⟩

-- The three ways an execution can go.
inductive Course (session : Session) : EStateM.Result Failure Session Int → Prop where
  | unprepared {failure : Failure} {scope : ArgsFiles} :
      prepare settings template classpath platform (.start session.host) = .error failure scope →
      Course session (.error failure ⟨scope.close.1.host, session.output⟩)
  | unstarted {command : Text} {scope : ArgsFiles} {failure : Failure} :
      prepare settings template classpath platform (.start session.host) = .ok command scope →
      (∀ child, ¬ Starts launch platform command scope.host child) →
      Course session (.error failure ⟨scope.close.1.host, session.output ++ echo settings command⟩)
  | ended {command : Text} {scope : ArgsFiles} {child : Child} :
      prepare settings template classpath platform (.start session.host) = .ok command scope →
      Starts launch platform command scope.host child →
      Course session (.ok child.code
        ⟨(ArgsFiles.close ⟨{ scope.host with disk := child.disk }, scope.record⟩).1.host,
          session.output ++ echo settings command ++ printed child.written⟩)

theorem execute_course (session : Session) : Course launch settings template classpath platform session
    (execute launch settings template classpath platform session) := by
  unfold execute
  cases prepared : prepare settings template classpath platform (.start session.host) with
  | error failure scope => exact .unprepared prepared
  | ok command scope =>
    dsimp only
    rw [← echo]
    rcases runShell_cases launch platform command ⟨scope.host, session.output ++ echo settings command⟩ with
      ⟨failure, refused, unstarted⟩ | ⟨child, started, ran⟩
    · rw [refused]
      exact .unstarted prepared unstarted
    · rw [ran]
      exact .ended prepared started

end

-- What is left of an execution.
structure CleanedUp (launch : Launcher) (settings : Settings) (template : Text) (classpath : Option Classpath)
    (platform : Platform) (session : Session) : Prop where
  recorded : ∀ location, location ∈ (scopeAfter settings template classpath platform session.host).record ↔
    session.host.disk.lookup location = none ∧
      (scopeAfter settings template classpath platform session.host).host.disk.lookup location ≠ none
  gone : (∀ child, Started launch settings template classpath platform session.host child →
      ∀ location ∈ (scopeAfter settings template classpath platform session.host).record,
        child.disk.lookup location ≠ some .directory) →
    ∀ location ∈ (scopeAfter settings template classpath platform session.host).record,
      (sessionAfter launch settings template classpath platform session).host.disk.lookup location = none
  restored : (∀ child, Started launch settings template classpath platform session.host child →
      child.disk = (scopeAfter settings template classpath platform session.host).host.disk) →
    (sessionAfter launch settings template classpath platform session).host.disk = session.host.disk
  unprepared : ∀ failure scope, prepare settings template classpath platform (.start session.host) = .error failure scope →
    (∀ child, ¬ Started launch settings template classpath platform session.host child) ∧
    ∃ after, (∀ other, execute other settings template classpath platform session = .error failure after) ∧
      after.output = session.output
  unstarted : ∀ command scope failure after,
    prepare settings template classpath platform (.start session.host) = .ok command scope →
    execute launch settings template classpath platform session = .error failure after →
      (∀ child, ¬ Started launch settings template classpath platform session.host child) ∧
      after.output = session.output ++ echo settings command

variable {launch : Launcher} {settings : Settings} {template : Text} {classpath : Option Classpath} {platform : Platform}
  {session : Session} {result : EStateM.Result Failure Session Int}

theorem scopeAfter_of {host : Host} {outcome : EStateM.Result Failure ArgsFiles Text}
    (prepared : prepare settings template classpath platform (.start host) = outcome) :
    scopeAfter settings template classpath platform host = stateAfter outcome := by
  rw [scopeAfter, prepared]

theorem Course.gone (course : Course launch settings template classpath platform session result)
    (proviso : ∀ child, Started launch settings template classpath platform session.host child →
      ∀ location ∈ (scopeAfter settings template classpath platform session.host).record,
        child.disk.lookup location ≠ some .directory)
    {location : Location} (recorded : location ∈ (scopeAfter settings template classpath platform session.host).record) :
    (stateAfter result).host.disk.lookup location = none := by
  have plain := recorded_plain settings template classpath platform session.host recorded
  cases course with
  | unprepared prepared =>
    rw [scopeAfter_of prepared] at recorded plain
    exact ArgsFiles.close_gone recorded plain
  | unstarted prepared unstarted =>
    rw [scopeAfter_of prepared] at recorded plain
    exact ArgsFiles.close_gone recorded plain
  | ended prepared started =>
    have kept := proviso _ ⟨_, _, prepared, started⟩ location recorded
    rw [scopeAfter_of prepared] at recorded
    exact ArgsFiles.close_gone recorded kept

theorem Course.restored (course : Course launch settings template classpath platform session result)
    (idle : ∀ child, Started launch settings template classpath platform session.host child →
      child.disk = (scopeAfter settings template classpath platform session.host).host.disk) :
    (stateAfter result).host.disk = session.host.disk := by
  have closed := (prepare_grows settings template classpath platform session.host).close
  cases course with
  | unprepared prepared =>
    rw [scopeAfter_of prepared] at closed
    exact closed
  | unstarted prepared unstarted =>
    rw [scopeAfter_of prepared] at closed
    exact closed
  | ended prepared started =>
    have same := idle _ ⟨_, _, prepared, started⟩
    rw [scopeAfter_of prepared] at closed same
    rw [← closed]
    simp only [stateAfter, same]

theorem Started.prepared {host : Host} {child : Child}
    (started : Started launch settings template classpath platform host child) :
    ∃ command scope, prepare settings template classpath platform (.start host) = .ok command scope := by
  obtain ⟨command, scope, prepared, _⟩ := started
  exact ⟨command, scope, prepared⟩

theorem execute_unprepared {failure : Failure} {scope : ArgsFiles}
    (prepared : prepare settings template classpath platform (.start session.host) = .error failure scope) :
    execute launch settings template classpath platform session = .error failure ⟨scope.close.1.host, session.output⟩ := by
  simp [execute, prepared, closeFiles]

-- Two files are made, and the content of the second cannot be written.
def spelledOut : Text := "java @[aaaa] @[é]".toList

def inAscii : Settings := { verbose := true, encoding := "ascii".toList }

def noShell : Launcher := fun _ _ _ => .error (.noEntry, "/bin/sh".toList)

end Invocation
end PortableActions
