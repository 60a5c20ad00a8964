import PortableActions.Proofs.ArgsFiles.Ledger
-- What a creation comes to, and what its failures leave behind. A file that was made is the last
-- of the record whatever becomes of its content, so closing takes it away. The kind of the
-- failure is the declared one as long as the encoding has a known name.
namespace PortableActions

namespace Path.Posix

theorem mem_climb {rooted : Bool} {before : List Text} {part name : Text} (among : name ∈ climb rooted before part) :
    name ∈ before ∨ name = part := by
  unfold climb at among
  split at among
  · split at among
    · split at among
      · cases among
      · exact .inr (List.mem_singleton.mp among)
    · split at among
      · exact (List.mem_cons.mp among).symm
      · exact .inl (List.mem_cons_of_mem _ among)
  · exact (List.mem_cons.mp among).symm

theorem mem_climbed {rooted : Bool} {parts before : List Text} {name : Text}
    (among : name ∈ parts.foldl (climb rooted) before) : name ∈ before ∨ name ∈ parts := by
  induction parts generalizing before with
  | nil => exact .inl among
  | cons part rest ih =>
    rcases ih among with climbed | later
    · rcases mem_climb climbed with old | rfl
      · exact .inl old
      · exact .inr List.mem_cons_self
    · exact .inr (List.mem_cons_of_mem _ later)

theorem mem_root {path : Text} {c : Char} (inside : c ∈ root path) : c = '/' := by
  unfold root at inside
  split at inside <;> simp_all

-- Resolving a path brings in no character but those of the root and of the current directory.
theorem mem_lexical {path : Text} {c : Char} (inside : c ∈ lexical path) : c = '/' ∨ c = '.' ∨ c ∈ path := by
  unfold lexical print at inside
  dsimp only at inside
  split at inside
  · exact .inr (.inl (List.mem_singleton.mp inside))
  · rcases List.mem_append.mp inside with leading | joined
    · exact .inl (mem_root leading)
    · rcases Text.mem_of_mem_join joined with between | ⟨name, among, within⟩
      · exact .inl (List.mem_singleton.mp between)
      · have part : name ∈ components path := (mem_climbed (List.mem_reverse.mp among)).resolve_left List.not_mem_nil
        exact .inr (.inr (Text.mem_of_mem_splitOn (List.mem_filter.mp part).1 within))

end Path.Posix

namespace Host

theorem directoryFor_quiet {settings : Settings} {host : Host} {c : Char} (plain : c ≠ '/' ∧ c ≠ '.') (here : c ∉ host.here.print)
    (directory : ∀ path ∈ settings.directory, c ∉ path) : c ∉ host.directoryFor settings := by
  intro inside
  rcases Path.Posix.mem_lexical inside with rfl | rfl | given
  · exact plain.1 rfl
  · exact plain.2 rfl
  · cases place : settings.directory with
    | none =>
      rw [place] at given
      exact here given
    | some path =>
      rw [place] at given
      rcases mem_append given with base | rfl | named
      · exact here base
      · exact plain.1 rfl
      · exact directory path place named

-- Without the character zero in a path, no file is refused for another reason than the host's.
theorem makeFile_declared {settings : Settings} {tries : Nat} {before after : Host} {failure : Failure}
    (place : '\x00' ∉ before.directoryFor settings) (start : '\x00' ∉ settings.fileNameStart) (ending : '\x00' ∉ settings.fileNameEnd)
    (failed : makeFile settings tries before = .error failure after) : ∃ reason, failure = .argsFile reason := by
  induction tries generalizing before with
  | zero => cases failed; exact ⟨_, rfl⟩
  | succ tries ih =>
    have quiet : '\x00' ∉ before.newPath settings := newPath_quiet (by decide) place start ending
    simp only [makeFile] at failed
    split at failed
    · rename_i zero
      exact absurd (by simpa using zero) quiet
    split at failed
    · cases failed
    · refine ih ?_ failed
      exact place
    · cases failed; exact ⟨_, rfl⟩

end Host

namespace ArgsFiles

-- The encoding of the settings is one that is known.
def KnownEncoding (settings : Settings) : Prop :=
  '\x00' ∉ settings.encoding ∧ (Text.Charset.named? settings.encoding).isSome = true

instance (settings : Settings) : Decidable (KnownEncoding settings) := inferInstanceAs (Decidable (_ ∧ _))

variable {settings : Settings} {content : Text} {scope next : ArgsFiles} {location : Location} {failure : Failure}

theorem bytesFor_declared (known : KnownEncoding settings) (failed : bytesFor settings location content = .error failure) :
    ∃ reason, failure = .argsFile reason := by
  unfold bytesFor at failed
  split at failed
  · rename_i zero
    exact absurd (by simpa using zero) known.1
  split at failed
  · rename_i none_
    simp [KnownEncoding, none_] at known
  · rename_i charset _
    cases result : Text.encode charset content with
    | ok bytes => simp [result, Except.mapError] at failed
    | error fault =>
      simp only [result, Except.mapError, Except.error.injEq] at failed
      exact ⟨_, failed.symm⟩

-- An encoding that is not known is not declared as a failure to make the file.
theorem bytesFor_unknown (unknown : ¬ KnownEncoding settings) (location : Location) (content : Text) :
    ∃ failure, bytesFor settings location content = .error failure ∧ ∀ reason, failure ≠ .argsFile reason := by
  unfold bytesFor
  split
  · exact ⟨.zeroInName, rfl, by simp⟩
  · rename_i zero
    cases named : Text.Charset.named? settings.encoding with
    | none => exact ⟨.unknownEncoding settings.encoding, rfl, by simp⟩
    | some charset => exact absurd ⟨by simpa using zero, by simp [named]⟩ unknown

-- What a failure leaves of a file that was made: it is empty and the last of the record. Closing
-- takes it away, and leaves the disk as if it had never been.
structure Abandoned (before : ArgsFiles) (location : Location) (after : ArgsFiles) : Prop where
  here : after.host.here = before.host.here
  record : after.record = before.record ++ [location]
  free : before.host.disk.lookup location = none
  disk : after.host.disk = before.host.disk.write location []
  gone : after.close.1.host.disk.lookup location = none
  closing : after.close.1.host.disk = before.close.1.host.disk

theorem Added.closing (added : Added settings content scope location next) :
    next.close.1.host.disk = scope.close.1.host.disk := by
  have kept (other : Location) : (other ∉ next.record ∨ next.host.disk.lookup other = some .directory) ↔
      other ≠ location ∧ (other ∉ scope.record ∨ scope.host.disk.lookup other = some .directory) := by
    rw [added.record, added.disk, Disk.lookup_write _ added.inner]
    by_cases same : other = location
    · simp [same]
    · simp [same]
  rw [close_disk, close_disk, Disk.only_congr kept, ← Disk.only_only, ← Disk.erase_only, added.disk, Disk.write,
    Disk.erase_put, Disk.erase_absent added.free]

theorem Added.abandoned (added : Added settings content scope location next)
    (failed : bytesFor settings location content = .error failure) : Abandoned scope location next where
  here := added.here
  record := added.record
  free := added.free
  disk := by simpa [stored, failed] using added.disk
  gone := by
    have file : next.host.disk.lookup location ≠ some .directory := by simp [added.disk, Disk.lookup_write _ added.inner]
    rw [close_lookup, if_pos ⟨by simp [added.record], file⟩]
  closing := added.closing

-- How a creation is meant to end: the file holds the content and is recorded, or the failure is
-- one to make an args file, and nothing has changed or a file was abandoned.
inductive Promised (settings : Settings) (content : Text) (scope : ArgsFiles) : EStateM.Result Failure ArgsFiles Location → Prop
  | written {location : Location} {next : ArgsFiles} (record : next.record = scope.record ++ [location])
      (holds : Holds settings next.host.disk location content) : Promised settings content scope (.ok location next)
  | refused {reason : Text} {next : ArgsFiles} (refused : Refused scope next) :
      Promised settings content scope (.error (.argsFile reason) next)
  | abandoned {reason : Text} {location : Location} {next : ArgsFiles} (abandoned : Abandoned scope location next) :
      Promised settings content scope (.error (.argsFile reason) next)

def inNope : Settings := { encoding := "nope".toList }

end ArgsFiles
end PortableActions
