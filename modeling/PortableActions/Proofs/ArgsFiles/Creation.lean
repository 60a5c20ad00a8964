import PortableActions.ArgsFiles
import PortableActions.Proofs.CommandLine.Handover
import PortableActions.Proofs.Disk.Lookup
import PortableActions.Proofs.Disk.Paths
import Mathlib.Data.List.Forall2
-- Making args files, one and many. Every file comes to stand where nothing stood before,
-- so none disturbs another.
namespace PortableActions

namespace Host

-- What a new file on a host comes to: it stands where nothing stood, under the name that
-- was tried last, and is empty; the rest of the disk is as before.
structure Made (settings : Settings) (before : Host) (location : Location) (after : Host) : Prop where
  here : after.here = before.here
  disk : after.disk = before.disk.write location []
  named : ∃ tried : Host, tried.here = before.here ∧ before.attempts ≤ tried.attempts ∧
    after.attempts = tried.attempts + 1 ∧ before.disk.vacancy (tried.newPath settings) = .ok location

theorem Made.inner (made : Made settings before location after) : location ≠ [] := by
  obtain ⟨_, _, _, _, vacant⟩ := made.named
  exact Disk.vacancy_inner vacant

theorem Made.free (made : Made settings before location after) : before.disk.lookup location = none := by
  obtain ⟨_, _, _, _, vacant⟩ := made.named
  exact Disk.vacancy_free vacant

theorem makeFile_ok {settings : Settings} {tries : Nat} {before after : Host} {location : Location}
    (created : makeFile settings tries before = .ok location after) : Made settings before location after := by
  induction tries generalizing before with
  | zero => cases created
  | succ tries ih =>
    simp only [makeFile] at created
    split at created
    · cases created
    split at created
    · rename_i found vacant
      cases created
      exact ⟨rfl, rfl, before, rfl, Nat.le_refl _, rfl, vacant⟩
    · have later := ih created
      obtain ⟨tried, here, counted, last, vacant⟩ := later.named
      exact ⟨later.here, later.disk, tried, here, Nat.le_of_succ_le counted, last, vacant⟩
    · cases created

theorem makeFile_error {settings : Settings} {tries : Nat} {before after : Host} {failure : Failure}
    (failed : makeFile settings tries before = .error failure after) :
    after.here = before.here ∧ after.disk = before.disk ∧ before.attempts ≤ after.attempts := by
  induction tries generalizing before with
  | zero => cases failed; exact ⟨rfl, rfl, Nat.le_refl _⟩
  | succ tries ih =>
    simp only [makeFile] at failed
    split at failed
    · cases failed; exact ⟨rfl, rfl, Nat.le_succ _⟩
    split at failed
    · cases failed
    · obtain ⟨here, disk, counted⟩ := ih failed
      exact ⟨here, disk, Nat.le_of_succ_le counted⟩
    · cases failed; exact ⟨rfl, rfl, Nat.le_succ _⟩

theorem mem_append {base path : Text} {c : Char} (member : c ∈ Path.Posix.append base path) :
    c ∈ base ∨ c = '/' ∨ c ∈ path := by
  unfold Path.Posix.append at member
  split at member
  · exact .inr (.inr member)
  split at member
  · rcases List.mem_append.mp member with inside | later
    · exact .inl inside
    · exact .inr (.inr later)
  · simp only [List.append_assoc, List.mem_append, List.mem_singleton] at member
    exact member

theorem mem_serial {k : Nat} {c : Char} (member : c ∈ serial k) : c.isDigit = true := by
  rcases List.mem_append.mp member with padding | digit
  · rw [List.eq_of_mem_replicate padding]; decide
  · exact Nat.isDigit_of_mem_toDigits (by decide) (by decide) digit

theorem directoryFor_here {one two : Host} (here : one.here = two.here) :
    one.directoryFor settings = two.directoryFor settings := by
  simp [directoryFor, here]

-- A character that neither the directory nor the two ends of the name have does not come
-- into the path of a new file by itself, unless it is a slash or a digit.
theorem newPath_quiet {settings : Settings} {host : Host} {c : Char} (plain : c ≠ '/' ∧ c.isDigit = false)
    (place : c ∉ host.directoryFor settings) (start : c ∉ settings.fileNameStart) (ending : c ∉ settings.fileNameEnd) :
    c ∉ host.newPath settings := by
  intro member
  rcases mem_append member with inside | rfl | named
  · exact place inside
  · exact plain.1 rfl
  · simp only [List.append_assoc, List.mem_append] at named
    rcases named with inside | number | inside
    · exact start inside
    · simp [mem_serial number] at plain
    · exact ending inside

theorem Made.quiet (made : Made settings before location after) {c : Char} (plain : c ≠ '/' ∧ c.isDigit = false)
    (place : c ∉ before.directoryFor settings) (start : c ∉ settings.fileNameStart) (ending : c ∉ settings.fileNameEnd) :
    c ∉ location.print := by
  obtain ⟨tried, here, _, _, vacant⟩ := made.named
  rw [← directoryFor_here here] at place
  have absent : c ∉ tried.newPath settings := newPath_quiet plain place start ending
  intro member
  rcases List.mem_cons.mp member with rfl | inside
  · exact plain.1 rfl
  · rcases Text.mem_of_mem_join inside with between | ⟨name, among, inside⟩
    · exact plain.1 (List.mem_singleton.mp between)
    · exact absent (Text.mem_of_mem_splitOn (Disk.vacancy_names vacant name among) inside)

end Host

namespace ArgsFiles

-- A file at the location holds the content in the encoding of the settings.
def Holds (settings : Settings) (disk : Disk) (location : Location) (content : Text) : Prop :=
  ∃ charset bytes, Text.Charset.named? settings.encoding = some charset ∧
    Text.encode charset content = .ok bytes ∧ disk.lookup location = some (.file bytes)

-- What stood on the disk still stands there unchanged.
def Untouched (before after : Disk) : Prop :=
  ∀ location, before.lookup location ≠ none → after.lookup location = before.lookup location

theorem Untouched.refl (disk : Disk) : Untouched disk disk := fun _ _ => rfl

theorem Untouched.trans (one : Untouched before middle) (two : Untouched middle after) : Untouched before after := by
  intro location there
  have kept := one location there
  rw [two location (kept ▸ there), kept]

theorem untouched_write {disk : Disk} {location : Location} (bytes : List UInt8) (inner : location ≠ [])
    (free : disk.lookup location = none) : Untouched disk (disk.write location bytes) := by
  intro other there
  have apart : other ≠ location := fun same => there (same ▸ free)
  simp [Disk.lookup_write bytes inner, apart]

theorem Holds.kept (holds : Holds settings before location content) (untouched : Untouched before after) :
    Holds settings after location content := by
  obtain ⟨charset, bytes, named, encoded, there⟩ := holds
  exact ⟨charset, bytes, named, encoded, by rw [untouched location (by simp [there]), there]⟩

theorem bytesFor_ok (encoded : bytesFor settings location content = .ok bytes) :
    ∃ charset, Text.Charset.named? settings.encoding = some charset ∧ Text.encode charset content = .ok bytes := by
  unfold bytesFor at encoded
  split at encoded
  · cases encoded
  split at encoded
  · cases encoded
  · rename_i charset named
    cases result : Text.encode charset content with
    | error fault => simp [result, Except.mapError] at encoded
    | ok written =>
      simp only [result, Except.mapError, Except.ok.injEq] at encoded
      exact ⟨charset, named, by rw [result, encoded]⟩

-- What a new file holds: the content, or nothing if it could not be encoded.
def stored (settings : Settings) (location : Location) (content : Text) : List UInt8 :=
  match bytesFor settings location content with
  | .ok bytes => bytes
  | .error _ => []

-- What a creation adds to a scope once a file was made for it, whether or not the content
-- could be written.
structure Added (settings : Settings) (content : Text) (before : ArgsFiles) (location : Location) (after : ArgsFiles) : Prop where
  made : ∃ host, Host.Made settings before.host location host ∧ host.attempts = after.host.attempts
  here : after.host.here = before.host.here
  record : after.record = before.record ++ [location]
  disk : after.host.disk = before.host.disk.write location (stored settings location content)

-- What is left of a creation for which no file was made: names were tried.
structure Refused (before after : ArgsFiles) : Prop where
  here : after.host.here = before.host.here
  record : after.record = before.record
  disk : after.host.disk = before.host.disk
  counted : before.host.attempts ≤ after.host.attempts

theorem Added.inner (added : Added settings content before location after) : location ≠ [] := by
  obtain ⟨_, made, _⟩ := added.made
  exact made.inner

theorem Added.free (added : Added settings content before location after) : before.host.disk.lookup location = none := by
  obtain ⟨_, made, _⟩ := added.made
  exact made.free

theorem Added.untouched (added : Added settings content before location after) :
    Untouched before.host.disk after.host.disk :=
  added.disk ▸ untouched_write _ added.inner added.free

theorem create_ok {settings : Settings} {content : Text} {scope next : ArgsFiles} {location : Location}
    (created : create settings content scope = .ok location next) :
    Added settings content scope location next ∧ ∃ bytes, bytesFor settings location content = .ok bytes := by
  unfold create at created
  split at created
  · cases created
  · rename_i found host made
    dsimp only at created
    split at created
    · cases created
    · rename_i bytes encoded
      cases created
      have made := Host.makeFile_ok made
      refine ⟨⟨⟨host, made, rfl⟩, made.here, rfl, ?_⟩, bytes, encoded⟩
      simp [stored, encoded, made.disk, Disk.write_write]

-- A failed creation either made no file at all, or made one and recorded it, but could not
-- write the content.
theorem create_failure {settings : Settings} {content : Text} {scope next : ArgsFiles} {failure : Failure}
    (failed : create settings content scope = .error failure next) :
    (Refused scope next ∧ ∃ host, Host.newFile settings scope.host = .error failure host) ∨
      ∃ location host, Host.newFile settings scope.host = .ok location host ∧ Added settings content scope location next ∧
        bytesFor settings location content = .error failure := by
  unfold create at failed
  split at failed
  · rename_i cause host refused
    cases failed
    obtain ⟨here, disk, counted⟩ := Host.makeFile_error refused
    exact .inl ⟨⟨here, rfl, disk, counted⟩, host, refused⟩
  · rename_i location host created
    dsimp only at failed
    split at failed
    · rename_i cause unencoded
      cases failed
      have made := Host.makeFile_ok created
      refine .inr ⟨location, host, created, ⟨⟨host, made, rfl⟩, made.here, rfl, ?_⟩, unencoded⟩
      simp [stored, unencoded, made.disk]
    · cases failed

theorem create_error {settings : Settings} {content : Text} {scope next : ArgsFiles} {failure : Failure}
    (failed : create settings content scope = .error failure next) :
    Refused scope next ∨ ∃ location, Added settings content scope location next := by
  rcases create_failure failed with ⟨refused, _⟩ | ⟨location, _, _, added, _⟩
  · exact .inl refused
  · exact .inr ⟨location, added⟩

-- A creation either makes no file at all, or adds one.
theorem create_adds (settings : Settings) (content : Text) (scope : ArgsFiles) :
    Refused scope (stateAfter (create settings content scope)) ∨
    ∃ location, Added settings content scope location (stateAfter (create settings content scope)) := by
  cases result : create settings content scope with
  | ok location after => exact .inr ⟨location, (create_ok result).1⟩
  | error failure after => exact create_error result

theorem create_untouched (settings : Settings) (content : Text) (scope : ArgsFiles) :
    Untouched scope.host.disk (stateAfter (create settings content scope)).host.disk := by
  rcases create_adds settings content scope with refused | ⟨location, added⟩
  · exact refused.disk ▸ .refl _
  · exact added.untouched

theorem create_step {settings : Settings} {content : Text} {scope next : ArgsFiles} {location : Location}
    (created : create settings content scope = .ok location next) :
    next.record = scope.record ++ [location] ∧ next.host.here = scope.host.here ∧
      Untouched scope.host.disk next.host.disk ∧ Holds settings next.host.disk location content := by
  obtain ⟨added, bytes, encoded⟩ := create_ok created
  obtain ⟨charset, named, written⟩ := bytesFor_ok encoded
  refine ⟨added.record, added.here, added.untouched, charset, bytes, named, written, ?_⟩
  simp [added.disk, Disk.lookup_write _ added.inner, stored, encoded]

theorem create_failed {settings : Settings} {content : Text} {scope next : ArgsFiles} {failure : Failure}
    (failed : create settings content scope = .error failure next) :
    (next.record = scope.record ∨ ∃ location, next.record = scope.record ++ [location]) ∧
      Untouched scope.host.disk next.host.disk := by
  have untouched := create_untouched settings content scope
  rw [failed] at untouched
  refine ⟨?_, untouched⟩
  rcases create_error failed with refused | ⟨location, added⟩
  · exact .inl refused.record
  · exact .inr ⟨location, added.record⟩

-- Files made one after the other are recorded in that order, and none disturbs another.
theorem calls_hold {settings : Settings} {contents : List Text} {locations : List Location} {scope after : ArgsFiles}
    (calls : Calls (create settings) scope contents locations after) :
    after.record = scope.record ++ locations ∧ after.host.here = scope.host.here ∧
      Untouched scope.host.disk after.host.disk ∧
      List.Forall₂ (Holds settings after.host.disk) locations contents := by
  induction calls with
  | nil => exact ⟨by simp, rfl, .refl _, .nil⟩
  | cons created _ ih =>
    obtain ⟨record, here, kept, holds⟩ := create_step created
    obtain ⟨laterRecord, laterHere, laterKept, laterHolds⟩ := ih
    exact ⟨by simp [laterRecord, record], laterHere.trans here, kept.trans laterKept,
      .cons (holds.kept laterKept) laterHolds⟩

theorem createPath_recorded {settings : Settings} {content path : Text} {scope next : ArgsFiles}
    (created : createPath settings content scope = .ok path next) :
    next.record.length = scope.record.length + 1 := by
  cases made : create settings content scope with
  | error failure after => simp [createPath, bind, EStateM.bind, made] at created
  | ok location after =>
    simp only [createPath, bind, EStateM.bind, made, pure, EStateM.pure] at created
    injection created with _ same
    rw [← same, (create_step made).1, List.length_append, List.length_singleton]

theorem calls_recorded {settings : Settings} {contents answers : List Text} {scope after : ArgsFiles}
    (calls : Calls (createPath settings) scope contents answers after) :
    after.record.length = scope.record.length + contents.length := by
  induction calls with
  | nil => rfl
  | cons created _ ih =>
    rw [ih, createPath_recorded created, List.length_cons]
    omega

theorem calls_quiet {settings : Settings} {contents : List Text} {locations : List Location} {scope after : ArgsFiles}
    {c : Char} (plain : c ≠ '/' ∧ c.isDigit = false) (place : c ∉ scope.host.directoryFor settings)
    (start : c ∉ settings.fileNameStart) (ending : c ∉ settings.fileNameEnd)
    (calls : Calls (create settings) scope contents locations after) : ∀ location ∈ locations, c ∉ location.print := by
  induction calls with
  | nil => simp
  | cons created _ ih =>
    obtain ⟨host, made, _⟩ := (create_ok created).1.made
    intro location member
    rcases List.mem_cons.mp member with rfl | later
    · exact made.quiet plain place start ending
    · rw [← Host.directoryFor_here (create_step created).2.1] at place
      exact ih place location later

end ArgsFiles
end PortableActions
