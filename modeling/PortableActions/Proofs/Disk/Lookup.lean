import PortableActions.Disk
-- What is found on a disk once entries were added and taken away. Every deletion keeps the
-- locations of some kind and leaves what stands there as it is.
namespace PortableActions.Disk

-- The disk with nothing but what stands at locations of the kind.
def only (disk : Disk) (kept : Location → Prop) [DecidablePred kept] : Disk :=
  ⟨disk.entries.filter fun entry => kept entry.1⟩

theorem lookup_root (disk : Disk) : disk.lookup [] = some .directory := by simp [lookup]

theorem inner_of_lookup {disk : Disk} {location : Location} (other : disk.lookup location ≠ some .directory) : location ≠ [] := by
  rintro rfl
  exact other (lookup_root disk)

theorem lookup_only {disk : Disk} {kept : Location → Prop} [DecidablePred kept] {location : Location} (inner : location ≠ []) :
    (disk.only kept).lookup location = if kept location then disk.lookup location else none := by
  have found : (disk.only kept).entries.find? (fun entry => entry.1 = location) =
      if kept location then disk.entries.find? (fun entry => entry.1 = location) else none := by
    simp only [only, List.find?_filter]
    by_cases stays : kept location
    · rw [if_pos stays]
      congr 1
      funext entry
      by_cases same : entry.1 = location
      · simp [same, stays]
      · simp [same]
    · rw [if_neg stays, List.find?_eq_none]
      intro entry _ both
      simp only [decide_eq_true_eq] at both
      exact stays (both.2 ▸ both.1)
  simp only [lookup, inner, if_false, found]
  by_cases stays : kept location <;> simp [stays]

theorem only_congr {disk : Disk} {one two : Location → Prop} [DecidablePred one] [DecidablePred two]
    (same : ∀ location, one location ↔ two location) : disk.only one = disk.only two := by
  simp [only, same]

theorem only_only {disk : Disk} {one two : Location → Prop} [DecidablePred one] [DecidablePred two] :
    (disk.only one).only two = disk.only fun location => one location ∧ two location := by
  simp [only, List.filter_filter, Bool.and_comm]

theorem only_all {disk : Disk} {kept : Location → Prop} [DecidablePred kept] (all : ∀ location, kept location) :
    disk.only kept = disk := by
  have whole : disk.entries.filter (fun entry => kept entry.1) = disk.entries := by simp [all]
  exact congrArg Disk.mk whole

theorem erase_only (disk : Disk) (location : Location) : disk.erase location = disk.only (· ≠ location) := by
  simp [erase, only]

theorem remove_only (disk : Disk) (location : Location) : disk.remove location = disk.only fun other => ¬ location <+: other := by
  have same : ∀ other : Location, (!location.isPrefixOf other) = decide (¬ location <+: other) := by
    intro other
    rw [Bool.eq_iff_iff]
    simp [← List.isPrefixOf_iff_prefix]
  simp only [remove, only, same]

theorem lookup_erase {disk : Disk} {location other : Location} (inner : location ≠ []) :
    (disk.erase location).lookup other = if other = location then none else disk.lookup other := by
  by_cases root : other = []
  · simp [root, lookup_root, Ne.symm inner]
  · rw [erase_only, lookup_only root]
    by_cases same : other = location <;> simp [same]

theorem lookup_remove {disk : Disk} {location other : Location} (inner : location ≠ []) :
    (disk.remove location).lookup other = if location <+: other then none else disk.lookup other := by
  by_cases root : other = []
  · simp [root, lookup_root, inner]
  · rw [remove_only, lookup_only root]
    by_cases below : location <+: other <;> simp [below]

theorem lookup_put {disk : Disk} {location other : Location} (entry : Option (List UInt8)) (inner : location ≠ []) :
    (disk.put location entry).lookup other = if other = location then some (.ofEntry entry) else disk.lookup other := by
  by_cases same : other = location
  · subst other
    simp [lookup, put, inner]
  · have kept : (disk.erase location).lookup other = disk.lookup other := by rw [lookup_erase inner, if_neg same]
    rw [if_neg same, ← kept]
    simp [lookup, put, Ne.symm same]

theorem lookup_write {disk : Disk} {location other : Location} (bytes : List UInt8) (inner : location ≠ []) :
    (disk.write location bytes).lookup other = if other = location then some (.file bytes) else disk.lookup other :=
  lookup_put (some bytes) inner

theorem erase_put (disk : Disk) (location : Location) (entry : Option (List UInt8)) :
    (disk.put location entry).erase location = disk.erase location := by
  simp [erase, put, List.filter_filter]

theorem write_write (disk : Disk) (location : Location) (first second : List UInt8) :
    (disk.write location first).write location second = disk.write location second := by
  unfold write
  rw [put, erase_put, ← put]

theorem erase_absent {disk : Disk} {location : Location} (absent : disk.lookup location = none) : disk.erase location = disk := by
  have other : disk.lookup location ≠ some .directory := by simp [absent]
  have inner := inner_of_lookup other
  have unlisted : disk.entries.find? (fun entry => entry.1 = location) = none := by simpa [lookup, inner] using absent
  have apart : ∀ entry ∈ disk.entries, entry.1 ≠ location := by simpa using unlisted
  have whole : (disk.erase location).entries = disk.entries := by
    simp only [erase, List.filter_eq_self, decide_eq_true_eq]
    exact apart
  exact congrArg Disk.mk whole

-- What is deleted is gone, whether or not it was there.
theorem unlink_other {disk : Disk} {location : Location} (other : disk.lookup location ≠ some .directory) :
    disk.unlink location = .ok (disk.erase location) := by
  cases there : disk.lookup location with
  | none => simp [unlink, there, erase_absent there]
  | some content =>
    cases content with
    | directory => exact absurd there other
    | file bytes => simp [unlink, there]

theorem unlink_directory {disk : Disk} {location : Location} (directory : disk.lookup location = some .directory) :
    disk.unlink location = .error .isDirectory := by
  simp [unlink, directory]

end PortableActions.Disk
