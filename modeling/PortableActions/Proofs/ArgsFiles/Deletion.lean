import PortableActions.ArgsFiles
import PortableActions.Proofs.Disk.Lookup
-- What closing a scope does. A directory in the place of a recorded file stays and is
-- reported; every other recorded location is empty afterwards. One deletion never changes
-- whether another fails, so the outcome can be told from the disk before.
namespace PortableActions.ArgsFiles

theorem deleteAll_exact (record : List Location) (disk : Disk) :
    deleteAll record disk =
      (disk.only fun location => location ∉ record ∨ disk.lookup location = some .directory,
        (record.filter fun location => disk.lookup location = some .directory).map fun location => ⟨location, .isDirectory⟩) := by
  induction record generalizing disk with
  | nil => simp [deleteAll, Disk.only_all]
  | cons location rest ih =>
    by_cases directory : disk.lookup location = some .directory
    · have same : ∀ other, (other ∉ rest ∨ disk.lookup other = some .directory) ↔
          (other ∉ location :: rest ∨ disk.lookup other = some .directory) := by
        intro other
        by_cases here : other = location
        · simp [here, directory]
        · simp [here]
      simp [deleteAll, Disk.unlink_directory directory, ih, directory, Disk.only_congr same]
    · have inner := Disk.inner_of_lookup directory
      have found : ∀ other, (disk.erase location).lookup other = some .directory ↔ disk.lookup other = some .directory := by
        intro other
        by_cases here : other = location
        · simp [Disk.lookup_erase inner, here, directory]
        · simp [Disk.lookup_erase inner, here]
      have same : ∀ other, (other ≠ location ∧ (other ∉ rest ∨ disk.lookup other = some .directory)) ↔
          (other ∉ location :: rest ∨ disk.lookup other = some .directory) := by
        intro other
        by_cases here : other = location
        · simp [here, directory]
        · simp [here]
      simp only [deleteAll, Disk.unlink_other directory, ih, found]
      simp [Disk.erase_only, Disk.only_only, Disk.only_congr same, directory]

theorem close_disk (scope : ArgsFiles) : scope.close.1.host.disk =
    scope.host.disk.only fun location => location ∉ scope.record ∨ scope.host.disk.lookup location = some .directory :=
  congrArg Prod.fst (deleteAll_exact scope.record scope.host.disk)

theorem close_warnings (scope : ArgsFiles) : scope.close.2 =
    (scope.record.filter fun location => scope.host.disk.lookup location = some .directory).map
      fun location => ⟨location, .isDirectory⟩ :=
  congrArg Prod.snd (deleteAll_exact scope.record scope.host.disk)

theorem close_lookup (scope : ArgsFiles) (location : Location) : scope.close.1.host.disk.lookup location =
    if location ∈ scope.record ∧ scope.host.disk.lookup location ≠ some .directory then none
    else scope.host.disk.lookup location := by
  by_cases root : location = []
  · simp [root, Disk.lookup_root]
  · rw [close_disk, Disk.lookup_only root]
    by_cases recorded : location ∈ scope.record
    · by_cases directory : scope.host.disk.lookup location = some .directory
      · simp [directory]
      · simp [recorded, directory]
    · simp [recorded]

-- Nothing that was recorded is a file any more.
theorem close_recorded {scope : ArgsFiles} {location : Location} (recorded : location ∈ scope.record) (bytes : List UInt8) :
    scope.close.1.host.disk.lookup location ≠ some (.file bytes) := by
  rw [close_lookup]
  by_cases directory : scope.host.disk.lookup location = some .directory
  · simp [directory]
  · simp [recorded, directory]

end PortableActions.ArgsFiles
