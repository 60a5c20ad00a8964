import PortableActions.ArgsFiles.Session
import PortableActions.Proofs.ArgsFiles.Deletion
import PortableActions.Proofs.ArgsFiles.Naming
-- A scope compared with the books an onlooker keeps of it, who sees only the disk before and
-- after every event. Whatever is done to the files from outside, the record and the books
-- agree, and the scope touches nothing but files of its own.
namespace PortableActions

namespace Disk

-- Where something stands that did not stand there before.
def appeared (before after : Disk) : List Location :=
  (after.entries.map Prod.fst).filter fun location => before.lookup location = none

theorem lookup_listed {disk : Disk} {entry : Location × Option (List UInt8)} (listed : entry ∈ disk.entries) :
    disk.lookup entry.1 ≠ none := by
  by_cases root : entry.1 = []
  · simp [root, lookup_root]
  · intro absent
    simp only [lookup, root, if_false, Option.map_eq_none_iff, List.find?_eq_none] at absent
    exact absent entry listed (by simp)

theorem appeared_same (disk : Disk) : disk.appeared disk = [] := by
  simp only [appeared, List.filter_eq_nil_iff, decide_eq_true_eq]
  intro location member
  obtain ⟨entry, listed, rfl⟩ := List.mem_map.mp member
  exact lookup_listed listed

theorem appeared_write {disk : Disk} {location : Location} (bytes : List UInt8) (free : disk.lookup location = none) :
    disk.appeared (disk.write location bytes) = [location] := by
  have old := appeared_same disk
  simp only [appeared] at old
  simp [appeared, write, put, erase_absent free, free, old]

end Disk

namespace ArgsFiles

-- A file that was made, for which content, and whether it was disturbed from outside since.
structure Receipt where
  location : Location
  content : Text
  disturbed : Bool
  deriving DecidableEq, Repr

def Receipt.disturb (receipt : Receipt) : Receipt := { receipt with disturbed := true }

-- The files made since the last closing, and the locations of all files ever made.
structure Ledger where
  current : List Receipt
  made : List Location
  deriving DecidableEq, Repr

def Event.isOwn : Event → Bool
  | .remove _ | .replace _ => false
  | _ => true

def Event.isClosing : Event → Bool
  | .close | .leave _ => true
  | _ => false

namespace Ledger

def close (ledger : Ledger) : Ledger := { ledger with current := [] }

def disturb (ledger : Ledger) (index : Nat) : Ledger :=
  { ledger with current := ledger.current.modify index Receipt.disturb }

-- An event is entered as it is seen on the disk: a creation has made what has appeared.
def post (ledger : Ledger) (event : Event) (before after : Disk) : Ledger :=
  match event with
  | .create content =>
    let fresh := Disk.appeared before after
    ⟨ledger.current ++ fresh.map fun location => ⟨location, content, false⟩, ledger.made ++ fresh⟩
  | .enter => ledger
  | .close | .leave _ => ledger.close
  | .remove index | .replace index => ledger.disturb index

end Ledger

-- The books after a run.
def account (settings : Settings) (scope : ArgsFiles) (ledger : Ledger) : List Event → Ledger
  | [] => ledger
  | event :: rest =>
    let next := (scope.advance settings event).scope
    account settings next (ledger.post event scope.host.disk next.host.disk) rest

-- What holds of a scope and its books after every event. Files ever made have names that
-- were tried, so the next one stands apart from all of them; nothing but what stands at or
-- below them differs from the beginning, so it stands apart from all that was there, too.
structure Accounted (settings : Settings) (origin : Host) (ledger : Ledger) (scope : ArgsFiles) : Prop where
  here : scope.host.here = origin.here
  record : scope.record = ledger.current.map Receipt.location
  recent : scope.record <:+ ledger.made
  distinct : ledger.made.Nodup
  named : ∀ location ∈ ledger.made, ∃ k, k ≤ scope.host.attempts ∧ location = origin.placeFor settings k
  fresh : ∀ location ∈ ledger.made, origin.disk.lookup location = none
  frame : ∀ location, (∀ made ∈ ledger.made, ¬ made <+: location) →
    scope.host.disk.lookup location = origin.disk.lookup location
  holds : ∀ receipt ∈ ledger.current, receipt.disturbed = false →
    scope.host.disk.lookup receipt.location = some (.file (stored settings receipt.location receipt.content))

variable {settings : Settings} {origin : Host} {ledger : Ledger} {scope : ArgsFiles}

theorem start_accounted (settings : Settings) (origin : Host) :
    Accounted settings origin ⟨[], []⟩ (.start origin) where
  here := rfl
  record := rfl
  recent := List.suffix_refl _
  distinct := .nil
  named := by simp
  fresh := by simp
  frame _ _ := rfl
  holds := by simp

theorem Accounted.made_of_record (valid : Accounted settings origin ledger scope) {location : Location}
    (recorded : location ∈ scope.record) : location ∈ ledger.made := valid.recent.subset recorded

theorem Accounted.record_nodup (valid : Accounted settings origin ledger scope) : scope.record.Nodup :=
  valid.distinct.sublist valid.recent.sublist

theorem Accounted.made_inner (valid : Accounted settings origin ledger scope) {location : Location}
    (made : location ∈ ledger.made) : location ≠ [] := by
  have other : origin.disk.lookup location ≠ some .directory := by simp [valid.fresh location made]
  exact Disk.inner_of_lookup other

theorem Accounted.made_apart (valid : Accounted settings origin ledger scope) {one two : Location}
    (first : one ∈ ledger.made) (second : two ∈ ledger.made) (below : one <+: two) : one = two := by
  obtain ⟨j, _, rfl⟩ := valid.named one first
  obtain ⟨k, _, rfl⟩ := valid.named two second
  rw [Host.placeFor_apart below]

-- Of two numbers of the record neither leads to a file at or below the other.
theorem Accounted.record_apart (valid : Accounted settings origin ledger scope) {i j : Nat} {one two : Location}
    (first : scope.record[i]? = some one) (second : scope.record[j]? = some two) (unlike : i ≠ j) : ¬ one <+: two := by
  intro below
  have same := valid.made_apart (valid.made_of_record (List.mem_of_getElem? first))
    (valid.made_of_record (List.mem_of_getElem? second)) below
  have bound := (List.getElem?_eq_some_iff.mp first).1
  exact unlike ((List.getElem?_inj bound valid.record_nodup).mp (by rw [first, second, same]))

theorem advance_create (settings : Settings) (content : Text) (scope : ArgsFiles) :
    (scope.advance settings (.create content)).scope = stateAfter (create settings content scope) := by
  cases result : create settings content scope <;> simp [advance, result, stateAfter]

theorem post_added {content : Text} {location : Location} {next : ArgsFiles}
    (added : Added settings content scope location next) :
    ledger.post (.create content) scope.host.disk next.host.disk =
      ⟨ledger.current ++ [⟨location, content, false⟩], ledger.made ++ [location]⟩ := by
  simp [Ledger.post, added.disk, Disk.appeared_write _ added.free]

-- A new file stands under a name with a higher number than all before it.
theorem Accounted.added_apart (valid : Accounted settings origin ledger scope)
    (start : '/' ∉ settings.fileNameStart) (ending : '/' ∉ settings.fileNameEnd)
    {content : Text} {location : Location} {next : ArgsFiles} (added : Added settings content scope location next) :
    (∀ made ∈ ledger.made, ¬ made <+: location) ∧ location = origin.placeFor settings next.host.attempts ∧
      scope.host.attempts < next.host.attempts := by
  obtain ⟨host, made, attempts⟩ := added.made
  have counted : scope.host.attempts < next.host.attempts := attempts ▸ made.counted
  have place : location = origin.placeFor settings next.host.attempts := by
    rw [made.place start ending, attempts, Host.placeFor_here valid.here]
  refine ⟨?_, place, counted⟩
  intro other before below
  obtain ⟨k, tried, rfl⟩ := valid.named other before
  rw [place] at below
  have same := Host.placeFor_apart below
  omega

theorem Accounted.add (valid : Accounted settings origin ledger scope)
    (start : '/' ∉ settings.fileNameStart) (ending : '/' ∉ settings.fileNameEnd)
    {content : Text} {location : Location} {next : ArgsFiles} (added : Added settings content scope location next) :
    Accounted settings origin (ledger.post (.create content) scope.host.disk next.host.disk) next := by
  -- The new file lies apart from every earlier one, and its number has not been tried before.
  obtain ⟨apart, place, counted⟩ := valid.added_apart start ending added
  have absent : location ∉ ledger.made := fun member => apart location member (List.prefix_refl location)
  have written : ∀ other, next.host.disk.lookup other =
      if other = location then some (.file (stored settings location content)) else scope.host.disk.lookup other := by
    intro other
    rw [added.disk, Disk.lookup_write _ added.inner]
  rw [post_added added]
  refine { here := added.here.trans valid.here, record := ?_, recent := ?_, distinct := ?_, named := ?_, fresh := ?_,
           frame := ?_, holds := ?_ }
  · simp [added.record, valid.record]
  · rw [added.record]
    exact (List.suffix_append_inj_of_length_eq rfl).mpr ⟨valid.recent, rfl⟩
  · simpa [List.nodup_append] using ⟨valid.distinct, fun other made same => absent (same ▸ made)⟩
  · intro other member
    rcases List.mem_append.mp member with old | new
    · obtain ⟨k, tried, at_⟩ := valid.named other old
      exact ⟨k, by omega, at_⟩
    · exact ⟨next.host.attempts, Nat.le_refl _, (List.mem_singleton.mp new).trans place⟩
  · intro other member
    rcases List.mem_append.mp member with old | new
    · exact valid.fresh other old
    · rw [List.mem_singleton.mp new, ← valid.frame location apart]
      exact added.free
  · intro other clear
    have aside : other ≠ location := fun same => clear location (by simp) (same ▸ List.prefix_refl other)
    rw [written, if_neg aside]
    exact valid.frame other fun made member => clear made (by simp [member])
  · intro receipt member calm
    rcases List.mem_append.mp member with old | new
    · have recorded : receipt.location ∈ scope.record := by
        rw [valid.record]
        exact List.mem_map_of_mem old
      have aside : receipt.location ≠ location := fun same => absent (same ▸ valid.made_of_record recorded)
      rw [written, if_neg aside]
      exact valid.holds receipt old calm
    · rw [List.mem_singleton.mp new, written, if_pos rfl]

-- A creation that makes no file leaves the disk and the books as they are.
theorem Accounted.refused (valid : Accounted settings origin ledger scope) {content : Text} {next : ArgsFiles}
    (refused : Refused scope next) :
    Accounted settings origin (ledger.post (.create content) scope.host.disk next.host.disk) next := by
  have same : ledger.post (.create content) scope.host.disk next.host.disk = ledger := by
    simp [Ledger.post, refused.disk, Disk.appeared_same]
  rw [same]
  refine { here := refused.here.trans valid.here, record := refused.record.trans valid.record,
           recent := refused.record ▸ valid.recent, distinct := valid.distinct, named := ?_, fresh := valid.fresh,
           frame := refused.disk ▸ valid.frame, holds := refused.disk ▸ valid.holds }
  intro location member
  obtain ⟨k, tried, at_⟩ := valid.named location member
  exact ⟨k, Nat.le_trans tried refused.counted, at_⟩

theorem Accounted.close (valid : Accounted settings origin ledger scope) :
    Accounted settings origin ledger.close scope.close.1 where
  here := valid.here
  record := rfl
  recent := List.nil_suffix
  distinct := valid.distinct
  named := valid.named
  fresh := valid.fresh
  frame := by
    intro location clear
    have unrecorded : location ∉ scope.record := fun recorded =>
      clear location (valid.made_of_record recorded) (List.prefix_refl location)
    rw [close_lookup, if_neg fun both => unrecorded both.1]
    exact valid.frame location clear
  holds := by simp [Ledger.close]

theorem modify_record {index : Nat} {receipts : List Receipt} :
    (receipts.modify index Receipt.disturb).map Receipt.location = receipts.map Receipt.location := by
  induction receipts generalizing index with
  | nil => simp
  | cons receipt rest ih => cases index <;> simp [ih, Receipt.disturb]

-- A receipt that is still undisturbed is an old one, and not the one with the number.
theorem modify_calm {index : Nat} {receipts : List Receipt} {receipt : Receipt}
    (member : receipt ∈ receipts.modify index Receipt.disturb)
    (calm : receipt.disturbed = false) : ∃ other, other ≠ index ∧ receipts[other]? = some receipt := by
  obtain ⟨other, found⟩ := List.mem_iff_getElem?.mp member
  rw [List.getElem?_modify] at found
  by_cases same : index = other
  · simp only [same, if_true, Option.map_eq_map, Option.map_eq_some_iff] at found
    obtain ⟨before, _, rfl⟩ := found
    simp [Receipt.disturb] at calm
  · simp only [same, if_false, Option.map_eq_map, Option.map_id'] at found
    exact ⟨other, Ne.symm same, by simpa using found⟩

-- Others change nothing but what stands at or below the recorded file they choose.
theorem Accounted.disturb (valid : Accounted settings origin ledger scope) (index : Nat) {change : Disk → Location → Disk}
    (aside : ∀ disk location other, location ≠ [] → ¬ location <+: other →
      (change disk location).lookup other = disk.lookup other) :
    Accounted settings origin (ledger.disturb index) (scope.disturb index change).scope := by
  unfold ArgsFiles.disturb
  cases chosen : scope.record[index]? with
  | none =>
    have beyond : ledger.current.length ≤ index := by
      simpa [valid.record] using chosen
    rw [Ledger.disturb, List.modify_eq_self beyond]
    exact valid
  | some location =>
    have recorded : location ∈ scope.record := List.mem_of_getElem? chosen
    have made := valid.made_of_record recorded
    have inner := valid.made_inner made
    refine { here := valid.here, record := ?_, recent := valid.recent, distinct := valid.distinct, named := valid.named,
             fresh := valid.fresh, frame := ?_, holds := ?_ }
    · rw [Ledger.disturb, modify_record]
      exact valid.record
    · intro other clear
      rw [← valid.frame other clear]
      exact aside _ _ _ inner (clear location made)
    · intro receipt member calm
      obtain ⟨number, apart, listed⟩ := modify_calm member calm
      have placed : scope.record[number]? = some receipt.location := by simp [valid.record, listed]
      have below := valid.record_apart chosen placed (Ne.symm apart)
      rw [← valid.holds receipt (List.mem_of_getElem? listed) calm]
      exact aside _ _ _ inner below

theorem Accounted.step (valid : Accounted settings origin ledger scope)
    (start : '/' ∉ settings.fileNameStart) (ending : '/' ∉ settings.fileNameEnd) (event : Event) :
    let next := (scope.advance settings event).scope
    Accounted settings origin (ledger.post event scope.host.disk next.host.disk) next := by
  cases event with
  | create content =>
    rw [advance_create]
    rcases create_adds settings content scope with refused | ⟨location, added⟩
    · exact valid.refused refused
    · exact valid.add start ending added
  | enter => exact valid
  | close => exact valid.close
  | leave failing => exact valid.close
  | remove index =>
    refine valid.disturb index ?_
    intro disk location other inner apart
    rw [Disk.lookup_remove inner, if_neg apart]
  | replace index =>
    refine valid.disturb index ?_
    intro disk location other inner apart
    have unlike : other ≠ location := fun same => apart (same ▸ List.prefix_refl other)
    rw [Disk.lookup_put none inner, if_neg unlike, Disk.lookup_remove inner, if_neg apart]

theorem Accounted.run (valid : Accounted settings origin ledger scope)
    (start : '/' ∉ settings.fileNameStart) (ending : '/' ∉ settings.fileNameEnd) (events : List Event) :
    Accounted settings origin (account settings scope ledger events) (run settings scope events) := by
  induction events generalizing scope ledger with
  | nil => exact valid
  | cons event rest ih => exact ih (valid.step start ending event)

-- What an onlooker can rely on, whatever has happened since the scope was started on a host.
structure Reliable (settings : Settings) (origin : Host) (ledger : Ledger) (scope : ArgsFiles) : Prop where
  record : scope.record = ledger.current.map Receipt.location
  distinct : scope.record.Nodup
  holds : ∀ receipt ∈ ledger.current, receipt.disturbed = false →
    scope.host.disk.lookup receipt.location = some (.file (stored settings receipt.location receipt.content))
  -- The scope changes neither what was there before it nor what is not its own.
  foreign : ∀ event : Event, event.isOwn = true → ∀ location,
    let next := (scope.advance settings event).scope
    origin.disk.lookup location ≠ none ∨ location ∉ (ledger.post event scope.host.disk next.host.disk).made →
      next.host.disk.lookup location = scope.host.disk.lookup location
  -- Nor does a creation change anything that stands on the disk.
  standing : ∀ content, Untouched scope.host.disk (scope.advance settings (.create content)).scope.host.disk
  closing : ∀ event : Event, event.isClosing = true →
    let outcome := scope.advance settings event
    outcome.answer = .closed ∧ outcome.scope.record = [] ∧
      (∀ location ∈ scope.record, ∀ bytes, outcome.scope.host.disk.lookup location ≠ some (.file bytes)) ∧
      outcome.warnings = (scope.record.filter fun location => scope.host.disk.lookup location = some .directory).map
        fun location => ⟨location, .isDirectory⟩

theorem close_foreign {location : Location} (foreign : location ∉ scope.record) :
    scope.close.1.host.disk.lookup location = scope.host.disk.lookup location := by
  rw [close_lookup, if_neg fun both => foreign both.1]

theorem Accounted.foreign (valid : Accounted settings origin ledger scope) {event : Event}
    (own : event.isOwn = true) {location : Location}
    (foreign : location ∉ (ledger.post event scope.host.disk (scope.advance settings event).scope.host.disk).made) :
    (scope.advance settings event).scope.host.disk.lookup location = scope.host.disk.lookup location := by
  cases event with
  | create content =>
    rw [advance_create] at foreign ⊢
    rcases create_adds settings content scope with refused | ⟨added, adds⟩
    · rw [refused.disk]
    · rw [post_added adds] at foreign
      have aside : location ≠ added := fun same => foreign (by simp [same])
      rw [adds.disk, Disk.lookup_write _ adds.inner, if_neg aside]
  | enter => rfl
  | close => exact close_foreign fun recorded => foreign (valid.made_of_record recorded)
  | leave failing => exact close_foreign fun recorded => foreign (valid.made_of_record recorded)
  | remove index => cases own
  | replace index => cases own

theorem Accounted.reliable (valid : Accounted settings origin ledger scope)
    (start : '/' ∉ settings.fileNameStart) (ending : '/' ∉ settings.fileNameEnd) :
    Reliable settings origin ledger scope where
  record := valid.record
  distinct := valid.record_nodup
  holds := valid.holds
  foreign := by
    intro event own location next foreign
    refine valid.foreign own ?_
    rcases foreign with there | unmade
    · exact fun made => there ((valid.step start ending event).fresh location made)
    · exact unmade
  standing content := by
    rw [advance_create]
    exact create_untouched settings content scope
  closing := by
    intro event closes
    cases event with
    | close => exact ⟨rfl, rfl, fun _ recorded => close_recorded recorded, close_warnings scope⟩
    | leave failing => exact ⟨rfl, rfl, fun _ recorded => close_recorded recorded, close_warnings scope⟩
    | create content => cases closes
    | enter => cases closes
    | remove index => cases closes
    | replace index => cases closes

-- A host on which the first name is taken.
def crowdedHost : Host :=
  ⟨["tmp".toList],
    ⟨[(["tmp".toList], none), (["tmp".toList, "actionrunner-args-00000001.txt".toList], some [])]⟩, 0⟩

def inAscii : Settings := { encoding := "ascii".toList }

-- The second content cannot be encoded; of the three files one becomes a directory and one goes.
def disturbedRun : List Event := [.create ['a'], .create ['é'], .create ['b'], .replace 0, .remove 2]

end ArgsFiles
end PortableActions
