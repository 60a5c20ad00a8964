import PortableActions.Proofs.ArgsFiles.Creation
-- The names of new files. Every name that is tried carries a number of its own, so as long
-- as the two ends of the name stay within one directory no two files of a host ever come to
-- stand at one location, nor one below another.
namespace PortableActions.Host

-- Leading zeros do not change the number that is read back.
theorem serial_injective {j k : Nat} (same : serial j = serial k) : j = k := by
  have value : ∀ n, Nat.ofDigitChars 10 (serial n) 0 = n := by
    intro n
    have digits : Nat.ofDigitChars 10 (Text.ofNat n) 0 = n := Nat.ofDigitChars_toDigits (by decide) (by decide)
    simp [serial, Nat.ofDigitChars_append, Nat.ofDigitChars_replicate_zero, digits]
  have read := congrArg (fun digits => Nat.ofDigitChars 10 digits 0) same
  rwa [value, value] at read

def nameFor (settings : Settings) (k : Nat) : Text := settings.fileNameStart ++ serial k ++ settings.fileNameEnd

-- Where the k-th name tried stands, if nothing is in the way.
def placeFor (host : Host) (settings : Settings) (k : Nat) : Location :=
  Location.descend [] (Disk.names (host.directoryFor settings)) ++ [nameFor settings k]

theorem nameFor_injective {settings : Settings} {j k : Nat} (same : nameFor settings j = nameFor settings k) : j = k := by
  unfold nameFor at same
  have middle := List.append_cancel_right same
  exact serial_injective (List.append_cancel_left middle)

theorem nameFor_plain {settings : Settings} (start : '/' ∉ settings.fileNameStart) (ending : '/' ∉ settings.fileNameEnd)
    (k : Nat) : '/' ∉ nameFor settings k := by
  intro member
  simp only [nameFor, List.append_assoc, List.mem_append] at member
  rcases member with inside | digit | inside
  · exact start inside
  · exact absurd (mem_serial digit) (by decide)
  · exact ending inside

theorem serial_ne_nil (k : Nat) : serial k ≠ [] := by
  have long : 0 < (Text.ofNat k).length := Nat.length_toDigits_pos
  intro empty
  have none := (List.append_eq_nil_iff.mp empty).2
  simp [none] at long

theorem nameFor_ne_nil (settings : Settings) (k : Nat) : nameFor settings k ≠ [] := by
  simp [nameFor, serial_ne_nil]

theorem placeFor_here {one two : Host} (here : one.here = two.here) (settings : Settings) (k : Nat) :
    one.placeFor settings k = two.placeFor settings k := by
  rw [placeFor, placeFor, directoryFor_here here]

-- All places have one length, so none lies below another.
theorem placeFor_apart {host : Host} {settings : Settings} {j k : Nat}
    (below : host.placeFor settings j <+: host.placeFor settings k) : j = k := by
  have same := below.eq_of_length (by simp [placeFor])
  have names := List.append_cancel_left same
  exact nameFor_injective (List.singleton_inj.mp names)

theorem Made.counted (made : Made settings before location after) : before.attempts < after.attempts := by
  obtain ⟨tried, _, counted, last, _⟩ := made.named
  omega

theorem Made.place (made : Made settings before location after) (start : '/' ∉ settings.fileNameStart)
    (ending : '/' ∉ settings.fileNameEnd) : location = before.placeFor settings after.attempts := by
  obtain ⟨tried, here, _, last, vacant⟩ := made.named
  rw [← placeFor_here here, last]
  exact Disk.vacancy_place (nameFor_plain start ending _) (nameFor_ne_nil settings _) vacant

end PortableActions.Host
