import PortableActions.Proofs.CommandLine.Handover
import PortableActions.Proofs.CommandLine.Placement
import PortableActions.Proofs.Template.Patterns
import PortableActions.Proofs.Text.Trimming
-- What the stages on a POSIX platform do to a quantity that adds up: only the characters of
-- markers go, and only those of args constructs and the blanks inside them can go later.
namespace PortableActions.CommandLine
open PortableActions.Template

variable {f : Text → Int}

-- Braces go in pairs.
theorem measure_paths (additive : Text.Additive f) (braces : f ['{'] + f ['}'] = 0) (t : Text) : f (pathsPlaced t) = f t := by
  refine Text.measure_eq additive Marker.bracedPath_sized (fun front rest held seen => ?_) t
  rw [(Marker.bracedPath_front seen).1, additive.cons, additive.append]
  omega

theorem measure_symbol (additive : Text.Additive f) (braces : f ['{'] + f ['}'] = 0) (k : Char) (t : Text) :
    f (Text.replaceAll ['{', k, '}'] [k] t) = f t := by
  refine Text.measure_eq additive (Text.literal_sized _) (fun front rest held seen => ?_) t
  rw [Text.literal_front seen, additive.cons '{' [k, '}'], additive.cons k ['}']]
  omega

theorem measure_settleAll (additive : Text.Additive f) (braces : f ['{'] + f ['}'] = 0) (t : Text) : f (settleAll t) = f t := by
  have symbol := fun k t => measure_symbol additive braces k t
  rw [settleAll, Marker.fileSeparator, Marker.pathSeparator, Marker.home, Marker.commandSeparator, symbol, symbol, symbol, symbol]

-- If an occurrence is written without some of its characters, so is the text.
theorem inserted_replace {pattern : Text.Pattern} {render : Text → Text} {extra : List Char} (sized : Text.Sized pattern)
    (each : ∀ front rest held, pattern (front ++ rest) = some ⟨held, front.length⟩ → Inserted extra (render held) front)
    (t : Text) : Inserted extra (Text.replace pattern render t) t := by
  induction t using Text.scan_induction sized with
  | nil => exact .nil
  | plain c r unseen ih =>
    rw [Text.replace_plain unseen]
    exact .keep c ih
  | hit front rest held seen split ih =>
    rw [Text.replace_of_pieces split]
    exact (each front rest held seen).append ih

-- Hiding escaped brackets and showing them again.

theorem measure_protect (additive : Text.Additive f) (alike : f [Marker.standIn] = f Marker.escapedBracket) (t : Text) :
    f (Marker.protect t) = f t := by
  refine Text.measure_eq additive (Text.literal_sized _) (fun front rest held seen => ?_) t
  rw [Text.literal_front seen, alike]

theorem measure_unprotect (additive : Text.Additive f) (alike : f [Marker.standIn] = f Marker.escapedBracket) (t : Text) :
    f (Marker.unprotect t) = f t := by
  refine Text.measure_eq additive (Text.literal_sized _) (fun front rest held seen => ?_) t
  rw [Text.literal_front seen, alike]

-- What a construct holds keeps its characters but for blanks and stand-ins.
theorem count_content (held : Text) {c : Char} (solid : Text.isBlank c = false) (other : c ∉ [']', Marker.standIn]) :
    (ArgsConstruct.content held).count c = held.count c := by
  simp only [List.mem_cons, List.not_mem_nil, or_false, not_or] at other
  rw [ArgsConstruct.content, Text.count_trim _ solid, Text.replaceAll_char]
  induction held with
  | nil => rfl
  | cons d r ih =>
    rw [List.flatMap_cons, List.count_append, ih]
    by_cases same : d = Marker.standIn
    · rw [if_pos same, same, List.count_cons_of_ne (Ne.symm other.2), List.count_singleton]
      simp [Ne.symm other.1]
    · rw [if_neg same, ← List.count_append]
      rfl

-- A character that belongs to no marker is kept by all stages.
def Ordinary (c : Char) : Prop := Text.isBlank c = false ∧ c ∉ ['{', '}', '@', '[', ']', Marker.standIn]

instance (c : Char) : Decidable (Ordinary c) := inferInstanceAs (Decidable (_ ∧ _))

theorem count_inline {c : Char} (ordinary : Ordinary c) (t : Text) : (ArgsConstruct.inline t).count c = t.count c := by
  obtain ⟨solid, other⟩ := ordinary
  simp only [List.mem_cons, List.not_mem_nil, or_false, not_or] at other
  obtain ⟨opens, closes, sign, start, bracket, bell⟩ := other
  have additive := Text.additive_count c
  have alike : ([Marker.standIn].count c : Int) = Marker.escapedBracket.count c := by
    simp [Marker.escapedBracket, Ne.symm opens, Ne.symm closes, Ne.symm bracket, Ne.symm bell]
  have constructs : ((Text.write ArgsConstruct.content (ArgsConstruct.pieces t)).count c : Int) = (Marker.protect t).count c := by
    refine Text.measure_eq additive Marker.argsConstruct_sized (fun front rest held seen => ?_) (Marker.protect t)
    rw [count_content held solid (by simp [bracket, bell]), (Marker.argsConstruct_front seen).1]
    simp [Ne.symm sign, Ne.symm start, Ne.symm bracket]
  have shown := measure_unprotect additive alike (Text.write ArgsConstruct.content (ArgsConstruct.pieces t))
  have hidden := measure_protect additive alike t
  rw [ArgsConstruct.inline]
  omega

-- The stages before the last one take out braces only.
theorem count_settled {c : Char} (other : c ∉ ['{', '}']) (t : Text) : (settleAll (pathsPlaced t)).count c = t.count c := by
  simp only [List.mem_cons, List.not_mem_nil, or_false, not_or] at other
  have braces : (['{'].count c : Int) + ['}'].count c = 0 := by simp [Ne.symm other.1, Ne.symm other.2]
  have settled := measure_settleAll (Text.additive_count c) braces (pathsPlaced t)
  have paths := measure_paths (Text.additive_count c) braces t
  omega

end PortableActions.CommandLine
