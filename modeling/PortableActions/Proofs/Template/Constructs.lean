import PortableActions.Proofs.Template.Detection
import PortableActions.Proofs.Template.Patterns
import PortableActions.Proofs.Template.Replanning
import Mathlib.Data.List.TakeWhile
-- Detection beside rendering. What detection sees is always something that a later stage
-- rewrites. The other way round it misses the constructs that are broken over several lines
-- and the paths in braces that only the brace of an escaped bracket closes.
namespace PortableActions.Template.Marker

-- Something that a stage behind the classpath rewrites: a path in braces, a one-character
-- marker, or an args construct once escaped brackets are hidden.
def holdsConstruct (t : Text) : Bool :=
  Text.occurs bracedPath t || [fileSeparator, pathSeparator, home, commandSeparator].any (Text.mentions · t) ||
    Text.occurs argsConstruct (protect t)

-- What closes in sight is a character of the text, and stays one when escapes are hidden.
theorem Closes.mem {close : Char} {t : Text} (closes : Closes close t) : close ∈ t :=
  (List.takeWhile_prefix _).subset (Text.mem_of_plain ((Text.mem_replaceAll (by simp)).mp closes))

theorem Closes.mem_protect {close : Char} {t : Text} (closes : Closes close t) (other : close ≠ standIn) :
    close ∈ protect t := by
  have seen := (closesOnLine_protect other).mpr closes
  exact (List.takeWhile_prefix _).subset (List.contains_iff_mem.mp seen)

theorem isSymbol_cases {c : Char} (known : isSymbol c = true) :
    ['{', c, '}'] ∈ [fileSeparator, pathSeparator, home, commandSeparator] := by
  simp only [isSymbol, Bool.or_eq_true, decide_eq_true_eq] at known
  rcases known with ((rfl | rfl) | rfl) | rfl <;> decide

theorem holdsConstruct_of_inSight {t : Text} (sight : InSight t) : holdsConstruct t = true := by
  simp only [holdsConstruct, Bool.or_eq_true]
  cases sight with
  | symbol known inside =>
    exact .inl (.inr (List.any_eq_true.mpr ⟨_, isSymbol_cases known, (Text.mentions_exact (by simp)).mpr inside⟩))
  | path known inside closed =>
    obtain ⟨body, rest, split, absent⟩ := List.eq_append_cons_of_mem closed.mem
    have found := bracedPath_closed known absent rest
    rw [split] at inside
    exact .inl (.inl (Text.occurs_exact.mpr ⟨_, inside, by simp, by simp [found]⟩))
  | @args r inside closed =>
    obtain ⟨held, rest, split, free⟩ := List.eq_append_cons_of_mem (closed.mem_protect (by decide))
    have found := argsConstruct_closed free rest
    have hidden := protect_suffix inside (by simp)
    rw [protect_unlike (by decide), protect_unlike (by decide), split] at hidden
    exact .inr (Text.occurs_exact.mpr ⟨_, hidden, by simp, by simp [found]⟩)

-- On one line without escaped brackets every closing character is in sight.
theorem closes_of_mem {close : Char} {t : Text} (single : '\n' ∉ t) (unescaped : ¬ escapedBracket <:+: t)
    (member : close ∈ t) : Closes close t := by
  have whole : line t = t := by
    rw [line, List.takeWhile_eq_self_iff]
    intro c inside
    exact decide_eq_true fun same : c = '\n' => single (same ▸ inside)
  rwa [Closes, whole, Text.replaceAll_absent (by decide) [] unescaped]

theorem inSight_of_holdsConstruct {t : Text} (single : '\n' ∉ t) (unescaped : ¬ escapedBracket <:+: t)
    (holds : holdsConstruct t = true) : InSight t := by
  have behind : ∀ r, r <:+ t → ∀ close ∈ r, Closes close r := fun r inside close member =>
    closes_of_mem (fun break_ => single (inside.subset break_)) (fun escape => unescaped (escape.trans inside.isInfix)) member
  have plain : protect t = t := Text.replaceAll_absent (by decide) [standIn] unescaped
  simp only [holdsConstruct, plain, Bool.or_eq_true, List.any_eq_true] at holds
  rcases holds with (path | ⟨marker, among, shown⟩) | args
  · obtain ⟨place, inside, _, seen⟩ := Text.occurs_exact.mp path
    obtain ⟨found, here⟩ := Option.isSome_iff_exists.mp seen
    obtain ⟨root, body, rest, known, _, rfl, _⟩ := bracedPath_parts here
    have later : body ++ '}' :: rest <:+ t := (List.suffix_append ['{', root, '/'] _).trans inside
    exact .path known inside (behind _ later '}' (by simp))
  · have inside : ∃ c, isSymbol c = true ∧ marker = ['{', c, '}'] := by
      simp only [List.mem_cons, List.not_mem_nil, or_false] at among
      rcases among with rfl | rfl | rfl | rfl <;> exact ⟨_, by decide, rfl⟩
    obtain ⟨c, known, rfl⟩ := inside
    exact .symbol known ((Text.mentions_exact (by simp)).mp shown)
  · obtain ⟨place, inside, _, seen⟩ := Text.occurs_exact.mp args
    obtain ⟨found, here⟩ := Option.isSome_iff_exists.mp seen
    obtain ⟨held, rest, rfl, _, _⟩ := argsConstruct_parts here
    have later : held ++ ']' :: rest <:+ t := (List.suffix_append ['@', '['] _).trans inside
    exact .args inside (behind _ later ']' (by simp))

-- Detection sees exactly what is in sight, which is never more than rendering rewrites, and
-- planning leaves a template with something in sight as it is. Detection and rendering agree
-- on a template unless all its constructs are out of sight; none is on a single line without
-- escaped brackets.
theorem isUsedIn_agrees (t : Text) :
    (isUsedIn t = true ↔ InSight t) ∧
    (InSight t → holdsConstruct t = true ∧ Suggestion.plan t = t) ∧
    ((isUsedIn t = true ↔ holdsConstruct t = true) ↔ (holdsConstruct t = true → InSight t)) ∧
    ('\n' ∉ t → ¬ escapedBracket <:+: t → (isUsedIn t = true ↔ holdsConstruct t = true)) := by
  have sound : isUsedIn t = true → holdsConstruct t = true := fun used =>
    holdsConstruct_of_inSight (isUsedIn_exact.mp used)
  have agree : (holdsConstruct t = true → InSight t) → (isUsedIn t = true ↔ holdsConstruct t = true) :=
    fun seen => ⟨sound, fun holds => isUsedIn_exact.mpr (seen holds)⟩
  refine ⟨isUsedIn_exact, ?_, ⟨?_, agree⟩, ?_⟩
  · exact fun sight => ⟨holdsConstruct_of_inSight sight, Suggestion.plan_marked (isUsedIn_exact.mpr sight)⟩
  · exact fun same holds => isUsedIn_exact.mp (same.mpr holds)
  · exact fun single unescaped => agree (inSight_of_holdsConstruct single unescaped)

-- A path with an escaped bracket in it is in sight, for its own brace closes it as well.
theorem isUsedIn_agrees_path :
    InSight "cp \x7b./a\x7b]\x7db\x7d c\n".toList ∧
    (isUsedIn "cp \x7b./a\x7b]\x7db\x7d c\n".toList = true ↔ holdsConstruct "cp \x7b./a\x7b]\x7db\x7d c\n".toList = true) ∧
    Suggestion.plan "cp \x7b./a\x7b]\x7db\x7d c\n".toList = "cp \x7b./a\x7b]\x7db\x7d c\n".toList ∧
    '\n' ∉ "javac a/b".toList ∧ ¬ escapedBracket <:+: "javac a/b".toList ∧
    (isUsedIn "javac a/b".toList = true ↔ holdsConstruct "javac a/b".toList = true) := by
  obtain ⟨exact_, still, agree, _⟩ := isUsedIn_agrees "cp \x7b./a\x7b]\x7db\x7d c\n".toList
  have sight := exact_.mp (by decide +kernel)
  have single : '\n' ∉ "javac a/b".toList := by decide
  have unescaped : ¬ escapedBracket <:+: "javac a/b".toList := by decide +kernel
  exact ⟨sight, agree.mpr fun _ => sight, (still sight).2, single, unescaped,
    (isUsedIn_agrees "javac a/b".toList).2.2.2 single unescaped⟩

-- An args construct on two lines is not detected, and planning puts another one into it.
theorem isUsedIn_agrees_two_lines :
    ¬ (isUsedIn "javac @[-cp\n{{deps}}] Main.java".toList = true ↔
      holdsConstruct "javac @[-cp\n{{deps}}] Main.java".toList = true) ∧
    Suggestion.plan "javac @[-cp\n{{deps}}] Main.java".toList = "javac @[-cp @[{{deps}}{]}] Main.java".toList := by
  decide +kernel

end PortableActions.Template.Marker
