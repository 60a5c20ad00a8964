import PortableActions.Proofs.CommandLine.LostEscapes
import PortableActions.Proofs.CommandLine.OpenMarkers
-- When arguments reach the tool as they are written. It depends on the classpath, which
-- must not look like a marker anywhere, and on the brackets of the template.
namespace PortableActions.CommandLine
open PortableActions.Template

theorem delivers_inert {classpath : Option Classpath} {home : Text} :
    Delivers classpath home ↔ Inert (joinedOf classpath) := by
  constructor
  · intro delivers
    refine ⟨delivers_bracket delivers, delivers_brace delivers, delivers_bell delivers, fun place inside some_ => ?_⟩
    exact ⟨delivers_root delivers rfl inside some_, delivers_root delivers rfl inside some_, delivers_sign delivers inside some_⟩
  · intro inert template program args plain safe
    exact (hands_inert inert plain).mpr safe

-- The usual call of a tool, with the classpath as an argument of its own.
theorem handsOver_usual {classpath : Option Classpath} {home : Text} :
    HandsOver "java -cp {{deps}} Main".toList classpath home [Text.trim (joinedOf classpath)] ↔
      ']' ∉ joinedOf classpath ∧ Marker.standIn ∉ joinedOf classpath ∧ Untouched (joinedOf classpath) := by
  have plain : PlainCommand "java -cp {{deps}} Main".toList "java".toList ["-cp".toList, Marker.deps, "Main".toList] :=
    ⟨by decide +kernel, by decide +kernel, by decide +kernel, by decide +kernel⟩
  have cut : Text.pieces (Text.literal Marker.deps)
      (Suggestion.command "java".toList ["-cp".toList, Marker.deps, "Main".toList]) =
      "java -cp @[".toList.map .plain ++ .hit Marker.deps :: "] Main".toList.map .plain := by decide +kernel
  have text : "java -cp @[".toList ++ (joinedOf classpath ++ "] Main".toList) =
      "java -cp ".toList ++ ('@' :: '[' :: (joinedOf classpath ++ [']']) ++ " Main".toList) := by simp
  rw [contents_planned plain, placed, filled_single _ cut, text]
  exact wrapped_exact (by decide)

theorem handsOver_verbatim (classpath : Option Classpath) (home : Text) :
    (Inert (joinedOf classpath) → ∀ template program args, PlainCommand template program args →
      (HandsOver template classpath home (argumentsOf (joinedOf classpath) args) ↔ Safe (joinedOf classpath) program args)) ∧
    (Delivers classpath home ↔ Inert (joinedOf classpath)) ∧
    (HandsOver "java -cp {{deps}} Main".toList classpath home [Text.trim (joinedOf classpath)] ↔
      ']' ∉ joinedOf classpath ∧ Marker.standIn ∉ joinedOf classpath ∧ Untouched (joinedOf classpath)) :=
  ⟨fun inert _ _ _ plain => hands_inert inert plain, delivers_inert, handsOver_usual⟩

-- A jar in front of a directory whose name ends with a bracket.
theorem handsOver_verbatim_jar :
    Inert (joinedOf (some [.text "/x/a.jar".toList])) ∧
    PlainCommand "java -cp {{deps}}:lib/b] Main".toList "java".toList ["-cp".toList, "{{deps}}:lib/b]".toList, "Main".toList] ∧
    Safe (joinedOf (some [.text "/x/a.jar".toList])) "java".toList ["-cp".toList, "{{deps}}:lib/b]".toList, "Main".toList] ∧
    HandsOver "java -cp {{deps}}:lib/b] Main".toList (some [.text "/x/a.jar".toList]) "/home/u".toList
      ["/x/a.jar:./lib/b]".toList] := by
  have inert : Inert (joinedOf (some [.text "/x/a.jar".toList])) := inert_of_free (by decide)
  have plain : PlainCommand "java -cp {{deps}}:lib/b] Main".toList "java".toList
      ["-cp".toList, "{{deps}}:lib/b]".toList, "Main".toList] :=
    ⟨by decide +kernel, by decide +kernel, by decide +kernel, by decide +kernel⟩
  have safe : Safe (joinedOf (some [.text "/x/a.jar".toList])) "java".toList
      ["-cp".toList, "{{deps}}:lib/b]".toList, "Main".toList] := by decide +kernel
  have given := ((handsOver_verbatim (some [.text "/x/a.jar".toList]) "/home/u".toList).1 inert _ _ _ plain).mpr safe
  have spoken : argumentsOf (joinedOf (some [.text "/x/a.jar".toList]))
      ["-cp".toList, "{{deps}}:lib/b]".toList, "Main".toList] = ["/x/a.jar:./lib/b]".toList] := by decide +kernel
  rw [spoken] at given
  exact ⟨inert, plain, safe, given⟩

-- A bracket in a file name ends the construct.
theorem handsOver_verbatim_bracket :
    ¬ HandsOver "java -cp {{deps}} Main".toList (some [.text "a]b".toList]) "/home/u".toList ["a]b".toList] := by
  rw [handsOver_exact]
  decide +kernel

end PortableActions.CommandLine
