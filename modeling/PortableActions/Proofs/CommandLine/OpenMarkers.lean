import PortableActions.Proofs.CommandLine.FirstMarkers
-- A classpath that opens or closes a marker spoils some safe command. Each way to do so
-- has a template that shows it: the classpath alone, in the middle of a rooted path, in
-- front of one, or in the name of the tool.
namespace PortableActions.CommandLine
open PortableActions.Template
open PortableActions.Template.Suggestion (Item items rooted word mentionsDeps takesArgsFiles Led)

-- Every safe command is handed over whole.
def Delivers (classpath : Option Classpath) (home : Text) : Prop :=
  ∀ template program args, PlainCommand template program args → Safe (joinedOf classpath) program args →
    HandsOver template classpath home (argumentsOf (joinedOf classpath) args)

theorem safe_single {joined program w : Text} (known : takesArgsFiles (word program) = true)
    (keeps : ∀ item ∈ items w, KeepsBrackets joined item) : Safe joined program [w] := by
  intro other among _
  rw [List.mem_singleton.mp among]
  exact ⟨known, keeps⟩

-- What a command with a single argument hands over.
theorem Delivers.single {classpath : Option Classpath} {home template program w text said : Text}
    (delivers : Delivers classpath home) (plain : PlainCommand template program [w])
    (safe : Safe (joinedOf classpath) program [w]) (mentions : mentionsDeps w = true)
    (planned : filled (joinedOf classpath) (Suggestion.command program [w]) = text)
    (read : filled (joinedOf classpath) (rooted w) = said) :
    ArgsConstruct.contents (settleAll (pathsPlaced text)) = [Text.trim said] := by
  have given := (contents_planned plain).mp (delivers template program [w] plain safe)
  simpa [placed, planned, argumentsOf, mentions, read] using given

theorem write_split (joined front : Text) (later : List Text.Piece) :
    Text.write (fun _ => joined) (front.map .plain ++ .hit Marker.deps :: later) =
      front ++ (joined ++ Text.write (fun _ => joined) later) := by
  rw [Text.write_append, Text.write_plain]
  rfl

theorem filled_single (joined : Text) {t front back : Text}
    (cut : Text.pieces (Text.literal Marker.deps) t = front.map .plain ++ .hit Marker.deps :: back.map .plain) :
    filled joined t = front ++ (joined ++ back) := by
  rw [filled, Text.replaceAll, Text.replace, cut, write_split, Text.write_plain]

theorem deps_keeps {joined : Text} : ∀ item ∈ items Marker.deps, KeepsBrackets joined item := by
  have shown : items Marker.deps = [.plain Marker.deps] := by decide +kernel
  rw [shown]
  exact List.forall_mem_singleton.mpr trivial

theorem rooted_deps (joined : Text) : filled joined (rooted Marker.deps) = joined := by
  have same : rooted Marker.deps = Marker.deps := by decide +kernel
  have cut : Text.pieces (Text.literal Marker.deps) Marker.deps = [].map .plain ++ .hit Marker.deps :: [].map .plain := by
    decide +kernel
  rw [same, filled_single joined cut, List.append_nil, List.nil_append]

-- The classpath alone.

section
variable {classpath : Option Classpath} {home : Text} (delivers : Delivers classpath home)
include delivers

theorem alone_given : ArgsConstruct.contents (settleAll (pathsPlaced ("java @[".toList ++ (joinedOf classpath ++ [']'])))) =
    [Text.trim (joinedOf classpath)] := by
  have plain : PlainCommand "java {{deps}}".toList "java".toList [Marker.deps] :=
    ⟨by decide +kernel, by decide +kernel, by decide +kernel, by decide +kernel⟩
  exact delivers.single plain (safe_single (by decide +kernel) deps_keeps) (by decide +kernel)
    (filled_single _ (by decide +kernel)) (rooted_deps _)

theorem delivers_wrapped : ']' ∉ joinedOf classpath ∧ Marker.standIn ∉ joinedOf classpath ∧ Untouched (joinedOf classpath) := by
  have text : "java @[".toList ++ (joinedOf classpath ++ [']']) =
      "java ".toList ++ ('@' :: '[' :: (joinedOf classpath ++ [']']) ++ []) := by simp
  have given := alone_given delivers
  rw [text] at given
  exact (wrapped_exact (by decide)).mp given

theorem delivers_bell : Marker.standIn ∉ joinedOf classpath := (delivers_wrapped delivers).2.1

theorem delivers_bracket : ']' ∉ joinedOf classpath := (delivers_wrapped delivers).1

-- In the middle of a rooted path.

theorem inside_given : ArgsConstruct.contents (settleAll (pathsPlaced
    ("java @[\x7b./a:".toList ++ (joinedOf classpath ++ ":./c\x7d]".toList)))) =
    [Text.trim ("./a:".toList ++ (joinedOf classpath ++ ":./c".toList))] := by
  have plain : PlainCommand "java a:{{deps}}:c".toList "java".toList ["a:{{deps}}:c".toList] :=
    ⟨by decide +kernel, by decide +kernel, by decide +kernel, by decide +kernel⟩
  have shown : items "a:{{deps}}:c".toList = [.rooted "./a:{{deps}}:./c".toList] := by decide +kernel
  have clean : Clean "./a:{{deps}}:./c".toList := by decide +kernel
  have safe : Safe (joinedOf classpath) "java".toList ["a:{{deps}}:c".toList] := by
    refine safe_single (by decide +kernel) ?_
    have absent := filled_absent clean (delivers_bracket delivers) (by decide +kernel)
    rw [shown]
    exact List.forall_mem_singleton.mpr fun last => absent (List.dropLast_subset _ last)
  have read : rooted "a:{{deps}}:c".toList = "./a:{{deps}}:./c".toList := by decide +kernel
  refine delivers.single plain safe (by decide +kernel) (filled_single _ (by decide +kernel)) ?_
  rw [read]
  exact filled_single _ (by decide +kernel)

theorem delivers_brace : '}' ∉ joinedOf classpath := by
  intro inside
  have bell := delivers_bell delivers
  have bracket := delivers_bracket delivers
  have given := inside_given delivers
  generalize joinedOf classpath = joined at *
  obtain ⟨before, after, rfl, free⟩ := List.eq_append_cons_of_mem inside
  simp only [List.mem_append, List.mem_cons, not_or] at bell bracket
  have path := paths_braced (s := "./a:".toList ++ before) ⟨'.', "a:".toList ++ before, rfl, rfl⟩ (by simp [free])
  -- The rooted path closes with the first brace of the classpath.
  have cut : pathsPlaced ("java @[\x7b./a:".toList ++ (before ++ '}' :: after ++ ":./c\x7d]".toList)) =
      "java @[./a:".toList ++ before ++ pathsPlaced (after ++ ":./c\x7d]".toList) := by
    have front := paths_braceless "java @[".toList (by decide)
    have whole := (front.append path) (after ++ ":./c\x7d]".toList)
    simpa using whole
  have handed : ArgsConstruct.contentsOf (Text.pieces Marker.argsConstruct
      (hidden ("java @[./a:".toList ++ before ++ pathsPlaced (after ++ ":./c\x7d]".toList)))) =
      [Text.trim ("./a:".toList ++ (before ++ '}' :: after ++ ":./c".toList))] := cut ▸ given
  have left := tail_untouched handed (by simp [closes, List.count_append, List.count_eq_zero.mpr free])
  have freeHeld : ']' ∉ '.' :: ("/a:".toList ++ before ++ after ++ ":./c".toList ++ ['}']) := by simp [bracket]
  have quiet : Marker.standIn ∉ '.' :: ("/a:".toList ++ before ++ after ++ ":./c".toList ++ ['}']) := by
    simp only [List.mem_append, List.mem_cons, not_or, bell]
    decide
  have first := contents_first "java ".toList (by decide) freeHeld quiet []
  have text : "java @[./a:".toList ++ before ++ (after ++ ":./c\x7d]".toList) =
      "java ".toList ++ ('@' :: '[' :: ('.' :: ("/a:".toList ++ before ++ after ++ ":./c".toList ++ ['}']) ++ [']']) ++ []) := by
    simp
  rw [left, text, first, Text.trim_solid rfl rfl] at handed
  have read : "./a:".toList ++ (before ++ '}' :: after ++ ":./c".toList) =
      '.' :: ("/a:".toList ++ before ++ '}' :: after ++ ":./".toList ++ ['c']) := by simp
  rw [read, Text.trim_solid rfl rfl] at handed
  -- What is handed over ends in a brace.
  exact absurd (List.append_inj_right' (List.cons.inj (List.cons.inj handed).1).2 rfl) (by decide)

-- In front of a rooted path. What the classpath leaves open is completed by the template.

theorem ahead_given {r : Text} (among : r ∈ pathEnds) :
    ArgsConstruct.contents (settleAll (pathsPlaced ("java @[".toList ++ (joinedOf classpath ++ (r ++ "{:}{./c}]".toList))))) =
      [Text.trim (joinedOf classpath ++ (r ++ ":./c".toList))] := by
  have parsed : ∀ r ∈ pathEnds, parse? ("java ".toList ++ (Marker.deps ++ r ++ ":c".toList)) =
      some [.command "java".toList [Marker.deps ++ r ++ ":c".toList]] := by decide +kernel
  have clean : ∀ r ∈ pathEnds, Clean ("java ".toList ++ (Marker.deps ++ r ++ ":c".toList)) := by decide +kernel
  have letters : ∀ r ∈ pathEnds, ∀ c ∈ ['\'', '"', '@', Marker.standIn],
      c ∉ "java ".toList ++ (Marker.deps ++ r ++ ":c".toList) := by decide +kernel
  have shown : ∀ r ∈ pathEnds, items (Marker.deps ++ r ++ ":c".toList) =
      [.plain (Marker.deps ++ r), .colon, .rooted "./c".toList] := by decide +kernel
  have mentions : ∀ r ∈ pathEnds, mentionsDeps (Marker.deps ++ r ++ ":c".toList) = true := by decide +kernel
  have planned : ∀ r ∈ pathEnds,
      Text.pieces (Text.literal Marker.deps) (Suggestion.command "java".toList [Marker.deps ++ r ++ ":c".toList]) =
        "java @[".toList.map .plain ++ .hit Marker.deps :: (r ++ "{:}{./c}]".toList).map .plain := by decide +kernel
  have read : ∀ r ∈ pathEnds, Text.pieces (Text.literal Marker.deps) (rooted (Marker.deps ++ r ++ ":c".toList)) =
      ([] : Text).map .plain ++ .hit Marker.deps :: (r ++ ":./c".toList).map .plain := by decide +kernel
  have safe : Safe (joinedOf classpath) "java".toList [Marker.deps ++ r ++ ":c".toList] := by
    refine safe_single (by decide +kernel) ?_
    have plain : ']' ∉ (filled (joinedOf classpath) "./c".toList).dropLast := by
      have same : filled (joinedOf classpath) "./c".toList = "./c".toList := rfl
      rw [same]
      decide
    rw [shown r among]
    exact List.forall_mem_cons.mpr ⟨trivial, List.forall_mem_cons.mpr ⟨trivial, List.forall_mem_singleton.mpr plain⟩⟩
  exact delivers.single ⟨parsed r among, clean r among, letters r among, by decide +kernel⟩ safe (mentions r among)
    (filled_single _ (planned r among)) (filled_single _ (read r among))

theorem delivers_root {root : Char} (isRoot : Marker.isRoot root = true) {place : Text} (inside : place <:+ joinedOf classpath)
    (some_ : place ≠ []) : ¬ Agrees place ['{', root, '/'] := by
  intro agrees
  obtain ⟨r, ends, more, found⟩ := agrees_completed inside some_ agrees
  have among := mem_pathEnds isRoot ends
  have given := ahead_given delivers among
  have plain : ∀ r ∈ pathEnds, ∀ c ∈ ['}', ']', Marker.standIn], c ∉ r := by decide
  have free := plain r among
  have brace : '}' ∉ joinedOf classpath ++ r := by simp [delivers_brace delivers, free '}']
  have bracket : ']' ∉ joinedOf classpath ++ r := by simp [delivers_bracket delivers, free ']']
  have bell : Marker.standIn ∉ joinedOf classpath ++ r := by simp [delivers_bell delivers, free Marker.standIn]
  obtain ⟨front, first, back, isRoot, split, handed⟩ := contents_begun isRoot found brace bracket bell
  rw [List.append_assoc (joinedOf classpath) r, given, ← List.append_assoc (joinedOf classpath) r, split,
    List.append_assoc] at handed
  -- The brace of the classpath is lost.
  have trimmed := (List.cons.inj handed).1
  have solid : Text.isBlank first = false := by
    simp only [Marker.isRoot, Bool.or_eq_true, decide_eq_true_eq] at isRoot
    rcases isRoot with rfl | rfl <;> rfl
  rw [List.cons_append, Text.trim_around rfl, Text.trim_around solid] at trimmed
  have same := (List.cons.inj (List.append_cancel_left trimmed)).1
  rw [← same] at isRoot
  cases isRoot

-- In the name of the tool.

theorem named_given {r : Text} (among : r ∈ [[], ['[']]) :
    ArgsConstruct.contents (settleAll (pathsPlaced
      ('/' :: (joinedOf classpath ++ r ++ ("/java @[".toList ++ (joinedOf classpath ++ [']'])))))) =
      [Text.trim (joinedOf classpath)] := by
  have parsed : ∀ r ∈ [[], ['[']], parse? ('/' :: (Marker.deps ++ r ++ "/java ".toList ++ Marker.deps)) =
      some [.command ('/' :: (Marker.deps ++ r ++ "/java".toList)) [Marker.deps]] := by decide +kernel
  have clean : ∀ r ∈ [[], ['[']], Clean ('/' :: (Marker.deps ++ r ++ "/java ".toList ++ Marker.deps)) := by decide +kernel
  have letters : ∀ r ∈ [[], ['[']], ∀ c ∈ ['\'', '"', '@', Marker.standIn],
      c ∉ '/' :: (Marker.deps ++ r ++ "/java ".toList ++ Marker.deps) := by decide +kernel
  have tool : ∀ r ∈ [[], ['[']], takesArgsFiles ('/' :: (Marker.deps ++ r ++ "/java".toList)) = true := by decide +kernel
  have known : ∀ r ∈ [[], ['[']], takesArgsFiles (word ('/' :: (Marker.deps ++ r ++ "/java".toList))) = true := by
    decide +kernel
  have planned : ∀ r ∈ [[], ['[']],
      Text.pieces (Text.literal Marker.deps) (Suggestion.command ('/' :: (Marker.deps ++ r ++ "/java".toList)) [Marker.deps]) =
        ['/'].map .plain ++ .hit Marker.deps ::
          ((r ++ "/java @[".toList).map .plain ++ .hit Marker.deps :: [']'].map .plain) := by decide +kernel
  have filling : filled (joinedOf classpath)
      (Suggestion.command ('/' :: (Marker.deps ++ r ++ "/java".toList)) [Marker.deps]) =
      '/' :: (joinedOf classpath ++ r ++ ("/java @[".toList ++ (joinedOf classpath ++ [']']))) := by
    rw [filled, Text.replaceAll, Text.replace, planned r among, write_split, write_split, Text.write_plain]
    simp only [List.append_assoc, List.cons_append, List.nil_append]
  exact delivers.single ⟨parsed r among, clean r among, letters r among, tool r among⟩
    (safe_single (known r among) deps_keeps) (by decide +kernel) filling (rooted_deps _)

theorem delivers_sign {place : Text} (inside : place <:+ joinedOf classpath) (some_ : place ≠ []) :
    ¬ Agrees place ['@', '['] := by
  intro agrees
  obtain ⟨r, ends, more, found⟩ := agrees_completed inside some_ agrees
  have among : r ∈ [[], ['[']] := by
    simp only [List.suffix_cons_iff, List.suffix_nil] at ends
    rcases ends with rfl | rfl <;> simp
  have given := named_given delivers among
  have both : ∀ c, c ∉ joinedOf classpath → c ∉ r → c ∉ joinedOf classpath ++ r ++ joinedOf classpath := by
    intro c outside apart
    simp [outside, apart]
  have signless : ∀ r ∈ [[], ['[']], ∀ c ∈ ['}', ']', Marker.standIn], c ∉ r := by decide
  have plain := signless r among
  obtain ⟨front, back, split, handed⟩ := contents_started found
    (both '}' (delivers_brace delivers) (plain '}' (by simp))) (both ']' (delivers_bracket delivers) (plain ']' (by simp)))
    (both Marker.standIn (delivers_bell delivers) (plain Marker.standIn (by simp)))
  -- The sign in front of the argument is handed over with it.
  rw [given] at handed
  have counted := congrArg (List.count '@') (List.cons.inj handed).1
  rw [Text.count_trim _ rfl, Text.count_trim _ rfl, List.count_append, List.count_append] at counted
  have sign : List.count '@' "/java @[".toList = 1 := by decide
  omega

end

end PortableActions.CommandLine
