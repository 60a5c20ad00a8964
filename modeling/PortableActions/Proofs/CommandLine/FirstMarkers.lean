import PortableActions.Proofs.CommandLine.Wrapped
-- The first marker in a text. What stands in front of it is passed over, and it takes
-- everything up to the first character that closes it.
namespace PortableActions.CommandLine
open PortableActions.Template
open PortableActions.Template.Suggestion (Led)

-- What a text leaves open at its end can be completed behind it.
theorem agrees_completed {place joined lead : Text} {c : Char} (inside : place <:+ joined) (some_ : place ≠ [])
    (agrees : Agrees place (c :: lead)) : ∃ r, r <:+ lead ∧ ∃ back, c :: (lead ++ back) <:+ joined ++ r := by
  obtain ⟨front, rfl⟩ := inside
  rcases agrees with ⟨r, begun⟩ | ⟨back, rfl⟩
  · obtain ⟨d, more, rfl⟩ := List.exists_cons_of_ne_nil some_
    obtain ⟨rfl, rfl⟩ := List.cons.inj begun
    exact ⟨r, ⟨more, rfl⟩, [], front, by simp⟩
  · exact ⟨[], List.nil_suffix, back, front, by simp⟩

-- The ends of what opens a rooted path.
def pathEnds : List Text := [[], ['/'], ['.', '/'], ['~', '/']]

theorem mem_pathEnds {root : Char} {r : Text} (isRoot : Marker.isRoot root = true) (ends : r <:+ [root, '/']) :
    r ∈ pathEnds := by
  simp only [Marker.isRoot, Bool.or_eq_true, decide_eq_true_eq] at isRoot
  simp only [List.suffix_cons_iff, List.suffix_nil] at ends
  rcases isRoot with rfl | rfl <;> rcases ends with rfl | rfl | rfl <;> decide

-- The first rooted path of a text that closes none goes on to the next brace behind it.
theorem first_path {t more between : Text} {root : Char} (isRoot : Marker.isRoot root = true)
    (found : '{' :: (root :: '/' :: more) <:+ t) (brace : '}' ∉ t) (open_ : '}' ∉ between) (behind : Text) :
    ∃ front root back, Marker.isRoot root = true ∧ t = front ++ '{' :: root :: '/' :: back ∧
      pathsPlaced (t ++ '{' :: (between ++ '}' :: behind)) =
        front ++ (root :: '/' :: (back ++ '{' :: between) ++ pathsPlaced behind) := by
  have free : ∀ back : Text, '}' ∉ back → '}' ∉ back ++ '{' :: between := fun back outside => by simp [outside, open_]
  have seen : Marker.bracedPath ('{' :: (root :: '/' :: more) ++ '{' :: (between ++ '}' :: behind)) ≠ none := by
    have held := Marker.bracedPath_closed isRoot (free more fun inside => brace (found.subset (by simp [inside]))) behind
    rw [List.append_assoc] at held
    exact Option.ne_none_iff_exists'.mpr ⟨_, held⟩
  obtain ⟨front, place, rfl, some_, first, cut⟩ := Text.pieces_first found (by simp) seen
  -- The lead of the path stands in the text: the brace behind it fits no other place of it.
  obtain ⟨root, back, isRoot, rfl⟩ : ∃ root back, Marker.isRoot root = true ∧ place = '{' :: root :: '/' :: back := by
    obtain ⟨hit, seen⟩ := Option.ne_none_iff_exists'.mp first
    obtain ⟨root, body, rest, isRoot, _, split, _⟩ := Marker.bracedPath_parts seen
    have apart : root ≠ '{' := by rintro rfl; cases isRoot
    match place, some_, split with
    | [_], _, split => exact absurd (List.cons.inj (List.cons.inj split).2).1.symm apart
    | [_, _], _, split => simp at split
    | c :: d :: e :: back, _, split =>
      simp only [List.cons_append, List.cons.injEq] at split
      obtain ⟨rfl, rfl, rfl, _⟩ := split
      exact ⟨d, back, isRoot, rfl⟩
  refine ⟨front, root, back, isRoot, rfl, ?_⟩
  have closes : '}' ∉ root :: '/' :: (back ++ '{' :: between) := by
    simp only [List.mem_append, List.mem_cons, not_or] at brace ⊢
    simp [brace, open_]
  have path := paths_braced ⟨root, _, rfl, isRoot⟩ closes behind
  have text : '{' :: (root :: '/' :: (back ++ '{' :: between) ++ ['}']) ++ behind =
      '{' :: root :: '/' :: back ++ '{' :: (between ++ '}' :: behind) := by simp
  have passed : pathsPlaced (front ++ '{' :: root :: '/' :: back ++ '{' :: (between ++ '}' :: behind)) =
      front ++ pathsPlaced ('{' :: root :: '/' :: back ++ '{' :: (between ++ '}' :: behind)) := by
    rw [pathsPlaced, Text.replace, cut, Text.write_append, Text.write_plain]
    rfl
  rw [passed, ← text, path]

theorem contents_begun {t more : Text} {root : Char} (isRoot : Marker.isRoot root = true)
    (found : '{' :: (root :: '/' :: more) <:+ t) (brace : '}' ∉ t) (bracket : ']' ∉ t) (bell : Marker.standIn ∉ t) :
    ∃ front root back, Marker.isRoot root = true ∧ t = front ++ '{' :: root :: '/' :: back ∧
      ArgsConstruct.contents (settleAll (pathsPlaced ("java @[".toList ++ (t ++ "{:}{./c}]".toList)))) =
        [Text.trim (front ++ root :: '/' :: (back ++ "\x7b:./c".toList))] := by
  have open_ : '}' ∉ [':'] := by simp
  obtain ⟨front, root, back, isRoot, rfl, passed⟩ := first_path isRoot found brace open_ "{./c}]".toList
  refine ⟨front, root, back, isRoot, rfl, ?_⟩
  simp only [List.mem_append, List.mem_cons, not_or] at brace bracket bell
  have last : pathsPlaced "{./c}]".toList = "./c]".toList := by decide +kernel
  rw [last] at passed
  -- With the paths put in, no brace closes anything.
  have placed : pathsPlaced ("java @[".toList ++ (front ++ '{' :: root :: '/' :: back ++ "{:}{./c}]".toList)) =
      "java ".toList ++ ('@' :: '[' :: (front ++ root :: '/' :: (back ++ "\x7b:./c".toList) ++ [']']) ++ []) := by
    have outside := paths_braceless "java @[".toList (by decide)
    have text : '{' :: ([':'] ++ '}' :: "{./c}]".toList) = "{:}{./c}]".toList := by simp
    rw [outside, ← text, passed]
    simp
  have still : Untouched ("java ".toList ++ ('@' :: '[' :: (front ++ root :: '/' :: (back ++ "\x7b:./c".toList) ++ [']']) ++ [])) :=
    untouched_of_closeless (by simp [brace])
  rw [ArgsConstruct.contents, ArgsConstruct.pieces, ← hidden, placed, still.hidden]
  refine contents_first "java ".toList (by decide) ?_ ?_ []
  · simp [bracket]
  · simp only [List.mem_append, List.mem_cons, not_or, bell]
    decide

-- The first args construct of a text that closes none takes in whatever follows the text,
-- another construct included.
theorem first_construct {t more between : Text} (found : '@' :: '[' :: more <:+ t) (bracket : ']' ∉ t)
    (open_ : ']' ∉ between) (apart : between.head? ≠ some '[') (behind : Text) :
    ∃ front back, t = front ++ '@' :: '[' :: back ∧
      Text.pieces Marker.argsConstruct (t ++ (between ++ ']' :: behind)) =
        front.map .plain ++ .hit (back ++ between) :: Text.pieces Marker.argsConstruct behind := by
  have seen : Marker.argsConstruct ('@' :: '[' :: more ++ (between ++ ']' :: behind)) ≠ none := by
    have outside : ']' ∉ more := fun inside => bracket (found.subset (by simp [inside]))
    have free : ']' ∉ more ++ between := by simp [outside, open_]
    have closed := Marker.argsConstruct_closed free behind
    rw [List.append_assoc] at closed
    exact Option.ne_none_iff_exists'.mpr ⟨_, closed⟩
  obtain ⟨front, place, rfl, some_, first, cut⟩ := Text.pieces_first found (by simp) seen
  -- The sign might be the last character, but then no bracket follows it.
  obtain ⟨back, rfl⟩ : ∃ back, place = '@' :: '[' :: back := by
    obtain ⟨hit, seen⟩ := Option.ne_none_iff_exists'.mp first
    obtain ⟨held, rest, split, _⟩ := Marker.argsConstruct_parts seen
    match place, some_, split with
    | [_], _, split =>
      have next := congrArg List.head? (List.cons.inj split).2
      cases between with
      | nil => simp at next
      | cons c r => exact absurd next apart
    | c :: d :: back, _, split =>
      simp only [List.cons_append, List.cons.injEq] at split
      obtain ⟨rfl, rfl, _⟩ := split
      exact ⟨back, rfl⟩
  refine ⟨front, back, rfl, ?_⟩
  simp only [List.mem_append, List.mem_cons, not_or] at bracket
  have free : ']' ∉ back ++ between := by simp [bracket, open_]
  have construct := construct_pieces free behind
  have text : '@' :: '[' :: (back ++ between ++ [']']) ++ behind = '@' :: '[' :: back ++ (between ++ ']' :: behind) := by
    simp
  rw [text] at construct
  rw [cut, construct]
  rfl

theorem contents_started {t more joined : Text} (found : '@' :: '[' :: more <:+ t) (brace : '}' ∉ t ++ joined)
    (bracket : ']' ∉ t ++ joined) (bell : Marker.standIn ∉ t ++ joined) :
    ∃ front back, t = front ++ '@' :: '[' :: back ∧
      ArgsConstruct.contents (settleAll (pathsPlaced ('/' :: (t ++ ("/java @[".toList ++ (joined ++ [']'])))))) =
        [Text.trim (back ++ ("/java @[".toList ++ joined))] := by
  simp only [List.mem_append, not_or] at brace bracket bell
  have still : Untouched ('/' :: (t ++ ("/java @[".toList ++ (joined ++ [']'])))) :=
    untouched_of_closeless (by simp [brace])
  have open_ : ']' ∉ "/java @[".toList ++ joined := by simp [bracket.2]
  obtain ⟨front, back, rfl, pieces⟩ := first_construct found bracket.1 open_ (by simp) []
  refine ⟨front, back, rfl, ?_⟩
  simp only [List.mem_append, List.mem_cons, not_or] at bell
  have quiet : Marker.standIn ∉ back ++ ("/java @[".toList ++ joined) := by
    simp only [List.mem_append, not_or, bell]
    decide
  rw [List.append_assoc "/java @[".toList] at pieces
  rw [ArgsConstruct.contents, ArgsConstruct.pieces, ← hidden, still.pathsPlaced, still.hidden,
    Text.pieces_plain (argsConstruct_unlike _ (by decide)), pieces, ArgsConstruct.contentsOf, contentsOf_append,
    contentsOf_plain, List.nil_append, ArgsConstruct.contentsOf, content_plain quiet]
  rfl

end PortableActions.CommandLine
