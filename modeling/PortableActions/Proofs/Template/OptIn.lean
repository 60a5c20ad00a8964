import PortableActions.Proofs.Template.Mentions
-- A program that is written with a sign in front. The words are rewritten first, with the
-- sign as part of the program, and only then it is looked for.
namespace PortableActions.Template.Suggestion

-- The parts of a text behind a sign.

theorem splitOn_signed {sep : Char} (other : '@' ≠ sep) (p : Text) :
    ∃ first rest, Text.splitOn sep p = first :: rest ∧ Text.splitOn sep ('@' :: p) = ('@' :: first) :: rest := by
  obtain ⟨first, rest, split⟩ := List.exists_cons_of_ne_nil (Text.splitOn_ne_nil sep p)
  exact ⟨first, rest, split, Text.splitOn_cons other split⟩

theorem classpathParts_exact {w : Text} {parts : List Text} {k : Nat}
    (split : Text.splitOn ':' w = parts ++ List.replicate k []) (last : parts.getLast? ≠ some []) :
    classpathParts w = parts := by
  rw [classpathParts, split, List.reverse_append, List.reverse_replicate,
    List.dropWhile_append_of_pos (by simp)]
  cases turned : parts.reverse with
  | nil => simpa using turned
  | cons part rest =>
    have filled : part ≠ [] := by
      rintro rfl
      apply last
      rw [← List.head?_reverse, turned]
      rfl
    rw [List.dropWhile_cons_of_neg (by simp [filled]), ← turned, List.reverse_reverse]

theorem classpathParts_last (w : Text) : (classpathParts w).getLast? ≠ some [] := by
  intro last
  rw [classpathParts, List.getLast?_reverse] at last
  have kept := List.head?_dropWhile_not List.isEmpty (Text.splitOn ':' w).reverse
  rw [last] at kept
  cases kept

theorem classpathParts_signed (p : Text) :
    classpathParts ('@' :: p) = ('@' :: (classpathParts p).headD []) :: (classpathParts p).tail := by
  obtain ⟨first, rest, split, signed⟩ := splitOn_signed (by decide : '@' ≠ ':') p
  obtain ⟨k, parted⟩ := classpathParts_split p
  have last := classpathParts_last p
  rw [split] at parted
  cases parts : classpathParts p with
  | nil =>
    rw [parts, List.nil_append] at parted
    cases k with
    | zero => cases parted
    | succ n =>
      obtain ⟨rfl, rfl⟩ := List.cons.inj parted
      exact classpathParts_exact (k := n) signed (by simp)
  | cons part more =>
    rw [parts, List.cons_append] at parted
    obtain ⟨rfl, rfl⟩ := List.cons.inj parted
    refine classpathParts_exact (k := k) signed ?_
    cases more with
    | nil => simp
    | cons next others => simpa [parts] using last

theorem segments_signed (p : Text) : (segments p).length ≤ (segments ('@' :: p)).length := by
  obtain ⟨first, rest, split, signed⟩ := splitOn_signed (by decide : '@' ≠ '/') p
  unfold segments
  rw [split, signed, List.filter_cons, List.filter_cons_of_pos (by simp), List.length_cons]
  split
  · simp
  · exact Nat.le_succ _

theorem isRooted_signed (p : Text) : isRooted ('@' :: p) = false := by simp [isRooted]

theorem mentionsDeps_signed (p : Text) : mentionsDeps ('@' :: p) = mentionsDeps p := by
  rw [Bool.eq_iff_iff, mentionsDeps_exact, mentionsDeps_exact, deps_cons (by decide)]

theorem looks_signed {p : Text} (looks : looksLikeClasspath p = true) : looksLikeClasspath ('@' :: p) = true := by
  obtain ⟨first, second, rest, parts⟩ := looksLike_parts looks
  have signed := classpathParts_signed p
  rw [parts] at signed
  unfold looksLikeClasspath at looks ⊢
  rw [parts] at looks
  rw [signed, mentionsDeps_signed]
  have longer := segments_signed first
  have relative : isAbsolute ('@' :: first) = false := rfl
  simp only [List.headD_cons, List.tail_cons, List.length_cons, List.any_cons, Bool.and_eq_true, Bool.or_eq_true,
    Bool.not_eq_true', Bool.or_eq_false_iff, decide_eq_true_eq, relative, true_and] at looks ⊢
  refine ⟨decide_eq_true looks.1, looks.2.imp_right fun ⟨free, several⟩ => ⟨free.2, several.imp_left fun here => by omega⟩⟩

-- How a program is rewritten with a sign in front.

-- A word that no path or classpath marker is suggested for.
def Unsuggested (w : Text) : Prop := classpath? w = none ∧ path? w = none

-- A list of paths whose first part mentions the classpath.
structure Heads (part w : Text) : Prop where
  list : looksLikeClasspath w = true
  first : (classpathParts w).head? = some part
  mentions : mentionsDeps part = true

theorem unsuggested_bare {p : Text} (free : Unsuggested ('@' :: p)) : word p = p := by
  refine word_fixed.mpr ⟨?_, ?_⟩
  · have unlike : looksLikeClasspath ('@' :: p) ≠ true := by
      intro looks
      have suggested := free.1
      unfold classpath? at suggested
      rw [if_pos looks] at suggested
      dsimp only at suggested
      split at suggested <;> cases suggested
    unfold classpath?
    rw [if_neg fun looks => unlike (looks_signed looks)]
  · have longer := segments_signed p
    have lone := free.2
    unfold path? at lone ⊢
    split at lone
    · rename_i few
      have relative : isAbsolute ('@' :: p) = false := rfl
      simp only [relative, Bool.false_or, decide_eq_true_eq] at few
      rw [if_pos (by simp; omega)]
    · cases lone

theorem startsRooted_signed (part : Text) : startsRooted ('@' :: part) = false := rfl

theorem rootPart_mentions {part : Text} (mentions : mentionsDeps part = true) : rootPart part = part := by
  unfold rootPart
  rw [if_pos (by simp [mentions])]

theorem markPart_mentions {part : Text} (mentions : mentionsDeps part = true) (loose : startsRooted part = false) :
    markPart part = part := by
  have other : part ≠ ['~'] := by
    rintro rfl
    cases mentions
  simp [markPart, loose, other]

-- The parts marked one by one, the first of them as it is.
def partwise (parts : List Text) : Text :=
  Text.join Marker.pathSeparator (parts.headD [] :: parts.tail.map (markPart ∘ rootPart))

theorem parts_heads {part p : Text} (heads : Heads ('@' :: part) ('@' :: p)) :
    ∃ next rest, classpathParts p = part :: next :: rest := by
  obtain ⟨first, second, rest, parts⟩ := looksLike_parts heads.list
  have known := heads.first
  rw [classpathParts_signed] at parts known
  cases bare : classpathParts p with
  | nil => simp [bare] at parts
  | cons head tail =>
    rw [bare] at parts known
    simp only [List.headD_cons, List.tail_cons, List.head?_cons, Option.some.injEq, List.cons.injEq, true_and] at parts known
    exact ⟨second, rest, by rw [known, parts.2]⟩

theorem word_heads {part p : Text} (heads : Heads ('@' :: part) ('@' :: p)) :
    word ('@' :: p) = '@' :: partwise (classpathParts p) := by
  obtain ⟨next, rest, parts⟩ := parts_heads heads
  have signed := classpathParts_signed p
  rw [parts, List.headD_cons, List.tail_cons] at signed
  have list : classpath? ('@' :: p) = some ('@' :: partwise (classpathParts p)) := by
    unfold classpath?
    rw [if_pos heads.list, signed]
    simp [rootPart_mentions heads.mentions, markPart_mentions heads.mentions (startsRooted_signed part),
      startsRooted_signed, partwise, parts, Text.join]
  simp [word, list]

theorem mentions_heads {part p : Text} (heads : Heads ('@' :: part) ('@' :: p)) :
    mentionsDeps part = true ∧ looksLikeClasspath p = true := by
  obtain ⟨next, rest, parts⟩ := parts_heads heads
  have here : mentionsDeps part = true := mentionsDeps_signed part ▸ heads.mentions
  have whole : mentionsDeps p = true :=
    mentionsDeps_exact.mpr ((deps_parts p).mp ⟨part, by simp [parts], mentionsDeps_exact.mp here⟩)
  refine ⟨here, ?_⟩
  simp [looksLikeClasspath, parts, whole]

theorem word_bare {part p : Text} (heads : Heads ('@' :: part) ('@' :: p)) :
    word p = if startsRooted part then braced (Text.join [':'] ((classpathParts p).map rootPart)) else partwise (classpathParts p) := by
  obtain ⟨next, rest, parts⟩ := parts_heads heads
  obtain ⟨mentions, looks⟩ := mentions_heads heads
  unfold word classpath?
  rw [if_pos looks, parts]
  cases loose : startsRooted part with
  | true => simp [rootPart_mentions mentions, loose]
  | false => simp [rootPart_mentions mentions, markPart_mentions mentions loose, loose, partwise]

-- Any other suggestion has the sign inside its braces.
theorem signed_cases (p : Text) : Unsuggested ('@' :: p) ∨ (∃ part, Heads ('@' :: part) ('@' :: p)) ∨
    ∃ rest, word ('@' :: p) = braced ('.' :: '/' :: '@' :: rest) := by
  have signed := classpathParts_signed p
  generalize (classpathParts p).headD [] = first at signed
  cases looks : looksLikeClasspath ('@' :: p) with
  | true =>
    cases mentions : mentionsDeps ('@' :: first) with
    | true => exact .inr (.inl ⟨first, looks, by rw [signed]; rfl, mentions⟩)
    | false =>
      have root : rootPart ('@' :: first) = '.' :: '/' :: '@' :: first := by
        have relative : isAbsolute ('@' :: first) = false := rfl
        simp [rootPart, mentions, relative, isRooted_signed]
      have list : classpath? ('@' :: p) =
          some (braced (Text.join [':'] (('.' :: '/' :: '@' :: first) :: (classpathParts p).tail.map rootPart))) := by
        have starts : startsRooted ('.' :: '/' :: '@' :: first) = true := rfl
        simp [classpath?, looks, signed, root, starts]
      refine .inr (.inr ?_)
      rw [word, list]
      cases (classpathParts p).tail.map rootPart with
      | nil => exact ⟨first, rfl⟩
      | cons next more => exact ⟨first ++ [':'] ++ Text.join [':'] (next :: more), rfl⟩
  | false =>
    have list : classpath? ('@' :: p) = none := by simp [classpath?, looks]
    cases path : path? ('@' :: p) with
    | none => exact .inl ⟨list, path⟩
    | some x =>
      obtain ⟨_, _, shown⟩ := path?_parts path
      rw [isRooted_signed] at shown
      refine .inr (.inr ⟨p, ?_⟩)
      rw [word, list, path, shown]
      rfl

-- A program in braces is no known tool: its name ends in the brace.

theorem takesArgsFiles_closed {program name : Text} (closed : (Path.Windows.parse program).name = name ++ ['}']) :
    takesArgsFiles program = false := by
  have lowered : Text.lower (name ++ ['}']) = Text.lower name ++ ['}'] := by simp [Text.lower]
  have bare : executableSuffixes.find? (Text.endsWith · (Text.lower name ++ ['}'])) = none := by
    refine List.find?_eq_none.mpr fun suffix among ends => ?_
    have last : ∀ suffix ∈ executableSuffixes, suffix ≠ [] ∧ suffix.getLast? ≠ some '}' := by decide
    obtain ⟨filled, other⟩ := last suffix among
    rw [Text.endsWith, List.isSuffixOf_iff_suffix] at ends
    obtain ⟨front, whole⟩ := ends
    have same := congrArg List.getLast? whole
    rw [List.getLast?_append_of_ne_nil _ filled, List.getLast?_concat] at same
    exact other same
  have unknown : Text.lower name ++ ['}'] ∉ argsFileTools := by
    have last : ∀ tool ∈ argsFileTools, tool.getLast? ≠ some '}' := by decide
    exact fun among => last _ among (by simp)
  unfold takesArgsFiles
  rw [closed, lowered]
  dsimp only
  rw [bare]
  simpa using unknown

theorem takesArgsFiles_braced {path : Text} (led : Led path) : takesArgsFiles (braced path) = false := by
  obtain ⟨root, body, rfl, isRoot⟩ := led
  obtain ⟨front, last, _, split⟩ := Text.splitOn_behind (by decide : '\\' ∉ ['}'])
    (Path.Windows.backslashed ('{' :: root :: '/' :: body))
  have parts : (Path.Windows.parse (braced (root :: '/' :: body))).parts =
      Path.Windows.components (Path.Windows.backslashed ('{' :: root :: '/' :: body) ++ ['}']) := by
    have shown : Path.Windows.backslashed (braced (root :: '/' :: body)) =
        Path.Windows.backslashed ('{' :: root :: '/' :: body) ++ ['}'] := by
      simp [Path.Windows.backslashed, braced]
    simp only [Marker.isRoot, Bool.or_eq_true, decide_eq_true_eq] at isRoot
    rw [Path.Windows.parse, shown]
    rcases isRoot with rfl | rfl <;> rfl
  have filled : last ++ ['}'] ≠ ['.'] := by
    intro same
    have ends := congrArg List.getLast? same
    simp at ends
  have closed : (Path.Windows.parse (braced (root :: '/' :: body))).name = last ++ ['}'] := by
    simp [Path.Windows.name, parts, Path.Windows.components, split, filled]
  exact takesArgsFiles_closed closed

-- A whole command with a sign in front of its program.

theorem command_opted {p bare : Text} (led : word p = '@' :: bare) (args : List Text) :
    command p args = Text.unwords (bare :: (args.map word).map wrapArgument) := by
  simp [command, led]

theorem command_closed {p path : Text} (shown : word p = braced path) (led : Led path) (args : List Text) :
    command p args = Text.unwords (word p :: args.map word) := by
  rw [command_words]
  rcases words_cases p args with ⟨bare, signed, _⟩ | ⟨_, same⟩
  · rw [shown] at signed
    cases signed
  · rw [same, shown, takesArgsFiles_braced led]
    rfl

theorem word_unsigned {p : Text} (bare : p.head? ≠ some '@') : (word p).head? ≠ some '@' := by
  obtain ⟨u, k, split, inserted⟩ := word_inserted p
  intro first
  cases shown : word p with
  | nil => simp [shown] at first
  | cons c rest =>
    rw [shown] at first inserted
    cases first
    obtain ⟨y, rfl, _⟩ := inserted.kept (by decide)
    exact bare (by rw [split]; rfl)

theorem partwise_bare {part path : Text} {parts : List Text} (starts : startsRooted part = true) :
    partwise (part :: parts) ≠ braced path := by
  obtain ⟨root, body, rfl, isRoot⟩ := led_of_startsRooted starts
  intro same
  have first : root = '{' := by
    have heads := congrArg List.head? same
    cases parts <;> simpa [partwise, Text.join, braced] using heads
  rw [first] at isRoot
  cases isRoot

-- What becomes of a sign in front of a program. It opts the program in, and the program is
-- rewritten as it would be without the sign, exactly if nothing is suggested for the program
-- with its sign, or that is a list whose first part mentions the classpath and is not rooted.
-- If that part is rooted, the parts are marked one by one. In all other cases the program is
-- put into braces with its sign, and no argument is wrapped.
theorem command_signed {p : Text} (bare : p.head? ≠ some '@') :
    ((Unsuggested ('@' :: p) ∨ ∃ part, Heads ('@' :: part) ('@' :: p) ∧ startsRooted part = false) ↔
      ∀ args, command ('@' :: p) args = Text.unwords (word p :: (args.map word).map wrapArgument)) ∧
    (word p).head? ≠ some '@' ∧
    (∀ part, Heads ('@' :: part) ('@' :: p) →
      ∀ args, command ('@' :: p) args = Text.unwords (partwise (classpathParts p) :: (args.map word).map wrapArgument)) ∧
    (¬ Unsuggested ('@' :: p) → (∀ part, ¬ Heads ('@' :: part) ('@' :: p)) →
      ∃ rest, word ('@' :: p) = braced ('.' :: '/' :: '@' :: rest) ∧
        ∀ args, command ('@' :: p) args = Text.unwords (word ('@' :: p) :: args.map word)) := by
  refine ⟨⟨?_, ?_⟩, word_unsigned bare, fun part heads => command_opted (word_heads heads), fun suggested headless => ?_⟩
  · rintro (free | ⟨part, heads, loose⟩)
    · rw [unsuggested_bare free]
      exact command_opted (word_fixed.mpr free)
    · have same := word_bare heads
      rw [loose, if_neg (by simp)] at same
      rw [same]
      exact command_opted (word_heads heads)
  · -- A command of the program alone tells the cases apart.
    intro whole
    have alone : command ('@' :: p) [] = word p := whole []
    rcases signed_cases p with free | ⟨part, heads⟩ | ⟨rest, shown⟩
    · exact .inl free
    · refine .inr ⟨part, heads, Bool.eq_false_iff.mpr fun starts => ?_⟩
      obtain ⟨next, rest, parts⟩ := parts_heads heads
      have opted : command ('@' :: p) [] = partwise (classpathParts p) := command_opted (word_heads heads) []
      rw [alone, word_bare heads, starts, if_pos rfl, parts] at opted
      exact partwise_bare starts opted.symm
    · have kept : command ('@' :: p) [] = word ('@' :: p) := command_closed shown ⟨'.', '@' :: rest, rfl, rfl⟩ []
      have signs := count_word (c := '@') (by decide) ('@' :: p)
      rw [← kept, alone, count_word (by decide)] at signs
      simp at signs
  · rcases signed_cases p with free | ⟨part, heads⟩ | ⟨rest, shown⟩
    · exact absurd free suggested
    · exact absurd heads (headless part)
    · exact ⟨rest, shown, command_closed shown ⟨'.', '@' :: rest, rfl, rfl⟩⟩

theorem command_signed_tool :
    "mytool".toList.head? ≠ some '@' ∧ Unsuggested "@mytool".toList ∧
      command "@mytool".toList ["lib/a.jar:\x7b\x7bdeps\x7d\x7d".toList] = "mytool @[\x7b./lib/a.jar:\x7b\x7bdeps\x7d\x7d\x7d]".toList := by
  have free : Unsuggested "@mytool".toList := by
    constructor <;> decide +kernel
  have opted := (command_signed (p := "mytool".toList) (by decide)).1.mp (.inl free)
  exact ⟨by decide, free, (opted ["lib/a.jar:\x7b\x7bdeps\x7d\x7d".toList]).trans (by decide +kernel)⟩

-- A tool in a directory keeps its sign.
theorem command_signed_directory :
    command "@bin/tool".toList ["\x7b\x7bdeps\x7d\x7d".toList] = "\x7b./@bin/tool\x7d \x7b\x7bdeps\x7d\x7d".toList ∧
      command "@bin/tool".toList ["\x7b\x7bdeps\x7d\x7d".toList] ≠
        Text.unwords (word "bin/tool".toList :: (["\x7b\x7bdeps\x7d\x7d".toList].map word).map wrapArgument) := by
  decide +kernel

end PortableActions.Template.Suggestion
