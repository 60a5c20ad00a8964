import PortableActions.Platform
import PortableActions.Proofs.Path.Alteration
-- The names of a Windows path, cut at slashes of either kind. A path that neither a slash nor a
-- drive leads consists of its names, and a path below a home directory adds its names to those of
-- the home as long as it has no root of its own.
namespace PortableActions.Path.Windows

def isSlash (c : Char) : Bool := c = '/' || c = '\\'

-- What stands between slashes, without the empty texts and the single dots.
def names (path : Text) : List Text := (path.splitOnP isSlash).filter fun part => part ≠ [] ∧ part ≠ ['.']

theorem splitOn_backslashed (path : Text) : Text.splitOn '\\' (backslashed path) = path.splitOnP isSlash := by
  induction path with
  | nil => rfl
  | cons c r ih =>
    have turned : backslashed (c :: r) = (if c = '/' then '\\' else c) :: backslashed r := rfl
    rw [List.splitOnP_cons_eq_if_modifyHead, ← ih, turned]
    cases slash : isSlash c with
    | true =>
      have same : (if c = '/' then '\\' else c) = '\\' := by
        simp only [isSlash, Bool.or_eq_true, decide_eq_true_eq] at slash
        rcases slash with rfl | rfl <;> rfl
      rw [same, Text.splitOn_cons_sep]
      rfl
    | false =>
      simp only [isSlash, Bool.or_eq_false_iff, decide_eq_false_iff_not] at slash
      obtain ⟨first, rest, split⟩ := List.exists_cons_of_ne_nil (Text.splitOn_ne_nil '\\' (backslashed r))
      rw [if_neg slash.1, Text.splitOn_cons slash.2 split, split]
      rfl

theorem components_backslashed (path : Text) : components (backslashed path) = names path := by
  unfold components names
  rw [splitOn_backslashed]

-- A list of names as paths have them.
def Named (parts : List Text) : Prop := ∀ part ∈ parts, (part ≠ [] ∧ part ≠ ['.']) ∧ ∀ c ∈ part, isSlash c = false

theorem mem_names {path part : Text} {c : Char} (among : part ∈ names path) (inside : c ∈ part) : c ∈ path ∧ isSlash c = false := by
  rw [← components_backslashed] at among
  have backslash : c ≠ '\\' := by
    rintro rfl
    exact components_free _ part among inside
  have before : c ∈ backslashed path := Text.mem_of_mem_splitOn (List.mem_filter.mp among).1 inside
  obtain ⟨d, old, turned⟩ := List.mem_map.mp before
  split at turned
  · exact absurd turned.symm backslash
  · rename_i slash
    rw [turned] at old slash
    exact ⟨old, by simp [isSlash, slash, backslash]⟩

theorem named_names (path : Text) : Named (names path) := by
  intro part among
  refine ⟨?_, fun c inside => (mem_names among inside).2⟩
  rw [← components_backslashed] at among
  exact components_kept _ part among

theorem slashless_join {parts : List Text} (named : Named parts) : '/' ∉ Text.join ['\\'] parts := by
  intro inside
  rcases Text.mem_of_mem_join inside with between | ⟨part, among, here⟩
  · simp at between
  · have other := (named part among).2 '/' here
    cases other

theorem names_join {parts : List Text} (named : Named parts) : names (Text.join ['\\'] parts) = parts := by
  rw [← components_backslashed, backslashed_same (slashless_join named)]
  cases parts with
  | nil => rfl
  | cons first rest =>
    have free : ∀ part ∈ first :: rest, '\\' ∉ part := by
      intro part among inside
      have other := (named part among).2 '\\' inside
      cases other
    unfold components
    rw [Text.splitOn_join (by simp) free]
    apply List.filter_eq_self.mpr
    intro part among
    simpa using (named part among).1

-- A dot in front, and slashes in front of the names.

theorem names_dot (path : Text) : names ('.' :: '/' :: path) = names path := by
  simp [names, List.splitOnP_cons_eq_if_modifyHead, isSlash]

theorem components_dropWhile (t : Text) : components (t.dropWhile (· = '\\')) = components t := by
  induction t with
  | nil => rfl
  | cons c r ih =>
    by_cases same : c = '\\'
    · rw [List.dropWhile_cons_of_pos (by simpa using same), ih, same]
      simp [components, Text.splitOn_cons_sep]
    · rw [List.dropWhile_cons_of_neg (by simpa using same)]

-- Paths that are not rooted.

theorem splitAnchor_bare {path : Text} (unled : path.head? ≠ some '\\') (colon : ':' ∉ path) :
    splitAnchor path = ([], false, path) := by
  have marked : splitExtended path = ([], path) := by
    apply splitExtended_plain
    rintro ⟨rest, rfl⟩
    exact unled rfl
  have share : splitShare? path = none := by
    cases path with
    | nil => rfl
    | cons c r =>
      cases seen : splitShare? (c :: r) with
      | none => rfl
      | some found =>
        obtain ⟨server, name, tail, _, shown, split, _⟩ := splitShare?_parts seen
        rw [split, shown] at unled
        exact absurd rfl unled
  have drive : splitDrive path = ([], path) := by
    unfold splitDrive
    split
    · simp at colon
    · rfl
  simp [splitAnchor, marked, share, drive, unled]

theorem head_backslashed {path : Text} : (backslashed path).head? ≠ some '\\' ↔ ∀ c ∈ path.head?, isSlash c = false := by
  cases path with
  | nil => simp [backslashed]
  | cons c r => by_cases slash : c = '/' <;> simp [backslashed, isSlash, slash]

theorem colon_backslashed {path : Text} : ':' ∈ backslashed path ↔ ':' ∈ path := by
  induction path with
  | nil => rfl
  | cons c r ih =>
    have turned : backslashed (c :: r) = (if c = '/' then '\\' else c) :: backslashed r := rfl
    rw [turned, List.mem_cons, List.mem_cons, ih]
    by_cases slash : c = '/'
    · simp [slash]
    · simp [slash]

theorem parse_bare {path : Text} (unled : ∀ c ∈ path.head?, isSlash c = false) (colon : ':' ∉ path) :
    parse path = ⟨[], false, names path⟩ := by
  unfold parse
  rw [splitAnchor_bare (head_backslashed.mpr unled) fun inside => colon (colon_backslashed.mp inside)]
  simp [components_backslashed]

-- Names between backslashes; a dot if there are none.
def spell (parts : List Text) : Text := if parts = [] then ['.'] else Text.join ['\\'] parts

theorem join_ne_nil {parts : List Text} (named : Named parts) (some_ : parts ≠ []) : Text.join ['\\'] parts ≠ [] := by
  intro none_
  have back := names_join named
  rw [none_] at back
  exact some_ back.symm

theorem normal_bare {path : Text} (unled : ∀ c ∈ path.head?, isSlash c = false) (colon : ':' ∉ path) :
    normal path = spell (names path) := by
  unfold normal spell
  rw [parse_bare unled colon, print_text]
  have shown : text ⟨[], false, names path⟩ = Text.join ['\\'] (names path) := rfl
  rw [shown]
  by_cases none_ : names path = []
  · rw [if_pos none_, none_]
    rfl
  · rw [if_neg none_, if_neg (join_ne_nil (named_names path) none_)]

theorem normal_dotted {path : Text} (colon : ':' ∉ path) : normal ('.' :: '/' :: path) = spell (names path) := by
  rw [← names_dot path]
  apply normal_bare
  · intro c lead
    cases lead
    rfl
  · simp [colon]

theorem names_spell {parts : List Text} (named : Named parts) : names (spell parts) = parts := by
  unfold spell
  split
  · rename_i none_
    rw [none_]
    rfl
  · exact names_join named

theorem mem_spell {parts : List Text} {c : Char} (inside : c ∈ spell parts) : c ∈ ['\\', '.'] ∨ ∃ part ∈ parts, c ∈ part := by
  unfold spell at inside
  split at inside
  · exact .inl (List.mem_cons_of_mem _ inside)
  · rcases Text.mem_of_mem_join inside with between | old
    · exact .inl (List.mem_append_left ['.'] between)
    · exact .inr old

theorem slashless_spell {parts : List Text} (named : Named parts) : '/' ∉ spell parts := by
  intro inside
  rcases mem_spell inside with made | ⟨part, among, here⟩
  · simp at made
  · have other := (named part among).2 '/' here
    cases other

-- What is spelled is read back as the same names, and neither as a drive nor as a share.
theorem parse_spell {parts : List Text} (named : Named parts) (colon : ∀ part ∈ parts, ':' ∉ part) :
    parse (spell parts) = ⟨[], false, parts⟩ := by
  have unled : ∀ c ∈ (spell parts).head?, isSlash c = false := by
    unfold spell
    split
    · intro c first
      cases first
      rfl
    · cases parts with
      | nil => contradiction
      | cons first rest =>
        obtain ⟨⟨some_, _⟩, free⟩ := named first (by simp)
        intro c lead
        rw [Text.head_join some_] at lead
        exact free c (List.mem_of_mem_head? lead)
  have absent : ':' ∉ spell parts := by
    intro inside
    rcases mem_spell inside with made | ⟨part, among, here⟩
    · simp at made
    · exact colon part among here
  rw [parse_bare unled absent, names_spell named]

-- Paths without a drive.

theorem mark_leads (path : Text) : (splitExtended path).1 <+: (splitAnchor path).1 := by
  unfold splitAnchor
  dsimp only
  split
  · exact List.prefix_append _ _
  · split <;> exact List.prefix_append _ _

theorem splitAnchor_driveless {path : Text} (driveless : (splitAnchor path).1 = []) :
    splitAnchor path = if path.head? = some '\\' then ([], true, path.dropWhile (· = '\\')) else ([], false, path) := by
  have unmarked : (splitExtended path).1 = [] := by
    have leads := mark_leads path
    rw [driveless] at leads
    exact List.prefix_nil.mp leads
  have plain : splitExtended path = ([], path) := by
    rcases splitExtended_cases path with ⟨_, plain⟩ | ⟨r, _, _, marked⟩ | ⟨r, _, marked⟩
    · exact plain
    · rw [marked] at unmarked
      cases unmarked
    · rw [marked] at unmarked
      cases unmarked
  cases seen : splitShare? path with
  | some found =>
    obtain ⟨share, rest⟩ := found
    obtain ⟨server, name, tail, _, shown, _⟩ := splitShare?_parts seen
    rw [splitAnchor_share plain seen, shown] at driveless
    simp at driveless
  | none =>
    have anchored : splitAnchor path = if (splitDrive path).2.head? = some '\\'
        then ((splitDrive path).1, true, (splitDrive path).2.dropWhile (· = '\\')) else ((splitDrive path).1, false, (splitDrive path).2) := by
      simp [splitAnchor, plain, seen]
    have bare : (splitDrive path).1 = [] := by
      rw [anchored] at driveless
      split at driveless <;> exact driveless
    have whole := splitDrive_whole path
    rw [bare, List.nil_append] at whole
    rw [anchored, bare, whole]

-- Such a path is rooted if a slash leads it.
theorem parse_driveless {path : Text} (driveless : (parse path).drive = []) :
    parse path = ⟨[], decide ((backslashed path).head? = some '\\'), names path⟩ := by
  have bare : (splitAnchor (backslashed path)).1 = [] := driveless
  have anchored := splitAnchor_driveless bare
  unfold parse
  split at anchored
  · rename_i led
    rw [anchored, led]
    simp [components_dropWhile, components_backslashed]
  · rename_i unled
    rw [anchored]
    simp [unled, components_backslashed]

-- Paths at the root of a drive.

def DriveRooted (path : Text) : Prop :=
  ∃ letter slash tail, path = letter :: ':' :: slash :: tail ∧ isDriveLetter letter = true ∧ isSlash slash = true

theorem parse_driveRooted {letter slash : Char} (known : isDriveLetter letter = true) (turned : isSlash slash = true) (tail : Text) :
    parse (letter :: ':' :: slash :: tail) = ⟨[letter, ':'], true, names tail⟩ := by
  have kept : letter ≠ '/' ∧ letter ≠ '\\' := by
    constructor <;> rintro rfl <;> cases known
  have text : backslashed (letter :: ':' :: slash :: tail) = letter :: ':' :: '\\' :: backslashed tail := by
    simp only [isSlash, Bool.or_eq_true, decide_eq_true_eq] at turned
    rcases turned with rfl | rfl <;> simp [backslashed, kept.1]
  have plain : splitExtended (letter :: ':' :: '\\' :: backslashed tail) = ([], letter :: ':' :: '\\' :: backslashed tail) := by
    apply splitExtended_plain
    intro marked
    have same := (List.cons_prefix_cons.mp marked).1
    exact kept.2 same.symm
  unfold parse
  rw [text, splitAnchor_letter plain known]
  simp [components_dropWhile, components_backslashed]

theorem print_driveRooted (letter : Char) (parts : List Text) :
    print ⟨[letter, ':'], true, parts⟩ = letter :: ':' :: '\\' :: Text.join ['\\'] parts := rfl

theorem parse_print_driveRooted {letter : Char} (known : isDriveLetter letter = true) {parts : List Text} (named : Named parts) :
    parse (print ⟨[letter, ':'], true, parts⟩) = ⟨[letter, ':'], true, parts⟩ := by
  rw [print_driveRooted, parse_driveRooted known rfl, names_join named]

theorem names_behind (front back : Text) : names (front ++ '\\' :: back) = names front ++ names back := by
  have turned : backslashed (front ++ '\\' :: back) = backslashed front ++ '\\' :: backslashed back := by simp [backslashed]
  rw [← components_backslashed, turned]
  unfold components
  rw [Text.splitOn_append, List.filter_append]
  have both := components_backslashed
  unfold components at both
  rw [both, both]

-- A home directory with more names behind its own.
def below (home rest : Text) : Text := normal (home ++ '\\' :: Text.join ['\\'] (names rest))

theorem below_driveRooted {letter slash : Char} (known : isDriveLetter letter = true) (turned : isSlash slash = true) (tail rest : Text) :
    below (letter :: ':' :: slash :: tail) rest = print ⟨[letter, ':'], true, names tail ++ names rest⟩ := by
  have parsed := parse_driveRooted known turned (tail ++ '\\' :: Text.join ['\\'] (names rest))
  rw [names_behind, names_join (named_names rest)] at parsed
  unfold below normal
  rw [← parsed]
  rfl

-- What a path reads after another one, by how it is led.

theorem append_bare (base : Windows) {rest : Text} (unled : ∀ c ∈ rest.head?, isSlash c = false) (colon : ':' ∉ rest) :
    append base (parse rest) = ⟨base.drive, base.rooted, base.parts ++ names rest⟩ := by
  rw [parse_bare unled colon]
  rfl

theorem append_led (base : Windows) {rest : Text} (led : ¬ ∀ c ∈ rest.head?, isSlash c = false) (driveless : (parse rest).drive = []) :
    append base (parse rest) = ⟨base.drive, true, names rest⟩ := by
  have first : (backslashed rest).head? = some '\\' := Decidable.not_not.mp fun other => led (head_backslashed.mp other)
  have parsed := parse_driveless driveless
  rw [decide_eq_true first] at parsed
  rw [parsed]
  rfl

theorem append_driven (base : Windows) {path : Windows} (driven : path.drive ≠ []) : append base path = path := by
  unfold append
  rw [if_pos driven]

-- What follows the home directory stays below it unless it has a root of its own: a slash in
-- front takes it to the root of the drive, where only a home with no names also is, and a share
-- takes it off the drive.
theorem nativePath_home {home rest : Text} (rooted : DriveRooted home) (colon : ':' ∉ rest) :
    ((Platform.windows home).nativePath ('~' :: '/' :: rest) = below home rest ∧
      (parse home).parts <+: (parse ((Platform.windows home).nativePath ('~' :: '/' :: rest))).parts) ↔
    (∀ c ∈ rest.head?, isSlash c = false) ∨ ((parse home).parts = [] ∧ (parse rest).drive = []) := by
  obtain ⟨letter, slash, tail, rfl, known, turned⟩ := rooted
  have native : (Platform.windows (letter :: ':' :: slash :: tail)).nativePath ('~' :: '/' :: rest) =
      (append ⟨[letter, ':'], true, names tail⟩ (parse rest)).print := by
    rw [← parse_driveRooted known turned tail]
    rfl
  have named : Named (names tail ++ names rest) := by
    intro part among
    rcases List.mem_append.mp among with left | right
    · exact named_names tail part left
    · exact named_names rest part right
  rw [native, below_driveRooted known turned, parse_driveRooted known turned]
  by_cases unled : ∀ c ∈ rest.head?, isSlash c = false
  · rw [append_bare _ unled colon, parse_print_driveRooted known named]
    apply iff_of_true
    · exact ⟨rfl, List.prefix_append _ _⟩
    · exact .inl unled
  rw [or_iff_right unled]
  by_cases driveless : (parse rest).drive = []
  · rw [append_led _ unled driveless, parse_print_driveRooted known (named_names rest), and_iff_left driveless]
    constructor
    · intro both
      have parts := congrArg (fun text => (parse text).parts) both.1
      rw [parse_print_driveRooted known (named_names rest), parse_print_driveRooted known named] at parts
      exact List.self_eq_append_left.mp parts
    · intro empty
      have none_ : names tail = [] := empty
      rw [none_]
      exact ⟨rfl, List.nil_prefix⟩
  · rw [append_driven _ driveless]
    apply iff_of_false
    · -- What is printed for a drive of its own has no colon.
      intro both
      have inside : ':' ∈ normal rest := by
        unfold normal
        rw [both.1, print_driveRooted]
        simp
      rcases mem_normal inside with before | new
      · exact colon before
      · simp at new
    · exact fun both => driveless both.2

theorem nativePath_home_mixed : DriveRooted "C:\\Users\\dev".toList ∧ ':' ∉ "a\\..//b".toList ∧
    (Platform.windows "C:\\Users\\dev".toList).nativePath "~/a\\..//b".toList = below "C:\\Users\\dev".toList "a\\..//b".toList ∧
    below "C:\\Users\\dev".toList "a\\..//b".toList = "C:\\Users\\dev\\a\\..\\b".toList := by
  have rooted : DriveRooted "C:\\Users\\dev".toList := ⟨'C', '\\', "Users\\dev".toList, rfl, rfl, rfl⟩
  have colon : ':' ∉ "a\\..//b".toList := by decide
  have unled : ∀ c ∈ "a\\..//b".toList.head?, isSlash c = false := by
    intro c lead
    cases lead
    rfl
  have stays := (nativePath_home rooted colon).mpr (.inl unled)
  exact ⟨rooted, colon, stays.1, by decide +kernel⟩

-- Two slashes behind the home directory leave it.
theorem nativePath_home_doubled : DriveRooted "C:\\Users\\dev".toList ∧ ':' ∉ "/etc".toList ∧
    (Platform.windows "C:\\Users\\dev".toList).nativePath "~//etc".toList = "C:\\etc".toList ∧
    below "C:\\Users\\dev".toList "/etc".toList = "C:\\Users\\dev\\etc".toList ∧
    ¬ (parse "C:\\Users\\dev".toList).parts <+: (parse "C:\\etc".toList).parts :=
  ⟨⟨'C', '\\', "Users\\dev".toList, rfl, rfl, rfl⟩, by decide +kernel⟩

end PortableActions.Path.Windows
