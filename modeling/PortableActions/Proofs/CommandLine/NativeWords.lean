import PortableActions.Proofs.CommandLine.Alteration
-- Planned words on Windows. The stages go through a word item by item, so a relative path becomes
-- its names between backslashes, and a list becomes what its parts become on their own. A home
-- directory that is a part of its own does so only if the list is not written in one marker.
namespace PortableActions.CommandLine
open PortableActions.Template
open PortableActions.Path (Windows)
open PortableActions.Template.Suggestion (Tame Item Led word items itemOf listed rootPart path? classpath? classpathParts
  looksLikeClasspath mentionsDeps isAbsolute isRooted segments startsRooted)

variable {platform : Platform} {classpath : Option Classpath} {home : Text}

-- What a platform writes for an item of a planned word.
def itemOn (platform : Platform) : Item → Text
  | .plain t => t
  | .rooted path => PathList.native platform path
  | .colon => platform.pathSeparator
  | .home => platform.homeMarker

-- What no stage may find in a word or in what is put into it.
def marking : List Char := ['{', '}', '@', Marker.standIn]

theorem tame_of_free {t : Text} (free : ∀ c ∈ marking, c ∉ t) : Tame marking t :=
  ⟨.braceless (free '{' (by simp [marking])) (free '}' (by simp [marking])), free⟩

-- Items stage by stage.

-- A brace opens no marker whose next character is another one.
theorem replaceAll_other {k c : Char} {word tail : Text} (other : c ≠ k) (absent : '{' ∉ c :: tail) (new : Text) :
    Text.Passes (Text.replaceAll ('{' :: k :: word) new) ('{' :: c :: tail) ('{' :: c :: tail) := by
  have behind : Text.Passes (Text.replaceAll ('{' :: k :: word) new) (c :: tail) (c :: tail) :=
    Text.passes_absent (fun c r => Text.literal_unlike _ r) absent
  intro rest
  have unseen : Text.literal ('{' :: k :: word) ('{' :: c :: (tail ++ rest)) = none := by
    rw [Text.literal_none (by simp)]
    intro leads
    have second := (List.cons_prefix_cons.mp leads).2
    exact other (List.cons_prefix_cons.mp second).1.symm
  have later := behind rest
  rw [List.cons_append, List.cons_append, Text.replaceAll_plain unseen, List.cons_append]
  exact congrArg ('{' :: ·) later

theorem deps_passes {item : Item} (fit : item.Fit marking) :
    Text.Passes (Classpath.substitute classpath platform) item.write item.write := by
  cases item with
  | plain t =>
    have tame : Tame marking t := fit
    exact Text.passes_absent (fun c r => Text.literal_unlike _ r) (tame.free '{' (by simp [marking]))
  | rooted path =>
    obtain ⟨tame, root, body, rfl, isRoot⟩ := fit
    have absent := tame.free '{' (by simp [marking])
    have apart : root ≠ '{' := by
      rintro rfl
      cases isRoot
    apply replaceAll_other apart
    simpa using absent
  | colon => exact replaceAll_other (by decide) (by decide) _
  | home => exact replaceAll_other (by decide) (by decide) _

-- Before the one-character markers are replaced.
def placedOn (platform : Platform) : Item → Text
  | .rooted path => PathList.native platform path
  | item => item.write

theorem paths_closed (platform : Platform) {k : Char} (opens : k ≠ '{') :
    Text.Passes (substitutePaths platform) ['{', k, '}'] ['{', k, '}'] := by
  have behind : Text.Passes (substitutePaths platform) [k, '}'] [k, '}'] :=
    Text.passes_absent (fun c r => bracedPath_unlike r) (by simp [Ne.symm opens])
  intro rest
  have first : Marker.bracedPath ('{' :: k :: '}' :: rest) = none := rfl
  exact (Text.replace_plain first).trans (congrArg ('{' :: ·) (behind rest))

theorem paths_passes {item : Item} (fit : item.Fit marking) :
    Text.Passes (substitutePaths platform) item.write (placedOn platform item) := by
  cases item with
  | plain t =>
    have tame : Tame marking t := fit
    exact Text.passes_absent (fun c r => bracedPath_unlike r) (tame.free '{' (by simp [marking]))
  | rooted path =>
    obtain ⟨tame, root, body, rfl, isRoot⟩ := fit
    have absent := tame.free '}' (by simp [marking])
    simp only [List.mem_cons, not_or] at absent
    apply Text.passes_hit
    · simp [Item.write, Suggestion.braced]
    · intro rest
      have found := Marker.bracedPath_closed isRoot absent.2.2 rest
      simpa [Item.write, Suggestion.braced] using found
  | colon => exact paths_closed platform (by decide)
  | home => exact paths_closed platform (by decide)

theorem symbols_item {item : Item} (fit : item.Fit marking) (absent : '{' ∉ itemOn platform item) :
    Text.Passes (substituteSymbols platform) (placedOn platform item) (itemOn platform item) := by
  have left : ∀ k new, Text.Passes (Text.replaceAll ['{', k, '}'] new) (itemOn platform item) (itemOn platform item) :=
    fun k new => Text.passes_absent (fun c r => Text.literal_unlike _ r) absent
  cases item with
  | plain t => exact symbols_passes absent platform
  | rooted path => exact symbols_passes absent platform
  | colon =>
    have file : Text.Passes (Text.replaceAll Marker.fileSeparator platform.fileSeparator) Marker.pathSeparator Marker.pathSeparator :=
      replaceAll_other (by decide) (by decide) _
    have list : Text.Passes (Text.replaceAll Marker.pathSeparator platform.pathSeparator) Marker.pathSeparator platform.pathSeparator :=
      fun rest => Text.replaceAll_hit (by decide) _ rest
    exact symbols_stages file list (left _ _) (left _ _)
  | home =>
    have file : Text.Passes (Text.replaceAll Marker.fileSeparator platform.fileSeparator) Marker.home Marker.home :=
      replaceAll_other (by decide) (by decide) _
    have list : Text.Passes (Text.replaceAll Marker.pathSeparator platform.pathSeparator) Marker.home Marker.home :=
      replaceAll_other (by decide) (by decide) _
    have home : Text.Passes (Text.replaceAll Marker.home platform.homeMarker) Marker.home platform.homeMarker :=
      fun rest => Text.replaceAll_hit (by decide) _ rest
    exact symbols_stages file list home (left _ _)

theorem expand_item {item : Item} (fit : item.Fit marking) (absent : '{' ∉ itemOn platform item) :
    Text.Passes (fun t => expand t classpath platform) item.write (itemOn platform item) := by
  intro rest
  simp only [expand]
  rw [deps_passes fit rest, paths_passes fit, symbols_item fit absent]

theorem expand_nil : expand [] classpath platform = [] := by
  have filled : Classpath.substitute classpath platform [] = [] := Text.replaceAll_nil _ _
  have placed : substitutePaths platform [] = [] := rfl
  rw [expand, filled, placed, symbols_braceless (by simp)]

-- Text that comes through all stages as it would on its own, whatever follows it.
structure Alone (platform : Platform) (classpath : Option Classpath) (a b : Text) : Prop where
  passes : Text.Passes (fun t => expand t classpath platform) a b
  unsigned : '@' ∉ b
  quiet : Marker.standIn ∉ b

theorem Alone.inlined (alone : Alone platform classpath a b) : inlined a classpath platform = b := by
  have expanded : expand a classpath platform = b := alone.passes.whole expand_nil
  rw [CommandLine.inlined, expanded, inline_plain alone.unsigned alone.quiet]

theorem Alone.own (alone : Alone platform classpath a b) :
    Alone platform classpath a (CommandLine.inlined a classpath platform) := by
  rwa [alone.inlined]

theorem Alone.nil : Alone platform classpath [] [] := ⟨.nil, by simp, by simp⟩

theorem Alone.append (one : Alone platform classpath a b) (two : Alone platform classpath c d) :
    Alone platform classpath (a ++ c) (b ++ d) :=
  ⟨one.passes.append two.passes, by simp [one.unsigned, two.unsigned], by simp [one.quiet, two.quiet]⟩

theorem alone_items {shown : List Item} (fits : ∀ item ∈ shown, item.Fit marking)
    (free : ∀ item ∈ shown, ∀ c ∈ marking, c ∉ itemOn platform item) :
    Alone platform classpath (shown.flatMap Item.write) (shown.flatMap (itemOn platform)) := by
  have absent : ∀ c ∈ marking, c ∉ shown.flatMap (itemOn platform) := by
    intro c bad inside
    obtain ⟨item, among, here⟩ := List.mem_flatMap.mp inside
    exact free item among c bad here
  refine ⟨.flatMap fun item among => ?_, absent '@' (by simp [marking]), absent Marker.standIn (by simp [marking])⟩
  exact expand_item (fits item among) (free item among '{' (by simp [marking]))

theorem inlined_items {shown : List Item} (fits : ∀ item ∈ shown, item.Fit marking)
    (free : ∀ item ∈ shown, ∀ c ∈ marking, c ∉ itemOn platform item) :
    inlined (shown.flatMap Item.write) classpath platform = shown.flatMap (itemOn platform) := (alone_items fits free).inlined

-- Where a character on Windows comes from.

theorem mem_nativePath {path : Text} {c : Char} (other : c ∉ ['\\', '.', ';', '&'])
    (inside : c ∈ (Platform.windows home).nativePath path) : c ∈ path ∨ c ∈ home := by
  have dot : '.' ∈ (Platform.windows home).lost := by simp [Platform.lost, Platform.windows, Platform.isWindows]
  have alters := Platform.nativePath_alters rfl path dot (List.nil_subset (Platform.windows home).gained)
  rw [List.append_nil] at alters
  rcases alters.mem inside with before | new
  · rcases List.mem_append.mp before with inner | last
    · exact .inl inner
    · rw [List.mem_singleton.mp last] at other
      simp at other
  · exact .inr ((List.mem_append.mp new).resolve_left other)

theorem native_windows (home paths : Text) : PathList.native (Platform.windows home) paths =
    Text.join [';'] ((PathList.split paths).map (Platform.windows home).nativePath) := rfl

theorem mem_native {paths : Text} {c : Char} (other : c ∉ ['\\', '.', ';', '&'])
    (inside : c ∈ PathList.native (Platform.windows home) paths) : c ∈ paths ∨ c ∈ home := by
  rw [native_windows] at inside
  rcases Text.mem_of_mem_join inside with between | ⟨part, among, here⟩
  · rw [List.mem_singleton.mp between] at other
    simp at other
  · obtain ⟨path, member, rfl⟩ := List.mem_map.mp among
    rcases mem_nativePath other here with inner | new
    · exact .inl (PathList.mem_split member inner)
    · exact .inr new

theorem itemOn_free {item : Item} (fit : item.Fit marking) (free : ∀ c ∈ marking, c ∉ home) :
    ∀ c ∈ marking, c ∉ itemOn (Platform.windows home) item := by
  intro c bad inside
  cases item with
  | plain t => exact (show Tame marking t from fit).free c bad inside
  | rooted path =>
    have other := (by decide : ∀ c ∈ marking, c ∉ ['\\', '.', ';', '&']) c bad
    rcases mem_native other inside with inner | new
    · exact fit.1.free c bad inner
    · exact free c bad new
  | colon => exact (by decide : ∀ c ∈ marking, c ∉ [';']) c bad inside
  | home => exact free c bad inside

theorem apart_marking : Suggestion.Apart marking := (by decide : ∀ c ∈ ['.', '/', ':'], c ∉ marking)

theorem alone_word {w : Text} (tame : Tame marking w) (quiet : ∀ item ∈ items w, ∀ c ∈ marking, c ∉ itemOn platform item) :
    Alone platform classpath (word w) ((items w).flatMap (itemOn platform)) := by
  rw [Suggestion.word_items]
  exact alone_items (Suggestion.items_fit apart_marking tame) quiet

theorem inlined_word {w : Text} (tame : Tame marking w) (free : ∀ item ∈ items w, ∀ c ∈ marking, c ∉ itemOn platform item) :
    inlined (word w) classpath platform = (items w).flatMap (itemOn platform) := (alone_word tame free).inlined

-- One relative path.

-- A path with the root that it has or is given.
def underRoot (path : Text) : Text := if isRooted path then path else ['.', '/'] ++ path

theorem underRoot_rooted {path : Text} (root : isRooted path = true) : underRoot path = path := if_pos root

theorem underRoot_bare {path : Text} (root : isRooted path = false) : underRoot path = '.' :: '/' :: path :=
  if_neg (Bool.eq_false_iff.mp root)

theorem native_single {path : Text} (colon : ':' ∉ path) :
    PathList.native (Platform.windows home) path = (Platform.windows home).nativePath path := by
  have alone : PathList.split path = [path] := PathList.splitFrom_ended colon [] []
  rw [native_windows, alone]
  rfl

theorem spell_free {path : Text} {c : Char} (other : c ∉ ['\\', '.']) (absent : c ∉ path) : c ∉ Windows.spell (Windows.names path) := by
  intro inside
  rcases Windows.mem_spell inside with made | ⟨part, among, here⟩
  · exact other made
  · exact absent (Windows.mem_names among here).1

theorem native_dotted {body : Text} (colon : ':' ∉ body) :
    PathList.native (Platform.windows home) ('.' :: '/' :: body) = Windows.spell (Windows.names body) := by
  have native : (Platform.windows home).nativePath ('.' :: '/' :: body) = Windows.normal ('.' :: '/' :: body) := rfl
  rw [native_single (by simp [colon]), native, Windows.normal_dotted colon]

theorem inlined_dotted {body : Text} (free : ∀ c ∈ ':' :: marking, c ∉ body) (classpath : Option Classpath) (home : Text) :
    inlined (Suggestion.braced ('.' :: '/' :: body)) classpath (Platform.windows home) = Windows.spell (Windows.names body) := by
  obtain ⟨colon, marks⟩ := List.forall_mem_cons.mp free
  have shown : itemOn (Platform.windows home) (.rooted ('.' :: '/' :: body)) = Windows.spell (Windows.names body) := native_dotted colon
  have dotted : ∀ c ∈ marking, c ∉ '.' :: '/' :: body := by
    intro c bad inside
    have apart := (by decide : ∀ c ∈ marking, c ≠ '.' ∧ c ≠ '/') c bad
    simp only [List.mem_cons, apart, false_or] at inside
    exact marks c bad inside
  have fits : ∀ item ∈ [Item.rooted ('.' :: '/' :: body)], item.Fit marking :=
    List.forall_mem_singleton.mpr ⟨tame_of_free dotted, '.', body, rfl, rfl⟩
  have quiet : ∀ item ∈ [Item.rooted ('.' :: '/' :: body)], ∀ c ∈ marking, c ∉ itemOn (Platform.windows home) item := by
    rw [List.forall_mem_singleton, shown]
    intro c bad
    exact spell_free ((by decide : ∀ c ∈ marking, c ∉ ['\\', '.']) c bad) (marks c bad)
  have whole : inlined ([Item.rooted ('.' :: '/' :: body)].flatMap Item.write) classpath (Platform.windows home) = _ :=
    inlined_items fits quiet
  rwa [List.flatMap_singleton, List.flatMap_singleton, shown] at whole

theorem underRoot_dotted {w : Text} (several : 2 ≤ (segments w).length) (away : w.takeWhile (· ≠ '/') ≠ ['~']) :
    ∃ body, underRoot w = '.' :: '/' :: body ∧ (∀ c ∈ body, c ∈ w) ∧ Windows.names body = Windows.names w := by
  cases root : isRooted w with
  | false => exact ⟨w, underRoot_bare root, fun c inside => inside, rfl⟩
  | true =>
    obtain ⟨lead, body, rfl, isRoot⟩ := Suggestion.led_of_isRooted root several
    simp only [Marker.isRoot, Bool.or_eq_true, decide_eq_true_eq] at isRoot
    rcases isRoot with rfl | rfl
    · exact ⟨body, underRoot_rooted root, fun c inside => by simp [inside], (Windows.names_dot body).symm⟩
    · exact absurd rfl away

-- A relative path that does not start at the home directory becomes its names between
-- backslashes, which are read back as a path without a drive or a root.
theorem inlined_relative {w : Text} (free : ∀ c ∈ ':' :: marking, c ∉ w) (relative : isAbsolute w = false)
    (away : w.takeWhile (· ≠ '/') ≠ ['~']) (several : 2 ≤ (segments w).length) (classpath : Option Classpath) (home : Text) :
    ∃ m, path? w = some m ∧ inlined m classpath (Platform.windows home) = Windows.spell (Windows.names w) ∧
      '/' ∉ inlined m classpath (Platform.windows home) ∧
      Windows.parse (inlined m classpath (Platform.windows home)) = ⟨[], false, Windows.names w⟩ := by
  obtain ⟨body, rooted, within, same⟩ := underRoot_dotted several away
  have suggested : path? w = some (Suggestion.braced ('.' :: '/' :: body)) := by
    unfold path?
    rw [← rooted, if_neg (by simp [relative]; omega)]
    rfl
  have written := inlined_dotted (fun c bad inside => free c bad (within c inside)) classpath home
  rw [same] at written
  have named := Windows.named_names w
  refine ⟨_, suggested, written, ?_, ?_⟩
  · rw [written]
    exact Windows.slashless_spell named
  · rw [written]
    apply Windows.parse_spell named
    intro part among inside
    exact free ':' (by simp) (Windows.mem_names among inside).1

theorem inlined_relative_mixed :
    (∀ c ∈ ':' :: marking, c ∉ "\\\\srv/./a\\..//b".toList) ∧ isAbsolute "\\\\srv/./a\\..//b".toList = false ∧
      "\\\\srv/./a\\..//b".toList.takeWhile (· ≠ '/') ≠ ['~'] ∧ 2 ≤ (segments "\\\\srv/./a\\..//b".toList).length ∧
      Windows.spell (Windows.names "\\\\srv/./a\\..//b".toList) = "srv\\a\\..\\b".toList ∧
      ∃ m, path? "\\\\srv/./a\\..//b".toList = some m ∧ inlined m none (Platform.windows []) = "srv\\a\\..\\b".toList := by
  have free : ∀ c ∈ ':' :: marking, c ∉ "\\\\srv/./a\\..//b".toList := by decide
  have away : "\\\\srv/./a\\..//b".toList.takeWhile (· ≠ '/') ≠ ['~'] := by decide
  have several : 2 ≤ (segments "\\\\srv/./a\\..//b".toList).length := by decide
  have shown : Windows.spell (Windows.names "\\\\srv/./a\\..//b".toList) = "srv\\a\\..\\b".toList := by decide +kernel
  obtain ⟨m, suggested, written, _⟩ := inlined_relative free rfl away several none []
  exact ⟨free, rfl, away, several, shown, m, suggested, written.trans shown⟩

-- Lists of relative paths.

-- A word that the planner takes for a list, and whose parts no stage but the one for paths changes.
structure RelativeList (w : Text) : Prop where
  several : 2 ≤ (classpathParts w).length
  filled : ∀ part ∈ classpathParts w, part ≠ []
  relative : ∀ part ∈ classpathParts w, isAbsolute part = false
  free : ∀ part ∈ classpathParts w, ∀ c ∈ marking, c ∉ part
  nested : ∃ part ∈ classpathParts w, 2 ≤ (segments part).length

instance (w : Text) : Decidable (RelativeList w) :=
  decidable_of_iff (2 ≤ (classpathParts w).length ∧ (∀ part ∈ classpathParts w, part ≠ []) ∧
      (∀ part ∈ classpathParts w, isAbsolute part = false) ∧ (∀ part ∈ classpathParts w, ∀ c ∈ marking, c ∉ part) ∧
      ∃ part ∈ classpathParts w, 2 ≤ (segments part).length)
    ⟨fun ⟨several, filled, relative, free, nested⟩ => ⟨several, filled, relative, free, nested⟩,
      fun list => ⟨list.several, list.filled, list.relative, list.free, list.nested⟩⟩

-- A part as Windows has it when it stands alone.
def nativePart (home part : Text) : Text :=
  if part = ['~'] then home
  else (Platform.windows home).nativePath (underRoot part)

variable {w part : Text}

theorem silent_of_free {t : Text} (free : ∀ c ∈ marking, c ∉ t) : mentionsDeps t = false := by
  cases mentions : mentionsDeps t with
  | false => rfl
  | true =>
    have inside := Suggestion.mentionsDeps_exact.mp mentions
    exact absurd (inside.subset (by decide)) (free '{' (by simp [marking]))

theorem RelativeList.looks (list : RelativeList w) : looksLikeClasspath w = true := by
  obtain ⟨part, among, nested⟩ := list.nested
  have relative : (classpathParts w).any isAbsolute = false := by
    apply List.any_eq_false.mpr
    intro part among
    simp [list.relative part among]
  have nested_ : (classpathParts w).any (fun part => decide (2 ≤ (segments part).length)) = true :=
    List.any_eq_true.mpr ⟨part, among, decide_eq_true nested⟩
  simp [looksLikeClasspath, list.several, relative, nested_]

theorem RelativeList.tame (list : RelativeList w) : Tame marking w := by
  obtain ⟨k, joined⟩ := Suggestion.classpath_joined list.looks
  apply tame_of_free
  intro c bad inside
  have colon := (by decide : ∀ c ∈ marking, c ≠ ':') c bad
  rw [joined] at inside
  rcases List.mem_append.mp inside with inner | last
  · rcases Text.mem_of_mem_join inner with between | ⟨part, among, here⟩
    · exact colon (List.mem_singleton.mp between)
    · exact list.free part among c bad here
  · exact colon (List.eq_of_mem_replicate last)

theorem RelativeList.rooted (list : RelativeList w) (among : part ∈ classpathParts w) : rootPart part = underRoot part := by
  simp [rootPart, underRoot, list.filled part among, list.relative part among, silent_of_free (list.free part among)]

-- A rooted part is a dot, a tilde, or a path behind one of them.
theorem underRoot_cases (part : Text) : (underRoot part = part ∧ (part = ['.'] ∨ part = ['~'])) ∨
    (part ≠ ['.'] ∧ part ≠ ['~'] ∧ startsRooted (underRoot part) = true) := by
  cases root : isRooted part with
  | false =>
    rw [underRoot_bare root]
    refine .inr ⟨?_, ?_, rfl⟩
    · rintro rfl
      cases root
    · rintro rfl
      cases root
  | true =>
    rw [underRoot_rooted root]
    rcases Suggestion.isRooted_cases root with dot | tilde | starts
    · exact .inl ⟨rfl, .inl dot⟩
    · exact .inl ⟨rfl, .inr tilde⟩
    · refine .inr ⟨?_, ?_, starts⟩
      · rintro rfl
        cases starts
      · rintro rfl
        cases starts

-- In a list of markers each part stands alone.
theorem RelativeList.item (list : RelativeList w) (among : part ∈ classpathParts w) :
    itemOn (Platform.windows home) (itemOf (rootPart part)) = nativePart home part := by
  rw [list.rooted among]
  rcases underRoot_cases part with ⟨same, rfl | rfl⟩ | ⟨_, tilde, starts⟩
  · rfl
  · rfl
  · have colon : ':' ∉ underRoot part := by
      rw [← list.rooted among]
      exact Suggestion.colon_not_mem_rootPart (Suggestion.colon_not_mem_parts among)
    unfold itemOf nativePart
    rw [if_pos starts, if_neg tilde]
    exact native_single colon

theorem RelativeList.split (list : RelativeList w) :
    PathList.split (Text.join [':'] ((classpathParts w).map rootPart)) = (classpathParts w).map rootPart := by
  apply PathList.split_join
  · intro none_
    have several := list.several
    rw [List.map_eq_nil_iff.mp none_] at several
    simp at several
  · intro rooted among
    obtain ⟨part, member, rfl⟩ := List.mem_map.mp among
    exact Suggestion.colon_not_mem_rootPart (Suggestion.colon_not_mem_parts member)
  · intro rooted among
    obtain ⟨part, member, rfl⟩ := List.mem_map.mp among
    rw [list.rooted member]
    rcases underRoot_cases part with ⟨_, rfl | rfl⟩ | ⟨_, _, starts⟩
    · decide
    · decide
    · obtain ⟨root, body, shown, isRoot⟩ := Suggestion.led_of_startsRooted starts
      rw [shown]
      constructor
      · intro first
        cases first
        cases isRoot
      · intro first
        cases first
        cases isRoot

theorem suggested_list (looks : looksLikeClasspath w = true) : classpath? w = some (word w) := by
  unfold Suggestion.word Suggestion.classpath?
  rw [if_pos looks]
  dsimp only
  split <;> rfl

-- One marker for the whole list: the parts are written as paths, a lone tilde too.
theorem RelativeList.whole (list : RelativeList w) (starts : startsRooted (((classpathParts w).map rootPart).headD []) = true) :
    (items w).flatMap (itemOn (Platform.windows home)) =
      Text.join [';'] ((classpathParts w).map fun part => (Platform.windows home).nativePath (underRoot part)) := by
  have one : items w = [.rooted (Text.join [':'] ((classpathParts w).map rootPart))] := by
    unfold items
    rw [if_pos list.looks]
    dsimp only
    rw [if_pos starts]
  rw [one, List.flatMap_singleton, itemOn, native_windows, list.split, List.map_map]
  congr 1
  apply List.map_congr_left
  intro part among
  rw [Function.comp_apply, list.rooted among]

theorem RelativeList.marked (list : RelativeList w) (starts : startsRooted (((classpathParts w).map rootPart).headD []) = false) :
    (items w).flatMap (itemOn (Platform.windows home)) = Text.join [';'] ((classpathParts w).map (nativePart home)) := by
  have several : items w = listed ((classpathParts w).map rootPart) := by
    unfold items
    rw [if_pos list.looks]
    dsimp only
    rw [if_neg (Bool.eq_false_iff.mp starts)]
  have colon : itemOn (Platform.windows home) .colon = [';'] := rfl
  rw [several, Suggestion.listed_flatMap, colon, List.map_map]
  congr 1
  apply List.map_congr_left
  intro part among
  exact list.item among

theorem RelativeList.starts (list : RelativeList w) : startsRooted (((classpathParts w).map rootPart).headD []) = false ↔
    (classpathParts w).head? = some ['.'] ∨ (classpathParts w).head? = some ['~'] := by
  obtain ⟨first, second, rest, parts⟩ := Suggestion.looksLike_parts list.looks
  have among : first ∈ classpathParts w := by simp [parts]
  have rooted := list.rooted among
  rw [parts, List.map_cons, List.headD_cons, rooted, List.head?_cons, Option.some.injEq, Option.some.injEq]
  rcases underRoot_cases first with ⟨same, either⟩ | ⟨dot, tilde, starts⟩
  · rw [same]
    apply iff_of_true _ either
    rcases either with rfl | rfl <;> rfl
  · rw [starts]
    simp [dot, tilde]

-- The home directory is all that the two ways of writing a part differ in.
theorem join_native (home : Text) (parts : List Text) :
    Text.join [';'] (parts.map fun part => (Platform.windows home).nativePath (underRoot part)) =
      Text.join [';'] (parts.map (nativePart home)) ↔ ['~'] ∉ parts ∨ home = ['~'] := by
  have others : ∀ part ≠ ['~'], (Platform.windows home).nativePath (underRoot part) = nativePart home part := by
    intro part other
    rw [nativePart, if_neg other]
  by_cases among : ['~'] ∈ parts
  · have kept : (Platform.windows home).nativePath (underRoot ['~']) = ['~'] := rfl
    have replaced : nativePart home ['~'] = home := rfl
    rw [Text.join_but others [';'] among, kept, replaced, or_iff_right (not_not.mpr among)]
    exact eq_comm
  · apply iff_of_true _ (.inl among)
    congr 1
    apply List.map_congr_left
    intro part member
    apply others
    rintro rfl
    exact among member

-- A list becomes what its parts are on their own exactly if each part has its own marker, no part
-- is the home directory, or that is written the way it is named.
theorem inlined_list (list : RelativeList w) (free : ∀ c ∈ marking, c ∉ home) (classpath : Option Classpath) :
    (∃ m, classpath? w = some m ∧
      inlined m classpath (Platform.windows home) = Text.join [';'] ((classpathParts w).map (nativePart home))) ↔
    ((classpathParts w).head? = some ['.'] ∨ (classpathParts w).head? = some ['~']) ∨ ['~'] ∉ classpathParts w ∨ home = ['~'] := by
  have quiet : ∀ item ∈ items w, ∀ c ∈ marking, c ∉ itemOn (Platform.windows home) item := by
    intro item among
    exact itemOn_free (Suggestion.items_fit apart_marking list.tame item among) free
  have written : inlined (word w) classpath (Platform.windows home) = (items w).flatMap (itemOn (Platform.windows home)) :=
    inlined_word list.tame quiet
  rw [suggested_list list.looks, ← list.starts]
  simp only [Option.some.injEq, exists_eq_left', written]
  cases starts : startsRooted (((classpathParts w).map rootPart).headD []) with
  | false =>
    apply iff_of_true
    · exact list.marked starts
    · exact .inl rfl
  | true =>
    rw [list.whole starts, or_iff_right Bool.noConfusion]
    exact join_native home (classpathParts w)

theorem inlined_list_ahead :
    RelativeList "~:lib/a.jar:.".toList ∧ (∀ c ∈ marking, c ∉ "C:\\Users\\dev".toList) ∧
      Text.join [';'] ((classpathParts "~:lib/a.jar:.".toList).map (nativePart "C:\\Users\\dev".toList)) =
        "C:\\Users\\dev;lib\\a.jar;.".toList ∧
      ∃ m, classpath? "~:lib/a.jar:.".toList = some m ∧
        inlined m none (Platform.windows "C:\\Users\\dev".toList) = "C:\\Users\\dev;lib\\a.jar;.".toList := by
  have list : RelativeList "~:lib/a.jar:.".toList := by decide +kernel
  have free : ∀ c ∈ marking, c ∉ "C:\\Users\\dev".toList := by decide
  have shown : Text.join [';'] ((classpathParts "~:lib/a.jar:.".toList).map (nativePart "C:\\Users\\dev".toList)) =
      "C:\\Users\\dev;lib\\a.jar;.".toList := by decide +kernel
  obtain ⟨m, suggested, written⟩ := (inlined_list list free none).mpr (.inl (.inr rfl))
  exact ⟨list, free, shown, m, suggested, written.trans shown⟩

-- A home directory behind a path stays a tilde.
theorem inlined_list_behind :
    RelativeList "lib/a:~".toList ∧ (∀ c ∈ marking, c ∉ "C:\\Users\\dev".toList) ∧
      classpath? "lib/a:~".toList = some "\x7b./lib/a:~\x7d".toList ∧
      inlined "\x7b./lib/a:~\x7d".toList none (Platform.windows "C:\\Users\\dev".toList) = "lib\\a;~".toList ∧
      Text.join [';'] ((classpathParts "lib/a:~".toList).map (nativePart "C:\\Users\\dev".toList)) =
        "lib\\a;C:\\Users\\dev".toList := by
  decide +kernel

end PortableActions.CommandLine
