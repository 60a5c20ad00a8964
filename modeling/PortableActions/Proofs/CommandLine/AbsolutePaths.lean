import PortableActions.Proofs.CommandLine.NativeWords
import PortableActions.Proofs.Path.Names
import PortableActions.Proofs.Template.Sightings
-- Absolute paths among the words of a template. Planning and all later stages go through a
-- template word by word and leave everything else where it is, so a word stays what it is on
-- its own. A path from the root does, but the planner does not know a drive.
namespace PortableActions

namespace Template

mutual
-- A tree with its words and separators written in some way, each at its place.
def laid (word : Text → Text) (separator : Separator → Text) : Node → Text
  | .command program args => Text.unwords ((program :: args).map word)
  | .separator kind => separator kind
  | .group body => ['('] ++ laidAll word separator body ++ [')']

def laidAll (word : Text → Text) (separator : Separator → Text) : List Node → Text
  | [] => []
  | node :: rest => laid word separator node ++ laidAll word separator rest
end

namespace Suggestion

-- Paths on either system.

theorem length_segments_append (a b : Text) :
    (segments a).length ≤ (segments (a ++ b)).length ∧ (segments b).length ≤ (segments (a ++ b)).length := by
  obtain ⟨front, last, first, rest, before, behind, whole⟩ := Text.splitOn_concat '/' a b
  simp only [segments, before, behind, whole, List.filter_append, List.filter_cons, List.filter_nil, List.length_append]
  by_cases empty : last ++ first = []
  · obtain ⟨rfl, rfl⟩ := List.append_eq_nil_iff.mp empty
    simp
  · rw [if_pos (decide_eq_true empty), List.length_cons]
    constructor
    · split_ifs
      · rw [List.length_singleton]
        omega
      · rw [List.length_nil]
        omega
    · split_ifs
      · rw [List.length_cons]
        omega
      · omega

theorem length_segments_within {p t : Text} (inside : p <:+: t) : (segments p).length ≤ (segments t).length := by
  obtain ⟨front, behind, rfl⟩ := inside
  exact Nat.le_trans (length_segments_append front p).2 (length_segments_append (front ++ p) behind).1

theorem looks_nested {w : Text} (silent : mentionsDeps w = false) (looks : looksLikeClasspath w = true) :
    (∀ part ∈ classpathParts w, isAbsolute part = false) ∧ 2 ≤ (segments w).length := by
  simp only [looksLikeClasspath, silent, Bool.false_or, Bool.and_eq_true, Bool.not_eq_true'] at looks
  obtain ⟨_, relative, nested⟩ := looks
  obtain ⟨part, among, several⟩ := List.any_eq_true.mp nested
  obtain ⟨k, split⟩ := classpathParts_split w
  have inside : part ∈ Text.splitOn ':' w := split ▸ List.mem_append_left _ among
  refine ⟨fun other member => by simpa using List.any_eq_false.mp relative other member, ?_⟩
  exact Nat.le_trans (of_decide_eq_true several) (length_segments_within (Text.infix_of_mem_splitOn inside))

theorem isAbsolute_head {w : Text} : isAbsolute w = true ↔ w.head? = some '/' := by
  cases w with
  | nil => simp [isAbsolute, Text.startsWith]
  | cons c r =>
    rw [isAbsolute, Text.startsWith, List.isPrefixOf_iff_prefix, List.cons_prefix_cons, List.head?_cons, Option.some.injEq]
    simp [eq_comm]

theorem absolute_unlisted {w : Text} (silent : mentionsDeps w = false) (absolute : isAbsolute w = true) :
    looksLikeClasspath w = false := by
  rw [← Bool.not_eq_true]
  intro looks
  obtain ⟨relative, _⟩ := looks_nested silent looks
  obtain ⟨first, second, rest, parts⟩ := looksLike_parts looks
  obtain ⟨k, joined⟩ := classpath_joined looks
  rw [parts, Text.join_char (by simp)] at joined
  have bare := relative first (by simp [parts])
  rw [isAbsolute_head, joined] at absolute
  cases first with
  | nil => cases absolute
  | cons c r =>
    have leads : c = '/' := by simpa using absolute
    rw [leads] at bare
    cases bare

theorem items_alone {w : Text} (silent : mentionsDeps w = false) (stays : isAbsolute w = true ∨ (segments w).length < 2) :
    items w = [.plain w] := by
  have unlisted : looksLikeClasspath w = false := by
    rcases stays with absolute | few
    · exact absolute_unlisted silent absolute
    · rw [← Bool.not_eq_true]
      intro looks
      have several := (looks_nested silent looks).2
      omega
  unfold items
  rw [if_neg (by simp [unlisted]), if_pos (by simpa using stays)]

-- The colon of a drive is taken for one between two paths, or the whole for a path without a root.
theorem items_drive {letter slash : Char} {tail : Text} (known : Path.Windows.isDriveLetter letter = true)
    (silent : mentionsDeps (letter :: ':' :: slash :: tail) = false)
    (several : 2 ≤ (segments (letter :: ':' :: slash :: tail)).length) :
    ∃ more, items (letter :: ':' :: slash :: tail) = [.rooted ('.' :: '/' :: letter :: ':' :: more)] := by
  have other : letter ≠ '/' ∧ letter ≠ '.' ∧ letter ≠ '~' := by
    refine ⟨?_, ?_, ?_⟩ <;> (rintro rfl; cases known)
  have relative : isAbsolute (letter :: ':' :: slash :: tail) = false := by
    rw [← Bool.not_eq_true, isAbsolute_head]
    simpa using other.1
  have unrooted : isRooted (letter :: ':' :: slash :: tail) = false := by
    simp [isRooted, other.1]
  unfold items
  by_cases looks : looksLikeClasspath (letter :: ':' :: slash :: tail) = true
  · obtain ⟨first, second, rest, parts⟩ := looksLike_parts looks
    obtain ⟨k, split⟩ := classpathParts_split (letter :: ':' :: slash :: tail)
    -- The drive is an entry of its own, so the letter alone is what gets rooted.
    have drive : Text.splitOn ':' (letter :: ':' :: slash :: tail) = [letter] :: Text.splitOn ':' (slash :: tail) := by
      rw [Text.splitOn_cons (by rintro rfl; cases known) (Text.splitOn_cons_sep ':' (slash :: tail))]
    rw [drive, parts] at split
    obtain ⟨rfl, _⟩ := List.cons.inj split
    have led : rootPart [letter] = ['.', '/', letter] := by
      have short : mentionsDeps [letter] = false := by
        rw [← Bool.not_eq_true, mentionsDeps_exact]
        intro inside
        exact absurd inside.length_le (by simp [Marker.deps])
      have bare : isAbsolute [letter] = false := by
        rw [← Bool.not_eq_true, isAbsolute_head]
        simpa using other.1
      simp [rootPart, short, bare, isRooted, other]
    rw [if_pos looks]
    dsimp only
    rw [parts, List.map_cons, List.map_cons, led, List.headD_cons, if_pos (show startsRooted ['.', '/', letter] = true from rfl),
      Text.join_char (by simp)]
    exact ⟨_, rfl⟩
  · rw [if_neg looks, if_neg (by simp [relative]; omega), if_neg (by simp [unrooted])]
    exact ⟨_, rfl⟩

end Suggestion

end Template

namespace CommandLine
open PortableActions.Template
open PortableActions.Path (Windows)
open PortableActions.Template.Suggestion (Tame Item word items isAbsolute segments mentionsDeps)

variable {platform : Platform} {classpath : Option Classpath} {home : Text}

theorem alone_plain {t : Text} (free : ∀ c ∈ marking, c ∉ t) : Alone platform classpath t t := by
  have single : Alone platform classpath ([Item.plain t].flatMap Item.write) ([Item.plain t].flatMap (itemOn platform)) :=
    alone_items (List.forall_mem_singleton.mpr (tame_of_free free)) (List.forall_mem_singleton.mpr free)
  rwa [List.flatMap_singleton, List.flatMap_singleton] at single

theorem alone_unwords {f g : Text → Text} {ws : List Text} (each : ∀ w ∈ ws, Alone platform classpath (f w) (g w)) :
    Alone platform classpath (Text.unwords (ws.map f)) (Text.unwords (ws.map g)) := by
  induction ws with
  | nil => exact .nil
  | cons w rest ih =>
    obtain ⟨here, later⟩ := List.forall_mem_cons.mp each
    cases rest with
    | nil => exact here
    | cons next more =>
      have blank : Alone platform classpath [' '] [' '] := alone_plain (by decide)
      have split (h : Text → Text) : Text.unwords ((w :: next :: more).map h) = h w ++ ([' '] ++ Text.unwords ((next :: more).map h)) :=
        Text.unwords_cons (by simp)
      rw [split, split]
      exact here.append (blank.append (ih later))

theorem alone_statement (free : ∀ c ∈ marking, c ∉ platform.commandSeparator) :
    Alone platform classpath Marker.commandSeparator platform.commandSeparator := by
  refine ⟨?_, free '@' (by simp [marking]), free Marker.standIn (by simp [marking])⟩
  have deps : Text.Passes (Classpath.substitute classpath platform) Marker.commandSeparator Marker.commandSeparator :=
    replaceAll_other (by decide) (by decide) _
  have paths : Text.Passes (substitutePaths platform) Marker.commandSeparator Marker.commandSeparator :=
    paths_closed platform (by decide)
  have file : Text.Passes (Text.replaceAll Marker.fileSeparator platform.fileSeparator) Marker.commandSeparator Marker.commandSeparator :=
    replaceAll_other (by decide) (by decide) _
  have list : Text.Passes (Text.replaceAll Marker.pathSeparator platform.pathSeparator) Marker.commandSeparator Marker.commandSeparator :=
    replaceAll_other (by decide) (by decide) _
  have home : Text.Passes (Text.replaceAll Marker.home platform.homeMarker) Marker.commandSeparator Marker.commandSeparator :=
    replaceAll_other (by decide) (by decide) _
  have statement : Text.Passes (Text.replaceAll Marker.commandSeparator platform.commandSeparator) Marker.commandSeparator
      platform.commandSeparator := fun rest => Text.replaceAll_hit (by decide) _ rest
  intro rest
  simp only [expand]
  rw [deps rest, paths, symbols_stages file list home statement]

theorem alone_separator (free : ∀ c ∈ marking, c ∉ platform.commandSeparator) (kind : Separator) :
    ∃ b, Alone platform classpath (Suggestion.separator kind) b := by
  have blank : Alone platform classpath [' '] [' '] := alone_plain (by decide)
  cases kind with
  | sequence => exact ⟨_, (blank.append (alone_statement free)).append blank⟩
  | and => exact ⟨_, alone_plain (by decide)⟩
  | or => exact ⟨_, alone_plain (by decide)⟩

mutual
theorem alone_laid {f g : Text → Text} {sep through : Separator → Text}
    (separators : ∀ kind, Alone platform classpath (sep kind) (through kind)) : ∀ {node : Node},
    (∀ w, .word w ∈ node.tokens → Alone platform classpath (f w) (g w)) →
      Alone platform classpath (laid f sep node) (laid g through node)
  | .command program args, words => alone_unwords fun w among => words w (by simpa [Node.tokens] using among)
  | .separator kind, _ => separators kind
  | .group body, words => by
    have inner : Alone platform classpath (laidAll f sep body) (laidAll g through body) :=
      alone_laidAll separators fun w among => words w (by simp [Node.tokens, among])
    have opening : Alone platform classpath ['('] ['('] := alone_plain (by decide)
    have closing : Alone platform classpath [')'] [')'] := alone_plain (by decide)
    exact (opening.append inner).append closing

theorem alone_laidAll {f g : Text → Text} {sep through : Separator → Text}
    (separators : ∀ kind, Alone platform classpath (sep kind) (through kind)) : ∀ {nodes : List Node},
    (∀ w, .word w ∈ Node.tokensAll nodes → Alone platform classpath (f w) (g w)) →
      Alone platform classpath (laidAll f sep nodes) (laidAll g through nodes)
  | [], _ => .nil
  | node :: rest, words => by
    have first : Alone platform classpath (laid f sep node) (laid g through node) :=
      alone_laid separators fun w among => words w (by simp [Node.tokensAll, among])
    have later : Alone platform classpath (laidAll f sep rest) (laidAll g through rest) :=
      alone_laidAll separators fun w among => words w (by simp [Node.tokensAll, among])
    exact first.append later
end

-- Without a mention of the classpath nothing is wrapped.
theorem command_laid {program : Text} {args : List Text} (tame : ∀ w ∈ program :: args, Tame marking w) :
    Suggestion.command program args = Text.unwords ((program :: args).map word) := by
  obtain ⟨named, each⟩ := List.forall_mem_cons.mp tame
  have unwrapped : args.map (written (Suggestion.takesArgsFiles (word program))) = args.map word := by
    apply List.map_congr_left
    intro w among
    have plain : Tame signs w := ⟨(each w among).clean, fun c bad => (each w among).free c ((by decide : signs ⊆ marking) bad)⟩
    exact written_plain plain fun both => by simp [silent_of_free (each w among).free] at both
  rw [command_written (named.free '@' (by simp [marking])), unwrapped, List.map_cons]

mutual
theorem render_laid : ∀ {node : Node}, (∀ w, .word w ∈ node.tokens → Tame marking w) →
    Suggestion.render node = laid word Suggestion.separator node
  | .command program args, tame => command_laid fun w among => tame w (by simpa [Node.tokens] using among)
  | .separator kind, _ => rfl
  | .group body, tame => by
    rw [Suggestion.render, laid, renderAll_laid fun w among => tame w (by simp [Node.tokens, among])]

theorem renderAll_laid : ∀ {nodes : List Node}, (∀ w, .word w ∈ Node.tokensAll nodes → Tame marking w) →
    Suggestion.renderAll nodes = laidAll word Suggestion.separator nodes
  | [], _ => rfl
  | node :: rest, tame => by
    rw [Suggestion.renderAll, laidAll, render_laid fun w among => tame w (by simp [Node.tokensAll, among]),
      renderAll_laid fun w among => tame w (by simp [Node.tokensAll, among])]
end

-- What a word becomes.

theorem itemOn_posix (item : Item) : itemOn (Platform.posix home) item = item.read := by
  cases item <;> rfl

theorem quiet_posix {w : Text} (tame : Tame marking w) :
    ∀ item ∈ items w, ∀ c ∈ marking, c ∉ itemOn (Platform.posix home) item := by
  intro item among c bad inside
  have fit := Suggestion.items_fit apart_marking tame item among
  rw [itemOn_posix] at inside
  cases item with
  | plain t => exact (show Tame marking t from fit).free c bad inside
  | rooted path => exact fit.1.free c bad inside
  | colon => exact (by decide : ∀ c ∈ marking, c ∉ [':']) c bad inside
  | home => exact (by decide : ∀ c ∈ marking, c ∉ ['~']) c bad inside

theorem nativePath_homeless {path : Text} (absent : '~' ∉ path) : (Platform.windows home).nativePath path = Windows.normal path := by
  have family : (Platform.windows home).isWindows = true := rfl
  unfold Platform.nativePath
  rw [if_pos family]
  split
  · simp at absent
  · rfl

theorem itemOn_homeless {item : Item} (absent : '~' ∉ item.read) :
    itemOn (Platform.windows home) item = itemOn (Platform.windows []) item := by
  cases item with
  | plain t => rfl
  | rooted path =>
    have parts (home : Text) : (PathList.split path).map (Platform.windows home).nativePath = (PathList.split path).map Windows.normal := by
      apply List.map_congr_left
      intro part among
      exact nativePath_homeless fun inside => absent (PathList.mem_split among inside)
    rw [itemOn, itemOn, native_windows, native_windows, parts, parts]
  | colon => rfl
  | home => simp [Item.read] at absent

theorem read_homeless {w : Text} (absent : '~' ∉ w) : ∀ item ∈ items w, '~' ∉ item.read := by
  obtain ⟨u, k, split, inserted⟩ := Suggestion.rooted_inserted w
  have rooted : '~' ∉ Suggestion.rooted w := by
    rw [← List.count_eq_zero, inserted.count (by decide), List.count_eq_zero]
    exact fun inside => absent (split ▸ List.mem_append_left _ inside)
  rw [Suggestion.rooted_items] at rooted
  exact fun item among inside => rooted (List.mem_flatMap.mpr ⟨item, among, inside⟩)

-- A home directory is in the way of the stages only where a word asks for it.
theorem quiet_windows {w : Text} (tame : Tame marking w) (calm : (∀ c ∈ marking, c ∉ home) ∨ '~' ∉ w) :
    ∀ item ∈ items w, ∀ c ∈ marking, c ∉ itemOn (Platform.windows home) item := by
  intro item among
  have fit := Suggestion.items_fit apart_marking tame item among
  rcases calm with free | absent
  · exact itemOn_free fit free
  · rw [itemOn_homeless (read_homeless absent item among)]
    exact itemOn_free fit (by simp)

-- Absolute paths.

theorem native_drive {letter : Char} (known : Windows.isDriveLetter letter = true) (more home : Text) :
    ∃ rest, PathList.native (Platform.windows home) ('.' :: '/' :: letter :: ':' :: more) = letter :: ';' :: rest := by
  have other : ∀ c ∈ ['.', '/', '\\', ':', ';', '{', '}', '@', Marker.standIn], c ≠ letter := by
    rintro c among rfl
    revert known
    revert c
    decide
  have name : PlainName [letter] :=
    ⟨by simp, by simpa using Ne.symm (other '.' (by simp)), fun c among inside =>
      other c (List.mem_cons_of_mem _ among) (List.mem_singleton.mp inside)⟩
  have first : (Platform.windows home).nativePath ['.', '/', letter] = [letter] := normal_name name
  have colon : ':' ∉ ['.', '/', letter] := by simpa using other ':' (by simp)
  have semicolon : ';' ∉ ['.', '/', letter] := by simpa using other ';' (by simp)
  have split : PathList.split ('.' :: '/' :: letter :: ':' :: more) = ['.', '/', letter] :: PathList.split more :=
    PathList.split_front colon semicolon (by simp) more
  rw [native_windows, split, List.map_cons, first, Text.join_char (by simp [PathList.split, PathList.splitFrom_ne_nil])]
  exact ⟨_, rfl⟩

-- What stays of an absolute path: all of it, unless it has a drive and a name behind its first slash.
theorem inlined_absolute_word {w : Text} (tame : Tame marking w) (absolute : isAbsolute w = true ∨ Windows.DriveRooted w)
    (standard : platform = Platform.posix home ∨ platform = Platform.windows home)
    (quiet : ∀ item ∈ items w, ∀ c ∈ marking, c ∉ itemOn platform item) (classpath : Option Classpath) :
    (word w = w ↔ isAbsolute w = true ∨ (segments w).length < 2) ∧
      (inlined (word w) classpath platform = w ↔ isAbsolute w = true ∨ (segments w).length < 2) := by
  have silent := silent_of_free tame.free
  rw [(alone_word tame quiet).inlined, Suggestion.word_items]
  by_cases stays : isAbsolute w = true ∨ (segments w).length < 2
  · rw [Suggestion.items_alone silent stays, List.flatMap_singleton, List.flatMap_singleton]
    exact ⟨iff_of_true rfl stays, iff_of_true rfl stays⟩
  · obtain ⟨relative, several⟩ := not_or.mp stays
    obtain ⟨letter, slash, tail, rfl, known, _⟩ := absolute.resolve_left relative
    obtain ⟨more, alone⟩ := Suggestion.items_drive known silent (by omega)
    rw [alone, List.flatMap_singleton, List.flatMap_singleton]
    refine ⟨iff_of_false ?_ stays, iff_of_false ?_ stays⟩
    · intro same
      rw [← (List.cons.inj same).1] at known
      cases known
    · rcases standard with rfl | rfl
      · intro same
        rw [itemOn_posix] at same
        rw [← (List.cons.inj same).1] at known
        cases known
      · obtain ⟨rest, native⟩ := native_drive known more home
        intro same
        have drive : letter :: ';' :: rest = letter :: ':' :: slash :: tail := native.symm.trans same
        cases (List.cons.inj (List.cons.inj drive).2).1

-- Each word of a template stands at its place in the plan and in the command line as it would on
-- its own. An absolute path of either system is left alone exactly if it starts at the root, or if
-- nothing but slashes follows its first slash: the planner knows no drives.
theorem inlined_absolute {t : Text} {nodes : List Node} (parsed : parse? t = some nodes) (free : ∀ c ∈ marking, c ∉ t)
    (standard : platform = Platform.posix home ∨
      (platform = Platform.windows home ∧ ((∀ c ∈ marking, c ∉ home) ∨ '~' ∉ t))) (classpath : Option Classpath) :
    Suggestion.plan t = laidAll word Suggestion.separator nodes ∧
      inlined (Suggestion.plan t) classpath platform =
        laidAll (fun w => inlined (word w) classpath platform)
          (fun kind => inlined (Suggestion.separator kind) classpath platform) nodes ∧
      ∀ command ∈ Node.commandsAll nodes, ∀ w ∈ command.1 :: command.2, isAbsolute w = true ∨ Windows.DriveRooted w →
        (word w = w ↔ isAbsolute w = true ∨ (segments w).length < 2) ∧
          (inlined (word w) classpath platform = w ↔ isAbsolute w = true ∨ (segments w).length < 2) := by
  have lexes := Token.lexes_read t
  rw [(parse?_exact.mp parsed).1] at lexes
  have within : ∀ w, .word w ∈ Node.tokensAll nodes → ∀ c, c ∉ t → c ∉ w := fun w among c absent inside =>
    absent (Token.mem_of_word lexes among inside)
  have tame : ∀ w, .word w ∈ Node.tokensAll nodes → Tame marking w := fun w among =>
    tame_of_free fun c bad => within w among c (free c bad)
  have quiet : ∀ w, .word w ∈ Node.tokensAll nodes → ∀ item ∈ items w, ∀ c ∈ marking, c ∉ itemOn platform item := by
    intro w among
    rcases standard with rfl | ⟨rfl, calm⟩
    · exact quiet_posix (tame w among)
    · exact quiet_windows (tame w among) (calm.imp_right (within w among '~'))
  have statement : ∀ c ∈ marking, c ∉ platform.commandSeparator := by
    rcases standard with rfl | ⟨rfl, _⟩
    · exact (by decide : ∀ c ∈ marking, c ∉ [';'])
    · exact (by decide : ∀ c ∈ marking, c ∉ ['&'])
  have clean : Clean t := .braceless (free '{' (by simp [marking])) (free '}' (by simp [marking]))
  have planned : Suggestion.plan t = laidAll word Suggestion.separator nodes := by
    rw [Suggestion.plan_parsed (clean.unused (free '@' (by simp [marking]))) parsed, renderAll_laid tame]
  have separators (kind : Separator) : Alone platform classpath (Suggestion.separator kind)
      (inlined (Suggestion.separator kind) classpath platform) := by
    obtain ⟨_, alone⟩ := @alone_separator platform classpath statement kind
    exact alone.own
  have words : ∀ w, .word w ∈ Node.tokensAll nodes →
      Alone platform classpath (word w) (inlined (word w) classpath platform) := fun w among =>
    (alone_word (tame w among) (quiet w among)).own
  refine ⟨planned, ?_, fun command among w inside absolute => ?_⟩
  · rw [planned]
    exact (alone_laidAll separators words).inlined
  · have token : .word w ∈ Node.tokensAll nodes := Suggestion.mem_commandsAll among inside
    exact inlined_absolute_word (tame w token) absolute (standard.imp_right And.left) (quiet w token) classpath

-- A list from the root, a drive with backslashes, and a relative path.
theorem inlined_absolute_mixed :
    parse? "cat /etc/a:b C:\\x src/main".toList =
        some [.command "cat".toList ["/etc/a:b".toList, "C:\\x".toList, "src/main".toList]] ∧
      (∀ c ∈ marking, c ∉ "cat /etc/a:b C:\\x src/main".toList) ∧ (∀ c ∈ marking, c ∉ "C:\\Users\\dev".toList) ∧
      Suggestion.plan "cat /etc/a:b C:\\x src/main".toList = "cat /etc/a:b C:\\x \x7b./src/main\x7d".toList ∧
      inlined (word "/etc/a:b".toList) none (Platform.windows "C:\\Users\\dev".toList) = "/etc/a:b".toList ∧
      inlined (word "C:\\x".toList) none (Platform.windows "C:\\Users\\dev".toList) = "C:\\x".toList := by
  have parsed : parse? "cat /etc/a:b C:\\x src/main".toList =
      some [.command "cat".toList ["/etc/a:b".toList, "C:\\x".toList, "src/main".toList]] := by decide +kernel
  have free : ∀ c ∈ marking, c ∉ "cat /etc/a:b C:\\x src/main".toList := by decide +kernel
  have calm : ∀ c ∈ marking, c ∉ "C:\\Users\\dev".toList := by decide +kernel
  obtain ⟨planned, _, words⟩ := inlined_absolute parsed free (.inr ⟨rfl, .inl calm⟩) none
  have stays := words ("cat".toList, ["/etc/a:b".toList, "C:\\x".toList, "src/main".toList]) (by simp [Node.commandsAll, Node.commands])
  have drive : Windows.DriveRooted "C:\\x".toList := ⟨'C', '\\', ['x'], rfl, rfl, rfl⟩
  refine ⟨parsed, free, calm, planned.trans (by decide +kernel), ?_, ?_⟩
  · exact (stays "/etc/a:b".toList (by simp) (.inl rfl)).2.mpr (.inl rfl)
  · exact (stays "C:\\x".toList (by simp) (.inr drive)).2.mpr (.inr (by decide +kernel))

-- A drive with slashes is planned as a relative path, and read as a list of two.
theorem inlined_absolute_drive :
    parse? "cat C:/x/y".toList = some [.command "cat".toList ["C:/x/y".toList]] ∧ (∀ c ∈ marking, c ∉ "cat C:/x/y".toList) ∧
      Windows.DriveRooted "C:/x/y".toList ∧ word "C:/x/y".toList ≠ "C:/x/y".toList ∧
      Suggestion.plan "cat C:/x/y".toList = "cat \x7b./C:/x/y\x7d".toList ∧
      inlined (Suggestion.plan "cat C:/x/y".toList) none (Platform.posix []) = "cat ./C:/x/y".toList ∧
      inlined (Suggestion.plan "cat C:/x/y".toList) none (Platform.windows "C:\\Users\\dev".toList) = "cat C;\\x\\y".toList := by
  have drive : Windows.DriveRooted "C:/x/y".toList := ⟨'C', '/', "x/y".toList, rfl, rfl, rfl⟩
  refine ⟨by decide +kernel, by decide +kernel, drive, ?_⟩
  decide +kernel

end CommandLine

end PortableActions
