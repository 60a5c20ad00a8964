import PortableActions.Proofs.CommandLine.Spending
import PortableActions.Proofs.Invocation.Laziness
-- A path in braces, read back on a POSIX platform. The marker ends at the first closing brace
-- in it, which need not be the one that planning put behind the path.
namespace PortableActions.CommandLine
open PortableActions.Template
open PortableActions.Template.Suggestion (Led Completes braced mentionsDeps isRooted path?)

-- The path of a marker.

theorem snoc_commutes {a : Char} {t : Text} : t ++ [a] = a :: t ↔ ∀ c ∈ t, c = a := by
  induction t with
  | nil => simp
  | cons b r ih =>
    rw [List.cons_append, List.cons.injEq, List.forall_mem_cons]
    constructor
    · rintro ⟨rfl, same⟩
      exact ⟨rfl, ih.mp same⟩
    · rintro ⟨rfl, later⟩
      exact ⟨rfl, ih.mpr later⟩

-- From its first closing brace on, the text is closing braces.
def ClosedLast (t : Text) : Prop := ∀ c ∈ t.dropWhile (· ≠ '}'), c = '}'

instance (t : Text) : Decidable (ClosedLast t) := inferInstanceAs (Decidable (∀ c ∈ _, _))

theorem dropWhile_open {front : Text} (absent : '}' ∉ front) (rest : Text) :
    (front ++ rest).dropWhile (· ≠ '}') = rest.dropWhile (· ≠ '}') := by
  apply List.dropWhile_append_of_pos
  intro c inside
  apply decide_eq_true
  rintro rfl
  exact absent inside

theorem closedLast_absent {t : Text} (absent : '}' ∉ t) : ClosedLast t := by
  have none_ := dropWhile_open absent []
  rw [List.append_nil] at none_
  unfold ClosedLast
  rw [none_]
  simp

theorem closedLast_split {front back : Text} (absent : '}' ∉ front) :
    ClosedLast (front ++ '}' :: back) ↔ ∀ c ∈ back, c = '}' := by
  unfold ClosedLast
  rw [dropWhile_open absent, List.dropWhile_cons_of_neg (by simp), List.forall_mem_cons]
  simp

-- The marker ends at the first closing brace, and the brace behind the path stays.
theorem pathsPlaced_split {front back : Text} (led : Led (front ++ '}' :: back)) (absent : '}' ∉ front) :
    pathsPlaced (braced (front ++ '}' :: back)) = front ++ pathsPlaced (back ++ ['}']) := by
  have marker := paths_braced (led_front rfl (by decide) led) absent (back ++ ['}'])
  rw [← marker]
  simp [braced]

theorem closes_placed {path : Text} (led : Led path) : closes (pathsPlaced (braced path)) ≤ closes path := by
  by_cases inside : '}' ∈ path
  · obtain ⟨front, back, rfl, absent⟩ := List.eq_append_cons_of_mem inside
    have most : closes (pathsPlaced (back ++ ['}'])) ≤ closes (back ++ ['}']) := by
      rcases paths_thrifty (back ++ ['}']) with ⟨_, kept⟩ | fewer
      · rw [kept]
      · exact Nat.le_of_lt fewer
    rw [pathsPlaced_split led absent, closes_append, closes_append]
    simpa [closes] using most
  · rw [braced, List.append_assoc, List.singleton_append, (paths_braced led inside).whole rfl]

theorem pathsPlaced_braced {path : Text} (led : Led path) : pathsPlaced (braced path) = path ↔ ClosedLast path := by
  by_cases inside : '}' ∈ path
  · obtain ⟨front, back, rfl, absent⟩ := List.eq_append_cons_of_mem inside
    rw [pathsPlaced_split led absent, closedLast_split absent, ← snoc_commutes, List.append_cancel_left_eq]
    constructor
    · intro same
      rcases paths_thrifty (back ++ ['}']) with ⟨_, kept⟩ | fewer
      · exact kept.symm.trans same
      · rw [same] at fewer
        simp [closes] at fewer
    · intro same
      have plain : ∀ c ∈ back ++ ['}'], c = '}' := by
        rw [same, List.forall_mem_cons]
        exact ⟨rfl, snoc_commutes.mp same⟩
      have opens : '{' ∉ back ++ ['}'] := fun among => absurd (plain '{' among) (by decide)
      have left : Text.Passes pathsPlaced _ _ := Text.passes_absent (fun c r => bracedPath_unlike r) opens
      exact (left.whole rfl).trans same
  · exact iff_of_true ((paths_braced led inside).whole rfl) (closedLast_absent inside)

-- The stages behind it.

theorem unprotect_protect {t : Text} (quiet : Marker.standIn ∉ t) : Marker.unprotect (Marker.protect t) = t := by
  induction t using Text.scan_induction (Text.literal_sized Marker.escapedBracket) with
  | nil => rfl
  | plain c r unseen ih =>
    simp only [List.mem_cons, not_or] at quiet
    have alone := ArgsConstruct.unprotect_quiet (t := [c]) (by simpa using quiet.1)
    rw [Marker.protect_plain unseen, ← List.singleton_append, ArgsConstruct.unprotect_append, alone, ih quiet.2]
    rfl
  | hit front rest held seen split ih =>
    rw [List.mem_append, not_or] at quiet
    have escape := Text.literal_front seen
    rw [escape, Marker.protect_escape, ← List.singleton_append, ArgsConstruct.unprotect_append, ih quiet.2]
    rfl

theorem inline_plain {t : Text} (unsigned : '@' ∉ t) (quiet : Marker.standIn ∉ t) : ArgsConstruct.inline t = t := by
  have absent : '@' ∉ Marker.protect t := by
    intro inside
    exact unsigned (Text.mem_of_plain ((Text.mem_replaceAll (by decide)).mp inside))
  have pieces : ArgsConstruct.pieces t = (Marker.protect t).map .plain := 
    (Text.pieces_passes_absent (fun c r => argsConstruct_unlike r) absent).whole rfl
  rw [ArgsConstruct.inline, pieces, Text.write_plain, unprotect_protect quiet]

theorem absent_settled {c : Char} (other : c ∉ ['{', '}']) {t : Text} (absent : c ∉ t) : c ∉ settleAll (pathsPlaced t) := by
  have count := count_settled other t
  rw [List.count_eq_zero.mpr absent] at count
  exact List.count_eq_zero.mp count

theorem settled_braced {path : Text} (led : Led path) (unmarked : ∀ k ∈ ['/', ':', '~', ';'], ¬ ['{', k, '}'] <:+: path) :
    settleAll (pathsPlaced (braced path)) = path ↔ ClosedLast path := by
  rw [← pathsPlaced_braced led]
  constructor
  · intro same
    rcases settleAll_thrifty (pathsPlaced (braced path)) with ⟨_, kept⟩ | fewer
    · exact kept.symm.trans same
    · have most := closes_placed led
      rw [same] at fewer
      omega
  · intro same
    rw [same]
    apply settleAll_quiet
    intro k among
    rw [← Bool.not_eq_true, Text.mentions_exact (by simp)]
    exact unmarked k among

-- A marker without the classpath in it.

theorem inlined_silent {t : Text} (silent : ¬ Marker.deps <:+: t) (unsigned : '@' ∉ t) (quiet : Marker.standIn ∉ t)
    (classpath : Option Classpath) (home : Text) :
    inlined t classpath (Platform.posix home) = settleAll (pathsPlaced t) := by
  have filled : Text.replaceAll Marker.deps (joinedOf classpath) t = t := Text.replaceAll_absent (by decide) _ silent
  have expanded : expand t classpath (Platform.posix home) = settleAll (placed (joinedOf classpath) t) :=
    expand_standard t classpath home 32000
  rw [inlined, expanded, placed, CommandLine.filled, filled]
  exact inline_plain (absent_settled (by decide) unsigned) (absent_settled (by decide) quiet)

theorem inlined_braced {path : Text} (led : Led path) (silent : ¬ Marker.deps <:+: path) (unsigned : '@' ∉ path)
    (quiet : Marker.standIn ∉ path) (unmarked : ∀ k ∈ ['/', ':', '~', ';'], ¬ ['{', k, '}'] <:+: path) (home : Text) :
    (∀ classpath, inlined (braced path) classpath (Platform.posix home) = path) ↔ ClosedLast path ∧ ¬ Completes path := by
  have mentions := Suggestion.deps_braced led
  rw [or_iff_right silent] at mentions
  have sign : '@' ∉ braced path := by simp [braced, unsigned]
  have bell : Marker.standIn ∉ braced path := by
    simp [braced, quiet]
    decide
  rw [← mentions, ← settled_braced led unmarked]
  constructor
  · intro same
    have still : ¬ Marker.deps <:+: braced path := by
      intro inside
      exact Invocation.inlined_differs inside home 32000 ((same none).trans (same Invocation.letter).symm)
    exact ⟨(inlined_silent still sign bell none home).symm.trans (same none), still⟩
  · rintro ⟨same, still⟩ classpath
    exact (inlined_silent still sign bell classpath home).trans same

-- A word with a root put in front of it.

theorem completes_cons {c : Char} {t : Text} (other : c ≠ '{') : Completes (c :: t) ↔ Completes t := by
  unfold Completes
  rw [List.suffix_cons_iff, or_iff_right]
  intro same
  exact other (List.cons.inj same).1.symm

-- The symbols of a word are those of its template.
theorem unmarked_word {template w : Text} (unused : Marker.isUsedIn template = false)
    (token : .word w ∈ Token.read template) : ∀ k ∈ ['/', ':', '~', ';'], ¬ ['{', k, '}'] <:+: w := by
  intro k among inside
  have known : Marker.isSymbol k = true := by
    simp only [List.mem_cons, List.not_mem_nil, or_false] at among
    rcases among with rfl | rfl | rfl | rfl <;> rfl
  have used := Marker.isUsedIn_exact.mpr (.symbol known (inside.trans (Token.infix_of_word (Token.lexes_read template) token)))
  rw [unused] at used
  cases used

-- A path marker that was planned is read back as its word, rooted, on all classpaths, exactly
-- if nothing but closing braces follows the first closing brace of the word and the brace that
-- is put behind it completes no marker.
theorem inlined_path {template w m : Text} (unused : Marker.isUsedIn template = false)
    (token : .word w ∈ Token.read template) (silent : mentionsDeps w = false) (unsigned : '@' ∉ w) (quiet : Marker.standIn ∉ w)
    (suggested : path? w = some m) (home : Text) :
    (∀ classpath, inlined m classpath (Platform.posix home) = if isRooted w then w else ['.', '/'] ++ w) ↔
      ClosedLast w ∧ ¬ Completes w := by
  obtain ⟨_, several, rfl⟩ := Suggestion.path?_parts suggested
  have unmarked := unmarked_word unused token
  have unmentioned : ¬ Marker.deps <:+: w := by
    intro inside
    rw [Suggestion.mentionsDeps_exact.mpr inside] at silent
    cases silent
  cases root : isRooted w with
  | true => exact inlined_braced (Suggestion.led_of_isRooted root several) unmentioned unsigned quiet unmarked home
  | false =>
    have led : Led ('.' :: '/' :: w) := ⟨'.', w, rfl, rfl⟩
    have unmentioned' : ¬ Marker.deps <:+: '.' :: '/' :: w := by
      rwa [Suggestion.deps_cons (by decide), Suggestion.deps_cons (by decide)]
    have unmarked' : ∀ k ∈ ['/', ':', '~', ';'], ¬ ['{', k, '}'] <:+: '.' :: '/' :: w := by
      intro k among
      rw [Text.infix_cons (by decide), Text.infix_cons (by decide)]
      exact unmarked k among
    have same := inlined_braced led unmentioned' (by simp [unsigned]) (by simp [quiet]; decide) unmarked' home
    have closed : ClosedLast ('.' :: '/' :: w) ↔ ClosedLast w := by
      unfold ClosedLast
      rw [List.dropWhile_cons_of_pos (by simp), List.dropWhile_cons_of_pos (by simp)]
    rw [closed, completes_cons (by decide), completes_cons (by decide)] at same
    exact same

theorem inlined_path_last :
    Marker.isUsedIn "cat src/$\x7bX\x7d".toList = false ∧ .word "src/$\x7bX\x7d".toList ∈ Token.read "cat src/$\x7bX\x7d".toList ∧
      mentionsDeps "src/$\x7bX\x7d".toList = false ∧ '@' ∉ "src/$\x7bX\x7d".toList ∧
      Marker.standIn ∉ "src/$\x7bX\x7d".toList ∧
      path? "src/$\x7bX\x7d".toList = some "\x7b./src/$\x7bX\x7d\x7d".toList ∧
      ∀ classpath, inlined "\x7b./src/$\x7bX\x7d\x7d".toList classpath (Platform.posix []) = "./src/$\x7bX\x7d".toList := by
  have unused : Marker.isUsedIn "cat src/$\x7bX\x7d".toList = false := by decide +kernel
  have token : .word "src/$\x7bX\x7d".toList ∈ Token.read "cat src/$\x7bX\x7d".toList := by decide +kernel
  have suggested : path? "src/$\x7bX\x7d".toList = some "\x7b./src/$\x7bX\x7d\x7d".toList := by decide +kernel
  have same := (inlined_path unused token (by decide +kernel) (by decide) (by decide) suggested []).mpr (by decide +kernel)
  refine ⟨unused, token, by decide +kernel, by decide, by decide, suggested, fun classpath => ?_⟩
  exact (same classpath).trans (by decide +kernel)

-- A shell variable in front of the last segment.
theorem inlined_path_variable :
    Marker.isUsedIn "cat src/$\x7bX\x7d/main".toList = false ∧
      .word "src/$\x7bX\x7d/main".toList ∈ Token.read "cat src/$\x7bX\x7d/main".toList ∧
      mentionsDeps "src/$\x7bX\x7d/main".toList = false ∧ '@' ∉ "src/$\x7bX\x7d/main".toList ∧
      Marker.standIn ∉ "src/$\x7bX\x7d/main".toList ∧
      path? "src/$\x7bX\x7d/main".toList = some "\x7b./src/$\x7bX\x7d/main\x7d".toList ∧
      isRooted "src/$\x7bX\x7d/main".toList = false ∧
      inlined "\x7b./src/$\x7bX\x7d/main\x7d".toList none (Platform.posix []) = "./src/$\x7bX/main\x7d".toList ∧
      inlined "\x7b./src/$\x7bX\x7d/main\x7d".toList none (Platform.posix []) ≠ ['.', '/'] ++ "src/$\x7bX\x7d/main".toList := by
  decide +kernel

end PortableActions.CommandLine
