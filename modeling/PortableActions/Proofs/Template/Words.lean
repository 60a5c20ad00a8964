import PortableActions.Proofs.Template.Insertion
import PortableActions.Proofs.Text.Replacement
import PortableActions.Template.Suggestion
-- What planning makes of the words of a command: characters are put in, and at most the
-- colons at the end of a list and the sign in front of a program are taken out.
namespace PortableActions.Template.Suggestion
open PortableActions.Template.Token

-- Lists of paths.

theorem classpathParts_split (w : Text) :
    ∃ k, Text.splitOn ':' w = classpathParts w ++ List.replicate k [] := by
  have halves := List.takeWhile_append_dropWhile (p := List.isEmpty) (l := (Text.splitOn ':' w).reverse)
  have blank : (Text.splitOn ':' w).reverse.takeWhile List.isEmpty =
      List.replicate ((Text.splitOn ':' w).reverse.takeWhile List.isEmpty).length [] :=
    List.eq_replicate_iff.mpr ⟨rfl, fun part among => by simpa using List.all_eq_true.mp List.all_takeWhile part among⟩
  refine ⟨((Text.splitOn ':' w).reverse.takeWhile List.isEmpty).length, ?_⟩
  rw [classpathParts, ← List.reverse_replicate, ← blank, ← List.reverse_append, halves, List.reverse_reverse]

theorem join_colons {parts : List Text} (some_ : parts ≠ []) (k : Nat) :
    Text.join [':'] (parts ++ List.replicate k []) = Text.join [':'] parts ++ List.replicate k ':' := by
  induction parts with
  | nil => exact absurd rfl some_
  | cons first rest ih =>
    cases rest with
    | cons next more =>
      rw [List.cons_append, Text.join_cons (by simp), ih (List.cons_ne_nil _ _), Text.join_cons (List.cons_ne_nil _ _)]
      simp only [List.append_assoc]
    | nil =>
      induction k generalizing first with
      | zero => simp
      | succ n inner =>
        have later := inner [] (by simp) (by simp)
        rw [List.replicate_succ, List.singleton_append, Text.join_cons (by simp)]
        simp only [List.singleton_append] at later
        simp [later, Text.join, List.replicate_succ]

theorem looksLike_parts {w : Text} (looks : looksLikeClasspath w = true) :
    ∃ first second rest, classpathParts w = first :: second :: rest := by
  simp only [looksLikeClasspath, Bool.and_eq_true, decide_eq_true_eq] at looks
  cases parts : classpathParts w with
  | nil => simp [parts] at looks
  | cons first more =>
    cases more with
    | nil => simp [parts] at looks
    | cons second rest => exact ⟨first, second, rest, rfl⟩

-- A list is its parts and the colons at its end.
theorem classpath_joined {w : Text} (looks : looksLikeClasspath w = true) :
    ∃ k, w = Text.join [':'] (classpathParts w) ++ List.replicate k ':' := by
  obtain ⟨first, second, rest, parts⟩ := looksLike_parts looks
  obtain ⟨k, split⟩ := classpathParts_split w
  refine ⟨k, ?_⟩
  rw [← join_colons (by simp [parts]) k, ← split, Text.join_splitOn]

theorem colon_not_mem_parts {w part : Text} (among : part ∈ classpathParts w) : ':' ∉ part := by
  obtain ⟨k, split⟩ := classpathParts_split w
  exact Text.sep_not_mem_splitOn ':' w part (split ▸ List.mem_append_left _ among)

-- What is put in.

def marks : List Char := ['{', '}', '.', '/']

def wrapping : List Char := ['@', '[', ']', '{', '}']

theorem rootPart_rooting (part : Text) : Inserted ['.', '/'] part (rootPart part) := by
  unfold rootPart
  split
  · exact .refl _ _
  · exact .front (by simp) (.refl _ _)

theorem rootPart_inserted (part : Text) : Inserted marks part (rootPart part) :=
  (rootPart_rooting part).mono (by simp [marks])

theorem braced_inserted {t x : Text} (inserted : Inserted marks t x) : Inserted marks t (braced x) :=
  .back (by simp [marks]) (.front (by simp [marks]) inserted)

theorem markPart_inserted (part : Text) : Inserted marks part (markPart part) := by
  unfold markPart
  split
  · exact braced_inserted (.refl _ _)
  split
  · rename_i tilde
    rw [tilde]
    exact .add (by simp [marks]) (.keep _ (.add (by simp [marks]) .nil))
  · exact .refl _ _

theorem classpath?_parts {w x : Text} (seen : classpath? w = some x) :
    looksLikeClasspath w = true ∧
      (x = braced (Text.join [':'] ((classpathParts w).map rootPart)) ∨
        x = Text.join Marker.pathSeparator (((classpathParts w).map rootPart).map markPart)) := by
  unfold classpath? at seen
  split at seen
  · rename_i looks
    refine ⟨looks, ?_⟩
    dsimp only at seen
    split at seen
    · exact .inl (Option.some.inj seen).symm
    · exact .inr (Option.some.inj seen).symm
  · cases seen

theorem path?_parts {w x : Text} (seen : path? w = some x) :
    isAbsolute w = false ∧ 2 ≤ (segments w).length ∧ x = braced (if isRooted w then w else ['.', '/'] ++ w) := by
  unfold path? at seen
  split at seen
  · cases seen
  · rename_i other
    simp only [Bool.or_eq_true, decide_eq_true_eq, not_or] at other
    exact ⟨by simpa using other.1, by omega, (Option.some.inj seen).symm⟩

theorem classpath?_inserted {w x : Text} (seen : classpath? w = some x) :
    ∃ u k, w = u ++ List.replicate k ':' ∧ Inserted marks u x := by
  obtain ⟨looks, shown⟩ := classpath?_parts seen
  obtain ⟨k, joined⟩ := classpath_joined looks
  have rooted : List.Forall₂ (Inserted marks) (classpathParts w) ((classpathParts w).map rootPart) :=
    List.forall₂_map_right_iff.mpr (List.forall₂_same.mpr fun part _ => rootPart_inserted part)
  have marked : List.Forall₂ (Inserted marks) (classpathParts w) (((classpathParts w).map rootPart).map markPart) := by
    rw [List.map_map]
    exact List.forall₂_map_right_iff.mpr (List.forall₂_same.mpr fun part _ =>
      (rootPart_inserted part).trans (markPart_inserted _))
  refine ⟨_, k, joined, ?_⟩
  rcases shown with rfl | rfl
  · exact braced_inserted (.join (.refl _ _) rooted)
  · exact .join (.add (by simp [marks]) (.keep _ (.add (by simp [marks]) .nil))) marked

theorem path?_inserted {w x : Text} (seen : path? w = some x) : Inserted marks w x := by
  obtain ⟨_, _, rfl⟩ := path?_parts seen
  refine braced_inserted ?_
  split
  · exact .refl _ _
  · exact .front (by simp [marks]) (.refl _ _)

theorem word_cases (w : Text) :
    (classpath? w = none ∧ path? w = none ∧ word w = w) ∨ classpath? w = some (word w) ∨ path? w = some (word w) := by
  unfold word
  cases list : classpath? w with
  | some x => simp
  | none =>
    cases path : path? w with
    | some x => simp
    | none => simp

theorem word_inserted (w : Text) : ∃ u k, w = u ++ List.replicate k ':' ∧ Inserted marks u (word w) := by
  rcases word_cases w with ⟨_, _, same⟩ | list | path
  · exact ⟨w, 0, by simp, same.symm ▸ .refl _ _⟩
  · exact classpath?_inserted list
  · exact ⟨w, 0, by simp, path?_inserted path⟩

theorem escape_inserted (t : Text) : Inserted ['{', '}'] t (Text.replaceAll [']'] Marker.escapedBracket t) := by
  rw [Text.replaceAll_char]
  induction t with
  | nil => exact .nil
  | cons c r ih =>
    rw [List.flatMap_cons]
    by_cases bracket : c = ']'
    · rw [if_pos bracket, bracket]
      exact .add (by simp) (.keep _ (.add (by simp) ih))
    · rw [if_neg bracket]
      exact .keep _ ih

theorem wrapArgument_inserted (b : Text) : Inserted wrapping b (wrapArgument b) := by
  unfold wrapArgument
  split
  · exact .back (by simp [wrapping]) (.front (by simp [wrapping]) ((escape_inserted b).mono (by simp [wrapping])))
  · exact .refl _ _

-- A suggestion is never the word it is made from.

theorem colon_not_mem_rootPart {part : Text} (absent : ':' ∉ part) : ':' ∉ rootPart part := by
  unfold rootPart
  split <;> simp [absent]

theorem colon_not_mem_markPart {part : Text} (absent : ':' ∉ part) : ':' ∉ markPart part := by
  unfold markPart
  split
  · simp [braced, absent]
  split
  · simp [Marker.home]
  · exact absent

theorem classpath?_ne {w x : Text} (seen : classpath? w = some x) : x ≠ w := by
  obtain ⟨looks, shown⟩ := classpath?_parts seen
  obtain ⟨first, second, rest, parts⟩ := looksLike_parts looks
  obtain ⟨k, split⟩ := classpathParts_split w
  have absent : ':' ∉ rootPart first := colon_not_mem_rootPart (colon_not_mem_parts (w := w) (by simp [parts]))
  have rooted := (rootPart_inserted first).length_le
  -- Up to its first colon the suggestion is longer.
  intro same
  rw [same] at shown
  rw [parts] at shown split
  rcases shown with shown | shown
  · have cut : w = ('{' :: rootPart first) ++ ':' :: (Text.join [':'] ((second :: rest).map rootPart) ++ ['}']) := by
      rw [shown]
      simp [braced, Text.join]
    rw [cut, Text.splitOn_append, Text.splitOn_of_not_mem (by simp [absent])] at split
    have longer := congrArg List.length (List.cons.inj split).1
    simp at longer
    omega
  · have cut : w = (markPart (rootPart first) ++ ['{']) ++ ':' :: ('}' ::
        Text.join Marker.pathSeparator (((second :: rest).map rootPart).map markPart)) := by
      rw [shown]
      simp [Text.join, Marker.pathSeparator]
    have marked := (markPart_inserted (rootPart first)).length_le
    rw [cut, Text.splitOn_append, Text.splitOn_of_not_mem (by simp [colon_not_mem_markPart absent])] at split
    have longer := congrArg List.length (List.cons.inj split).1
    simp at longer
    omega

theorem path?_ne {w x : Text} (seen : path? w = some x) : x ≠ w := by
  obtain ⟨_, _, rfl⟩ := path?_parts seen
  intro same
  have longer := congrArg List.length same
  split at longer
  · simp [braced] at longer
    omega
  · simp [braced] at longer
    omega

theorem word_fixed {w : Text} : word w = w ↔ classpath? w = none ∧ path? w = none := by
  constructor
  · intro same
    rcases word_cases w with ⟨list, path, _⟩ | list | path
    · exact ⟨list, path⟩
    · exact absurd same (classpath?_ne list)
    · exact absurd same (path?_ne path)
  · rintro ⟨list, path⟩
    simp [word, list, path]

-- A rewritten word shows a brace.
theorem word_braced {w : Text} (rewritten : word w ≠ w) : '{' ∈ word w := by
  rcases word_cases w with ⟨_, _, same⟩ | list | path
  · exact absurd same rewritten
  · obtain ⟨looks, shown⟩ := classpath?_parts list
    obtain ⟨first, second, rest, parts⟩ := looksLike_parts looks
    rcases shown with shown | shown
    · rw [shown]; simp [braced]
    · rw [shown, parts]; simp [Text.join, Marker.pathSeparator]
  · obtain ⟨_, _, shown⟩ := path?_parts path
    rw [shown]
    simp [braced]

theorem word_ne_nil {w : Text} (filled : w ≠ []) : word w ≠ [] := by
  by_cases same : word w = w
  · rwa [same]
  · exact List.ne_nil_of_mem (word_braced same)

theorem wrapArgument_ne_nil {b : Text} (filled : b ≠ []) : wrapArgument b ≠ [] := by
  unfold wrapArgument
  split
  · simp
  · exact filled

theorem count_word {c : Char} (other : c ∉ ':' :: marks) (w : Text) : (word w).count c = w.count c := by
  simp only [List.mem_cons, not_or] at other
  obtain ⟨u, k, split, inserted⟩ := word_inserted w
  rw [inserted.count other.2]
  conv => rhs; rw [split, List.count_append]
  simp [List.count_replicate, Ne.symm other.1]

theorem infix_word {part w : Text} (other : ∀ c ∈ part, c ∉ marks) (inside : part <:+: word w) : part <:+: w := by
  obtain ⟨u, k, split, inserted⟩ := word_inserted w
  rw [split]
  exact (inserted.infix_ other inside).trans (List.prefix_append u _).isInfix

theorem count_sign_wrapArgument {b : Text} (mentions : mentionsDeps b = true) :
    b.count '@' < (wrapArgument b).count '@' := by
  have same := (escape_inserted b).count (c := '@') (by decide)
  simp [wrapArgument, mentions, same]

-- A whole command.

-- The words a command is written with.
def words (program : Text) (args : List Text) : List Text :=
  match word program with
  | '@' :: bare => bare :: (args.map word).map wrapArgument
  | program => program :: if takesArgsFiles program then (args.map word).map wrapArgument else args.map word

theorem command_words (program : Text) (args : List Text) : command program args = Text.unwords (words program args) := by
  unfold command words
  dsimp only
  generalize word program = named
  cases named with
  | nil => rfl
  | cons c bare =>
    by_cases sign : c = '@'
    · subst sign
      rfl
    · simp [sign]

theorem words_cases (program : Text) (args : List Text) :
    (∃ bare, word program = '@' :: bare ∧ words program args = bare :: (args.map word).map wrapArgument) ∨
    ((word program).head? ≠ some '@' ∧ words program args =
      word program :: if takesArgsFiles (word program) then (args.map word).map wrapArgument else args.map word) := by
  unfold words
  split
  · rename_i bare led
    exact .inl ⟨bare, led, rfl⟩
  · rename_i other
    refine .inr ⟨?_, rfl⟩
    intro first
    cases shown : word program with
    | nil => simp [shown] at first
    | cons c r => exact other r (by simpa [shown] using first)

-- A word stays one word, with the same quote open at its end.
def Kept (w x : Text) : Prop := Solid none w → Solid none x ∧ quoteAtEnd none x = quoteAtEnd none w

theorem kept_inserted (inserted : Inserted extra w x) (neutral : ∀ c ∈ extra, isNeutral c = true) : Kept w x :=
  fun solid => ⟨solid_inserted inserted neutral quoting_none solid, quoteAtEnd_inserted inserted neutral quoting_none⟩

theorem Kept.trans (one : Kept w x) (two : Kept x y) : Kept w y := by
  intro solid
  obtain ⟨middle, sameOne⟩ := one solid
  obtain ⟨last, sameTwo⟩ := two middle
  exact ⟨last, sameTwo.trans sameOne⟩

theorem quoteAtEnd_replicate {quote : Option Char} (quoting : Quoting quote) (k : Nat) :
    quoteAtEnd quote (List.replicate k ':') = quote := by
  induction k with
  | zero => rfl
  | succ n ih =>
    have step : quoteAtEnd quote (List.replicate (n + 1) ':') =
        quoteAtEnd (quoteAfter quote ':') (List.replicate n ':') := rfl
    rw [step, quoteAfter_of_not_quote rfl quoting, ih]

theorem quoting_atEnd {quote : Option Char} (quoting : Quoting quote) (w : Text) : Quoting (quoteAtEnd quote w) := by
  induction w generalizing quote with
  | nil => exact quoting
  | cons c r ih => exact ih (quoting.after c)

theorem word_kept (w : Text) : Kept w (word w) := by
  obtain ⟨u, k, split, inserted⟩ := word_inserted w
  intro solid
  rw [split] at solid
  obtain ⟨shown, same⟩ := kept_inserted inserted (by decide) (solid_front solid)
  refine ⟨shown, ?_⟩
  conv => rhs; rw [split, quoteAtEnd_append, quoteAtEnd_replicate (quoting_atEnd quoting_none u)]
  exact same

theorem wrapArgument_kept (b : Text) : Kept b (wrapArgument b) :=
  kept_inserted (wrapArgument_inserted b) (by decide)

theorem words_kept (program : Text) (args : List Text) : List.Forall₂ Kept (program :: args) (words program args) := by
  have plain : List.Forall₂ Kept args (args.map word) :=
    List.forall₂_map_right_iff.mpr (List.forall₂_same.mpr fun b _ => word_kept b)
  have wrapped : List.Forall₂ Kept args ((args.map word).map wrapArgument) := by
    rw [List.map_map]
    exact List.forall₂_map_right_iff.mpr (List.forall₂_same.mpr fun b _ => (word_kept b).trans (wrapArgument_kept _))
  rcases words_cases program args with ⟨bare, led, same⟩ | ⟨_, same⟩
  · rw [same]
    refine .cons ?_ wrapped
    intro solid
    obtain ⟨shown, closed⟩ := word_kept program solid
    rw [led] at shown closed
    simp only [Solid, unbroken, Bool.and_eq_true] at shown
    exact ⟨shown.2, closed⟩
  · rw [same]
    refine .cons (word_kept program) ?_
    split
    · exact wrapped
    · exact plain

theorem words_filled (program : Text) {args : List Text} (filled : ∀ b ∈ args, b ≠ []) :
    ∃ q bs, words program args = q :: bs ∧ bs.length = args.length ∧ ∀ b ∈ bs, b ≠ [] := by
  have plain : ∀ b ∈ args.map word, b ≠ [] := by
    simp only [List.mem_map, forall_exists_index, and_imp, forall_apply_eq_imp_iff₂]
    exact fun b among => word_ne_nil (filled b among)
  have wrapped : ∀ b ∈ (args.map word).map wrapArgument, b ≠ [] := by
    intro b among
    obtain ⟨inner, old, rfl⟩ := List.mem_map.mp among
    exact wrapArgument_ne_nil (plain inner old)
  rcases words_cases program args with ⟨bare, _, same⟩ | ⟨_, same⟩
  · exact ⟨_, _, same, by simp, wrapped⟩
  · refine ⟨_, _, same, ?_, ?_⟩
    · split <;> simp
    · split
      · exact wrapped
      · exact plain

-- A command that is written as it stands: nothing leads its program, no word is rewritten,
-- and a tool that takes args files has no argument that mentions the classpath.
structure Fixed (program : Text) (args : List Text) : Prop where
  bare : program.head? ≠ some '@'
  unmarked : ∀ w ∈ program :: args, classpath? w = none ∧ path? w = none
  unwrapped : takesArgsFiles program = true → ∀ b ∈ args, mentionsDeps b = false

theorem map_fixed {f : Text → Text} {texts : List Text} (same : texts.map f = texts) : ∀ t ∈ texts, f t = t := by
  induction texts with
  | nil => simp
  | cons t rest ih =>
    obtain ⟨here, later⟩ := List.cons.inj same
    exact List.forall_mem_cons.mpr ⟨here, ih later⟩

theorem wrapped_fixed {b : Text} (same : wrapArgument (word b) = b) : word b = b ∧ mentionsDeps b = false := by
  cases mentions : mentionsDeps (word b) with
  | true =>
    have more := count_sign_wrapArgument mentions
    rw [same, count_word (by decide)] at more
    exact absurd more (Nat.lt_irrefl _)
  | false =>
    have plain : word b = b := by simpa [wrapArgument, mentions] using same
    exact ⟨plain, plain ▸ mentions⟩

theorem words_fixed {program : Text} {args : List Text} : words program args = program :: args ↔ Fixed program args := by
  constructor
  · intro same
    rcases words_cases program args with ⟨bare, led, shown⟩ | ⟨unled, shown⟩
    · -- The sign that was dropped is missing from the program.
      have dropped : bare = program := (List.cons.inj (shown.symm.trans same)).1
      have signs := count_word (c := '@') (by decide) program
      rw [led, dropped] at signs
      simp at signs
    · obtain ⟨first, later⟩ := List.cons.inj (shown.symm.trans same)
      rw [first] at later unled
      cases tool : takesArgsFiles program with
      | true =>
        rw [tool, if_pos rfl, List.map_map] at later
        have each := fun b among => wrapped_fixed (map_fixed later b among)
        refine ⟨unled, ?_, fun _ b among => (each b among).2⟩
        exact List.forall_mem_cons.mpr ⟨word_fixed.mp first, fun b among => word_fixed.mp (each b among).1⟩
      | false =>
        rw [tool, if_neg (by simp)] at later
        refine ⟨unled, ?_, fun yes => by cases tool.symm.trans yes⟩
        exact List.forall_mem_cons.mpr ⟨word_fixed.mp first, fun b among => word_fixed.mp (map_fixed later b among)⟩
  · intro fixed
    have each : ∀ w ∈ program :: args, word w = w := fun w among => word_fixed.mpr (fixed.unmarked w among)
    have first := each program (by simp)
    have plain : args.map word = args.map id := List.map_congr_left fun b among => each b (by simp [among])
    rw [List.map_id] at plain
    rcases words_cases program args with ⟨bare, led, _⟩ | ⟨_, shown⟩
    · exact absurd (by rw [← first, led]; rfl) fixed.bare
    · rw [shown, first, plain]
      split
      · rename_i tool
        have wrapped : args.map wrapArgument = args.map id := List.map_congr_left fun b among => by
          simp [wrapArgument, fixed.unwrapped tool b among]
        rw [wrapped, List.map_id]
      · rfl

end PortableActions.Template.Suggestion
