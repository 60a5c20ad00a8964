import PortableActions.Proofs.Template.Constructs
import PortableActions.Proofs.Template.Completion
import PortableActions.Proofs.Template.Strewn
-- Which plans show a marker. Everything that planning puts in is in sight, and a plan into
-- which nothing was put shows no more than its template.
namespace PortableActions.Template

namespace Marker

-- A brace that closes a path is not taken for the end of an escape that the path begins.
theorem protect_closed {s : Text} (unescaped : ¬ ['{', ']'] <:+: s) (after : Text) :
    protect (s ++ '}' :: after) = s ++ '}' :: protect after := by
  induction s with
  | nil => exact protect_unlike (by decide)
  | cons c r ih =>
    have later := ih fun inside => unescaped (List.infix_cons inside)
    have unseen : Text.literal escapedBracket (c :: (r ++ '}' :: after)) = none := by
      rw [Text.literal_none (by decide)]
      rintro ⟨back, same⟩
      obtain ⟨first, tail⟩ := List.cons.inj same
      cases r with
      | nil => cases (List.cons.inj tail).1
      | cons d rest =>
        obtain ⟨rfl, _⟩ := List.cons.inj tail
        rw [← first] at unescaped
        exact unescaped (List.prefix_append ['{', ']'] rest).isInfix
    rw [List.cons_append, protect_plain unseen, later, List.cons_append]

theorem closesOnLine_front {close : Char} {held : Text} (single : '\n' ∉ held) (other : close ≠ '\n') (rest : Text) :
    closesOnLine close (held ++ close :: rest) = true := by
  have plain : ∀ c ∈ held, decide (c ≠ '\n') = true := fun c inside =>
    decide_eq_true fun same : c = '\n' => single (same ▸ inside)
  unfold closesOnLine
  rw [List.takeWhile_append_of_pos plain, List.takeWhile_cons_of_pos (by simpa using other)]
  simp

end Marker

namespace Suggestion

-- What planning puts in is in sight, whatever it stands in.

theorem seen_wrapped {b after front : Text} (mentions : mentionsDeps b = true) (single : '\n' ∉ b) (boundary : Boundary after) :
    Marker.isUsedIn (front ++ wrapArgument b ++ after) = true := by
  have hidden := protect_wrapped mentions boundary
  have silent : '\n' ∉ Marker.hide b := by
    intro inside
    obtain ⟨c, among, shown⟩ := List.mem_map.mp inside
    split at shown
    · cases shown
    · exact single (shown ▸ among)
  have closed := Marker.closesOnLine_front silent (by decide : ']' ≠ '\n') (Marker.protect after)
  have suffix : wrapArgument b ++ after <:+ front ++ wrapArgument b ++ after := by
    rw [List.append_assoc]
    exact List.suffix_append front _
  apply Marker.isUsedIn_of_place suffix
  · rw [wrapArgument_deps mentions]
    simp
  · rw [hidden]
    simp
  · rw [hidden]
    exact closed

theorem seen_braced {path front after : Text} (led : Led path) (unescaped : ¬ ['{', ']'] <:+: path) (single : '\n' ∉ path) :
    Marker.isUsedIn (front ++ braced path ++ after) = true := by
  obtain ⟨root, body, rfl, isRoot⟩ := led
  have apart := Marker.isRoot_apart isRoot
  have hidden : Marker.protect (braced (root :: '/' :: body) ++ after) =
      '{' :: root :: '/' :: (body ++ '}' :: Marker.protect after) := by
    have split : braced (root :: '/' :: body) ++ after = '{' :: root :: (('/' :: body) ++ '}' :: after) := by simp [braced]
    have inner := Marker.protect_closed unescaped after
    rw [split, Marker.protect_brace apart.1]
    simpa using inner
  have plain : '\n' ∉ body := by simp_all
  have closed := Marker.closesOnLine_front plain (by decide : '}' ≠ '\n') (Marker.protect after)
  have suffix : braced (root :: '/' :: body) ++ after <:+ front ++ braced (root :: '/' :: body) ++ after := by
    rw [List.append_assoc]
    exact List.suffix_append front _
  apply Marker.isUsedIn_of_place suffix
  · simp [braced]
  · rw [hidden]
    simp
  · rw [hidden]
    simp [Marker.startsMarker, isRoot, closed]

theorem seen_separator {x front after : Text} (inside : Marker.pathSeparator <:+: x) :
    Marker.isUsedIn (front ++ x ++ after) = true := by
  have whole : x <:+: front ++ x ++ after := ⟨front, after, rfl⟩
  exact Marker.isUsedIn_exact.mpr (.symbol (c := ':') rfl (inside.trans whole))

-- A word of a template without breaks and broken escapes.
structure Plain (w : Text) : Prop where
  single : '\n' ∉ w
  unescaped : ¬ ['{', ']'] <:+: w

theorem Plain.word {w : Text} (plain : Plain w) : '\n' ∉ word w := by
  intro inside
  have count := count_word (c := '\n') (by decide) w
  rw [List.count_eq_zero.mpr plain.single] at count
  exact List.count_eq_zero.mp count inside

theorem Plain.rooted {w : Text} (plain : Plain w) : Plain (rooted w) := by
  obtain ⟨u, k, split, inserted⟩ := rooted_inserted w
  have front : u <:+: w := split ▸ (List.prefix_append u _).isInfix
  constructor
  · have count := inserted.count (c := '\n') (by decide)
    rw [List.count_eq_zero.mpr fun inside => plain.single (front.subset inside)] at count
    exact List.count_eq_zero.mp count
  · intro inside
    exact plain.unescaped ((inserted.infix_ (by decide) inside).trans front)

-- A rewritten word is in sight, also without a sign in front of it.
theorem seen_word {w x front after : Text} (plain : Plain w) (rewritten : word w ≠ w) (shown : x = word w ∨ '@' :: x = word w) :
    Marker.isUsedIn (front ++ x ++ after) = true := by
  rcases word_marked rewritten with ⟨led, path⟩ | separator
  · rcases shown with rfl | signed
    · rw [path]
      exact seen_braced led plain.rooted.unescaped plain.rooted.single
    · rw [path] at signed
      cases signed
  · apply seen_separator
    rcases shown with rfl | signed
    · exact separator
    · rw [← signed] at separator
      exact (Text.infix_cons (by decide)).mp separator

theorem named_cases (program : Text) : named program = word program ∨ '@' :: named program = word program := by
  unfold named
  split
  · rename_i bare signed
    exact .inr signed.symm
  · exact .inl rfl

-- A text shows a word in front of a boundary.
def Stands (x t : Text) : Prop := ∃ front after, t = front ++ x ++ after ∧ Boundary after

theorem Stands.behind {x t : Text} (front : Text) (stands : Stands x t) : Stands x (front ++ t) := by
  obtain ⟨before, after, rfl, boundary⟩ := stands
  exact ⟨front ++ before, after, by simp, boundary⟩

theorem stands_unwords {x after : Text} {ws : List Text} (among : x ∈ ws) (boundary : Boundary after) :
    Stands x (Text.unwords ws ++ after) := by
  induction ws with
  | nil => cases among
  | cons w rest ih =>
    cases rest with
    | nil =>
      cases List.mem_singleton.mp among
      exact ⟨[], after, rfl, boundary⟩
    | cons next more =>
      rw [Text.unwords_cons_append (by simp)]
      rcases List.mem_cons.mp among with rfl | later
      · exact ⟨[], _, rfl, boundary_blank _⟩
      · have behind := (ih later).behind (w ++ [' '])
        simpa using behind

mutual
theorem render_stands : ∀ {node : Node} {after x : Text} {command : Text × List Text}, node.Canonical →
    command ∈ node.commands → x ∈ words command.1 command.2 → (node.isCommand = true → Boundary after) →
    Stands x (render node ++ after)
  | .command program args, after, x, command, _, among, inside, boundary => by
    cases List.mem_singleton.mp among
    rw [render, command_words]
    exact stands_unwords inside (boundary rfl)
  | .separator kind, _, _, _, _, among, _, _ => by cases among
  | .group body, after, x, command, ⟨_, canonical⟩, among, inside, _ => by
    have split : render (.group body) ++ after = ['('] ++ (renderAll body ++ ')' :: after) := by simp [render]
    have boundary : Boundary (')' :: after) := Or.inr (.inr rfl)
    rw [split]
    exact (renderAll_stands canonical among inside boundary).behind ['(']

theorem renderAll_stands : ∀ {nodes : List Node} {after x : Text} {command : Text × List Text}, Node.CanonicalAll nodes →
    command ∈ Node.commandsAll nodes → x ∈ words command.1 command.2 → Boundary after → Stands x (renderAll nodes ++ after)
  | [], _, _, _, _, among, _, _ => by cases among
  | node :: rest, after, x, command, ⟨canonical, apart, others⟩, among, inside, boundary => by
    rw [renderAll, List.append_assoc]
    rcases List.mem_append.mp among with here | later
    · exact render_stands canonical here inside fun command => renderAll_boundary command apart boundary
    · exact (renderAll_stands others later inside boundary).behind (render node)
end

mutual
theorem separator_shown : ∀ {node : Node}, .separator .sequence ∈ node.tokens → Marker.commandSeparator <:+: render node
  | .command program args, among => by simp [Node.tokens] at among
  | .separator kind, among => by
    cases List.mem_singleton.mp among
    exact ⟨[' '], [' '], rfl⟩
  | .group body, among => by
    have inner := @separatorAll_shown body (by simpa [Node.tokens] using among)
    exact inner.trans ⟨['('], [')'], rfl⟩

theorem separatorAll_shown : ∀ {nodes : List Node}, .separator .sequence ∈ Node.tokensAll nodes →
    Marker.commandSeparator <:+: renderAll nodes
  | [], among => by cases among
  | node :: rest, among => by
    rw [renderAll]
    rcases List.mem_append.mp among with here | later
    · exact (separator_shown here).trans (List.prefix_append _ _).isInfix
    · exact (separatorAll_shown later).trans (List.suffix_append _ _).isInfix
end

-- What makes planning put something into a command: a word that a path or a list is suggested
-- for, or an argument that is wrapped.
def Rewrites (program : Text) (args : List Text) : Prop :=
  (∃ w ∈ program :: args, (classpath? w).isSome ∨ (path? w).isSome) ∨ (Eligible program ∧ ∃ w ∈ args, mentionsDeps w = true)

instance (program : Text) (args : List Text) : Decidable (Rewrites program args) := inferInstanceAs (Decidable (_ ∨ _))

theorem suggested_exact {w : Text} : (classpath? w).isSome ∨ (path? w).isSome ↔ word w ≠ w := by
  rw [ne_eq, word_fixed, ← Option.not_isSome_iff_eq_none, ← Option.not_isSome_iff_eq_none]
  tauto

theorem mentions_rewritten {w : Text} (mentions : mentionsDeps w = true) : mentionsDeps (word w) = true := by
  rw [mentionsDeps_exact] at mentions ⊢
  exact (deps_word w).mpr (.inl mentions)

-- A command into which something was put shows it.
theorem rewrites_shown {program : Text} {args : List Text} (plain : ∀ w ∈ program :: args, Plain w)
    (rewrites : Rewrites program args) :
    ∃ x ∈ words program args, ∀ front after, Boundary after → Marker.isUsedIn (front ++ x ++ after) = true := by
  rw [words_shown]
  have wrapped : ∀ w ∈ args, Eligible program → mentionsDeps (word w) = true →
      ∃ x ∈ named program :: args.map (shownArgument program), ∀ front after, Boundary after →
        Marker.isUsedIn (front ++ x ++ after) = true := by
    intro w among eligible mentions
    refine ⟨shownArgument program w, List.mem_cons_of_mem _ (List.mem_map_of_mem among), fun front after boundary => ?_⟩
    rw [shownArgument, if_pos eligible]
    exact seen_wrapped mentions (plain w (by simp [among])).word boundary
  rcases rewrites with ⟨w, among, suggested⟩ | ⟨eligible, w, among, mentions⟩
  · rw [suggested_exact] at suggested
    rcases List.mem_cons.mp among with rfl | later
    · exact ⟨named w, by simp, fun _ _ _ => seen_word (plain w among) suggested (named_cases w)⟩
    · by_cases taken : Eligible program ∧ mentionsDeps (word w) = true
      · exact wrapped w later taken.1 taken.2
      · refine ⟨shownArgument program w, List.mem_cons_of_mem _ (List.mem_map_of_mem later), fun _ _ _ => ?_⟩
        exact seen_word (plain w among) suggested (.inl (shownArgument_other taken))
  · exact wrapped w among eligible (mentions_rewritten mentions)

theorem stays_command {program : Text} {args : List Text} (still : ¬ Rewrites program args) : Stays program args := by
  obtain ⟨unsuggested, unwrapped⟩ := not_or.mp still
  have fixed : ∀ w ∈ program :: args, word w = w := fun w among =>
    Decidable.not_not.mp fun rewritten => unsuggested ⟨w, among, suggested_exact.mpr rewritten⟩
  have each : ∀ w ∈ args, shownArgument program w = w := by
    intro w among
    have same := fixed w (by simp [among])
    have bare : ¬ (Eligible program ∧ mentionsDeps (word w) = true) := by
      rw [same]
      exact fun wrapped => unwrapped ⟨wrapped.1, w, among, wrapped.2⟩
    exact (shownArgument_other bare).trans same
  unfold Stays
  rw [words_shown]
  refine .cons ?_ ?_
  · have suffix_ := named_suffix program
    rwa [fixed program (by simp)] at suffix_
  · have same : args.map (shownArgument program) = args := List.map_congr_left each |>.trans args.map_id'
    rw [same]
    exact List.forall₂_same.mpr fun w _ => List.suffix_refl w

mutual
theorem mem_command : ∀ {node : Node} {command : Text × List Text} {w : Text}, command ∈ node.commands →
    w ∈ command.1 :: command.2 → .word w ∈ node.tokens
  | .command program args, command, w, among, inside => by
    cases List.mem_singleton.mp among
    simpa [Node.tokens] using inside
  | .separator _, _, _, among, _ => by cases among
  | .group body, command, w, among, inside => by
    simpa [Node.tokens] using @mem_commandsAll body _ _ among inside

theorem mem_commandsAll : ∀ {nodes : List Node} {command : Text × List Text} {w : Text}, command ∈ Node.commandsAll nodes →
    w ∈ command.1 :: command.2 → .word w ∈ Node.tokensAll nodes
  | [], _, _, among, _ => by cases among
  | node :: rest, command, w, among, inside => by
    rw [Node.tokensAll]
    rcases List.mem_append.mp among with here | later
    · exact List.mem_append_left _ (mem_command here inside)
    · exact List.mem_append_right _ (mem_commandsAll later inside)
end

end Suggestion

open Suggestion

-- What is in sight in a text that shows the words of a template is in sight in the template.
theorem Strewn.inSight {t r : Text} {ts : List Token} (strewn : Strewn (Token.wordsOf ts) r) (lexes : Token.Lexes t ts)
    (single : '\n' ∉ t) (unescaped : ¬ ['{', ']'] <:+: t) (sight : Marker.InSight r) : Marker.InSight t := by
  have closes : ∀ {close : Char} {behind : Text}, behind <:+ t → close ∈ behind → Marker.Closes close behind := by
    intro close behind inside member
    apply Marker.closes_of_mem
    · exact fun break_ => single (inside.subset break_)
    · intro escape
      have front : ['{', ']'] <:+: Marker.escapedBracket := ⟨[], ['}'], rfl⟩
      exact unescaped (front.trans (escape.trans inside.isInfix))
    · exact member
  cases sight with
  | @symbol c known inside =>
    have solid : isLoose c = false := by
      simp only [Marker.isSymbol, Bool.or_eq_true, decide_eq_true_eq] at known
      rcases known with ((rfl | rfl) | rfl) | rfl <;> rfl
    obtain ⟨front, back, whole⟩ := inside
    have place : ['{', c, '}'] ++ back <:+ r := ⟨front, by simpa using whole⟩
    obtain ⟨behind, found, _⟩ := strewn.kept lexes (by simp) (by simp [solid]; decide) place
    exact .symbol known ((List.prefix_append _ _).isInfix.trans found.isInfix)
  | @path root rest known inside closed =>
    have solid : isLoose root = false := by
      simp only [Marker.isRoot, Bool.or_eq_true, decide_eq_true_eq] at known
      rcases known with rfl | rfl <;> rfl
    have place : ['{', root, '/'] ++ rest <:+ r := inside
    obtain ⟨behind, found, all⟩ := strewn.kept lexes (by simp) (by simp [solid]; decide) place
    have later : behind <:+ t := (List.suffix_append _ _).trans found
    exact .path known found (closes later (all '}' closed.mem (by rfl)))
  | @args rest inside closed =>
    have place : ['@', '['] ++ rest <:+ r := inside
    obtain ⟨behind, found, all⟩ := strewn.kept lexes (by simp) (by decide) place
    have later : behind <:+ t := (List.suffix_append _ _).trans found
    exact .args found (closes later (all ']' closed.mem (by rfl)))

namespace Suggestion

-- Planning leaves a marker in sight exactly if the template has a sequence, or a command into
-- which something is put.
theorem plan_seen {t : Text} {nodes : List Node} (parsed : parse? t = some nodes) (unused : Marker.isUsedIn t = false)
    (single : '\n' ∉ t) (unescaped : ¬ ['{', ']'] <:+: t) :
    Marker.isUsedIn (plan t) = true ↔
      .separator .sequence ∈ Token.read t ∨ ∃ command ∈ Node.commandsAll nodes, Rewrites command.1 command.2 := by
  obtain ⟨tokens, canonical, _⟩ := parse?_exact.mp parsed
  have lexes := Token.lexes_read t
  rw [plan_parsed unused parsed]
  rw [tokens] at lexes ⊢
  constructor
  · -- A plan into which nothing is put shows the words of its template.
    intro used
    by_contra nothing
    obtain ⟨sequenceless, unwritten⟩ := not_or.mp nothing
    have stays : ∀ command ∈ Node.commandsAll nodes, Stays command.1 command.2 := fun command among =>
      stays_command fun rewrites => unwritten ⟨command, among, rewrites⟩
    have strewn := @renderAll_strewn nodes [] _ canonical stays sequenceless trivial .nil
    rw [List.append_nil, List.append_nil] at strewn
    have sight := strewn.inSight lexes single unescaped (Marker.isUsedIn_exact.mp used)
    rw [Marker.isUsedIn_exact.mpr sight] at unused
    cases unused
  · rintro (sequence | ⟨command, among, rewrites⟩)
    · exact Marker.isUsedIn_of_separator (separatorAll_shown sequence)
    · have plain : ∀ w ∈ command.1 :: command.2, Plain w := by
        intro w inside
        have part := Token.infix_of_word lexes (mem_commandsAll among inside)
        exact ⟨fun break_ => single (part.subset break_), fun escape => unescaped (escape.trans part)⟩
      obtain ⟨x, shown, seen⟩ := rewrites_shown plain rewrites
      obtain ⟨front, after, split, boundary⟩ := @renderAll_stands nodes [] x command canonical among shown trivial
      rw [List.append_nil] at split
      rw [split]
      exact seen front after boundary

-- A path in a group.
theorem plan_seen_path :
    parse? "(cat src/main.txt)".toList = some [.group [.command "cat".toList ["src/main.txt".toList]]] ∧
      Marker.isUsedIn "(cat src/main.txt)".toList = false ∧ '\n' ∉ "(cat src/main.txt)".toList ∧
      ¬ ['{', ']'] <:+: "(cat src/main.txt)".toList ∧ Marker.isUsedIn (plan "(cat src/main.txt)".toList) = true := by
  have parsed : parse? "(cat src/main.txt)".toList = some [.group [.command "cat".toList ["src/main.txt".toList]]] := by
    decide +kernel
  have unused : Marker.isUsedIn "(cat src/main.txt)".toList = false := by decide +kernel
  have single : '\n' ∉ "(cat src/main.txt)".toList := by decide
  have unescaped : ¬ ['{', ']'] <:+: "(cat src/main.txt)".toList := by decide +kernel
  refine ⟨parsed, unused, single, unescaped, (plan_seen parsed unused single unescaped).mpr (.inr ?_)⟩
  exact ⟨("cat".toList, ["src/main.txt".toList]), by simp [Node.commandsAll, Node.commands], by decide +kernel⟩

end Suggestion
end PortableActions.Template
