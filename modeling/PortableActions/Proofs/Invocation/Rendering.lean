import PortableActions.Proofs.CommandLine.Contribution
import PortableActions.Proofs.Invocation.Agreement
import PortableActions.Proofs.Template.Replanning
-- The whole way from a plain template to a POSIX command line, stated on the tree of the
-- template: every word with its paths rooted and the classpath in its place, and nothing
-- left of the markers in between.
namespace PortableActions
open PortableActions.Template PortableActions.CommandLine
open PortableActions.Template.Suggestion (Tame items rooted word)

namespace CommandLine

theorem joined_free {classpath : Option Classpath} {c : Char} (colon : c ≠ ':')
    (entries : ∀ entry ∈ classpath.getD [], c ∉ entry.print) : c ∉ joinedOf classpath := by
  intro inside
  rcases Text.mem_of_mem_join inside with between | ⟨part, among, here⟩
  · exact colon (List.mem_singleton.mp between)
  · obtain ⟨entry, member, rfl⟩ := List.mem_map.mp among
    exact entries entry member here

end CommandLine

namespace Invocation

-- How an argument reads: rooted and filled, and cut to its ink if it went through an args
-- construct.
def spoken (shown : Text → Text) (joined : Text) (wraps : Bool) (w : Text) : Text :=
  if wraps && Suggestion.mentionsDeps w then shown (filled joined (rooted w)) else filled joined (rooted w)

def separated : Separator → Text
  | .sequence => [' ', ';', ' ']
  | .and => [' ', '&', '&', ' ']
  | .or => [' ', '|', '|', ' ']

mutual
-- The command line of a tree. What becomes of wrapped arguments is left open.
def rendered (shown : Text → Text) (joined : Text) : Node → Text
  | .command program args =>
    Text.unwords (filled joined (rooted program) ::
      args.map (spoken shown joined (Suggestion.takesArgsFiles (word program))))
  | .separator kind => separated kind
  | .group body => ['('] ++ renderedAll shown joined body ++ [')']

def renderedAll (shown : Text → Text) (joined : Text) : List Node → Text
  | [] => []
  | node :: rest => rendered shown joined node ++ renderedAll shown joined rest
end

-- A part that is seen as a text without stand-ins once args constructs are inlined.
def Shows (joined part seen : Text) : Prop :=
  ∃ ps, Gives joined part ps ∧ Text.write ArgsConstruct.content ps = seen ∧ Marker.standIn ∉ seen

theorem Shows.append (one : Shows joined a x) (two : Shows joined b y) : Shows joined (a ++ b) (x ++ y) := by
  obtain ⟨ps, givesOne, rfl, quietOne⟩ := one
  obtain ⟨qs, givesTwo, rfl, quietTwo⟩ := two
  exact ⟨ps ++ qs, givesOne.append givesTwo, Text.write_append ps qs, by simp [quietOne, quietTwo]⟩

theorem shows_nil : Shows joined [] [] := ⟨[], .nil, rfl, by simp⟩

theorem shows_chars {t : Text} (plain : ∀ c ∈ t, c ∉ ['{', '}', '@']) (quiet : Marker.standIn ∉ t) : Shows joined t t :=
  ⟨_, gives_chars plain, Text.write_plain t, quiet⟩

theorem shows_words {parts seen : List Text} (each : List.Forall₂ (Shows joined) parts seen) :
    Shows joined (Text.unwords parts) (Text.unwords seen) := by
  induction each with
  | nil => exact shows_nil
  | cons first rest ih =>
    cases rest with
    | nil => exact first
    | cons next more => exact (first.append (shows_chars (by simp) (by simp [Marker.standIn]))).append ih

theorem shows_separator (kind : Separator) : Shows joined (Suggestion.separator kind) (separated kind) := by
  cases kind with
  | sequence =>
    have blank : Shows joined [' '] [' '] := shows_chars (by simp) (by simp [Marker.standIn])
    have middle : Shows joined Marker.commandSeparator [';'] := ⟨_, gives_separator, rfl, by simp [Marker.standIn]⟩
    exact (blank.append middle).append blank
  | and => exact shows_chars (by decide) (by decide)
  | or => exact shows_chars (by decide) (by decide)

-- What words and classpath have to do without.
def strangers : List Char := ['@', ']', Marker.standIn]

theorem tame_signs {w : Text} (tame : Tame strangers w) : Tame signs w :=
  ⟨tame.clean, fun c bad => tame.free c (by simp only [signs, strangers, List.mem_cons, List.not_mem_nil, or_false] at bad ⊢; tauto)⟩

theorem spoken_quiet {w : Text} (inert : Inert joined) (tame : Tame strangers w) :
    Marker.standIn ∉ filled joined (rooted w) :=
  filled_absent (rooted_clean (tame_signs tame)) inert.bell (rooted_free (tame_signs tame) (by simp [signs]))

theorem shows_word {w : Text} (inert : Inert joined) (tame : Tame strangers w) :
    Shows joined (word w) (filled joined (rooted w)) :=
  ⟨_, gives_word inert (tame_signs tame), Text.write_plain _, spoken_quiet inert tame⟩

theorem keeps_bracketless {w : Text} (inert : Inert joined) (tame : Tame strangers w) :
    ∀ item ∈ items w, KeepsBrackets joined item := by
  intro item among
  have fit := Suggestion.items_fit (by unfold Suggestion.Apart; decide) tame item among
  cases item with
  | plain t => trivial
  | rooted path =>
    have absent := filled_absent fit.1.clean inert.bracket (fit.1.free ']' (by simp [strangers]))
    exact fun inside => absent (List.dropLast_subset _ inside)
  | colon => trivial
  | home => trivial

theorem shows_argument {w : Text} (inert : Inert joined) (tame : Tame strangers w) (wraps : Bool) :
    Shows joined (written wraps w) (spoken Text.trim joined wraps w) := by
  by_cases wrapped : wraps = true ∧ Suggestion.mentionsDeps w = true
  · obtain ⟨rfl, mentions⟩ := wrapped
    obtain ⟨held, content, gives⟩ := gives_argument inert (tame_signs tame) (keeps_bracketless inert tame)
    rw [written_wrapped (tame_signs tame) mentions, spoken, mentions]
    refine ⟨_, gives, by simp [Text.write, Text.Piece.write, content], fun inside => ?_⟩
    exact spoken_quiet inert tame (ArgsConstruct.mem_trim inside)
  · have bare : spoken Text.trim joined wraps w = filled joined (rooted w) := by
      simp only [spoken, Bool.and_eq_true, wrapped, if_false]
    rw [written_plain (tame_signs tame) wrapped, bare]
    exact shows_word inert tame

theorem shows_command {program : Text} {args : List Text} (inert : Inert joined)
    (tame : ∀ w ∈ program :: args, Tame strangers w) :
    Shows joined (Suggestion.command program args) (rendered Text.trim joined (.command program args)) := by
  obtain ⟨named, each⟩ := List.forall_mem_cons.mp tame
  rw [command_written (named.free '@' (by simp [strangers])), rendered]
  refine shows_words (.cons (shows_word inert named) ?_)
  rw [List.forall₂_map_left_iff, List.forall₂_map_right_iff]
  exact List.forall₂_same.mpr fun w among => shows_argument inert (each w among) _

mutual
theorem shows_node (inert : Inert joined) : ∀ {node : Node}, (∀ w, .word w ∈ node.tokens → Tame strangers w) →
    Shows joined (Suggestion.render node) (rendered Text.trim joined node)
  | .command program args, tame => by
    rw [Suggestion.render]
    exact shows_command inert fun w among => tame w (by simpa [Node.tokens] using among)
  | .separator kind, _ => by
    rw [Suggestion.render, rendered]
    exact shows_separator kind
  | .group body, tame => by
    have named : ∀ w, .word w ∈ Node.tokensAll body → Tame strangers w := fun w among =>
      tame w (by simp [Node.tokens, among])
    have inner := shows_nodes inert named
    rw [Suggestion.render, rendered]
    exact ((shows_chars (by simp) (by simp [Marker.standIn])).append inner).append
      (shows_chars (by simp) (by simp [Marker.standIn]))

theorem shows_nodes (inert : Inert joined) : ∀ {nodes : List Node}, (∀ w, .word w ∈ Node.tokensAll nodes → Tame strangers w) →
    Shows joined (Suggestion.renderAll nodes) (renderedAll Text.trim joined nodes)
  | [], _ => by
    rw [Suggestion.renderAll, renderedAll]
    exact shows_nil
  | node :: rest, tame => by
    rw [Suggestion.renderAll, renderedAll]
    exact (shows_node inert fun w among => tame w (List.mem_append_left _ among)).append
      (shows_nodes inert fun w among => tame w (List.mem_append_right _ among))
end

-- A plain template that is short enough becomes the command line of its tree, on any
-- classpath that opens no marker.
theorem prepare_renders (settings : Settings) {template : Text} {nodes : List Node} {classpath : Option Classpath}
    {home : Text} {threshold : Int} (scope : ArgsFiles) (parsed : parse? template = some nodes) (clean : Clean template)
    (plain : ∀ c ∈ ['@', ']', Marker.standIn], c ∉ template)
    (entries : ∀ entry ∈ classpath.getD [], ∀ c ∈ ['{', '}', '@', ']', Marker.standIn], c ∉ entry.print)
    (short : ((inlined template classpath (standard home threshold)).length : Int) ≤ threshold) :
    prepare settings template classpath (standard home threshold) scope =
      .ok (renderedAll Text.trim (joinedOf classpath) nodes) scope := by
  have free : ∀ c ∈ ['{', '}', '@', ']', Marker.standIn], c ∉ joinedOf classpath := fun c bad =>
    joined_free (by rintro rfl; simp [Marker.standIn] at bad) fun entry among => entries entry among c bad
  have tokens := (parse?_exact.mp parsed).1
  have lexes := Token.lexes_read template
  have tame : ∀ w, .word w ∈ Node.tokensAll nodes → Tame strangers w := by
    intro w among
    rw [← tokens] at among
    exact ⟨Clean.words lexes clean w among, fun c bad inside => plain c bad (Token.mem_of_word lexes among inside)⟩
  obtain ⟨ps, gives, seen, quiet⟩ := shows_nodes (inert_of_free free) tame
  have planned : Suggestion.plan template = Suggestion.renderAll nodes :=
    Suggestion.plan_parsed (clean.unused (plain '@' (by simp))) parsed
  have line : inlined (Suggestion.plan template) classpath (standard home threshold) =
      renderedAll Text.trim (joinedOf classpath) nodes := by
    rw [planned, inlined, expand_standard, ArgsConstruct.inline, gives.whole, seen, ArgsConstruct.unprotect_quiet quiet]
  rw [prepare_short short scope, line]

-- A classpath next to a relative entry, and a group.
def treeTemplate : Text := "java -cp {{deps}}:lib/b.jar Main && (bin/x; ls)".toList

def treeNodes : List Node :=
  [.command "java".toList ["-cp".toList, "{{deps}}:lib/b.jar".toList, "Main".toList], .separator .and,
    .group [.command "bin/x".toList [], .separator .sequence, .command "ls".toList []]]

theorem prepare_renders_tree :
    parse? treeTemplate = some treeNodes ∧ Clean treeTemplate ∧
    (∀ c ∈ ['@', ']', Marker.standIn], c ∉ treeTemplate) ∧
    (∀ entry ∈ oneJar.getD [], ∀ c ∈ ['{', '}', '@', ']', Marker.standIn], c ∉ entry.print) ∧
    ((inlined treeTemplate oneJar (standard [] 80)).length : Int) ≤ 80 ∧
    prepare {} treeTemplate oneJar (standard [] 80) scopeInTmp =
      .ok "java -cp /x/a.jar:./lib/b.jar Main && (./bin/x ; ls)".toList scopeInTmp := by
  have parsed : parse? treeTemplate = some treeNodes := by decide +kernel
  have clean : Clean treeTemplate := by decide +kernel
  have plain : ∀ c ∈ ['@', ']', Marker.standIn], c ∉ treeTemplate := by decide +kernel
  have entries : ∀ entry ∈ oneJar.getD [], ∀ c ∈ ['{', '}', '@', ']', Marker.standIn], c ∉ entry.print := by decide +kernel
  have short : ((inlined treeTemplate oneJar (standard [] 80)).length : Int) ≤ 80 := by decide +kernel
  have read : renderedAll Text.trim (joinedOf oneJar) treeNodes =
      "java -cp /x/a.jar:./lib/b.jar Main && (./bin/x ; ls)".toList := by decide +kernel
  refine ⟨parsed, clean, plain, entries, short, ?_⟩
  rw [← read]
  exact prepare_renders {} scopeInTmp parsed clean plain entries short

-- An entry that starts with a blank: the args construct is trimmed.
def blankTemplate : Text := "java -cp {{deps}} Main".toList

def blankNodes : List Node := [.command "java".toList ["-cp".toList, "{{deps}}".toList, "Main".toList]]

def blankJar : Option Classpath := some [.text " /x/a.jar".toList]

theorem prepare_renders_blank_entry :
    parse? blankTemplate = some blankNodes ∧ Clean blankTemplate ∧
    (∀ c ∈ ['@', ']', Marker.standIn], c ∉ blankTemplate) ∧
    (∀ entry ∈ blankJar.getD [], ∀ c ∈ ['{', '}', '@', ']', Marker.standIn], c ∉ entry.print) ∧
    ((inlined blankTemplate blankJar (standard [] 80)).length : Int) ≤ 80 ∧
    prepare {} blankTemplate blankJar (standard [] 80) scopeInTmp ≠
      .ok (renderedAll id (joinedOf blankJar) blankNodes) scopeInTmp := by
  have short : ((inlined blankTemplate blankJar (standard [] 80)).length : Int) ≤ 80 := by decide +kernel
  refine ⟨by decide +kernel, by decide +kernel, by decide +kernel, by decide +kernel, short, ?_⟩
  have apart : inlined (Suggestion.plan blankTemplate) blankJar (standard [] 80) ≠
      renderedAll id (joinedOf blankJar) blankNodes := by decide +kernel
  rw [prepare_short short scopeInTmp]
  intro same
  injection same with line
  exact apart line

end Invocation
end PortableActions
