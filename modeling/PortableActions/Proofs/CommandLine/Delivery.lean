import PortableActions.Proofs.CommandLine.Contribution
import PortableActions.Proofs.Template.Replanning
import PortableActions.Proofs.Text.Trimming
-- What the creator of args files is given for a plain command. On a classpath that opens
-- no marker it is given the arguments that mention the classpath as they read, exactly
-- when the tool is still known after planning and no bracket loses its escape.
namespace PortableActions
open PortableActions.Template
open PortableActions.Template.Suggestion (Item items rooted word mentionsDeps takesArgsFiles braced Tame Led)

namespace CommandLine

-- A creator that only notes what it is given.
def recorder (name : List Text → Text) (content : Text) : EStateM Empty (List Text) Text :=
  fun seen => .ok (name seen) (seen ++ [content])

-- Rendering the planned template gives a creator these contents, in this order.
def HandsOver (template : Text) (classpath : Option Classpath) (home : Text) (contents : List Text) : Prop :=
  ∀ name, ∃ line, spilled (recorder name) (Suggestion.plan template) classpath (Platform.posix home) [] = .ok line contents

theorem recorder_calls (name : List Text → Text) (contents seen : List Text) :
    ∃ answers, Calls (recorder name) seen contents answers (seen ++ contents) := by
  induction contents generalizing seen with
  | nil => exact ⟨[], by rw [List.append_nil]; exact .nil⟩
  | cons content rest ih =>
    obtain ⟨answers, calls⟩ := ih (seen ++ [content])
    rw [List.append_assoc] at calls
    exact ⟨name seen :: answers, .cons rfl calls⟩

theorem recorder_spills (name : List Text → Text) (command : Text) :
    ∃ line, ArgsConstruct.spill (recorder name) command [] = .ok line (ArgsConstruct.contents command) := by
  obtain ⟨answers, calls⟩ := recorder_calls name (ArgsConstruct.contents command) []
  have pieces := ArgsConstruct.spillPieces_calls (ArgsConstruct.pieces command) calls
  refine ⟨Marker.unprotect (ArgsConstruct.interleave (ArgsConstruct.gapsOf (ArgsConstruct.pieces command))
    (answers.map ('@' :: ·))), ?_⟩
  simp [ArgsConstruct.spill, bind, EStateM.bind, pieces, pure, EStateM.pure]

theorem handsOver_exact {template home : Text} {classpath : Option Classpath} {contents : List Text} :
    HandsOver template classpath home contents ↔
      ArgsConstruct.contents (expand (Suggestion.plan template) classpath (Platform.posix home)) = contents := by
  unfold HandsOver spilled
  generalize expand (Suggestion.plan template) classpath (Platform.posix home) = command
  constructor
  · intro hands
    obtain ⟨line, got⟩ := hands fun _ => []
    obtain ⟨other, given⟩ := recorder_spills (fun _ => []) command
    rw [given] at got
    injection got
  · rintro rfl name
    exact recorder_spills name command

-- A single command of plain words, for a tool that takes args files.
structure PlainCommand (template program : Text) (args : List Text) : Prop where
  parsed : parse? template = some [.command program args]
  clean : Clean template
  plain : ∀ c ∈ ['\'', '"', '@', Marker.standIn], c ∉ template
  tool : takesArgsFiles program = true

-- The arguments that mention the classpath, as they are to be read.
def argumentsOf (joined : Text) (args : List Text) : List Text :=
  (args.filter mentionsDeps).map fun w => Text.trim (filled joined (rooted w))

-- The program is still known as a tool when its own path has been rooted, and in an
-- argument nothing follows a bracket inside a rooted path.
def Safe (joined program : Text) (args : List Text) : Prop :=
  ∀ w ∈ args, mentionsDeps w = true →
    takesArgsFiles (word program) = true ∧ ∀ item ∈ items w, KeepsBrackets joined item

instance (joined program : Text) (args : List Text) : Decidable (Safe joined program args) :=
  inferInstanceAs (Decidable (∀ w ∈ args, mentionsDeps w = true → _ ∧ ∀ item ∈ items w, KeepsBrackets joined item))

theorem PlainCommand.tame {template program : Text} {args : List Text} (command : PlainCommand template program args) :
    ∀ w ∈ program :: args, Tame signs w := by
  have tokens := (parse?_exact.mp command.parsed).1
  have lexes := Token.lexes_read template
  intro w among
  have inside : .word w ∈ Token.read template := by
    rw [tokens]
    simpa [Node.tokensAll, Node.tokens] using among
  refine ⟨Clean.words lexes command.clean w inside, fun c bad member => ?_⟩
  refine command.plain c ?_ (Token.mem_of_word lexes inside member)
  simp only [signs, List.mem_cons, List.not_mem_nil, or_false] at bad
  rcases bad with rfl | rfl <;> simp

theorem PlainCommand.planned {template program : Text} {args : List Text} (command : PlainCommand template program args) :
    Suggestion.plan template = Suggestion.command program args := by
  rw [Suggestion.plan_parsed (command.clean.unused (command.plain '@' (by simp))) command.parsed,
    Suggestion.renderAll_single, Suggestion.render]

theorem contents_planned {template program home : Text} {args contents : List Text} {classpath : Option Classpath}
    (command : PlainCommand template program args) : HandsOver template classpath home contents ↔
      ArgsConstruct.contents (settleAll (placed (joinedOf classpath) (Suggestion.command program args))) = contents := by
  rw [handsOver_exact, command.planned]
  rfl

theorem contentsOf_append (ps qs : List Text.Piece) :
    ArgsConstruct.contentsOf (ps ++ qs) = ArgsConstruct.contentsOf ps ++ ArgsConstruct.contentsOf qs := by
  induction ps with
  | nil => rfl
  | cons p rest ih => cases p <;> simp [ArgsConstruct.contentsOf, ih]

theorem contentsOf_plain (t : Text) : ArgsConstruct.contentsOf (t.map .plain) = [] := by
  induction t with
  | nil => rfl
  | cons c r ih => exact ih

-- A part whose args constructs hold these contents.
def Hands (joined part : Text) (contents : List Text) : Prop :=
  ∃ ps, Gives joined part ps ∧ ArgsConstruct.contentsOf ps = contents

theorem Hands.append (one : Hands joined a xs) (two : Hands joined b ys) : Hands joined (a ++ b) (xs ++ ys) := by
  obtain ⟨ps, givesOne, rfl⟩ := one
  obtain ⟨qs, givesTwo, rfl⟩ := two
  exact ⟨ps ++ qs, givesOne.append givesTwo, contentsOf_append ps qs⟩

theorem hands_nil : Hands joined [] [] := ⟨[], .nil, rfl⟩

theorem hands_blank : Hands joined [' '] [] := ⟨_, gives_char (by simp), rfl⟩

theorem hands_word {w : Text} (inert : Inert joined) (tame : Tame signs w) : Hands joined (word w) [] :=
  ⟨_, gives_word inert tame, contentsOf_plain _⟩

theorem hands_written (wraps : Bool) {w : Text} (inert : Inert joined) (tame : Tame signs w)
    (keeps : wraps = true → mentionsDeps w = true → ∀ item ∈ items w, KeepsBrackets joined item) :
    Hands joined (written wraps w) (if wraps && mentionsDeps w then [Text.trim (filled joined (rooted w))] else []) := by
  by_cases wrapped : wraps = true ∧ mentionsDeps w = true
  · obtain ⟨rfl, mentions⟩ := wrapped
    obtain ⟨held, content, gives⟩ := gives_argument inert tame (keeps rfl mentions)
    rw [written_wrapped tame mentions, mentions]
    exact ⟨_, gives, by simp [ArgsConstruct.contentsOf, content]⟩
  · rw [written_plain tame wrapped, if_neg (by simpa using wrapped)]
    exact hands_word inert tame

theorem hands_words {parts : List Text} {given : List (List Text)} (each : List.Forall₂ (Hands joined) parts given) :
    Hands joined (Text.unwords parts) given.flatten := by
  induction each with
  | nil => exact hands_nil
  | @cons part contents parts given first rest ih =>
    cases rest with
    | nil => simpa [Text.unwords, Text.join] using first
    | cons next more =>
      have whole := (first.append hands_blank).append ih
      rwa [List.append_nil] at whole

theorem flatten_arguments (joined : Text) (args : List Text) :
    (args.map fun w => if mentionsDeps w then [Text.trim (filled joined (rooted w))] else []).flatten = argumentsOf joined args := by
  induction args with
  | nil => rfl
  | cons w rest ih =>
    rw [List.map_cons, List.flatten_cons, ih]
    cases mentions : mentionsDeps w <;> simp [argumentsOf, mentions]

theorem hands_arguments {wraps : Bool} {args : List Text} (inert : Inert joined) (tame : ∀ w ∈ args, Tame signs w)
    (safe : ∀ w ∈ args, mentionsDeps w = true → wraps = true ∧ ∀ item ∈ items w, KeepsBrackets joined item) :
    List.Forall₂ (Hands joined) (args.map (written wraps))
      (args.map fun w => if mentionsDeps w then [Text.trim (filled joined (rooted w))] else []) := by
  rw [List.forall₂_map_left_iff, List.forall₂_map_right_iff]
  refine List.forall₂_same.mpr fun w among => ?_
  have hands := hands_written wraps inert (tame w among) fun _ mentions => (safe w among mentions).2
  cases mentions : mentionsDeps w with
  | false => simpa [mentions] using hands
  | true => simpa [mentions, (safe w among mentions).1] using hands

theorem hands_command {program : Text} {args : List Text} (inert : Inert joined)
    (tame : ∀ w ∈ program :: args, Tame signs w) (safe : Safe joined program args) :
    Hands joined (Suggestion.command program args) (argumentsOf joined args) := by
  obtain ⟨named, each⟩ := List.forall_mem_cons.mp tame
  have whole := hands_words (.cons (hands_word inert named) (hands_arguments inert each safe))
  rw [← command_written (named.free '@' (by simp [signs])), List.flatten_cons, List.nil_append, flatten_arguments] at whole
  exact whole

end CommandLine
end PortableActions
