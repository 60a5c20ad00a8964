import PortableActions.Proofs.CommandLine.Alteration
import PortableActions.Proofs.CommandLine.Delivery
import PortableActions.Proofs.CommandLine.RoundTrip
-- The place of each argument in an expanded command line. Whatever the classpath puts in, as long
-- as it has no bracket the args constructs are those of the arguments that mention it, each
-- between blanks, and the other words hold none.
namespace PortableActions.CommandLine
open PortableActions.Template
open PortableActions.Text (Alters)
open PortableActions.Template.Suggestion (Tame word rooted mentionsDeps takesArgsFiles)

variable {platform : Platform}

-- What words do without, and what the stages are not to put in: signs, brackets, quotes and the
-- stand-in.
def loud : List Char := ['@', ']', '\'', '"', Marker.standIn]

def Discreet (platform : Platform) : Prop := ∀ c ∈ loud, c ∉ platform.gained

theorem discreet_home (free : platform.isWindows = true → ∀ c ∈ loud, c ∉ platform.home) : Discreet platform := by
  intro c bad inside
  unfold Platform.gained at inside
  split at inside
  · rename_i windows
    rcases List.mem_append.mp inside with front | inner
    · exact (by decide : ∀ d ∈ loud, d ∉ ['\\', '.', ';', '&']) c bad front
    · exact free windows c bad inner
  · cases inside

theorem lost_kept {c : Char} (known : c ∈ [' ', '@', '[', ']']) : c ∉ platform.lost := by
  intro inside
  unfold Platform.lost at inside
  split at inside <;> revert c <;> decide

-- What stands for an argument: an args construct if it mentions the classpath, and else its word.
inductive Slot (platform : Platform) (w : Text) : Text → Prop where
  | construct {held : Text} (mentions : mentionsDeps w = true) (free : ']' ∉ held) : Slot platform w ('@' :: '[' :: (held ++ [']']))
  | text {t : Text} (silent : mentionsDeps w = false) (alters : Alters platform.lost platform.gained (word w) t) : Slot platform w t

theorem tame_signs_of_loud {w : Text} (tame : Tame loud w) : Tame signs w :=
  ⟨tame.clean, fun c bad => tame.free c ((by decide : signs ⊆ loud) bad)⟩

theorem word_loudless {w : Text} {c : Char} (tame : Tame loud w) (bad : c ∈ loud) : c ∉ word w := by
  intro inside
  have count := Suggestion.count_word ((by decide : ∀ d ∈ loud, d ∉ ':' :: Suggestion.marks) c bad) w
  rw [List.count_eq_zero.mpr (tame.free c bad)] at count
  exact List.count_eq_zero.mp count inside

theorem word_mentions {w : Text} (tame : Tame loud w) : mentionsDeps (word w) = mentionsDeps w :=
  Suggestion.mentions_word ⟨tame.clean, by simp⟩

-- The classpath comes in word by word.

def joinedOn (platform : Platform) (classpath : Option Classpath) : Text := (classpath.getD []).print platform

variable {classpath : Option Classpath}

theorem joinedOn_free {c : Char} (stock : platform.Stock) (other : c ∉ [':', ';'])
    (entries : ∀ entry ∈ classpath.getD [], c ∉ entry.print) : c ∉ joinedOn platform classpath := by
  intro inside
  rcases Text.mem_of_mem_join inside with between | ⟨part, among, here⟩
  · rw [stock.path] at between
    split at between <;> simp_all
  · obtain ⟨entry, member, rfl⟩ := List.mem_map.mp among
    exact entries entry member here

theorem substitute_unmentioned {t : Text} (silent : mentionsDeps t = false) : Classpath.substitute classpath platform t = t := by
  apply Text.replaceAll_absent (by decide)
  intro inside
  rw [Suggestion.mentionsDeps_exact.mpr inside] at silent
  cases silent

theorem substitute_split {c : Char} (outside : c ∉ Marker.deps) (a b : Text) :
    Classpath.substitute classpath platform (a ++ c :: b) =
      Classpath.substitute classpath platform a ++ c :: Classpath.substitute classpath platform b :=
  Text.replaceAll_split (by decide) outside _ a b

theorem substitute_cons {c : Char} (outside : c ∉ Marker.deps) (b : Text) :
    Classpath.substitute classpath platform (c :: b) = c :: Classpath.substitute classpath platform b :=
  substitute_split outside [] b

theorem substitute_unwords (parts : List Text) : Classpath.substitute classpath platform (Text.unwords parts) =
    Text.unwords (parts.map (Classpath.substitute classpath platform)) := by
  induction parts with
  | nil => rfl
  | cons first rest ih =>
    cases rest with
    | nil => rfl
    | cons next more =>
      have behind : (next :: more).map (Classpath.substitute classpath platform) ≠ [] := by simp
      rw [Text.unwords_cons (by simp), substitute_split (by decide), ih]
      exact (Text.unwords_cons behind).symm

theorem substitute_construct (b : Text) : Classpath.substitute classpath platform ('@' :: '[' :: (b ++ [']'])) =
    '@' :: '[' :: (Classpath.substitute classpath platform b ++ [']']) := by
  rw [substitute_cons (by decide), substitute_cons (by decide), substitute_split (by decide)]
  rfl

theorem substitute_free {t : Text} {c : Char} (outside : c ∉ joinedOn platform classpath) (free : c ∉ t) :
    c ∉ Classpath.substitute classpath platform t := by
  intro inside
  exact free (Text.mem_of_plain ((Text.mem_replaceAll outside).mp inside))

-- Slot by slot.

theorem alters_construct {b x : Text} (alters : Alters platform.lost platform.gained ('@' :: '[' :: (b ++ [']'])) x) :
    ∃ held, x = '@' :: '[' :: (held ++ [']']) ∧ Alters platform.lost platform.gained b held := by
  obtain ⟨y, rfl, behind⟩ := alters.uncons (lost_kept (by simp))
  obtain ⟨z, rfl, inner⟩ := behind.uncons (lost_kept (by simp))
  obtain ⟨held, rest, rfl, body, last⟩ := inner.split (lost_kept (by simp))
  rw [last.of_nil]
  exact ⟨held, rfl, body⟩

theorem alters_loudless {a x : Text} {c : Char} (discreet : Discreet platform) (alters : Alters platform.lost platform.gained a x)
    (known : c ∈ loud) (free : c ∉ a) : c ∉ x := by
  intro inside
  rcases alters.mem inside with before | new
  · exact free before
  · exact discreet c known new

-- What the stages leave of a word.
theorem text_loudless {w t : Text} {c : Char} (discreet : Discreet platform) (tame : Tame loud w)
    (alters : Alters platform.lost platform.gained (word w) t) (bad : c ∈ loud) : c ∉ t :=
  alters_loudless discreet alters bad (word_loudless tame bad)

theorem slot_argument {w x : Text} (discreet : Discreet platform) (tame : Tame loud w) (bracket : ']' ∉ joinedOn platform classpath)
    (alters : Alters platform.lost platform.gained (Classpath.substitute classpath platform (written true w)) x) :
    Slot platform w x := by
  have few := tame_signs_of_loud tame
  cases mentions : mentionsDeps w with
  | true =>
    have unbracketed : ']' ∉ word w := word_loudless tame (by decide)
    rw [written_wrapped few mentions, source_same true unbracketed, substitute_construct] at alters
    obtain ⟨held, rfl, body⟩ := alters_construct alters
    exact .construct mentions (alters_loudless discreet body (by decide) (substitute_free bracket unbracketed))
  | false =>
    have plain : written true w = word w := written_plain few (by simp [mentions])
    rw [plain, substitute_unmentioned ((word_mentions tame).trans mentions)] at alters
    exact .text mentions alters

-- The program stands where it is, with the classpath put in if it mentions it.
theorem program_loudless {program front : Text} {c : Char} (discreet : Discreet platform) (tame : Tame loud program)
    (named : Alters platform.lost platform.gained (Classpath.substitute classpath platform (word program)) front) (bad : c ∈ loud)
    (outside : mentionsDeps program = true → c ∉ joinedOn platform classpath) : c ∉ front := by
  apply alters_loudless discreet named bad
  cases mentions : mentionsDeps program with
  | false =>
    rw [substitute_unmentioned ((word_mentions tame).trans mentions)]
    exact word_loudless tame bad
  | true => exact substitute_free (outside mentions) (word_loudless tame bad)

theorem slot_arguments {args xs : List Text} (discreet : Discreet platform) (tame : ∀ w ∈ args, Tame loud w)
    (bracket : ']' ∉ joinedOn platform classpath)
    (each : List.Forall₂ (Alters platform.lost platform.gained)
      ((args.map (written true)).map (Classpath.substitute classpath platform)) xs) :
    List.Forall₂ (Slot platform) args xs := by
  induction args generalizing xs with
  | nil =>
    cases each
    exact .nil
  | cons w rest ih =>
    obtain ⟨here, later⟩ := List.forall_mem_cons.mp tame
    cases each with
    | cons first others => exact .cons (slot_argument discreet here bracket first) (ih later others)

theorem PlainCommand.tame_loud {template program : Text} {args : List Text} (command : PlainCommand template program args)
    (bracket : ']' ∉ template) : ∀ w ∈ program :: args, Tame loud w := by
  have tokens := (parse?_exact.mp command.parsed).1
  intro w among
  have inside : .word w ∈ Token.read template := by
    rw [tokens]
    simpa [Node.tokensAll, Node.tokens] using among
  refine ⟨(command.tame w among).clean, fun c bad here => ?_⟩
  have known := Token.mem_of_word (Token.lexes_read template) inside here
  rcases List.mem_cons.mp ((by decide : loud ⊆ ']' :: ['\'', '"', '@', Marker.standIn]) bad) with rfl | plain
  · exact bracket known
  · exact command.plain c plain known

-- The expanded line of a tool that is still known: the program, and the slots of its arguments.
theorem expand_slots {template program : Text} {args : List Text} (stock : platform.Stock) (discreet : Discreet platform)
    (command : PlainCommand template program args) (unbracketed : ']' ∉ template) (bracket : ']' ∉ joinedOn platform classpath)
    (tool : takesArgsFiles (word program) = true) :
    ∃ front slots, expand (Suggestion.plan template) classpath platform = Text.unwords (front :: slots) ∧
      Alters platform.lost platform.gained (Classpath.substitute classpath platform (word program)) front ∧
      List.Forall₂ (Slot platform) args slots := by
  obtain ⟨named, each⟩ := List.forall_mem_cons.mp (command.tame_loud unbracketed)
  have planned : Suggestion.plan template = Text.unwords (word program :: args.map (written true)) := by
    rw [command.planned, command_written (named.free '@' (by decide)), tool]
  have alters := expand_alters stock (Suggestion.plan template) classpath
  rw [planned, substitute_unwords] at alters
  obtain ⟨shown, whole, parts⟩ := alters.unwords (lost_kept (by simp))
  cases parts with
  | cons first others => exact ⟨_, _, by rw [planned, whole], first, slot_arguments discreet each bracket others⟩

-- The expanded line of any other program holds no bracket, so no construct either.
theorem expand_bracketless {template program : Text} {args : List Text} (stock : platform.Stock) (discreet : Discreet platform)
    (command : PlainCommand template program args) (unbracketed : ']' ∉ template) (bracket : ']' ∉ joinedOn platform classpath)
    (other : takesArgsFiles (word program) = false) : ']' ∉ expand (Suggestion.plan template) classpath platform := by
  have tame := command.tame_loud unbracketed
  have planned : ']' ∉ Suggestion.plan template := by
    rw [command.planned, command_written ((tame program (by simp)).free '@' (by decide)), other]
    intro inside
    rcases Text.mem_of_mem_join inside with between | ⟨part, among, here⟩
    · simp at between
    · rcases List.mem_cons.mp among with rfl | later
      · exact word_loudless (tame program (by simp)) (by decide) here
      · obtain ⟨w, member, rfl⟩ := List.mem_map.mp later
        exact word_loudless (tame w (by simp [member])) (by decide) here
  exact alters_loudless discreet (expand_alters stock _ classpath) (by decide) (substitute_free bracket planned)

theorem contents_bracketless {t : Text} (free : ']' ∉ t) : ArgsConstruct.contents t = [] := by
  have same : Marker.protect t = t := Text.replaceAll_absent (by decide) _ fun inside => free (inside.subset (by decide))
  unfold ArgsConstruct.contents ArgsConstruct.pieces
  rw [same]
  induction t with
  | nil => rfl
  | cons c r ih =>
    simp only [List.mem_cons, not_or] at free
    have unseen : Marker.argsConstruct (c :: r) = none := by
      cases seen : Marker.argsConstruct (c :: r) with
      | none => rfl
      | some found =>
        obtain ⟨held, rest, split, _⟩ := Marker.argsConstruct_parts seen
        have behind : r = '[' :: (held ++ ']' :: rest) := (List.cons.inj split).2
        exact absurd (by simp [behind]) free.2
    have later : Marker.protect r = r := Text.replaceAll_absent (by decide) _ fun inside => free.2 (inside.subset (by decide))
    rw [Text.pieces_plain unseen]
    exact ih free.2 later

-- What handing over makes of a slot.

theorem unsigned_closed {t : Text} (unsigned : '@' ∉ t) : ¬ ['@', '['] <:+: t := fun inside => unsigned (inside.subset (by simp))

theorem reads_construct {held : Text} (free : ']' ∉ held) : Reads ('@' :: '[' :: (held ++ [']'])) [.hit held] := by
  intro rest boundary
  have same : Marker.protect held = held := Text.replaceAll_absent (by decide) _ fun inside => free (inside.subset (by decide))
  have split : '@' :: '[' :: (held ++ [']']) ++ rest = '@' :: '[' :: (held ++ ']' :: rest) := by simp
  have construct := construct_pieces free (Marker.protect rest)
  unfold ArgsConstruct.pieces
  rw [split, Marker.protect_unlike (by decide), Marker.protect_unlike (by decide), Marker.protect_closing boundary, same]
  simpa using construct

theorem Slot.reads {w x : Text} (discreet : Discreet platform) (tame : Tame loud w) (slot : Slot platform w x) : ∃ ps, Reads x ps := by
  cases slot with
  | construct _ free => exact ⟨_, reads_construct free⟩
  | text _ alters =>
    have unsigned := text_loudless discreet tame alters (by decide : '@' ∈ loud)
    exact ⟨_, reads_plain (unsigned_closed unsigned)⟩

theorem slots_read {args slots : List Text} (discreet : Discreet platform) (tame : ∀ w ∈ args, Tame loud w)
    (each : List.Forall₂ (Slot platform) args slots) : ∀ x ∈ slots, ∃ ps, Reads x ps := by
  induction each with
  | nil => simp
  | cons slot _ ih =>
    obtain ⟨here, later⟩ := List.forall_mem_cons.mp tame
    exact List.forall_mem_cons.mpr ⟨slot.reads discreet here, ih later⟩

-- On a POSIX platform a word that does not mention the classpath stays one word.

def isInk (c : Char) : Bool := c ≠ '{' && c ≠ '}'

theorem ink_word (w : Text) : (word w).filter isInk = (rooted w).filter isInk := by
  rw [Suggestion.word_items, Suggestion.rooted_items]
  induction Suggestion.items w with
  | nil => rfl
  | cons item rest ih =>
    have here : item.write.filter isInk = item.read.filter isInk := by
      cases item with
      | plain t => rfl
      | rooted path => simp [Suggestion.Item.write, Suggestion.Item.read, Suggestion.braced, isInk]
      | colon => rfl
      | home => rfl
    rw [List.flatMap_cons, List.flatMap_cons, List.filter_append, List.filter_append, here, ih]

theorem rooted_ne_nil {w : Text} (filled : w ≠ []) : rooted w ≠ [] := by
  unfold Suggestion.rooted
  split
  · rename_i looks
    obtain ⟨first, second, rest, parts⟩ := Suggestion.looksLike_parts looks
    rw [parts, List.map_cons, List.map_cons, Text.join_cons (by simp)]
    simp
  split
  · exact filled
  · simp

theorem ink_clean {w : Text} (clean : Clean w) (absent : ¬ Marker.deps <:+: w) : ∀ c ∈ w, isInk c = true := by
  induction clean with
  | nil => simp
  | char opens closes _ ih =>
    exact List.forall_mem_cons.mpr ⟨by simp [isInk, opens, closes], ih fun inside => absent (List.infix_cons inside)⟩
  | @deps r _ _ => exact absurd (List.prefix_append Marker.deps r).isInfix absent

theorem posix_word {w t : Text} (posix : platform.isWindows = false) (tame : Tame loud w) (filled : w ≠ []) (solid : Token.Solid none w)
    (silent : mentionsDeps w = false) (alters : Alters platform.lost platform.gained (word w) t) : Token.read t = [.word t] := by
  have lost : platform.lost = ['{', '}'] := by simp [Platform.lost, posix]
  have gained : platform.gained = [] := by simp [Platform.gained, posix]
  have absent : ¬ Marker.deps <:+: w := fun inside => by
    rw [Suggestion.mentionsDeps_exact.mpr inside] at silent
    cases silent
  obtain ⟨u, k, split, rooting⟩ := Suggestion.rooted_inserted w
  have ink : ∀ c ∈ rooted w, isInk c = true := by
    intro c inside
    by_cases new : c ∈ ['.', '/']
    · exact (by decide : ∀ c ∈ ['.', '/'], isInk c = true) c new
    · have before : c ∈ u := List.count_pos_iff.mp (rooting.count new ▸ List.count_pos_iff.mpr inside)
      exact ink_clean tame.clean absent c (by rw [split]; exact List.mem_append_left _ before)
  -- Only braces are left besides the rooted word.
  have kept : t.filter isInk = rooted w := by
    rw [alters.filter (by rw [lost]; decide) (by rw [gained]; simp), ink_word, List.filter_eq_self.mpr ink]
  have shown : Inserted ['{', '}'] (rooted w) t := by
    rw [← kept]
    exact .of_filter (fun c out => by by_contra; simp_all [isInk]) t
  have whole : Token.Solid none t := by
    rw [split] at solid
    have front := Token.solid_inserted rooting (by decide) Token.quoting_none (Token.solid_front solid)
    exact Token.solid_inserted shown (by decide) Token.quoting_none front
  have some_ : t ≠ [] := by
    rintro rfl
    exact rooted_ne_nil filled kept.symm
  have lexes := lexes_word some_ whole (fun more => absurd rfl more) (trivial : Boundary []) .nil
  rw [List.append_nil] at lexes
  exact Token.read_of_lexes lexes

end PortableActions.CommandLine
