import PortableActions.Proofs.CommandLine.Slots
import PortableActions.Proofs.Invocation.Agreement
import PortableActions.Proofs.Template.Adjacency
import PortableActions.Proofs.Template.Printing
-- References to args files among the tokens of a command line. Nothing is quoted on the way, so
-- a reference is one word in the place of its argument exactly if its path can be read as one.
namespace PortableActions
open PortableActions.Template PortableActions.CommandLine
open PortableActions.Text (Alters)
open PortableActions.Template.Suggestion (Tame word mentionsDeps takesArgsFiles)

theorem bind_ok {ε σ α β : Type} {call : EStateM ε σ α} {next : α → EStateM ε σ β} {before after : σ} {answer : β}
    (ran : (call >>= next) before = .ok answer after) :
    ∃ first middle, call before = .ok first middle ∧ next first middle = .ok answer after := by
  cases called : call before with
  | ok first middle => exact ⟨first, middle, rfl, by simpa [bind, EStateM.bind, called] using ran⟩
  | error failure middle => simp [bind, EStateM.bind, called] at ran

namespace Host

-- What the path of a new file is spelled with.
def Spells (settings : Settings) (host : Host) (path : Text) : Prop :=
  ∀ c ∈ path, c = '/' ∨ c.isDigit = true ∨
    c ∈ host.directoryFor settings ∨ c ∈ settings.fileNameStart ∨ c ∈ settings.fileNameEnd

theorem Made.spells {settings : Settings} {before after : Host} {location : Location}
    (made : Made settings before location after) : before.Spells settings location.print := by
  intro c inside
  by_contra other
  simp only [not_or, Bool.not_eq_true] at other
  obtain ⟨slash, digit, place, start, ending⟩ := other
  exact made.quiet ⟨slash, digit⟩ place start ending inside

end Host

namespace ArgsFiles

-- Scopes with files made one after the other in between, at places where nothing stood.
structure Grows (settings : Settings) (before : ArgsFiles) (locations : List Location) (after : ArgsFiles) : Prop where
  record : after.record = before.record ++ locations
  here : after.host.here = before.host.here
  untouched : Untouched before.host.disk after.host.disk
  there : ∀ location ∈ locations, after.host.disk.lookup location ≠ none
  free : ∀ location ∈ locations, before.host.disk.lookup location = none
  distinct : locations.Nodup
  spelled : ∀ location ∈ locations, before.host.Spells settings location.print

theorem Grows.none_ (settings : Settings) (scope : ArgsFiles) : Grows settings scope [] scope :=
  ⟨by simp, rfl, .refl _, by simp, by simp, .nil, by simp⟩

theorem Grows.one {settings : Settings} {content : Text} {scope next : ArgsFiles} {location : Location}
    (created : create settings content scope = .ok location next) : Grows settings scope [location] next := by
  obtain ⟨record, here, untouched, holds⟩ := create_step created
  have added := (create_ok created).1
  obtain ⟨host, made, _⟩ := added.made
  obtain ⟨_, bytes, _, _, there⟩ := holds
  refine ⟨record, here, untouched, ?_, ?_, by simp, ?_⟩
  · exact List.forall_mem_singleton.mpr (by simp [there])
  · exact List.forall_mem_singleton.mpr added.free
  · exact List.forall_mem_singleton.mpr made.spells

theorem Grows.append {settings : Settings} {before middle after : ArgsFiles} {one two : List Location}
    (first : Grows settings before one middle) (second : Grows settings middle two after) :
    Grows settings before (one ++ two) after := by
  -- What stands already is not made again.
  have later : ∀ location ∈ two, before.host.disk.lookup location = none := by
    intro location among
    by_contra stood
    have still := first.untouched location stood
    rw [second.free location among] at still
    exact stood still.symm
  refine ⟨by rw [second.record, first.record, List.append_assoc], second.here.trans first.here,
    first.untouched.trans second.untouched, ?_, List.forall_mem_append.mpr ⟨first.free, later⟩, ?_, ?_⟩
  · refine List.forall_mem_append.mpr ⟨fun location among => ?_, second.there⟩
    have stood := first.there location among
    rwa [second.untouched location stood]
  · refine List.nodup_append.mpr ⟨first.distinct, second.distinct, ?_⟩
    rintro location left _ right rfl
    exact first.there location left (second.free location right)
  · refine List.forall_mem_append.mpr ⟨first.spelled, fun location among c inside => ?_⟩
    have spelled := second.spelled location among c inside
    rwa [Host.directoryFor_here first.here] at spelled

theorem createPath_ok {settings : Settings} {content path : Text} {scope next : ArgsFiles}
    (created : createPath settings content scope = .ok path next) :
    ∃ location, path = location.print ∧ Grows settings scope [location] next := by
  obtain ⟨location, middle, made, shown⟩ := bind_ok created
  cases shown
  exact ⟨location, rfl, .one made⟩

end ArgsFiles

namespace Invocation

-- What stands for an argument in a command line.
inductive Part where
  | reference (location : Location)
  | text (t : Text)
  deriving DecidableEq, Repr

namespace Part

def print : Part → Text
  | reference location => Invocation.reference location
  | text t => t

-- What it is to be read as: a reference as one word, and any other text as it reads by itself.
def tokens : Part → List Token
  | reference location => [.word (Invocation.reference location)]
  | text t => Token.read t

def location? : Part → Option Location
  | reference location => some location
  | text _ => none

end Part

-- Every reference can be read as one word, and closes its quotes unless it comes last.
def Standing : List Part → Prop
  | [] => True
  | .text _ :: rest => Standing rest
  | .reference location :: rest =>
    (Token.Solid none (reference location) ∧ (rest ≠ [] → Token.quoteAtEnd none (reference location) = none)) ∧ Standing rest

theorem read_reference {location : Location} {after : Text} {ts : List Token} (boundary : Boundary after) :
    Token.read (reference location ++ after) = .word (reference location) :: ts ↔
      (Token.Solid none (reference location) ∧ (after ≠ [] → Token.quoteAtEnd none (reference location) = none)) ∧
        Token.read after = ts :=
  Token.read_front (by decide : Token.isNeutral '@' = true) boundary

theorem standing_exact {parts : List Part} (closed : ∀ t, .text t ∈ parts → Token.quoteAtEnd none t = none) :
    Token.read (Text.unwords (parts.map Part.print)) = parts.flatMap Part.tokens ↔ Standing parts := by
  induction parts with
  | nil => exact iff_of_true Token.read_nil trivial
  | cons part rest ih =>
    have later := ih fun t among => closed t (List.mem_cons_of_mem _ among)
    by_cases last : rest = []
    · subst last
      cases part with
      | text t => simp [Standing, Text.unwords, Text.join, Part.print, Part.tokens]
      | reference location =>
        have empty : Boundary [] := trivial
        have alone := @read_reference location [] [] empty
        simpa [Standing, Text.unwords, Text.join, Part.print, Part.tokens, Token.read_nil] using alone
    · have more : rest.map Part.print ≠ [] := by simpa using last
      rw [List.map_cons, Text.unwords_cons more, List.flatMap_cons]
      cases part with
      | text t =>
        rw [Part.print, Part.tokens, Token.read_break (closed t (by simp)), List.append_cancel_left_eq, later]
        rfl
      | reference location =>
        rw [Part.print, Part.tokens, List.singleton_append, read_reference (boundary_blank _), Token.read_spaced, later]
        simp [Standing, last]

-- A path of neutral characters only needs no quotes.

theorem neutral_word {w : Text} (neutral : ∀ c ∈ w, Token.isNeutral c = true) :
    Token.Solid none w ∧ Token.quoteAtEnd none w = none := by
  have inserted : Inserted w [] w := by
    have front := Inserted.front (fun c inside => inside : ∀ c ∈ w, c ∈ w) (.nil : Inserted w [] [])
    rwa [List.append_nil] at front
  exact Suggestion.kept_inserted inserted neutral rfl

theorem neutral_digit {c : Char} (digit : c.isDigit = true) : Token.isNeutral c = true := by
  simp only [Char.isDigit, Bool.and_eq_true, decide_eq_true_eq] at digit
  have low : 48 ≤ c.toNat := digit.1
  have high : c.toNat ≤ 57 := digit.2
  have visible : Text.isBlank c = false := by
    simp only [Text.isBlank, Bool.or_eq_false_iff, Bool.and_eq_false_iff, decide_eq_false_iff_not, beq_eq_false_iff_ne]
    omega
  have other : ∀ d : Char, d.toNat < 48 ∨ 57 < d.toNat → c ≠ d := by
    rintro _ outside rfl
    omega
  simp only [Token.isNeutral, Token.isSingle, Token.isQuote, visible, Bool.false_or, Bool.not_eq_true', Bool.or_eq_false_iff,
    decide_eq_false_iff_not]
  refine ⟨⟨⟨⟨⟨?_, ?_⟩, ?_⟩, ?_⟩, ?_⟩, ?_, ?_⟩ <;> exact other _ (by decide)

theorem standing_neutral {parts : List Part}
    (neutral : ∀ location ∈ parts.filterMap Part.location?, ∀ c ∈ location.print, Token.isNeutral c = true) : Standing parts := by
  induction parts with
  | nil => trivial
  | cons part rest ih =>
    cases part with
    | text t => exact ih neutral
    | reference location =>
      have split : (Part.reference location :: rest).filterMap Part.location? = location :: rest.filterMap Part.location? := rfl
      rw [split] at neutral
      obtain ⟨here, later⟩ := List.forall_mem_cons.mp neutral
      have sign : ∀ c ∈ reference location, Token.isNeutral c = true := List.forall_mem_cons.mpr ⟨by decide, here⟩
      obtain ⟨solid, closed⟩ := neutral_word sign
      exact ⟨⟨solid, fun _ => closed⟩, ih later⟩

-- What a part is the part of.
def Serves (platform : Platform) (w : Text) : Part → Prop
  | .reference _ => mentionsDeps w = true
  | .text t => mentionsDeps w = false ∧ '@' ∉ t ∧ Alters platform.lost platform.gained (word w) t ∧
      (platform.isWindows = false → Token.read t = [.word t])

-- A word of a plain template.
structure PlainWord (w : Text) : Prop where
  filled : w ≠ []
  solid : Token.Solid none w
  tame : Tame loud w

theorem PlainWord.serves {platform : Platform} {w t : Text} (plain : PlainWord w) (discreet : Discreet platform)
    (silent : mentionsDeps w = false) (alters : Alters platform.lost platform.gained (word w) t) : Serves platform w (.text t) := by
  refine ⟨silent, text_loudless discreet plain.tame alters (by decide), alters, fun posix => ?_⟩
  exact posix_word posix plain.tame plain.filled plain.solid silent alters

-- One slot, and all of them.

theorem slot_delivered {settings : Settings} {platform : Platform} {w x shown : Text} {scope next : ArgsFiles} (plain : PlainWord w)
    (discreet : Discreet platform) (slot : Slot platform w x)
    (quiet : ∀ path, scope.host.Spells settings path → Marker.standIn ∉ path)
    (ran : ArgsConstruct.spill (ArgsFiles.createPath settings) x scope = .ok shown next) :
    ∃ part, shown = part.print ∧ Serves platform w part ∧
      ArgsFiles.Grows settings scope part.location?.toList next := by
  cases slot with
  | construct mentions free =>
    rw [(reads_construct free).spill_hit] at ran
    obtain ⟨path, middle, created, written⟩ := bind_ok ran
    obtain ⟨location, rfl, grows⟩ := ArgsFiles.createPath_ok created
    cases written
    have bare : Marker.standIn ∉ reference location := by
      simp only [reference, List.mem_cons, not_or]
      exact ⟨by decide, quiet _ (grows.spelled location (by simp))⟩
    refine ⟨.reference location, ArgsConstruct.unprotect_quiet bare, mentions, grows⟩
  | text silent alters =>
    have unsigned := text_loudless discreet plain.tame alters (by decide : '@' ∈ loud)
    have bell := text_loudless discreet plain.tame alters (by decide : Marker.standIn ∈ loud)
    rw [spill_plain bell (unsigned_closed unsigned)] at ran
    cases ran
    exact ⟨.text _, rfl, plain.serves discreet silent alters, .none_ settings _⟩

theorem slots_delivered {settings : Settings} {platform : Platform} {args slots shown : List Text} {scope after : ArgsFiles}
    (plain : ∀ w ∈ args, PlainWord w) (discreet : Discreet platform) (each : List.Forall₂ (Slot platform) args slots)
    (quiet : ∀ path, scope.host.Spells settings path → Marker.standIn ∉ path)
    (ran : slots.mapM (ArgsConstruct.spill (ArgsFiles.createPath settings)) scope = .ok shown after) :
    ∃ parts, shown = parts.map Part.print ∧ List.Forall₂ (Serves platform) args parts ∧
      ArgsFiles.Grows settings scope (parts.filterMap Part.location?) after := by
  induction each generalizing scope shown with
  | nil =>
    cases ran
    exact ⟨[], rfl, .nil, .none_ settings _⟩
  | @cons w x args slots slot _ ih =>
    obtain ⟨here, later⟩ := List.forall_mem_cons.mp plain
    rw [List.mapM_cons] at ran
    obtain ⟨first, middle, one, others⟩ := bind_ok ran
    obtain ⟨rest, last, many, done⟩ := bind_ok others
    cases done
    obtain ⟨part, rfl, serves, grows⟩ := slot_delivered here discreet slot quiet one
    have quietly : ∀ path, middle.host.Spells settings path → Marker.standIn ∉ path := by
      intro path spelled
      apply quiet path
      intro c inside
      have known := spelled c inside
      rwa [Host.directoryFor_here grows.here] at known
    obtain ⟨parts, rfl, all, more⟩ := ih later quietly many
    have whole := grows.append more
    refine ⟨part :: parts, rfl, .cons serves all, ?_⟩
    cases part <;> exact whole

theorem start_quiet {settings : Settings} {host : Host} (quiet : Marker.standIn ∉ host.directoryFor settings ∧
    Marker.standIn ∉ settings.fileNameStart ∧ Marker.standIn ∉ settings.fileNameEnd) :
    ∀ path, (ArgsFiles.start host).host.Spells settings path → Marker.standIn ∉ path := by
  obtain ⟨place, start, ending⟩ := quiet
  intro path spelled inside
  rcases spelled _ inside with slash | digit | here | here | here
  · cases slash
  · cases digit
  · exact place here
  · exact start here
  · exact ending here

-- Only what the classpath puts into the program can leave a quote open in front of a reference.

theorem loudless_closed {t : Text} (loudless : ∀ c ∈ loud, c ∉ t) : Token.quoteAtEnd none t = none := by
  induction t with
  | nil => rfl
  | cons c r ih =>
    have plain : Token.isQuote c = false := by
      unfold Token.isQuote
      rw [Bool.or_eq_false_iff, decide_eq_false_iff_not, decide_eq_false_iff_not]
      constructor
      · rintro rfl
        exact loudless '\'' (by decide) (by simp)
      · rintro rfl
        exact loudless '"' (by decide) (by simp)
    have step : Token.quoteAtEnd none (c :: r) = Token.quoteAtEnd (Token.quoteAfter none c) r := rfl
    rw [step, Token.quoteAfter_of_not_quote plain Token.quoting_none]
    exact ih fun q known inside => loudless q known (List.mem_cons_of_mem _ inside)

theorem served_closed {platform : Platform} {args : List Text} {parts : List Part} (discreet : Discreet platform)
    (plain : ∀ w ∈ args, PlainWord w) (served : List.Forall₂ (Serves platform) args parts) :
    ∀ t, .text t ∈ parts → Token.quoteAtEnd none t = none := by
  induction served with
  | nil => simp
  | cons serves _ ih =>
    obtain ⟨here, later⟩ := List.forall_mem_cons.mp plain
    intro t among
    rcases List.mem_cons.mp among with rfl | behind
    · obtain ⟨_, _, alters, _⟩ := serves
      exact loudless_closed fun c bad => text_loudless discreet here.tame alters bad
    · exact ih later t behind

theorem plainWords {template program : Text} {args : List Text} (command : PlainCommand template program args)
    (bracket : ']' ∉ template) : ∀ w ∈ program :: args, PlainWord w := by
  have tokens := (parse?_exact.mp command.parsed).1
  have readable := readable_of_lexes (Token.lexes_read template)
  rw [tokens] at readable
  intro w among
  have inside : .word w ∈ Node.tokensAll [.command program args] := by simpa [Node.tokensAll, Node.tokens] using among
  obtain ⟨filled, solid⟩ := (readable_iff.mp readable).1 w inside
  exact ⟨filled, solid, command.tame_loud bracket w among⟩

-- A command line that refers to its args files, each in the place of the argument it was made for.
structure Refers (settings : Settings) (host : Host) (platform : Platform) (classpath : Option Classpath) (program : Text)
    (args : List Text) (line : Text) (record : List Location) (front : Text) (parts : List Part) : Prop where
  written : line = Text.unwords (front :: parts.map Part.print)
  named : Alters platform.lost platform.gained (Classpath.substitute classpath platform (word program)) front
  unsigned : '@' ∉ front
  single : mentionsDeps program = false → platform.isWindows = false → Token.read front = [.word front]
  served : List.Forall₂ (Serves platform) args parts
  files : parts.filterMap Part.location? = record
  distinct : record.Nodup
  tokens : (mentionsDeps program = true → Token.quoteAtEnd none front = none) →
    (Token.read line = Token.read front ++ parts.flatMap Part.tokens ↔ Standing parts)
  neutral : (∀ c, c ∈ host.directoryFor settings ∨ c ∈ settings.fileNameStart ∨ c ∈ settings.fileNameEnd →
    Token.isNeutral c = true) → Standing parts

-- What was delivered for the slots of a plain command, behind its program.
theorem refers_delivered {settings : Settings} {host : Host} {platform : Platform} {classpath : Option Classpath}
    {program front : Text} {args : List Text} {parts : List Part} {scope : ArgsFiles} (discreet : Discreet platform)
    (plain : ∀ w ∈ program :: args, PlainWord w) (unsigned : '@' ∉ front)
    (named : Alters platform.lost platform.gained (Classpath.substitute classpath platform (word program)) front)
    (served : List.Forall₂ (Serves platform) args parts)
    (grows : ArgsFiles.Grows settings (.start host) (parts.filterMap Part.location?) scope) :
    Refers settings host platform classpath program args (Text.unwords (front :: parts.map Part.print)) scope.record front parts := by
  obtain ⟨first, others⟩ := List.forall_mem_cons.mp plain
  have files : scope.record = parts.filterMap Part.location? := grows.record
  have silently : mentionsDeps program = false → Alters platform.lost platform.gained (word program) front := by
    intro silent
    rwa [substitute_unmentioned ((word_mentions first.tame).trans silent)] at named
  constructor
  case written => rfl
  case named => exact named
  case unsigned => exact unsigned
  case served => exact served
  case files => exact files.symm
  case distinct =>
    rw [files]
    exact grows.distinct
  case single =>
    intro silent posix
    exact posix_word posix first.tame first.filled first.solid silent (silently silent)
  case tokens =>
    intro closed
    have closing : ∀ t, .text t ∈ Part.text front :: parts → Token.quoteAtEnd none t = none := by
      intro t among
      rcases List.mem_cons.mp among with same | later
      · cases same
        cases mentions : mentionsDeps program with
        | true => exact closed mentions
        | false =>
          -- Nothing is put into the program, so its quotes stay closed.
          exact loudless_closed fun c bad => text_loudless discreet first.tame (silently mentions) bad
      · exact served_closed discreet others served t later
    exact standing_exact closing
  case neutral =>
    intro neutral
    apply standing_neutral
    intro location among c inside
    rcases grows.spelled location among c inside with rfl | digit | here
    · decide
    · exact neutral_digit digit
    · exact neutral c here

-- The line of a tool that takes args files, and is still known when its own path has been rooted,
-- refers to one file for each argument that mentions the classpath. All references are words of
-- the line, in the places of these arguments, exactly if each of them can be read as one word and
-- those in front of others close their quotes. A program that is not known any more has no files.
theorem prepare_refers {settings : Settings} {host : Host} {platform : Platform} {classpath : Option Classpath}
    {template program line : Text} {args : List Text} {scope : ArgsFiles} (stock : platform.Stock)
    (home : platform.isWindows = true → ∀ c ∈ loud, c ∉ platform.home)
    (command : PlainCommand template program args) (unbracketed : ']' ∉ template)
    (entries : ∀ entry ∈ classpath.getD [], ']' ∉ entry.print)
    (inert : mentionsDeps program = true → ∀ entry ∈ classpath.getD [], ∀ c ∈ ['@', Marker.standIn], c ∉ entry.print)
    (quiet : Marker.standIn ∉ host.directoryFor settings ∧ Marker.standIn ∉ settings.fileNameStart ∧
      Marker.standIn ∉ settings.fileNameEnd)
    (long : platform.argsThreshold < ((CommandLine.inlined template classpath platform).length : Int))
    (ran : prepare settings template classpath platform (.start host) = .ok line scope) :
    (takesArgsFiles (word program) = false → scope.record = []) ∧
      (takesArgsFiles (word program) = true →
        ∃ front parts, Refers settings host platform classpath program args line scope.record front parts) := by
  have discreet := discreet_home home
  have bracket := joinedOn_free stock (by decide) entries
  rw [prepare_long settings long] at ran
  constructor
  · intro other
    have none_ := contents_bracketless (expand_bracketless stock discreet command unbracketed bracket other)
    obtain ⟨answers, calls⟩ := ArgsConstruct.spill_ok ran
    have recorded := ArgsFiles.calls_recorded calls
    rw [none_] at recorded
    exact List.length_eq_zero_iff.mp recorded
  · intro tool
    have plain := plainWords command unbracketed
    obtain ⟨first, others⟩ := List.forall_mem_cons.mp plain
    obtain ⟨front, slots, expanded, named, each⟩ := expand_slots stock discreet command unbracketed bracket tool
    have absent : ∀ c ∈ ['@', Marker.standIn], c ∉ front := by
      intro c known
      apply program_loudless discreet first.tame named ((by decide : ['@', Marker.standIn] ⊆ loud) known)
      intro mentions
      have outside : c ∉ [':', ';'] := (by decide : ∀ d ∈ ['@', Marker.standIn], d ∉ [':', ';']) c known
      exact joinedOn_free stock outside fun entry among => inert mentions entry among c known
    have unsigned := absent '@' (by simp)
    have bell := absent Marker.standIn (by simp)
    have alone : ∀ part ∈ front :: slots, ∃ ps, Reads part ps := by
      refine List.forall_mem_cons.mpr ⟨⟨_, reads_plain (unsigned_closed unsigned)⟩, ?_⟩
      exact slots_read discreet (fun w among => (others w among).tame) each
    rw [expanded, spill_unwords alone, List.mapM_cons, spill_plain bell (unsigned_closed unsigned), pure_bind, bind_assoc] at ran
    obtain ⟨shown, middle, delivered, done⟩ := bind_ok ran
    cases done
    obtain ⟨parts, rfl, served, grows⟩ := slots_delivered others discreet each (start_quiet quiet) delivered
    exact ⟨front, parts, refers_delivered discreet plain unsigned named served grows⟩

-- A run that succeeds, as far as its line and its files go.

def given : EStateM.Result Failure ArgsFiles Text → Option (Text × List Location)
  | .ok line scope => some (line, scope.record)
  | .error _ _ => none

theorem given_some {result : EStateM.Result Failure ArgsFiles Text} {line : Text} {record : List Location}
    (shown : given result = some (line, record)) : ∃ scope, result = .ok line scope ∧ scope.record = record := by
  cases result with
  | ok line' scope =>
    cases shown
    exact ⟨scope, rfl, rfl⟩
  | error => cases shown

def mentionsOnce : Text := "java -cp {{deps}} Main".toList

def inTmp (name : String) : Location := ["tmp".toList, name.toList]

theorem plain_mentionsOnce : PlainCommand mentionsOnce "java".toList ["-cp".toList, "{{deps}}".toList, "Main".toList] := by
  constructor <;> decide +kernel

theorem prepare_refers_java :
    ∃ line scope, prepare {} mentionsOnce oneJar (standard [] 0) (.start scopeInTmp.host) = .ok line scope ∧
      scope.record = [inTmp "actionrunner-args-00000001.txt"] ∧
      (∃ front parts, Refers {} scopeInTmp.host (standard [] 0) oneJar "java".toList ["-cp".toList, "{{deps}}".toList, "Main".toList]
        line scope.record front parts) ∧
      Token.read line = [.word "java".toList, .word "-cp".toList,
        .word (reference (inTmp "actionrunner-args-00000001.txt")), .word "Main".toList] := by
  have shown : given (prepare {} mentionsOnce oneJar (standard [] 0) (.start scopeInTmp.host)) =
      some ("java -cp @/tmp/actionrunner-args-00000001.txt Main".toList, [inTmp "actionrunner-args-00000001.txt"]) := by
    decide +kernel
  obtain ⟨scope, ran, record⟩ := given_some shown
  have entries : ∀ entry ∈ oneJar.getD [], ']' ∉ entry.print := by decide
  have long : (standard [] 0).argsThreshold < ((CommandLine.inlined mentionsOnce oneJar (standard [] 0)).length : Int) := by
    decide +kernel
  have parts := prepare_refers (Platform.stock_standard [] 0).1 (fun windows => by cases windows) plain_mentionsOnce (by decide)
    entries (fun mentions => absurd mentions (by decide)) (by decide) long ran
  exact ⟨_, scope, ran, record, parts.2 (by decide +kernel), by decide +kernel⟩

-- Nothing quotes a path with a blank in it.
theorem prepare_refers_blank :
    ∃ line scope, prepare { fileNameStart := "a b-".toList } mentionsOnce oneJar (standard [] 0) (.start scopeInTmp.host) = .ok line scope ∧
      scope.record = [inTmp "a b-00000001.txt"] ∧ .word (reference (inTmp "a b-00000001.txt")) ∉ Token.read line := by
  have shown : given (prepare { fileNameStart := "a b-".toList } mentionsOnce oneJar (standard [] 0) (.start scopeInTmp.host)) =
      some ("java -cp @/tmp/a b-00000001.txt Main".toList, [inTmp "a b-00000001.txt"]) := by
    decide +kernel
  obtain ⟨scope, ran, record⟩ := given_some shown
  exact ⟨_, scope, ran, record, by decide +kernel⟩

end Invocation
end PortableActions
