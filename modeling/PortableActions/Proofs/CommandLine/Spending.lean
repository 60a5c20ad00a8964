import PortableActions.Proofs.CommandLine.Stages
import PortableActions.Proofs.CommandLine.WordGlyphs
-- Every marker that a stage replaces costs the command line a closing brace, and none is
-- ever made. A text that keeps all its closing braces has been left alone by all stages.
namespace PortableActions.CommandLine
open PortableActions.Template
open PortableActions.Template.Suggestion (Led)

def closes (t : Text) : Nat := t.count '}'

theorem closes_append (a b : Text) : closes (a ++ b) = closes a + closes b := List.count_append

-- A pattern that takes more closing braces than are written for it.
def Costs (pattern : Text.Pattern) (render : Text → Text) : Prop :=
  ∀ t found, pattern t = some found → 0 < found.size ∧ closes (render found.held) < closes (t.take found.size)

theorem spends {pattern : Text.Pattern} {render : Text → Text} (sized : Text.Sized pattern) (costs : Costs pattern render)
    (t : Text) : Text.occurs pattern t = false ∨ closes (Text.replace pattern render t) < closes t := by
  have each : ∀ front rest held, pattern (front ++ rest) = some ⟨held, front.length⟩ →
      ((render held).count '}' : Int) + 1 ≤ front.count '}' := by
    intro front rest held seen
    have fewer : closes (render held) < closes ((front ++ rest).take front.length) := (costs _ _ seen).2
    rw [List.take_left, closes, closes] at fewer
    omega
  have lost := Text.measure_le (Text.additive_count '}') sized each t
  cases found : Text.occurs pattern t with
  | false => exact .inl rfl
  | true =>
    have met := (Text.hits_pos sized).mpr found
    refine .inr ?_
    rw [closes, closes]
    omega

-- A stage that leaves a text alone where it is quiet, and costs it a closing brace elsewhere.
def Thrifty (quiet : Text → Prop) (stage : Text → Text) : Prop :=
  ∀ t, (quiet t ∧ stage t = t) ∨ closes (stage t) < closes t

theorem thrifty_replace {pattern : Text.Pattern} {render : Text → Text} (sized : Text.Sized pattern)
    (costs : Costs pattern render) : Thrifty (fun t => Text.occurs pattern t = false) (Text.replace pattern render) := by
  intro t
  rcases spends sized costs t with absent | fewer
  · exact .inl ⟨absent, Text.replace_of_not_occurs render absent⟩
  · exact .inr fewer

theorem Thrifty.comp {one two : Text → Prop} {stage later : Text → Text} (first : Thrifty one stage)
    (second : Thrifty two later) : Thrifty (fun t => one t ∧ two t) (later ∘ stage) := by
  intro t
  simp only [Function.comp_apply]
  rcases first t with ⟨quiet, same⟩ | fewer
  · rw [same]
    rcases second t with ⟨still, kept⟩ | fewer
    · exact .inl ⟨⟨quiet, still⟩, kept⟩
    · exact .inr fewer
  · rcases second (stage t) with ⟨_, kept⟩ | less
    · exact .inr (by rwa [kept])
    · exact .inr (Nat.lt_trans less fewer)

theorem paths_cost : Costs Marker.bracedPath (fun held => held) := by
  intro t found seen
  obtain ⟨root, body, rest, isRoot, absent, rfl, rfl⟩ := Marker.bracedPath_parts seen
  have apart : root ≠ '}' := by rintro rfl; cases isRoot
  have front : ('{' :: root :: '/' :: (body ++ '}' :: rest)).take (body.length + 4) = '{' :: root :: '/' :: (body ++ ['}']) := by
    simp [List.take_append, List.take_of_length_le]
  refine ⟨by simp, ?_⟩
  rw [front]
  simp [closes, List.count_eq_zero.mpr absent, apart]

theorem symbol_cost {k n : Char} (other : n ≠ '}') : Costs (Text.literal ['{', k, '}']) (fun _ => [n]) := by
  intro t found seen
  obtain ⟨rfl, _, rest, rfl⟩ := Text.literal_some seen
  refine ⟨by simp, ?_⟩
  rw [List.take_left]
  simp [closes, other]

-- No stage finds anything to replace.
structure Untouched (t : Text) : Prop where
  paths : Text.occurs Marker.bracedPath t = false
  symbols : ∀ k ∈ ['/', ':', '~', ';', ']'], Text.occurs (Text.literal ['{', k, '}']) t = false

theorem Untouched.pathsPlaced {t : Text} (untouched : Untouched t) : pathsPlaced t = t :=
  Text.replace_of_not_occurs _ untouched.paths

theorem settleAll_quiet {t : Text} (quiet : ∀ k ∈ ['/', ':', '~', ';'], Text.mentions ['{', k, '}'] t = false) :
    settleAll t = t := by
  have still : ∀ k ∈ ['/', ':', '~', ';'], ∀ new, Text.replaceAll ['{', k, '}'] new t = t :=
    fun k among new => Text.replace_of_not_occurs _ (quiet k among)
  rw [settleAll, Marker.fileSeparator, Marker.pathSeparator, Marker.home, Marker.commandSeparator, still '/' (by simp),
    still ':' (by simp), still '~' (by simp), still ';' (by simp)]

theorem Untouched.hidden {t : Text} (untouched : Untouched t) : hidden t = t := by
  have settled : settleAll t = t := settleAll_quiet fun k among => untouched.symbols k (List.mem_append_left [']'] among)
  rw [CommandLine.hidden, settled]
  exact Text.replace_of_not_occurs _ (untouched.symbols ']' (by simp))

-- The stages for symbols.

theorem symbol_thrifty (k : Char) {n : Char} (other : n ≠ '}') :
    Thrifty (fun t => Text.occurs (Text.literal ['{', k, '}']) t = false) (Text.replaceAll ['{', k, '}'] [n]) :=
  thrifty_replace (Text.literal_sized _) (symbol_cost other)

theorem settleAll_thrifty :
    Thrifty (fun t => ∀ k ∈ ['/', ':', '~', ';'], Text.occurs (Text.literal ['{', k, '}']) t = false) settleAll := by
  have stages := (((symbol_thrifty '/' (by decide : '/' ≠ '}')).comp (symbol_thrifty ':' (by decide : ':' ≠ '}'))).comp
    (symbol_thrifty '~' (by decide : '~' ≠ '}'))).comp (symbol_thrifty ';' (by decide : ';' ≠ '}'))
  intro t
  have shown : settleAll t = (Text.replaceAll ['{', ';', '}'] [';'] ∘ Text.replaceAll ['{', '~', '}'] ['~'] ∘
      Text.replaceAll ['{', ':', '}'] [':'] ∘ Text.replaceAll ['{', '/', '}'] ['/']) t := by
    simp only [settleAll, Marker.fileSeparator, Marker.pathSeparator, Marker.home, Marker.commandSeparator, Function.comp_apply]
  rcases stages t with ⟨⟨⟨⟨slash, colon⟩, tilde⟩, semicolon⟩, same⟩ | fewer
  · refine .inl ⟨?_, shown.trans same⟩
    simp only [List.forall_mem_cons]
    exact ⟨slash, colon, tilde, semicolon, by simp⟩
  · exact .inr (by rw [shown]; exact fewer)

theorem hidden_thrifty :
    Thrifty (fun t => ∀ k ∈ ['/', ':', '~', ';', ']'], Text.occurs (Text.literal ['{', k, '}']) t = false) hidden := by
  intro t
  have shown : hidden t = (Text.replaceAll ['{', ']', '}'] [Marker.standIn] ∘ settleAll) t := by
    simp only [hidden, Marker.protect, Marker.escapedBracket, Function.comp_apply]
  rw [shown]
  rcases (settleAll_thrifty.comp (symbol_thrifty ']' (by decide : Marker.standIn ≠ '}'))) t with ⟨⟨others, bracket⟩, same⟩ | fewer
  · refine .inl ⟨?_, same⟩
    simp only [List.forall_mem_cons] at others ⊢
    obtain ⟨slash, colon, tilde, semicolon, none_⟩ := others
    exact ⟨slash, colon, tilde, semicolon, bracket, none_⟩
  · exact .inr fewer

theorem paths_thrifty : Thrifty (fun t => Text.occurs Marker.bracedPath t = false) pathsPlaced :=
  thrifty_replace Marker.bracedPath_sized paths_cost

-- All stages together leave a text alone or cost it a closing brace.
theorem hidden_spends (t : Text) : Untouched t ∨ closes (hidden (pathsPlaced t)) < closes t := by
  rcases (paths_thrifty.comp hidden_thrifty) t with ⟨⟨paths, symbols⟩, _⟩ | fewer
  · exact .inl ⟨paths, symbols⟩
  · rw [Function.comp_apply] at fewer
    exact .inr fewer

theorem untouched_of_closeless {t : Text} (closeless : '}' ∉ t) : Untouched t := by
  have none_ : closes t = 0 := List.count_eq_zero.mpr closeless
  rcases hidden_spends t with untouched | fewer
  · exact untouched
  · omega

-- What is handed over has no more closing braces than the command line.

theorem closes_content (held : Text) : closes (ArgsConstruct.content held) = closes held :=
  count_content held rfl (by decide)

theorem closes_contents (t : Text) :
    closes (ArgsConstruct.contentsOf (Text.pieces Marker.argsConstruct t)).flatten ≤ closes t := by
  induction t using Text.scan_induction Marker.argsConstruct_sized with
  | nil => exact Nat.le_refl 0
  | plain c r unseen ih =>
    have front : closes (c :: r) = closes [c] + closes r := closes_append [c] r
    rw [Text.pieces_plain unseen, ArgsConstruct.contentsOf, front]
    omega
  | hit front rest held seen split ih =>
    have inside : closes front = closes held := by
      rw [(Marker.argsConstruct_front seen).1]
      simp [closes]
    rw [split, ArgsConstruct.contentsOf, List.flatten_cons, closes_append, closes_append, closes_content, inside]
    omega

theorem closes_handed {t held : Text}
    (handed : ArgsConstruct.contentsOf (Text.pieces Marker.argsConstruct t) = [Text.trim held]) : closes held ≤ closes t := by
  have given := closes_contents t
  have kept : closes (Text.trim held) = closes held := Text.count_trim held rfl
  rwa [handed, List.flatten_cons, List.flatten_nil, List.append_nil, kept] at given

-- Neither have the stages behind a front part that is already placed.
theorem tail_untouched {front tail held : Text} (handed : ArgsConstruct.contentsOf (Text.pieces Marker.argsConstruct
    (hidden (front ++ pathsPlaced tail))) = [Text.trim held]) (most : closes front + closes tail ≤ closes held) :
    hidden (front ++ pathsPlaced tail) = front ++ tail := by
  have kept := closes_handed handed
  have whole := closes_append front (pathsPlaced tail)
  rcases hidden_thrifty (front ++ pathsPlaced tail) with ⟨_, same⟩ | fewer
  · rw [same] at kept ⊢
    rcases paths_thrifty tail with ⟨_, left⟩ | fewer
    · rw [left]
    · omega
  · rcases paths_thrifty tail with ⟨_, left⟩ | less
    · rw [left] at fewer whole kept
      omega
    · omega

-- If a single text with all closing braces is handed over, no stage has found anything.
theorem untouched_of_handed {t held : Text} (handed : ArgsConstruct.contents (settleAll (pathsPlaced t)) = [Text.trim held])
    (most : closes t ≤ closes held) : Untouched t := by
  have kept : closes held ≤ closes (hidden (pathsPlaced t)) := closes_handed handed
  rcases hidden_spends t with untouched | fewer
  · exact untouched
  · omega

end PortableActions.CommandLine
