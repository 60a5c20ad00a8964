import Mathlib.Logic.Function.Basic
import PortableActions.Proofs.CommandLine.NativeWords
-- The one-character markers, replaced one after the other and all at once. The two differ where
-- what was put in for one marker stands between braces of the text and makes another marker with
-- them. No POSIX separator can do that; the path separator of Windows is the character of another
-- marker, and does.
namespace PortableActions.CommandLine
open PortableActions.Template

def marked (k : Char) : Text := ['{', k, '}']

-- Any of the four markers, by its character.
def anySymbol : Text.Pattern
  | '{' :: k :: '}' :: _ => if Marker.isSymbol k then some ⟨[k], 3⟩ else none
  | _ => none

-- One pass from left to right, in which each marker is written as a table says. What is put in
-- is not read again.
def renderSymbols (shown : Char → Text) (t : Text) : Text := Text.replace anySymbol (fun held => held.flatMap shown) t

variable {shown : Char → Text} {k : Char} {new : Text}

theorem anySymbol_unlike {c : Char} (r : Text) (other : c ≠ '{') : anySymbol (c :: r) = none := by
  unfold anySymbol
  split
  · rename_i same
    exact absurd (List.cons.inj same).1 other
  · rfl

theorem anySymbol_marked (known : Marker.isSymbol k = true) (rest : Text) : anySymbol (marked k ++ rest) = some ⟨[k], 3⟩ :=
  if_pos known

theorem anySymbol_parts {t : Text} {found : Text.Hit} (seen : anySymbol t = some found) :
    ∃ k rest, Marker.isSymbol k = true ∧ t = marked k ++ rest ∧ found = ⟨[k], 3⟩ := by
  unfold anySymbol at seen
  split at seen
  · rename_i k rest
    split at seen
    · rename_i known
      exact ⟨k, rest, known, rfl, (Option.some.inj seen).symm⟩
    · cases seen
  · cases seen

theorem anySymbol_sized : Text.Sized anySymbol := by
  intro t found seen
  obtain ⟨k, rest, _, rfl, rfl⟩ := anySymbol_parts seen
  simp [marked]

-- A text as the pass reads it: one character after the other, or a marker at once.
@[elab_as_elim]
theorem symbols_induction {motive : Text → Prop} (nil : motive [])
    (plain : ∀ c r, anySymbol (c :: r) = none → motive r → motive (c :: r))
    (marker : ∀ c rest, Marker.isSymbol c = true → motive rest → motive (marked c ++ rest)) (t : Text) : motive t := by
  induction t using Text.scan_induction anySymbol_sized with
  | nil => exact nil
  | plain c r unseen ih => exact plain c r unseen ih
  | hit front rest held seen _ ih =>
    obtain ⟨c, behind, known, split, same⟩ := anySymbol_parts seen
    injection same with _ size
    have whole : front = marked c := List.append_inj_left split size
    exact whole ▸ marker c rest known ih

theorem renderSymbols_plain {c : Char} {r : Text} (unseen : anySymbol (c :: r) = none) :
    renderSymbols shown (c :: r) = c :: renderSymbols shown r := Text.replace_plain unseen

theorem renderSymbols_passes {t : Text} (opens : '{' ∉ t) : Text.Passes (renderSymbols shown) t t :=
  Text.passes_absent (fun _ r => anySymbol_unlike r) opens

theorem renderSymbols_marker {c : Char} (known : Marker.isSymbol c = true) :
    Text.Passes (renderSymbols shown) (marked c) (shown c) := by
  have passes : Text.Passes (renderSymbols shown) (marked c) ([c].flatMap shown) :=
    Text.passes_hit _ (by simp [marked]) (anySymbol_marked known)
  rwa [List.flatMap_singleton] at passes

-- Every marker written as it is.
theorem renderSymbols_same (t : Text) : renderSymbols marked t = t := by
  induction t using symbols_induction with
  | nil => rfl
  | plain c r unseen ih => rw [renderSymbols_plain unseen, ih]
  | marker c rest known ih => rw [renderSymbols_marker known rest, ih]

-- A stretch that is written without an opening brace holds no beginning of a marker.
theorem renderSymbols_closed {m : Text} (opens : '{' ∉ renderSymbols shown m) :
    Text.Passes (renderSymbols shown) m (renderSymbols shown m) := by
  induction m using symbols_induction with
  | nil => exact .nil
  | plain c r unseen ih =>
    rw [renderSymbols_plain unseen] at opens ⊢
    simp only [List.mem_cons, not_or] at opens
    have first : Text.Passes (renderSymbols shown) [c] [c] := renderSymbols_passes (by simp [opens.1])
    exact first.append (ih opens.2)
  | marker c rest known ih =>
    rw [renderSymbols_marker known rest] at opens ⊢
    simp only [List.mem_append, not_or] at opens
    exact (renderSymbols_marker known).append (ih opens.2)

def Braceless (t : Text) : Prop := '{' ∉ t ∧ '}' ∉ t

-- A table that leaves a marker as it is, or puts text without braces in its place.
def Clear (shown : Char → Text) : Prop := ∀ c, shown c = marked c ∨ Braceless (shown c)

theorem Clear.update (clear : Clear shown) (new_ : Braceless new) : Clear (Function.update shown k new) := by
  intro c
  by_cases same : c = k
  · subst c
    rw [Function.update_self]
    exact .inr new_
  · rw [Function.update_of_ne same]
    exact clear c

-- What stands in front of the first closing brace was written on its own.
theorem renderSymbols_front (clear : Clear shown) {r y z : Text} (braceless : Braceless y)
    (written : renderSymbols shown r = y ++ '}' :: z) : ∃ m rest, r = m ++ '}' :: rest ∧ renderSymbols shown m = y := by
  induction r using symbols_induction generalizing y with
  | nil => exact absurd written.symm (by simp [renderSymbols, Text.replace, Text.pieces, Text.piecesAfter, Text.write])
  | plain c r unseen ih =>
    rw [renderSymbols_plain unseen] at written
    cases y with
    | nil => exact ⟨[], r, by rw [(List.cons.inj written).1]; rfl, rfl⟩
    | cons d y =>
      obtain ⟨rfl, later⟩ := List.cons.inj written
      simp only [Braceless, List.mem_cons, not_or] at braceless
      obtain ⟨⟨opens, free⟩, _, closes⟩ := braceless
      obtain ⟨m, rest, split, shown_⟩ := ih ⟨free, closes⟩ later
      refine ⟨c :: m, rest, by rw [split]; rfl, ?_⟩
      rw [renderSymbols_plain (anySymbol_unlike m (Ne.symm opens)), shown_]
  | marker c rest known ih =>
    rw [renderSymbols_marker known rest] at written
    -- A marker that is kept opens with a brace, which the text before the closing one is free
    -- of. What any other one is turned into lies before that brace, for it does not hold one.
    rcases clear c with kept | ⟨_, closes⟩
    · rw [kept] at written
      cases y with
      | nil => cases (List.cons.inj written).1
      | cons d y => exact absurd (by simp [← (List.cons.inj written).1]) braceless.1
    · rcases List.append_eq_append_iff.mp written with ⟨more, front, later⟩ | ⟨more, front, later⟩
      · subst front
        simp only [Braceless, List.mem_append, not_or] at braceless
        obtain ⟨m, behind, split, shown_⟩ := ih ⟨braceless.1.2, braceless.2.2⟩ later
        refine ⟨marked c ++ m, behind, by rw [split, List.append_assoc], ?_⟩
        rw [renderSymbols_marker known m, shown_]
      · cases more with
        | nil =>
          rw [List.append_nil] at front
          obtain ⟨m, behind, split, shown_⟩ := ih (y := []) ⟨by simp, by simp⟩ later.symm
          refine ⟨marked c ++ m, behind, by rw [split, List.append_assoc], ?_⟩
          rw [renderSymbols_marker known m, shown_, List.append_nil, front]
        | cons d more =>
          rw [front, (List.cons.inj later).1.symm] at closes
          simp at closes

-- A stretch between braces of which nothing but the character is left, though it is not the
-- character: with these braces it makes a marker that the text does not have.
def Forges (shown : Char → Text) (k : Char) (t : Text) : Prop :=
  ∃ m, m ≠ [k] ∧ renderSymbols shown m = [k] ∧ '{' :: (m ++ ['}']) <:+: t

theorem symbol_braceless (known : Marker.isSymbol k = true) : Braceless [k] := by
  constructor <;> (intro inside; rw [← List.mem_singleton.mp inside] at known; cases known)

theorem forges_plain (clear : Clear shown) (known : Marker.isSymbol k = true) {c : Char} {r : Text}
    (unseen : anySymbol (c :: r) = none) :
    Forges shown k (c :: r) ↔ marked k <+: c :: renderSymbols shown r ∨ Forges shown k r := by
  constructor
  · rintro ⟨m, other, single, inside⟩
    rcases List.infix_cons_iff.mp inside with ⟨behind, here⟩ | later
    · obtain ⟨rfl, rest⟩ := List.cons.inj here
      have closed : Text.Passes (renderSymbols shown) m (renderSymbols shown m) :=
        renderSymbols_closed (by rw [single]; exact (symbol_braceless known).1)
      have closing : Text.Passes (renderSymbols shown) ['}'] ['}'] := renderSymbols_passes (by simp)
      have written : renderSymbols shown r = renderSymbols shown m ++ ['}'] ++ renderSymbols shown behind :=
        rest ▸ closed.append closing behind
      rw [written, single]
      exact .inl ⟨renderSymbols shown behind, rfl⟩
    · exact .inr ⟨m, other, single, later⟩
  · rintro (⟨z, leads⟩ | ⟨m, other, single, later⟩)
    · obtain ⟨rfl, written⟩ := List.cons.inj leads
      obtain ⟨m, rest, rfl, single⟩ := renderSymbols_front clear (symbol_braceless known) written.symm
      refine ⟨m, ?_, single, ⟨[], rest, by simp⟩⟩
      rintro rfl
      have seen := anySymbol_marked known rest
      rw [marked, List.cons_append] at seen
      rw [List.singleton_append] at unseen
      cases unseen.symm.trans seen
    · exact ⟨m, other, single, List.infix_cons later⟩

theorem forges_marker {c : Char} (known : Marker.isSymbol c = true) {rest : Text} :
    Forges shown k (marked c ++ rest) ↔ Forges shown k rest := by
  obtain ⟨opens, closes⟩ := symbol_braceless known
  simp only [List.mem_singleton] at opens closes
  constructor
  · rintro ⟨m, other, single, inside⟩
    refine ⟨m, other, single, ?_⟩
    have behind : '{' :: (m ++ ['}']) <:+: '}' :: rest ↔ '{' :: (m ++ ['}']) <:+: rest := Text.infix_cons (by decide)
    have inner : '{' :: (m ++ ['}']) <:+: c :: '}' :: rest ↔ '{' :: (m ++ ['}']) <:+: '}' :: rest := Text.infix_cons (Ne.symm opens)
    rcases List.infix_cons_iff.mp inside with ⟨more, here⟩ | later
    · -- The stretch would be the character of the marker, or reach over its closing brace.
      have first : m ++ ['}'] ++ more = c :: '}' :: rest := (List.cons.inj here).2
      cases m with
      | nil => exact absurd (List.cons.inj first).1 closes
      | cons d m =>
        obtain ⟨rfl, second⟩ := List.cons.inj first
        rw [renderSymbols_plain (anySymbol_unlike m (Ne.symm opens))] at single
        obtain ⟨rfl, empty⟩ := List.cons.inj single
        cases m with
        | nil => exact absurd rfl other
        | cons e m =>
          obtain ⟨rfl, _⟩ := List.cons.inj second
          rw [renderSymbols_plain (anySymbol_unlike m (by decide))] at empty
          cases empty
    · exact behind.mp (inner.mp later)
  · rintro ⟨m, other, single, inside⟩
    exact ⟨m, other, single, inside.trans (List.suffix_append _ _).isInfix⟩

-- One replacement passes over what the ones before it have written.
theorem replaceAll_shown (clear : Clear shown) (later : shown k = marked k) {c : Char} (known : Marker.isSymbol c = true) :
    Text.Passes (Text.replaceAll (marked k) new) (shown c) (Function.update shown k new c) := by
  by_cases same : c = k
  · subst c
    rw [Function.update_self, later]
    exact fun rest => Text.replaceAll_hit (by simp [marked]) new rest
  · rw [Function.update_of_ne same]
    rcases clear c with kept | ⟨opens, _⟩
    · rw [kept]
      exact replaceAll_other same (by simpa using (symbol_braceless known).1) new
    · exact Text.passes_absent (fun _ r => Text.literal_unlike _ r) opens

-- As long as no marker is forged, a replacement writes the next entry of the table.
theorem replaceAll_unforged (clear : Clear shown) (known : Marker.isSymbol k = true) (later : shown k = marked k) (new : Text)
    {t : Text} (free : ¬ Forges shown k t) :
    Text.replaceAll (marked k) new (renderSymbols shown t) = renderSymbols (Function.update shown k new) t := by
  induction t using symbols_induction with
  | nil => rfl
  | plain c r unseen ih =>
    rw [forges_plain clear known unseen, not_or] at free
    have absent := (Text.literal_none (show marked k ≠ [] by simp [marked])).mpr free.1
    rw [renderSymbols_plain unseen, renderSymbols_plain unseen, Text.replaceAll_plain absent, ih free.2]
  | marker c rest symbol ih =>
    rw [forges_marker symbol] at free
    rw [renderSymbols_marker symbol rest, renderSymbols_marker symbol rest, replaceAll_shown clear later symbol, ih free]

-- A forged marker is replaced too, and its opening brace is gone.
theorem unforged_of_same (clear : Clear shown) (known : Marker.isSymbol k = true) (later : shown k = marked k) {d : Char} {more t : Text}
    (other : d ≠ '{')
    (same : Text.replaceAll (marked k) (d :: more) (renderSymbols shown t) = renderSymbols (Function.update shown k (d :: more)) t) :
    ¬ Forges shown k t := by
  induction t using symbols_induction with
  | nil =>
    rintro ⟨m, _, _, inside⟩
    cases List.infix_nil.mp inside
  | plain c r unseen ih =>
    rw [renderSymbols_plain unseen, renderSymbols_plain unseen] at same
    by_cases leads : marked k <+: c :: renderSymbols shown r
    · obtain ⟨z, leads⟩ := leads
      rw [← leads, Text.replaceAll_hit (by simp [marked])] at same
      have first : d = c := (List.cons.inj same).1
      exact absurd (first.trans (List.cons.inj leads).1.symm) other
    · have absent := (Text.literal_none (show marked k ≠ [] by simp [marked])).mpr leads
      rw [Text.replaceAll_plain absent] at same
      rw [forges_plain clear known unseen, or_iff_right leads]
      exact ih (List.cons.inj same).2
  | marker c rest symbol ih =>
    rw [renderSymbols_marker symbol rest, renderSymbols_marker symbol rest, replaceAll_shown clear later symbol] at same
    rw [forges_marker symbol]
    exact ih (List.append_cancel_left same)

-- Tables that write something for every marker.

theorem eq_nil_of_renderSymbols (filled : ∀ c, shown c ≠ []) {m : Text} (empty : renderSymbols shown m = []) : m = [] := by
  induction m using symbols_induction with
  | nil => rfl
  | plain c r unseen ih =>
    rw [renderSymbols_plain unseen] at empty
    cases empty
  | marker c rest known ih =>
    rw [renderSymbols_marker known rest] at empty
    exact absurd (List.append_eq_nil_iff.mp empty).1 (filled c)

theorem renderSymbols_lone (filled : ∀ c, shown c ≠ []) (opens : k ≠ '{') {m : Text} :
    renderSymbols shown m = [k] ↔ m = [k] ∨ ∃ c, Marker.isSymbol c = true ∧ shown c = [k] ∧ m = marked c := by
  constructor
  · intro single
    cases m using symbols_induction with
    | nil => cases single
    | plain c r unseen =>
      rw [renderSymbols_plain unseen] at single
      obtain ⟨rfl, empty⟩ := List.cons.inj single
      exact .inl (by rw [eq_nil_of_renderSymbols filled empty])
    | marker c rest known =>
      rw [renderSymbols_marker known rest] at single
      rcases List.append_eq_singleton_iff.mp single with ⟨nothing, _⟩ | ⟨alone, empty⟩
      · exact absurd nothing (filled c)
      · exact .inr ⟨c, known, alone, by rw [eq_nil_of_renderSymbols filled empty, List.append_nil]⟩
  · rintro (rfl | ⟨c, known, single, rfl⟩)
    · exact (renderSymbols_passes (by simpa using Ne.symm opens)).whole rfl
    · rw [(renderSymbols_marker known).whole rfl, single]

theorem forges_lone (filled : ∀ c, shown c ≠ []) (opens : k ≠ '{') {t : Text} :
    Forges shown k t ↔ ∃ c, Marker.isSymbol c = true ∧ shown c = [k] ∧ '{' :: (marked c ++ ['}']) <:+: t := by
  constructor
  · rintro ⟨m, other, single, inside⟩
    obtain ⟨c, known, alone, rfl⟩ := ((renderSymbols_lone filled opens).mp single).resolve_left other
    exact ⟨c, known, alone, inside⟩
  · rintro ⟨c, known, alone, inside⟩
    refine ⟨marked c, by simp [marked], ?_, inside⟩
    exact (renderSymbols_lone filled opens).mpr (.inr ⟨c, known, alone, rfl⟩)

theorem update_ne {y : Text} (each : ∀ c, shown c ≠ y) (new_ : new ≠ y) : ∀ c, Function.update shown k new c ≠ y := by
  intro c
  by_cases same : c = k
  · rw [same, Function.update_self]
    exact new_
  · rw [Function.update_of_ne same]
    exact each c

theorem unforged (filled : ∀ c, shown c ≠ []) (opens : k ≠ '{') (other : ∀ c, shown c ≠ [k]) (t : Text) : ¬ Forges shown k t := by
  rw [forges_lone filled opens]
  rintro ⟨c, _, alone, _⟩
  exact other c alone

-- The tables of a platform.

def symbolText (platform : Platform) (c : Char) : Text :=
  if c = '/' then platform.fileSeparator
  else if c = ':' then platform.pathSeparator
  else if c = '~' then platform.homeMarker
  else if c = ';' then platform.commandSeparator
  else marked c

-- All four markers replaced in one pass.
def substituteAtOnce (platform : Platform) (t : Text) : Text := renderSymbols (symbolText platform) t

-- Statement separators come last.
def pendingText (platform : Platform) : Char → Text := Function.update (symbolText platform) ';' (marked ';')

theorem pendingText_done (platform : Platform) :
    Function.update (pendingText platform) ';' platform.commandSeparator = symbolText platform := by
  rw [pendingText, Function.update_idem]
  exact Function.update_eq_self ';' (symbolText platform)

theorem substituteSymbols_pending {platform : Platform} {f l : Char} (file : platform.fileSeparator = [f])
    (list : platform.pathSeparator = [l]) (apart : f ∉ ['{', '}', ':', '~']) (apart' : l ∉ ['{', '}', '~'])
    (t : Text) :
    substituteSymbols platform t =
      Text.replaceAll Marker.commandSeparator platform.commandSeparator (renderSymbols (pendingText platform) t) := by
  simp only [List.mem_cons, List.not_mem_nil, or_false, not_or] at apart apart'
  have none_ : Clear marked := fun c => .inl rfl
  have filled : ∀ c, marked c ≠ [] := by simp [marked]
  have wide : ∀ k c, marked c ≠ [k] := by simp [marked]
  have one : Clear (Function.update marked '/' [f]) := none_.update ⟨by simp [Ne.symm apart.1], by simp [Ne.symm apart.2.1]⟩
  have filledOne : ∀ c, Function.update marked '/' [f] c ≠ [] := update_ne filled (by simp)
  have two : Clear (Function.update (Function.update marked '/' [f]) ':' [l]) :=
    one.update ⟨by simp [Ne.symm apart'.1], by simp [Ne.symm apart'.2.1]⟩
  have filledTwo : ∀ c, Function.update (Function.update marked '/' [f]) ':' [l] c ≠ [] := update_ne filledOne (by simp)
  have files := replaceAll_unforged none_ rfl rfl [f] (unforged filled (k := '/') (by decide) (wide '/') t)
  have lists := replaceAll_unforged one rfl rfl [l]
    (unforged filledOne (k := ':') (by decide) (update_ne (wide ':') (by simp [apart.2.2.1])) t)
  have homes := replaceAll_unforged two rfl rfl platform.homeMarker (unforged filledTwo (k := '~') (by decide)
    (update_ne (update_ne (wide '~') (by simp [apart.2.2.2])) (by simp [apart'.2.2])) t)
  have table : Function.update (Function.update (Function.update marked '/' [f]) ':' [l]) '~' platform.homeMarker = pendingText platform := by
    funext c
    simp only [Function.update_apply, pendingText, symbolText, file, list]
    split_ifs <;> simp_all
  unfold substituteSymbols
  rw [renderSymbols_same] at files
  rw [file, list, ← table, ← homes, ← lists, ← files]
  rfl

-- Where the last entry of a table stands for a marker that is left as it is, a stretch is written
-- the same without it, unless some character of it is asked for.
theorem renderSymbols_held (later : shown k = marked k) {y : Text} (opens : '{' ∉ y) {d : Char} (own : d ∈ new) (absent : d ∉ y)
    (m : Text) : renderSymbols (Function.update shown k new) m = y ↔ renderSymbols shown m = y := by
  induction m using symbols_induction generalizing y with
  | nil => rfl
  | plain c r unseen ih =>
    rw [renderSymbols_plain unseen, renderSymbols_plain unseen]
    cases y with
    | nil => simp
    | cons e y =>
      simp only [List.mem_cons, not_or] at opens absent
      rw [List.cons.injEq, List.cons.injEq, ih opens.2 absent.2]
  | marker c rest known ih =>
    rw [renderSymbols_marker known rest, renderSymbols_marker known rest]
    by_cases same : c = k
    · subst c
      rw [Function.update_self, later]
      constructor
      · rintro rfl
        exact absurd (List.mem_append_left _ own) absent
      · rintro rfl
        exact absurd (by simp [marked]) opens
    · rw [Function.update_of_ne same]
      constructor
      all_goals
        rintro rfl
        simp only [List.mem_append, not_or] at opens absent
      · rw [(ih opens.2 absent.2).mp rfl]
      · rw [(ih opens.2 absent.2).mpr rfl]

theorem pendingText_clear {f l : Char} {platform : Platform} (file : platform.fileSeparator = [f])
    (list : platform.pathSeparator = [l]) (apart : f ∉ ['{', '}']) (apart' : l ∉ ['{', '}']) (home : Braceless platform.homeMarker) :
    Clear (pendingText platform) := by
  simp only [List.mem_cons, List.not_mem_nil, or_false, not_or] at apart apart'
  intro c
  simp only [pendingText, Function.update_apply, symbolText, file, list]
  split_ifs with statement slash colon tilde
  · exact .inl (by rw [statement])
  · exact .inr ⟨by simp [Ne.symm apart.1], by simp [Ne.symm apart.2]⟩
  · exact .inr ⟨by simp [Ne.symm apart'.1], by simp [Ne.symm apart'.2]⟩
  · exact .inr home
  · exact .inl rfl

theorem substituteSymbols_posix (home t : Text) :
    substituteSymbols (Platform.posix home) t = substituteAtOnce (Platform.posix home) t := by
  have clear : Clear (pendingText (Platform.posix home)) :=
    pendingText_clear (f := '/') (l := ':') rfl rfl (by decide) (by decide) ⟨show '{' ∉ ['~'] by decide, show '}' ∉ ['~'] by decide⟩
  have entries (c : Char) : pendingText (Platform.posix home) c ≠ [] ∧ pendingText (Platform.posix home) c ≠ [';'] := by
    simp only [pendingText, Function.update_apply, symbolText]
    split_ifs <;> simp [marked, Platform.posix, Platform.homeMarker, Platform.isWindows]
  rw [substituteSymbols_pending (f := '/') (l := ':') rfl rfl (by decide) (by decide) t, substituteAtOnce, ← pendingText_done]
  exact replaceAll_unforged clear rfl rfl _ (unforged (fun c => (entries c).1) (by decide) (fun c => (entries c).2) t)

theorem substituteSymbols_windows {home : Text} (braceless : Braceless home) (t : Text) :
    substituteSymbols (Platform.windows home) t = substituteAtOnce (Platform.windows home) t ↔
      ¬ Forges (symbolText (Platform.windows home)) ';' t := by
  have clear : Clear (pendingText (Platform.windows home)) :=
    pendingText_clear (f := '\\') (l := ';') rfl rfl (by decide) (by decide) braceless
  have held (m : Text) : renderSymbols (symbolText (Platform.windows home)) m = [';'] ↔
      renderSymbols (pendingText (Platform.windows home)) m = [';'] := by
    have unset : pendingText (Platform.windows home) ';' = marked ';' := Function.update_self ..
    rw [← pendingText_done]
    exact renderSymbols_held (d := '&') unset (by decide) (List.mem_singleton.mpr rfl) (by decide) m
  simp only [Forges, held]
  rw [substituteSymbols_pending (f := '\\') (l := ';') rfl rfl (by decide) (by decide) t, substituteAtOnce, ← pendingText_done]
  exact ⟨unforged_of_same clear rfl rfl (by decide), replaceAll_unforged clear rfl rfl _⟩

-- A statement separator is forged from a path separator, unless the home directory is part of it.
theorem forges_windows {home : Text} (filled : home ≠ []) (other : home ≠ [';']) (t : Text) :
    Forges (symbolText (Platform.windows home)) ';' t ↔ '{' :: (marked ':' ++ ['}']) <:+: t := by
  have each : ∀ c, symbolText (Platform.windows home) c ≠ [] := by
    intro c
    simp only [symbolText]
    split_ifs <;> simp [marked, Platform.windows, Platform.homeMarker, Platform.commandSeparator, Platform.isWindows, filled]
  have alone (c : Char) : symbolText (Platform.windows home) c = [';'] ↔ c = ':' := by
    simp only [symbolText]
    split_ifs <;>
      simp_all [marked, Platform.windows, Platform.homeMarker, Platform.commandSeparator, Platform.isWindows]
  simp only [forges_lone each (show ';' ≠ '{' by decide), alone]
  constructor
  · rintro ⟨c, _, rfl, inside⟩
    exact inside
  · intro inside
    exact ⟨':', rfl, rfl, inside⟩

-- On POSIX one marker after the other is the same as all at once. On Windows it is, exactly as
-- long as no braces of the text close around what is written as a lone ';'. For all home
-- directories but the empty one and ';' itself, only the path separator is written so.
theorem substituteSymbols_once {home : Text} (braceless : Braceless home) (t : Text) :
    substituteSymbols (Platform.posix home) t = substituteAtOnce (Platform.posix home) t ∧
      (substituteSymbols (Platform.windows home) t = substituteAtOnce (Platform.windows home) t ↔
        ¬ ∃ m, m ≠ [';'] ∧ substituteAtOnce (Platform.windows home) m = [';'] ∧ '{' :: (m ++ ['}']) <:+: t) ∧
      (home ≠ [] → home ≠ [';'] →
        (substituteSymbols (Platform.windows home) t = substituteAtOnce (Platform.windows home) t ↔
          ¬ '{' :: (marked ':' ++ ['}']) <:+: t)) := by
  refine ⟨substituteSymbols_posix home t, substituteSymbols_windows braceless t, fun filled other => ?_⟩
  rw [substituteSymbols_windows braceless, forges_windows filled other]

theorem substituteSymbols_once_home :
    substituteSymbols (Platform.windows "C:\\Users\\dev".toList) "\x7b\x7b~\x7d\x7d\x7b/\x7da\x7b:\x7db \x7b;\x7d c".toList =
        "\x7bC:\\Users\\dev\x7d\\a;b & c".toList ∧
      substituteSymbols (Platform.windows "C:\\Users\\dev".toList) "\x7b\x7b~\x7d\x7d\x7b/\x7da\x7b:\x7db \x7b;\x7d c".toList =
        substituteAtOnce (Platform.windows "C:\\Users\\dev".toList) "\x7b\x7b~\x7d\x7d\x7b/\x7da\x7b:\x7db \x7b;\x7d c".toList := by
  have braceless : Braceless "C:\\Users\\dev".toList := ⟨by decide +kernel, by decide +kernel⟩
  exact ⟨by decide +kernel, ((substituteSymbols_once braceless _).2.2 (by decide +kernel) (by decide +kernel)).mpr (by decide +kernel)⟩

-- The path separator of Windows between two more braces is read as the end of a statement.
theorem substituteSymbols_once_doubled :
    Braceless "C:\\Users\\dev".toList ∧
      substituteSymbols (Platform.windows "C:\\Users\\dev".toList) "\x7b\x7b:\x7d\x7d".toList = ['&'] ∧
      substituteAtOnce (Platform.windows "C:\\Users\\dev".toList) "\x7b\x7b:\x7d\x7d".toList = "\x7b;\x7d".toList :=
  ⟨⟨by decide +kernel, by decide +kernel⟩, by decide +kernel, by decide +kernel⟩

end PortableActions.CommandLine
