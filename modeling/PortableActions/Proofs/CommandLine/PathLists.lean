import PortableActions.Proofs.CommandLine.MarkedPath
import PortableActions.Proofs.Path.Names
-- A classpath of absolute Windows paths behind a path of the template, in one path marker. Its
-- entries are split at colons again and written in normal form as if all of them were one path,
-- which leaves them alone only if they are one path in normal form together.
namespace PortableActions.CommandLine
open PortableActions.Template
open PortableActions.Path (Windows)
open PortableActions.Path.Windows (isAbsolute Anchored Tidy normal isDriveLetter)

namespace PathList

-- No colon ends an entry.
def unsplit : Text → Text → Bool
  | _, [] => true
  | sinceBoundary, c :: r =>
    if c = ':' then isDrive sinceBoundary r && unsplit (c :: sinceBoundary) r
    else if c = ';' then unsplit [] r
    else unsplit (c :: sinceBoundary) r

theorem join_splitFrom (entry sinceBoundary t : Text) :
    Text.join [':'] (splitFrom entry sinceBoundary t) = entry.reverse ++ t := by
  induction t generalizing entry sinceBoundary with
  | nil => simp [splitFrom, Text.join]
  | cons c r ih =>
    simp only [splitFrom]
    split
    · rename_i colon
      split
      · rw [ih]
        simp
      · rw [Text.join_cons (splitFrom_ne_nil _ _ _), ih, colon]
        simp
    · split <;> simp [ih]

theorem splitFrom_unsplit {entry sinceBoundary t : Text} (kept : unsplit sinceBoundary t = true) :
    splitFrom entry sinceBoundary t = [entry.reverse ++ t] := by
  induction t generalizing entry sinceBoundary with
  | nil => simp [splitFrom]
  | cons c r ih =>
    simp only [unsplit] at kept
    simp only [splitFrom]
    split
    · rename_i colon
      rw [if_pos colon, Bool.and_eq_true] at kept
      rw [if_pos kept.1, ih kept.2]
      simp
    · rename_i other
      rw [if_neg other] at kept
      split
      · rename_i boundary
        rw [if_pos boundary] at kept
        simp [ih kept]
      · rename_i inside
        rw [if_neg inside] at kept
        simp [ih kept]

theorem splitFrom_split {entry sinceBoundary t : Text} (split_ : unsplit sinceBoundary t = false) :
    2 ≤ (splitFrom entry sinceBoundary t).length := by
  induction t generalizing entry sinceBoundary with
  | nil => cases split_
  | cons c r ih =>
    simp only [unsplit] at split_
    simp only [splitFrom]
    split
    · rename_i colon
      rw [if_pos colon, Bool.and_eq_false_iff] at split_
      split
      · rename_i drive
        exact ih (split_.resolve_left (by simp [drive]))
      · have some_ := List.length_pos_iff.mpr (splitFrom_ne_nil [] [] r)
        rw [List.length_cons]
        omega
    · rename_i other
      rw [if_neg other] at split_
      split
      · rename_i boundary
        rw [if_pos boundary] at split_
        exact ih split_
      · rename_i inside
        rw [if_neg inside] at split_
        exact ih split_

theorem split_several {t : Text} (broken : unsplit [] t = false) : 2 ≤ (split t).length :=
  splitFrom_split broken

theorem split_alone {t : Text} : split t = [t] ↔ unsplit [] t = true := by
  constructor
  · intro same
    by_contra broken
    have several := split_several (Bool.eq_false_iff.mpr broken)
    rw [same] at several
    simp at several
  · exact splitFrom_unsplit

theorem mem_split {paths part : Text} {c : Char} (among : part ∈ split paths) (inside : c ∈ part) : c ∈ paths := by
  have joined : c ∈ Text.join [':'] (split paths) := Text.mem_join_of_mem among inside
  rw [split, join_splitFrom] at joined
  simpa using joined

theorem isDrive_deep {sinceBoundary : Text} (several : 2 ≤ sinceBoundary.length) (after : Text) :
    isDrive sinceBoundary after = false := by
  cases sinceBoundary with
  | nil => rfl
  | cons c more =>
    cases more with
    | nil => simp at several
    | cons d rest => rfl

-- The end of the entry is its own only as far back as the last semicolon.
theorem splitFrom_colonless {front : Text} (colon : ':' ∉ front) (entry sinceBoundary t : Text) :
    ∃ end_, splitFrom entry sinceBoundary (front ++ t) = splitFrom (front.reverse ++ entry) end_ t ∧
      (';' ∉ front → end_ = front.reverse ++ sinceBoundary) := by
  induction front generalizing entry sinceBoundary with
  | nil => exact ⟨sinceBoundary, rfl, fun _ => rfl⟩
  | cons c r ih =>
    simp only [List.mem_cons, not_or] at colon
    rw [List.cons_append, splitFrom, if_neg (Ne.symm colon.1), List.reverse_cons, List.append_assoc]
    by_cases boundary : c = ';'
    · obtain ⟨end_, walked, _⟩ := ih colon.2 (c :: entry) []
      rw [if_pos boundary, walked]
      exact ⟨end_, rfl, fun free => absurd (by simp [boundary]) free⟩
    · obtain ⟨end_, walked, whole⟩ := ih colon.2 (c :: entry) (c :: sinceBoundary)
      rw [if_neg boundary, walked]
      refine ⟨end_, rfl, fun free => ?_⟩
      rw [List.append_assoc]
      exact whole fun inside => free (List.mem_cons_of_mem _ inside)

theorem splitFrom_ended {front : Text} (colon : ':' ∉ front) (entry sinceBoundary : Text) :
    splitFrom entry sinceBoundary front = [entry.reverse ++ front] := by
  obtain ⟨end_, walked, _⟩ := splitFrom_colonless colon entry sinceBoundary []
  rw [List.append_nil] at walked
  rw [walked, splitFrom, List.reverse_append, List.reverse_reverse]

theorem split_front {front : Text} (colon : ':' ∉ front) (semicolon : ';' ∉ front) (several : 2 ≤ front.length) (t : Text) :
    split (front ++ ':' :: t) = front :: split t := by
  obtain ⟨end_, walked, whole⟩ := splitFrom_colonless colon [] [] (':' :: t)
  have drive : isDrive end_ t = false := by
    rw [whole semicolon]
    exact isDrive_deep (by simpa using several) t
  rw [split, walked]
  simp [splitFrom, drive, split]

theorem isDrive_unled {t : Text} (unled : t.head? ≠ some '/' ∧ t.head? ≠ some '\\') (sinceBoundary : Text) :
    isDrive sinceBoundary t = false := by
  unfold isDrive
  split
  · simp [unled]
  · rfl

-- Parts that no slash leads are taken apart where they were joined.
theorem split_join {parts : List Text} (some_ : parts ≠ []) (colon : ∀ part ∈ parts, ':' ∉ part)
    (unled : ∀ part ∈ parts, part.head? ≠ some '/' ∧ part.head? ≠ some '\\') : split (Text.join [':'] parts) = parts := by
  induction parts with
  | nil => contradiction
  | cons first rest ih =>
    obtain ⟨here, later⟩ := List.forall_mem_cons.mp colon
    obtain ⟨_, unled'⟩ := List.forall_mem_cons.mp unled
    cases rest with
    | nil => exact splitFrom_ended here [] []
    | cons next more =>
      have behind : (Text.join [':'] (next :: more)).head? ≠ some '/' ∧ (Text.join [':'] (next :: more)).head? ≠ some '\\' := by
        cases next with
        | nil => cases more <;> simp [Text.join]
        | cons d r =>
          rw [Text.head_join (by simp)]
          exact unled' (d :: r) (by simp)
      obtain ⟨end_, walked, _⟩ := splitFrom_colonless here [] [] (':' :: Text.join [':'] (next :: more))
      rw [Text.join_char (by simp), split, walked]
      simp only [splitFrom, if_true, isDrive_unled behind]
      rw [← split, ih (by simp) later unled']
      simp

-- Boundaries between entries.

theorem unsplit_boundary {e : Text} (free : ';' ∉ e) (sinceBoundary t : Text) :
    unsplit sinceBoundary (e ++ ';' :: t) = (unsplit sinceBoundary e && unsplit [] t) := by
  induction e generalizing sinceBoundary with
  | nil => simp [unsplit]
  | cons c r ih =>
    simp only [List.mem_cons, not_or] at free
    have drive : isDrive sinceBoundary (r ++ ';' :: t) = isDrive sinceBoundary r := by
      unfold isDrive
      cases r <;> rfl
    rw [List.cons_append, unsplit, unsplit, drive, ih free.2, ih free.2, if_neg (Ne.symm free.1), if_neg (Ne.symm free.1)]
    split
    · rw [Bool.and_assoc]
    · rfl

theorem unsplit_join {entries : List Text} (free : ∀ e ∈ entries, ';' ∉ e) :
    unsplit [] (Text.join [';'] entries) = true ↔ ∀ e ∈ entries, unsplit [] e = true := by
  induction entries with
  | nil => simp [Text.join, unsplit]
  | cons first rest ih =>
    obtain ⟨here, later⟩ := List.forall_mem_cons.mp free
    cases rest with
    | nil => simp [Text.join]
    | cons next more =>
      rw [Text.join_char (by simp), unsplit_boundary here, Bool.and_eq_true, ih later, List.forall_mem_cons (a := first)]

theorem unsplit_deep {sinceBoundary e : Text} (several : 2 ≤ sinceBoundary.length) (free : ';' ∉ e) :
    unsplit sinceBoundary e = true ↔ ':' ∉ e := by
  induction e generalizing sinceBoundary with
  | nil => simp [unsplit]
  | cons c r ih =>
    simp only [List.mem_cons, not_or] at free
    rw [unsplit, isDrive_deep several, if_neg (Ne.symm free.1)]
    by_cases colon : c = ':'
    · simp [colon]
    · have deeper : unsplit (c :: sinceBoundary) r = true ↔ ':' ∉ r := ih (Nat.le_succ_of_le several) free.2
      rw [if_neg colon, deeper]
      simp [Ne.symm colon]

end PathList

theorem isLetter_of_isDriveLetter {c : Char} (known : isDriveLetter c = true) : Text.isLetter c = true := by
  unfold Text.isLetter
  apply List.any_eq_true.mpr
  rcases (Bool.or_eq_true _ _).mp known with upper | lower
  · have range : 0x41 ≤ c.toNat ∧ c.toNat ≤ 0x5A := of_decide_eq_true upper
    exact ⟨(0x41, 0x5A), .head _, by simpa using range⟩
  · have both := (Bool.and_eq_true _ _).mp lower
    have range : 0x61 ≤ c.toNat ∧ c.toNat ≤ 0x7A := ⟨of_decide_eq_true both.1, of_decide_eq_true both.2⟩
    exact ⟨(0x61, 0x7A), .tail _ (.head _), by simpa using range⟩

-- A drive letter, a root, and no other colon.
def Lettered (e : Text) : Prop := ∃ letter r, e = letter :: ':' :: '\\' :: r ∧ isDriveLetter letter = true ∧ ':' ∉ r

-- An absolute path in normal form that no stage but the one for paths changes.
structure Fit (e : Text) : Prop where
  absolute : isAbsolute e = true
  same : normal e = e
  free : ∀ k ∈ [';', '/', '{', '}', '@', Marker.standIn], k ∉ e

instance (e : Text) : Decidable (Fit e) :=
  decidable_of_iff (isAbsolute e = true ∧ normal e = e ∧ ∀ k ∈ [';', '/', '{', '}', '@', Marker.standIn], k ∉ e)
    ⟨fun ⟨absolute, same, free⟩ => ⟨absolute, same, free⟩, fun fit => ⟨fit.absolute, fit.same, fit.free⟩⟩

theorem unsplit_absolute {e : Text} (fit : Fit e) : PathList.unsplit [] e = true ↔ ':' ∉ e ∨ Lettered e := by
  have semicolon := fit.free ';' (by simp)
  rcases Windows.absolute_leads (fit.free '/' (by simp)) fit.absolute with ⟨letter, r, rfl, known⟩ | ⟨r, rfl⟩
  · have apart : letter ≠ ':' ∧ letter ≠ ';' := by
      constructor <;> (rintro rfl; cases known)
    simp only [List.mem_cons, not_or] at semicolon
    have start : PathList.unsplit [] (letter :: ':' :: '\\' :: r) = true ↔ PathList.unsplit [':', letter] ('\\' :: r) = true := by
      rw [PathList.unsplit, if_neg apart.1, if_neg apart.2, PathList.unsplit, if_pos rfl]
      simp [PathList.isDrive, isLetter_of_isDriveLetter known]
    rw [start, PathList.unsplit_deep (by simp) (by simp [semicolon]), or_iff_right (by simp)]
    constructor
    · intro free
      exact ⟨letter, r, rfl, known, by simpa using free⟩
    · rintro ⟨_, tail, same, _, free⟩
      cases same
      simpa using free
  · have free : ';' ∉ r := by simp_all
    have deep := PathList.unsplit_deep (by simp : 2 ≤ ['\\', '\\'].length) free
    have start : PathList.unsplit [] ('\\' :: '\\' :: r) = PathList.unsplit ['\\', '\\'] r := rfl
    rw [start, deep, or_iff_left ?_]
    · simp
    · rintro ⟨_, _, same, _⟩
      cases same

-- The components of a list.

theorem Lettered.tidy {letter : Char} {r : Text} (fit : Fit (letter :: ':' :: '\\' :: r)) (known : isDriveLetter letter = true) :
    r = [] ∨ Tidy r := by
  have unmarked : ¬ Windows.extended <+: letter :: ':' :: '\\' :: r := by simp [Windows.extended]
  have marked := Windows.splitExtended_plain unmarked
  exact (Windows.anchored_letter (fit.free '/' (by simp)) fit.same marked known).tidy

-- An entry with a drive letter continues the components in front of it, a share breaks them off.

theorem tidy_lettered {front t : Text} {letter : Char} (tidy : front = [] ∨ Tidy front) (known : isDriveLetter letter = true) :
    Tidy (front ++ ';' :: letter :: ':' :: '\\' :: t) ↔ Tidy t := by
  have ahead : Tidy (front ++ [';', letter, ':']) := by
    apply Windows.tidy_behind tidy _ (by simp)
    have other : letter ≠ '\\' := by rintro rfl; cases known
    simp [Ne.symm other]
  have split : front ++ ';' :: letter :: ':' :: '\\' :: t = (front ++ [';', letter, ':']) ++ '\\' :: t := by simp
  rw [split, Windows.tidy_split, and_iff_right ahead]

theorem not_tidy_share (front t : Text) : ¬ Tidy (front ++ ';' :: '\\' :: '\\' :: t) := by
  have split : front ++ ';' :: '\\' :: '\\' :: t = (front ++ [';']) ++ '\\' :: ([] ++ '\\' :: t) := by simp
  rw [split, Windows.tidy_split, Windows.tidy_split]
  rintro ⟨_, nothing, _⟩
  exact Windows.not_tidy_nil nothing

theorem not_lettered_share (t : Text) : ¬ Lettered ('\\' :: '\\' :: t) := by
  rintro ⟨_, _, same, _⟩
  cases same

-- Entries continue the components of what stands in front of them exactly if each has a drive
-- letter and the last is more than a root.
theorem tidy_entries {front first : Text} {rest : List Text} (tidy : front = [] ∨ Tidy front)
    (fits : ∀ e ∈ first :: rest, Fit e) (colons : ∀ e ∈ first :: rest, ':' ∉ e ∨ Lettered e) :
    Tidy (front ++ ';' :: Text.join [';'] (first :: rest)) ↔
      (∀ e ∈ first :: rest, Lettered e) ∧ ∀ letter, (first :: rest).getLast? ≠ some [letter, ':', '\\'] := by
  induction rest generalizing front first with
  | nil =>
    have fit := fits first (by simp)
    have colon := colons first (by simp)
    have whole : Text.join [';'] [first] = first := rfl
    rw [whole, List.forall_mem_singleton, List.getLast?_singleton]
    rcases Windows.absolute_leads (fit.free '/' (by simp)) fit.absolute with ⟨letter, r, rfl, known⟩ | ⟨r, rfl⟩
    · rw [tidy_lettered tidy known, and_iff_right (colon.resolve_left (by simp))]
      rcases Lettered.tidy fit known with rfl | more
      · simp [Windows.not_tidy_nil]
      · have filled : r ≠ [] := by
          rintro rfl
          exact Windows.not_tidy_nil more
        simp [more, filled]
    · exact iff_of_false (not_tidy_share front r) fun both => not_lettered_share r both.1
  | cons next more ih =>
    obtain ⟨fit, fits'⟩ := List.forall_mem_cons.mp fits
    obtain ⟨colon, colons'⟩ := List.forall_mem_cons.mp colons
    have joined : Text.join [';'] (first :: next :: more) = first ++ ';' :: Text.join [';'] (next :: more) := Text.join_char (by simp)
    have last : (first :: next :: more).getLast? = (next :: more).getLast? := by simp
    rw [joined, last, List.forall_mem_cons (a := first)]
    rcases Windows.absolute_leads (fit.free '/' (by simp)) fit.absolute with ⟨letter, r, rfl, known⟩ | ⟨r, rfl⟩
    · have behind := ih (Lettered.tidy fit known) fits' colons'
      rw [and_iff_right (colon.resolve_left (by simp)), ← behind]
      exact tidy_lettered tidy known
    · exact iff_of_false (not_tidy_share front _) fun both => not_lettered_share r both.1.1

-- A list of entries that lasts: only drive letters have colons, every entry behind the first
-- has a drive letter, and the last of several is more than a root.
def Lasts : List Text → Prop
  | [] => True
  | first :: rest => (':' ∉ first ∨ Lettered first) ∧ (∀ e ∈ rest, Lettered e) ∧
      ∀ letter, rest.getLast? ≠ some [letter, ':', '\\']

theorem lasts_exact {entries : List Text} (some_ : entries ≠ []) (fits : ∀ e ∈ entries, Fit e) :
    (PathList.split (Text.join [';'] entries) = [Text.join [';'] entries] ∧
      normal (Text.join [';'] entries) = Text.join [';'] entries) ↔ Lasts entries := by
  have semicolons : ∀ e ∈ entries, ';' ∉ e := fun e among => (fits e among).free ';' (by simp)
  have alone : PathList.split (Text.join [';'] entries) = [Text.join [';'] entries] ↔ ∀ e ∈ entries, ':' ∉ e ∨ Lettered e := by
    rw [PathList.split_alone, PathList.unsplit_join semicolons]
    exact forall₂_congr fun e among => unsplit_absolute (fits e among)
  rw [alone]
  cases entries with
  | nil => exact absurd rfl some_
  | cons first rest =>
    obtain ⟨fit, fits'⟩ := List.forall_mem_cons.mp fits
    cases rest with
    | nil =>
      have whole : Text.join [';'] [first] = first := rfl
      rw [whole, List.forall_mem_singleton]
      simp [Lasts, fit.same]
    | cons next more =>
      -- Several entries are one path, with the anchor of the first.
      obtain ⟨drive, tail, anchored⟩ := Windows.anchored_absolute (fit.free '/' (by simp)) fit.absolute fit.same
      have joined : Text.join [';'] (first :: next :: more) = first ++ ';' :: Text.join [';'] (next :: more) :=
        Text.join_char (by simp)
      have slashless : '/' ∉ first ++ ';' :: Text.join [';'] (next :: more) := by
        rw [← joined]
        intro inside
        rcases Text.mem_of_mem_join inside with between | ⟨e, among, here⟩
        · simp at between
        · exact (fits e among).free '/' (by simp) here
      rw [joined, Windows.normal_behind anchored slashless, List.forall_mem_cons]
      constructor
      · rintro ⟨⟨colon, colons⟩, tidy⟩
        exact ⟨colon, (tidy_entries anchored.tidy fits' colons).mp tidy⟩
      · rintro ⟨colon, lettered, last⟩
        have colons : ∀ e ∈ next :: more, ':' ∉ e ∨ Lettered e := fun e among => .inr (lettered e among)
        exact ⟨⟨colon, colons⟩, (tidy_entries anchored.tidy fits' colons).mpr ⟨lettered, last⟩⟩

-- Writing the parts of a list again in normal form.

theorem count_written (parts : List Text) (some_ : parts ≠ []) :
    (Text.join [';'] (parts.map normal)).count ':' + parts.length ≤ (Text.join [':'] parts).count ':' + 1 := by
  induction parts with
  | nil => exact absurd rfl some_
  | cons first rest ih =>
    have kept := Windows.count_normal (by decide : ':' ∉ ['/', '\\', '.']) first
    cases rest with
    | nil => simp [Text.join, kept]
    | cons next more =>
      have later := ih (by simp)
      rw [List.map_cons, Text.join_cons (by simp), Text.join_cons (by simp)]
      have none_ : List.count ':' [';'] = 0 := rfl
      have one : List.count ':' [':'] = 1 := rfl
      simp only [List.count_append, List.length_cons, none_, one, kept] at later ⊢
      omega

theorem written_exact (t : Text) :
    Text.join [';'] ((PathList.split t).map normal) = t ↔ PathList.split t = [t] ∧ normal t = t := by
  constructor
  · intro same
    have counted := count_written (PathList.split t) (PathList.splitFrom_ne_nil _ _ _)
    rw [same, PathList.split, PathList.join_splitFrom] at counted
    simp only [List.reverse_nil, List.nil_append] at counted
    have single : PathList.split t = [t] := by
      apply PathList.split_alone.mpr
      by_contra broken
      have several := PathList.split_several (Bool.eq_false_iff.mpr broken)
      rw [PathList.split] at several
      omega
    rw [single] at same
    exact ⟨single, same⟩
  · rintro ⟨single, same⟩
    rw [single]
    exact same

-- The whole pipeline.

-- The name of a path component that no stage changes.
structure PlainName (c : Text) : Prop where
  filled : c ≠ []
  other : c ≠ ['.']
  free : ∀ k ∈ ['/', '\\', ':', ';', '{', '}', '@', Marker.standIn], k ∉ c

instance (c : Text) : Decidable (PlainName c) :=
  decidable_of_iff (c ≠ [] ∧ c ≠ ['.'] ∧ ∀ k ∈ ['/', '\\', ':', ';', '{', '}', '@', Marker.standIn], k ∉ c)
    ⟨fun ⟨filled, other, free⟩ => ⟨filled, other, free⟩, fun name => ⟨name.filled, name.other, name.free⟩⟩

theorem normal_name {c : Text} (name : PlainName c) : normal ('.' :: '/' :: c) = c := by
  have named : Windows.Named [c] := by
    refine List.forall_mem_singleton.mpr ⟨⟨name.filled, name.other⟩, fun d inside => ?_⟩
    have slash : d ≠ '/' := fun same => name.free '/' (by simp) (same ▸ inside)
    have backslash : d ≠ '\\' := fun same => name.free '\\' (by simp) (same ▸ inside)
    simp [Windows.isSlash, slash, backslash]
  have single : Windows.names c = [c] := Windows.names_join named
  have dotted := Windows.normal_dotted (name.free ':' (by simp))
  rw [single] at dotted
  exact dotted

theorem nativePath_slashless {path home : Text} (slashless : '/' ∉ path) : (Platform.windows home).nativePath path = normal path := by
  have family : (Platform.windows home).isWindows = true := rfl
  unfold Platform.nativePath
  rw [if_pos family]
  split
  · simp at slashless
  · rfl

-- The template of one path list: a name and the classpath.
def pathList (c : Text) : Text := '{' :: ('.' :: '/' :: (c ++ ':' :: Marker.deps)) ++ ['}']

-- The four replacements one after the other.
theorem symbols_stages {platform : Platform} {a b c d e : Text}
    (file : Text.Passes (Text.replaceAll Marker.fileSeparator platform.fileSeparator) a b)
    (list : Text.Passes (Text.replaceAll Marker.pathSeparator platform.pathSeparator) b c)
    (home : Text.Passes (Text.replaceAll Marker.home platform.homeMarker) c d)
    (command : Text.Passes (Text.replaceAll Marker.commandSeparator platform.commandSeparator) d e) :
    Text.Passes (substituteSymbols platform) a e := by
  intro rest
  simp only [substituteSymbols]
  rw [file, list, home, command]

theorem symbols_passes {t : Text} (opens : '{' ∉ t) (platform : Platform) : Text.Passes (substituteSymbols platform) t t := by
  have symbol : ∀ k new, Text.Passes (Text.replaceAll ['{', k, '}'] new) t t := fun k new =>
    Text.passes_absent (fun c r => Text.literal_unlike _ r) opens
  exact symbols_stages (symbol _ _) (symbol _ _) (symbol _ _) (symbol _ _)

theorem symbols_braceless {t : Text} (opens : '{' ∉ t) (platform : Platform) : substituteSymbols platform t = t :=
  (symbols_passes opens platform).whole rfl

theorem filled_pathList {c joined : Text} (opens : '{' ∉ c) :
    filled joined (pathList c) = '{' :: ('.' :: '/' :: (c ++ ':' :: joined)) ++ ['}'] := by
  have front : Text.Passes (filled joined) ('.' :: '/' :: (c ++ [':'])) ('.' :: '/' :: (c ++ [':'])) :=
    Text.passes_absent (fun c r => Text.literal_unlike _ r) (by simp [opens])
  have unseen : Text.literal Marker.deps ('{' :: '.' :: '/' :: (c ++ ':' :: (Marker.deps ++ ['}']))) = none := by
    rw [Text.literal_none (by decide)]
    simp [Marker.deps]
  have rest := front (Marker.deps ++ ['}'])
  have back : filled joined (Marker.deps ++ ['}']) = joined ++ ['}'] := by
    rw [filled_deps, filled_char _ _ (by decide)]
    rfl
  rw [back] at rest
  have whole : filled joined ('{' :: '.' :: '/' :: (c ++ ':' :: (Marker.deps ++ ['}']))) =
      '{' :: filled joined ('.' :: '/' :: (c ++ ':' :: (Marker.deps ++ ['}']))) := Text.replaceAll_plain unseen
  have same : pathList c = '{' :: '.' :: '/' :: (c ++ ':' :: (Marker.deps ++ ['}'])) := by simp [pathList]
  rw [same, whole]
  simpa using rest

theorem native_pathList {c joined : Text} (name : PlainName c) (slashless : '/' ∉ joined) (home : Text) :
    PathList.native (Platform.windows home) ('.' :: '/' :: (c ++ ':' :: joined)) =
      c ++ ';' :: Text.join [';'] ((PathList.split joined).map normal) := by
  have family : (Platform.windows home).isWindows = true := rfl
  have separator : (Platform.windows home).pathSeparator = [';'] := rfl
  have cut : PathList.split ('.' :: '/' :: (c ++ ':' :: joined)) = ('.' :: '/' :: c) :: PathList.split joined := by
    refine @PathList.split_front ('.' :: '/' :: c) ?_ ?_ ?_ joined
    · simp [name.free ':' (by simp)]
    · simp [name.free ';' (by simp)]
    · simp
  have first : (Platform.windows home).nativePath ('.' :: '/' :: c) = c := normal_name name
  have later : (PathList.split joined).map (Platform.windows home).nativePath = (PathList.split joined).map normal := by
    apply List.map_congr_left
    intro part among
    exact nativePath_slashless fun inside => slashless (PathList.mem_split among inside)
  have some_ : (PathList.split joined).map normal ≠ [] := fun none_ =>
    PathList.splitFrom_ne_nil [] [] joined (List.map_eq_nil_iff.mp none_)
  unfold PathList.native
  rw [if_pos family, separator, cut, List.map_cons, first, later, Text.join_cons some_]
  simp

theorem paths_pathList {c joined : Text} (name : PlainName c) (slashless : '/' ∉ joined) (closes : '}' ∉ joined) (home : Text) :
    substitutePaths (Platform.windows home) ('{' :: ('.' :: '/' :: (c ++ ':' :: joined)) ++ ['}']) =
      c ++ ';' :: Text.join [';'] ((PathList.split joined).map normal) := by
  have absent : '}' ∉ c ++ ':' :: joined := by simp [name.free '}' (by simp), closes]
  have marker : Text.Passes (substitutePaths (Platform.windows home)) ('{' :: ('.' :: '/' :: (c ++ ':' :: joined)) ++ ['}'])
      (PathList.native (Platform.windows home) ('.' :: '/' :: (c ++ ':' :: joined))) := by
    apply Text.passes_hit
    · simp
    · intro rest
      have found := Marker.bracedPath_closed (rfl : Marker.isRoot '.' = true) absent rest
      have size : ('{' :: ('.' :: '/' :: (c ++ ':' :: joined)) ++ ['}']).length = (c ++ ':' :: joined).length + 4 := by
        simp only [List.length_cons, List.length_append, List.length_nil]
      rw [size, ← found]
      simp
  rw [marker.whole rfl, native_pathList name slashless]

-- Characters that no entry has come from its normal form or from the separators.
theorem quiet_written {k : Char} (other : k ∉ ['\\', '.', ';']) {joined : Text} (absent : k ∉ joined) :
    k ∉ Text.join [';'] ((PathList.split joined).map normal) := by
  simp only [List.mem_cons, List.not_mem_nil, or_false, not_or] at other
  intro inside
  rcases Text.mem_of_mem_join inside with between | ⟨e, among, here⟩
  · exact other.2.2 (List.mem_singleton.mp between)
  · obtain ⟨part, member, rfl⟩ := List.mem_map.mp among
    rcases Windows.mem_normal here with inner | new
    · exact absent (PathList.mem_split member inner)
    · simp [other] at new

theorem inlined_pathList {c : Text} {classpath : Classpath} (name : PlainName c)
    (fits : ∀ entry ∈ classpath, Fit entry.print) (home : Text) :
    inlined (pathList c) (some classpath) (Platform.windows home) =
      c ++ ';' :: Text.join [';'] ((PathList.split (Text.join [';'] (classpath.map Entry.print))).map normal) := by
  have free : ∀ k ∈ ['/', '{', '}', '@', Marker.standIn], k ∉ Text.join [';'] (classpath.map Entry.print) := by
    intro k bad inside
    rcases Text.mem_of_mem_join inside with between | ⟨e, among, here⟩
    · rw [List.mem_singleton.mp between] at bad
      simp [Marker.standIn] at bad
    · obtain ⟨entry, member, rfl⟩ := List.mem_map.mp among
      exact (fits entry member).free k (List.mem_cons_of_mem _ bad) here
  have filled_ : Classpath.substitute (some classpath) (Platform.windows home) (pathList c) =
      filled (Text.join [';'] (classpath.map Entry.print)) (pathList c) := rfl
  have placed_ := paths_pathList name (free '/' (by simp)) (free '}' (by simp)) home
  -- The later stages find nothing to do.
  have quiet : ∀ k ∈ ['{', '@', Marker.standIn],
      k ∉ c ++ ';' :: Text.join [';'] ((PathList.split (Text.join [';'] (classpath.map Entry.print))).map normal) := by
    intro k bad
    have inName : ['{', '@', Marker.standIn] ⊆ ['/', '\\', ':', ';', '{', '}', '@', Marker.standIn] := by decide
    have inEntries : ['{', '@', Marker.standIn] ⊆ ['/', '{', '}', '@', Marker.standIn] := by decide
    have other : k ∉ ['\\', '.', ';'] := by
      intro same
      have apart : ∀ d ∈ ['{', '@', Marker.standIn], d ∉ ['\\', '.', ';'] := by decide
      exact apart k bad same
    have behind := quiet_written other (free k (inEntries bad))
    simp only [List.mem_append, List.mem_cons, not_or]
    refine ⟨name.free k (inName bad), ?_, behind⟩
    rintro rfl
    simp at other
  unfold inlined expand
  rw [filled_, filled_pathList (name.free '{' (by simp)), placed_, symbols_braceless (quiet '{' (by simp)),
    inline_plain (quiet '@' (by simp)) (quiet Marker.standIn (by simp))]

-- A classpath of absolute paths in normal form, listed behind a name of the template, survives
-- exactly if only drive letters have colons, every entry but the first has a drive letter, and
-- the last of several entries is more than a root.
theorem inlined_pathList_exact {c : Text} {classpath : Classpath} (name : PlainName c) (some_ : classpath ≠ [])
    (fits : ∀ entry ∈ classpath, Fit entry.print) (home : Text) :
    inlined (pathList c) (some classpath) (Platform.windows home) =
        c ++ ';' :: Text.join [';'] (classpath.map Entry.print) ↔
      Lasts (classpath.map Entry.print) := by
  have entries : ∀ e ∈ classpath.map Entry.print, Fit e := by
    intro e among
    obtain ⟨entry, member, rfl⟩ := List.mem_map.mp among
    exact fits entry member
  rw [inlined_pathList name fits, List.append_cancel_left_eq, List.cons.injEq, and_iff_right rfl, written_exact]
  exact lasts_exact (by simpa using some_) entries

theorem inlined_pathList_letters :
    PlainName "lib".toList ∧ (∀ entry ∈ [Entry.text "C:\\m2\\a.jar".toList, .text "D:\\b.jar".toList], Fit entry.print) ∧
      inlined (pathList "lib".toList) (some [.text "C:\\m2\\a.jar".toList, .text "D:\\b.jar".toList]) (Platform.windows []) =
        "lib;C:\\m2\\a.jar;D:\\b.jar".toList := by
  have name : PlainName "lib".toList := by decide +kernel
  have fits : ∀ entry ∈ [Entry.text "C:\\m2\\a.jar".toList, .text "D:\\b.jar".toList], Fit entry.print := by decide +kernel
  have lasts : Lasts ["C:\\m2\\a.jar".toList, "D:\\b.jar".toList] := by
    refine ⟨.inr ⟨'C', _, rfl, rfl, by decide⟩, ?_, by simp⟩
    exact List.forall_mem_singleton.mpr ⟨'D', _, rfl, rfl, by decide⟩
  exact ⟨name, fits, ((inlined_pathList_exact name (by simp) fits []).mpr lasts).trans (by decide +kernel)⟩

-- A share behind another entry loses a backslash.
theorem inlined_pathList_share :
    PlainName "c".toList ∧ (∀ entry ∈ [Entry.text "C:\\a.jar".toList, .text "\\\\srv\\share\\b.jar".toList], Fit entry.print) ∧
      inlined (pathList "c".toList) (some [.text "C:\\a.jar".toList, .text "\\\\srv\\share\\b.jar".toList]) (Platform.windows []) =
        "c;C:\\a.jar;\\srv\\share\\b.jar".toList ∧
      inlined (pathList "c".toList) (some [.text "C:\\a.jar".toList, .text "\\\\srv\\share\\b.jar".toList]) (Platform.windows []) ≠
        "c;".toList ++ Text.join [';'] ["C:\\a.jar".toList, "\\\\srv\\share\\b.jar".toList] := by
  decide +kernel

end PortableActions.CommandLine
