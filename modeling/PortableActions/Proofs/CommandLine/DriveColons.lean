import PortableActions.Proofs.CommandLine.PathLists
-- Which colons of a path list end an entry. A colon is judged by what stands between it and the
-- nearest boundary in front of it, and whether an earlier colon is a boundary was decided in the
-- same way.
namespace PortableActions.CommandLine.PathList
open PortableActions.Template

-- The colon between two texts ends an entry of their list.
def Cut (front rest : Text) : Prop :=
  ∃ done behind, done ≠ [] ∧ behind ≠ [] ∧ split (front ++ ':' :: rest) = done ++ behind ∧
    Text.join [':'] done = front ∧ Text.join [':'] behind = rest

-- The colon between two texts stays inside an entry.
def Kept (front rest : Text) : Prop :=
  ∃ done l r behind, split (front ++ ':' :: rest) = done ++ (l ++ ':' :: r) :: behind ∧
    Text.join [':'] (done ++ [l]) = front ∧ Text.join [':'] (r :: behind) = rest

-- Between `before` and a colon there is no boundary, and `before` ends at one: at the start of
-- the list, at a semicolon, or at a colon that ends an entry.
structure Nearest (before since rest : Text) : Prop where
  boundary : before = [] ∨ (∃ b, before = b ++ [';']) ∨ ∃ b, before = b ++ [':'] ∧ Cut b (since ++ ':' :: rest)
  semicolon : ';' ∉ since
  colon : ∀ x y, since = x ++ ':' :: y → ¬ Cut (before ++ x) (y ++ ':' :: rest)

-- The text between a colon and the nearest boundary in front of it.
def Since (front rest since : Text) : Prop := ∃ before, front = before ++ since ∧ Nearest before since rest

variable {front rest : Text}

theorem Nearest.tail {before gap since : Text} (far : Nearest before (gap ++ since) rest)
    (near : Nearest (before ++ gap) since rest) : gap = [] := by
  cases List.eq_nil_or_concat gap with
  | inl empty => exact empty
  | inr last =>
    obtain ⟨more, k, rfl⟩ := last
    rw [List.concat_eq_append] at far near
    rw [← List.append_assoc] at near
    obtain start | ⟨b, semicolon⟩ | ⟨b, colon, cut⟩ := near.boundary
    · simp at start
    · have same := List.append_inj_right' semicolon rfl
      cases same
      exact absurd (by simp) far.semicolon
    · obtain ⟨rfl, same⟩ := List.append_inj' colon rfl
      cases same
      exact absurd cut (far.colon more since (by simp))

theorem since_unique {one two : Text} (first : Since front rest one) (second : Since front rest two) : one = two := by
  obtain ⟨before, split₁, near₁⟩ := first
  obtain ⟨before', split₂, near₂⟩ := second
  cases List.append_eq_append_iff.mp (split₁.symm.trans split₂) with
  | inl longer =>
    obtain ⟨gap, rfl, rfl⟩ := longer
    rw [near₁.tail near₂, List.nil_append]
  | inr longer =>
    obtain ⟨gap, rfl, rfl⟩ := longer
    rw [near₂.tail near₁, List.nil_append]

-- What stands behind the last semicolon of an entry so far.
def Reaches (entry since : Text) : Prop :=
  ∃ lead, entry = lead ++ since ∧ ';' ∉ since ∧ (lead = [] ∨ ∃ more, lead = more ++ [';'])

theorem Reaches.start : Reaches [] [] := ⟨[], rfl, by simp, .inl rfl⟩

theorem Reaches.semicolon (entry : Text) : Reaches (entry ++ [';']) [] :=
  ⟨entry ++ [';'], by simp, by simp, .inr ⟨entry, rfl⟩⟩

theorem Reaches.push {entry since : Text} {c : Char} (reaches : Reaches entry since) (other : c ≠ ';') :
    Reaches (entry ++ [c]) (since ++ [c]) := by
  obtain ⟨lead, rfl, free, boundary⟩ := reaches
  exact ⟨lead, by simp, by simp [free, Ne.symm other], boundary⟩

-- Up to a colon the entries in front are complete, and the one that is open is known as far as it goes.
theorem splitFrom_walk {entry sinceBoundary : Text} (reaches : Reaches entry.reverse sinceBoundary.reverse) (front rest : Text) :
    ∃ done l since, Reaches l since ∧ Text.join [':'] (done ++ [l]) = entry.reverse ++ front ∧
      splitFrom entry sinceBoundary (front ++ ':' :: rest) = done ++ splitFrom l.reverse since.reverse (':' :: rest) := by
  induction front generalizing entry sinceBoundary with
  | nil => exact ⟨[], entry.reverse, sinceBoundary.reverse, reaches, by simp [Text.join], by simp⟩
  | cons c r ih =>
    have inside : ∀ boundary, Reaches (entry.reverse ++ [c]) boundary.reverse →
        ∃ done l since, Reaches l since ∧ Text.join [':'] (done ++ [l]) = entry.reverse ++ c :: r ∧
          splitFrom (c :: entry) boundary (r ++ ':' :: rest) = done ++ splitFrom l.reverse since.reverse (':' :: rest) := by
      intro boundary further
      obtain ⟨done, l, since, reached, joined, walked⟩ := @ih (c :: entry) boundary (by simpa using further)
      exact ⟨done, l, since, reached, by simpa using joined, walked⟩
    rw [List.cons_append, splitFrom]
    split
    · rename_i colon
      subst c
      -- A colon that is kept goes on with the entry, any other one starts the next.
      split
      · apply inside
        simpa using reaches.push (by decide : ':' ≠ ';')
      · obtain ⟨done, l, since, reached, joined, walked⟩ := @ih [] [] Reaches.start
        refine ⟨entry.reverse :: done, l, since, reached, ?_, by rw [walked, List.cons_append]⟩
        rw [List.cons_append, Text.join_char (by simp), joined]
        rfl
    · split
      · rename_i semicolon
        subst c
        exact inside [] (Reaches.semicolon entry.reverse)
      · rename_i other
        apply inside
        simpa using reaches.push other

-- The open entry goes on to the first colon that ends it.
theorem splitFrom_head (entry sinceBoundary t : Text) :
    ∃ r behind, splitFrom entry sinceBoundary t = (entry.reverse ++ r) :: behind ∧ Text.join [':'] (r :: behind) = t := by
  induction t generalizing entry sinceBoundary with
  | nil => exact ⟨[], [], by simp [splitFrom], rfl⟩
  | cons c t ih =>
    have inside : ∀ boundary, ∃ r behind, splitFrom (c :: entry) boundary t = (entry.reverse ++ r) :: behind ∧
        Text.join [':'] (r :: behind) = c :: t := by
      intro boundary
      obtain ⟨r, behind, same, joined⟩ := ih (c :: entry) boundary
      refine ⟨c :: r, behind, by simpa using same, ?_⟩
      exact (Text.join_head [':'] [c] r behind).trans (congrArg (c :: ·) joined)
    rw [splitFrom]
    split
    · rename_i colon
      split
      · exact inside _
      · refine ⟨[], splitFrom [] [] t, by simp, ?_⟩
        rw [Text.join_char (splitFrom_ne_nil [] [] t), join_splitFrom, colon]
        rfl
    · split
      · exact inside _
      · exact inside _

-- A colon in its list: the entries in front of it, the one that is open, and the text behind it.
structure Place (front rest : Text) (done : List Text) (l since r : Text) (behind : List Text) : Prop where
  reached : Reaches l since
  before : Text.join [':'] (done ++ [l]) = front
  after : Text.join [':'] (r :: behind) = rest
  split : split (front ++ ':' :: rest) =
    if isDrive since.reverse rest then done ++ (l ++ ':' :: r) :: behind else done ++ l :: r :: behind

theorem place_exists (front rest : Text) : ∃ done l since r behind, Place front rest done l since r behind := by
  obtain ⟨done, l, since, reached, joined, walked⟩ := @splitFrom_walk [] [] Reaches.start front rest
  rw [splitFrom, if_pos rfl] at walked
  cases drive : isDrive since.reverse rest with
  | true =>
    obtain ⟨r, behind, same, after⟩ := splitFrom_head (':' :: l.reverse) (':' :: since.reverse) rest
    refine ⟨done, l, since, r, behind, reached, joined, after, ?_⟩
    rw [drive, if_pos rfl, same] at walked
    rw [drive, if_pos rfl, PathList.split, walked]
    simp
  | false =>
    obtain ⟨r, behind, same, after⟩ := splitFrom_head [] [] rest
    refine ⟨done, l, since, r, behind, reached, joined, after, ?_⟩
    rw [drive, if_neg (by simp), same] at walked
    rw [drive, if_neg (by simp), PathList.split, walked]
    simp

-- The entries in front of a cut are among those in front of an entry, or hold it.
theorem cut_apart {done done' behind behind' : List Text} {part : Text} (same : done ++ part :: behind = done' ++ behind') :
    (∃ m, done = done' ++ m) ∨ ∃ m, done' = done ++ part :: m := by
  cases List.append_eq_append_iff.mp same with
  | inl longer =>
    obtain ⟨m, split, held⟩ := longer
    cases m with
    | nil => exact .inl ⟨[], by simpa using split.symm⟩
    | cons first m =>
      cases (List.cons.inj held).1
      exact .inr ⟨m, split⟩
  | inr shorter =>
    obtain ⟨m, split, _⟩ := shorter
    exact .inl ⟨m, split⟩

theorem cut_outside {done done' behind behind' : List Text} {part : Text} (some' : done' ≠ [])
    (same : done ++ part :: behind = done' ++ behind') :
    (∀ l, (Text.join [':'] done').length < (Text.join [':'] (done ++ [l])).length) ∨
      (Text.join [':'] (done ++ [part])).length ≤ (Text.join [':'] done').length := by
  cases cut_apart same with
  | inl early =>
    obtain ⟨m, rfl⟩ := early
    left
    intro l
    have longer := Text.length_join_append [':'] some' (by simp : m ++ [l] ≠ [])
    rw [List.length_singleton] at longer
    rw [List.append_assoc]
    omega
  | inr late =>
    obtain ⟨m, rfl⟩ := late
    right
    exact Text.length_join_front [':'] done part m

theorem not_kept_of_cut (cut : Cut front rest) : ¬ Kept front rest := by
  intro kept
  obtain ⟨done', behind', some', _, split', joined', _⟩ := cut
  obtain ⟨done, l, r, behind, split, joined, _⟩ := kept
  cases cut_outside some' (split.symm.trans split') with
  | inl early =>
    have shorter := early l
    rw [joined, joined'] at shorter
    exact Nat.lt_irrefl _ shorter
  | inr late =>
    rw [joined', Text.join_last, joined, List.length_append, List.length_cons] at late
    omega

namespace Place

variable {done behind : List Text} {l since r : Text}

-- The open entry is followed by the rest, whether the colon ends it or not.
theorem goes_on (place : Place front rest done l since r behind) : ∃ more tail,
    PathList.split (front ++ ':' :: rest) = done ++ (l ++ more) :: tail ∧ Text.join [':'] ((l ++ more) :: tail) = l ++ ':' :: rest := by
  cases drive : isDrive since.reverse rest with
  | true =>
    refine ⟨':' :: r, behind, place.split.trans (if_pos drive), ?_⟩
    rw [Text.join_head, ← place.after]
    exact congrArg (l ++ ·) (Text.join_head [':'] [':'] r behind)
  | false =>
    refine ⟨[], r :: behind, ?_, ?_⟩
    · rw [List.append_nil]
      exact place.split.trans (if_neg (by simp [drive]))
    · rw [List.append_nil, Text.join_char (by simp), place.after]

variable {lead : Text}

theorem front_split (place : Place front rest done (lead ++ since) since r behind) :
    front = Text.join [':'] (done ++ [lead]) ++ since := by
  rw [← place.before, Text.join_last]

theorem boundary (place : Place front rest done (lead ++ since) since r behind) (ended : lead = [] ∨ ∃ more, lead = more ++ [';']) :
    Text.join [':'] (done ++ [lead]) = [] ∨ (∃ b, Text.join [':'] (done ++ [lead]) = b ++ [';']) ∨
      ∃ b, Text.join [':'] (done ++ [lead]) = b ++ [':'] ∧ Cut b (since ++ ':' :: rest) := by
  cases ended with
  | inr semicolon =>
    obtain ⟨more, rfl⟩ := semicolon
    exact .inr (.inl ⟨_, Text.join_last [':'] done more [';']⟩)
  | inl empty =>
    subst lead
    cases done with
    | nil => exact .inl rfl
    | cons first others =>
      have colon : Text.join [':'] (first :: others ++ [[]]) = Text.join [':'] (first :: others) ++ [':'] := by
        rw [Text.join_append (by simp) (by simp)]
        simp [Text.join]
      obtain ⟨more, tail, split, joined⟩ := place.goes_on
      refine .inr (.inr ⟨_, colon, first :: others, (since ++ more) :: tail, by simp, by simp, ?_, rfl, joined⟩)
      rw [place.front_split, colon] at split
      simpa using split

theorem uncut (place : Place front rest done (lead ++ since) since r behind) {x y : Text} (whole : since = x ++ ':' :: y) :
    ¬ Cut (Text.join [':'] (done ++ [lead]) ++ x) (y ++ ':' :: rest) := by
  intro cut
  obtain ⟨done', behind', some', _, split', joined', _⟩ := cut
  obtain ⟨more, tail, split, _⟩ := place.goes_on
  have text : Text.join [':'] (done ++ [lead]) ++ x ++ ':' :: (y ++ ':' :: rest) = front ++ ':' :: rest := by
    rw [place.front_split, whole]
    simp
  rw [text] at split'
  cases cut_outside some' (split.symm.trans split') with
  | inl early =>
    have shorter := early lead
    rw [joined', List.length_append] at shorter
    omega
  | inr late =>
    rw [joined', Text.join_last, place.before, place.front_split, whole] at late
    simp only [List.length_append, List.length_cons] at late
    omega

theorem nearest (place : Place front rest done l since r behind) : Since front rest since := by
  obtain ⟨lead, rfl, free, ended⟩ := place.reached
  exact ⟨_, place.front_split, place.boundary ended, free, fun _ _ whole => place.uncut whole⟩

theorem kept (place : Place front rest done l since r behind) (drive : isDrive since.reverse rest = true) : Kept front rest :=
  ⟨done, l, r, behind, place.split.trans (if_pos drive), place.before, place.after⟩

theorem cut (place : Place front rest done l since r behind) (drive : isDrive since.reverse rest ≠ true) : Cut front rest := by
  refine ⟨done ++ [l], r :: behind, by simp, by simp, ?_, place.before, place.after⟩
  rw [place.split, if_neg drive, List.append_assoc]
  rfl

end Place

-- The reversed text of the scan, read as the text it is.
theorem isDrive_exact {since : Text} : isDrive since.reverse rest = true ↔
    ∃ letter, since = [letter] ∧ Text.isLetter letter = true ∧ (rest.head? = some '/' ∨ rest.head? = some '\\') := by
  cases since with
  | nil => simp [isDrive]
  | cons c more =>
    cases more with
    | nil => simp [isDrive]
    | cons d others =>
      rw [isDrive_deep (by simp)]
      simp

theorem unled_of_rooted {part : Text} (rooted : part = [] ∨ Suggestion.isRooted part = true) :
    part.head? ≠ some '/' ∧ part.head? ≠ some '\\' := by
  cases part with
  | nil => simp
  | cons c r =>
    have root : Suggestion.isRooted (c :: r) = true := rooted.resolve_left (by simp)
    constructor
    · intro led
      cases Option.some.inj led
      simp [Suggestion.isRooted] at root
    · intro led
      cases Option.some.inj led
      simp [Suggestion.isRooted] at root

-- Nothing is lost of a list; a colon stays in its entry exactly if it is a drive colon, seen from
-- the nearest boundary; and entries without colons that are empty or rooted are found again.
theorem split_exact (paths : Text) :
    Text.join [':'] (split paths) = paths ∧
    (∀ front rest, paths = front ++ ':' :: rest → (Cut front rest ↔ ¬ Kept front rest) ∧
      ∃ since, (∀ other, Since front rest other ↔ other = since) ∧
        (Kept front rest ↔
          ∃ letter, since = [letter] ∧ Text.isLetter letter = true ∧ (rest.head? = some '/' ∨ rest.head? = some '\\'))) ∧
    ∀ parts, parts ≠ [] → (∀ part ∈ parts, ':' ∉ part ∧ (part = [] ∨ Suggestion.isRooted part = true)) →
      paths = Text.join [':'] parts → split paths = parts := by
  refine ⟨join_splitFrom [] [] paths, ?_, ?_⟩
  · intro front rest _
    obtain ⟨done, l, since, r, behind, place⟩ := place_exists front rest
    have kept_iff : Kept front rest ↔ isDrive since.reverse rest = true :=
      ⟨fun kept => by_contra fun other => not_kept_of_cut (place.cut other) kept, place.kept⟩
    refine ⟨⟨not_kept_of_cut, fun other => place.cut fun drive => other (place.kept drive)⟩, since, ?_, kept_iff.trans isDrive_exact⟩
    intro other
    constructor
    · exact fun found => since_unique found place.nearest
    · exact fun same => same ▸ place.nearest
  · intro parts some_ each joined
    rw [joined]
    exact split_join some_ (fun part among => (each part among).1) fun part among => unled_of_rooted (each part among).2

theorem split_exact_drives :
    Kept "./lib:C:\\a.jar;D".toList "/b:x".toList ∧
    (∀ part ∈ ["~".toList, [], "./a".toList], ':' ∉ part ∧ (part = [] ∨ Suggestion.isRooted part = true)) ∧
    split "~::./a".toList = ["~".toList, [], "./a".toList] := by
  have exact_ := split_exact "./lib:C:\\a.jar;D:/b:x".toList
  obtain ⟨_, since, unique, kept_iff⟩ := exact_.2.1 "./lib:C:\\a.jar;D".toList "/b:x".toList rfl
  have single : ['D'] = since := by
    apply (unique ['D']).mp
    refine ⟨"./lib:C:\\a.jar;".toList, rfl, .inr (.inl ⟨"./lib:C:\\a.jar".toList, rfl⟩), by simp, ?_⟩
    intro x y whole
    cases x with
    | nil => simp at whole
    | cons c x => simp at whole
  have each : ∀ part ∈ ["~".toList, [], "./a".toList], ':' ∉ part ∧ (part = [] ∨ Suggestion.isRooted part = true) := by decide
  exact ⟨kept_iff.mpr ⟨'D', single.symm, by decide +kernel, .inl rfl⟩, each,
    (split_exact "~::./a".toList).2.2 _ (by simp) each rfl⟩

end PortableActions.CommandLine.PathList
