import PortableActions.Proofs.Template.Items
-- Where a planned word mentions the classpath. Planning hides no mention, and it makes one
-- only if the brace that it puts behind a path closes a marker that the path left open.
namespace PortableActions.Template.Suggestion

theorem mentionsDeps_exact {t : Text} : mentionsDeps t = true ↔ Marker.deps <:+: t := Text.mentions_exact (by decide)

-- Characters that cannot begin or end the marker.

theorem deps_cons {c : Char} {t : Text} (other : c ≠ '{') : Marker.deps <:+: c :: t ↔ Marker.deps <:+: t := Text.infix_cons other

theorem deps_snoc {c : Char} {t : Text} (other : c ≠ '}') : Marker.deps <:+: t ++ [c] ↔ Marker.deps <:+: t := by
  rw [List.infix_concat_iff, or_iff_right]
  rintro ⟨front, whole⟩
  have last : front ++ Marker.deps.dropLast ++ ['}'] = t ++ [c] := by rw [List.append_assoc]; exact whole
  exact other (List.singleton_inj.mp (List.append_inj_right' last rfl)).symm

theorem deps_around {a b : Text} {c : Char} (outside : c ∉ Marker.deps) :
    Marker.deps <:+: a ++ c :: b ↔ Marker.deps <:+: a ∨ Marker.deps <:+: b := Text.infix_around outside

-- A path that ends in a marker without its last brace.
def Completes (path : Text) : Prop := Marker.deps.dropLast <:+ path

instance (path : Text) : Decidable (Completes path) := inferInstanceAs (Decidable (_ <:+ _))

theorem deps_braced {path : Text} (led : Led path) :
    Marker.deps <:+: braced path ↔ Marker.deps <:+: path ∨ Completes path := by
  obtain ⟨root, body, rfl, isRoot⟩ := led
  have apart : '{' ≠ root := by rintro rfl; cases isRoot
  have opened : Marker.deps <:+: '{' :: (root :: '/' :: body ++ ['}']) ↔ Marker.deps <:+: root :: '/' :: body ++ ['}'] := by
    rw [List.infix_cons_iff, or_iff_right]
    exact fun leads => apart (List.cons_prefix_cons.mp (List.cons_prefix_cons.mp leads).2).1
  have closed : Marker.deps <:+ root :: '/' :: body ++ ['}'] ↔ Completes (root :: '/' :: body) := by
    have split : Marker.deps = Marker.deps.dropLast ++ ['}'] := rfl
    rw [split, List.suffix_append_inj_of_length_eq rfl]
    simp [Completes]
  rw [braced, List.singleton_append, List.cons_append, opened, List.infix_concat_iff, closed, or_comm]

-- Rooting the parts of a word.

theorem deps_rootPart (part : Text) : Marker.deps <:+: rootPart part ↔ Marker.deps <:+: part := by
  unfold rootPart
  split
  · rfl
  · exact (deps_cons (by decide)).trans (deps_cons (by decide))

theorem deps_parts (w : Text) : (∃ part ∈ classpathParts w, Marker.deps <:+: part) ↔ Marker.deps <:+: w := by
  obtain ⟨k, split⟩ := classpathParts_split w
  have whole : Marker.deps <:+: w ↔ ∃ part ∈ classpathParts w ++ List.replicate k [], Marker.deps <:+: part := by
    rw [← split, ← Text.infix_join (c := ':') (by decide) (by decide), Text.join_splitOn]
  have blank : ¬ Marker.deps <:+: ([] : Text) := by simp [Marker.deps]
  rw [whole]
  constructor
  · rintro ⟨part, among, inside⟩
    exact ⟨part, List.mem_append_left _ among, inside⟩
  · rintro ⟨part, among, inside⟩
    rcases List.mem_append.mp among with left | right
    · exact ⟨part, left, inside⟩
    · exact absurd ((List.mem_replicate.mp right).2 ▸ inside) blank

theorem deps_rooted (w : Text) : Marker.deps <:+: rooted w ↔ Marker.deps <:+: w := by
  unfold rooted
  split
  · rw [Text.infix_join (by decide) (by decide), ← deps_parts w]
    simp [deps_rootPart]
  split
  · rfl
  · exact (deps_cons (by decide)).trans (deps_cons (by decide))

-- The items of a word, written or read: no mention reaches over a colon.
def Divides (show_ : Item → Text) : Prop :=
  ∀ a b, Marker.deps <:+: a ++ (show_ .colon ++ b) ↔ Marker.deps <:+: a ∨ Marker.deps <:+: b

theorem deps_listed {show_ : Item → Text} (divides : Divides show_) (parts : List Text) :
    Marker.deps <:+: (listed parts).flatMap show_ ↔ ∃ item ∈ listed parts, Marker.deps <:+: show_ item := by
  have blank : ¬ Marker.deps <:+: ([] : Text) := by simp [Marker.deps]
  have colon : ¬ Marker.deps <:+: show_ .colon := by simpa [blank] using divides [] []
  induction parts with
  | nil => simp [listed, blank]
  | cons first rest ih =>
    cases rest with
    | nil => simp [listed]
    | cons next more =>
      rw [listed, List.flatMap_cons, List.flatMap_cons, divides _ _]
      simp [colon, ih]

theorem deps_items {show_ : Item → Text} (divides : Divides show_) (w : Text) :
    Marker.deps <:+: (items w).flatMap show_ ↔ ∃ item ∈ items w, Marker.deps <:+: show_ item := by
  unfold items
  split
  · dsimp only
    split
    · simp
    · exact deps_listed divides _
  split <;> simp

theorem deps_write {w : Text} {item : Item} (among : item ∈ items w) :
    Marker.deps <:+: item.write ↔ Marker.deps <:+: item.read ∨ ∃ path, item = .rooted path ∧ Completes path := by
  cases item with
  | plain t => simp [Item.write, Item.read]
  | rooted path => simp [Item.write, Item.read, deps_braced (items_led among)]
  | colon => simp [Item.write, Item.read]; decide
  | home => simp [Item.write, Item.read]; decide

-- Braces are put around a path that they complete a marker in.
def Completed (w : Text) : Prop := ∃ path, .rooted path ∈ items w ∧ Completes path

def Item.isCompleted : Item → Bool
  | .rooted path => decide (Completes path)
  | _ => false

theorem completed_any {w : Text} : Completed w ↔ (items w).any Item.isCompleted = true := by
  rw [List.any_eq_true]
  constructor
  · rintro ⟨path, among, completes⟩
    exact ⟨_, among, decide_eq_true completes⟩
  · rintro ⟨item, among, found⟩
    cases item with
    | rooted path => exact ⟨path, among, of_decide_eq_true found⟩
    | plain | colon | home => cases found

instance (w : Text) : Decidable (Completed w) := decidable_of_iff _ completed_any.symm

theorem deps_word (w : Text) : Marker.deps <:+: word w ↔ Marker.deps <:+: w ∨ Completed w := by
  have written : Divides Item.write := by
    intro a b
    have split : a ++ (Item.colon.write ++ b) = a ++ ['{'] ++ ':' :: '}' :: b := by simp [Item.write, Marker.pathSeparator]
    rw [split, deps_around (by decide), deps_snoc (by decide), deps_cons (by decide)]
  have read : Divides Item.read := fun a b => deps_around (by decide)
  rw [word_items, deps_items written, ← deps_rooted w, rooted_items, deps_items read]
  constructor
  · rintro ⟨item, among, inside⟩
    rcases (deps_write among).mp inside with plain | ⟨path, rfl, completes⟩
    · exact .inl ⟨item, among, plain⟩
    · exact .inr ⟨path, among, completes⟩
  · rintro (⟨item, among, inside⟩ | ⟨path, among, completes⟩)
    · exact ⟨item, among, (deps_write among).mpr (.inl inside)⟩
    · exact ⟨_, among, (deps_write among).mpr (.inr ⟨path, rfl, completes⟩)⟩

theorem mentions_open {w : Text} (open_ : ¬ Completed w) : mentionsDeps (word w) = mentionsDeps w := by
  rw [Bool.eq_iff_iff, mentionsDeps_exact, mentionsDeps_exact, deps_word, or_iff_left open_]

theorem deps_wrapArgument (b : Text) : Marker.deps <:+: wrapArgument b ↔ Marker.deps <:+: b := by
  unfold wrapArgument
  split
  · rename_i mentions
    have inside := mentionsDeps_exact.mp mentions
    refine iff_of_true ?_ inside
    obtain ⟨front, back, rfl⟩ := inside
    refine ⟨['@', '['] ++ Text.replaceAll [']'] Marker.escapedBracket front,
      Text.replaceAll [']'] Marker.escapedBracket back ++ [']'], ?_⟩
    simp [Text.replaceAll_char, Marker.deps]
  · rfl

-- Clean text has whole markers only.

theorem deps_last {t : Text} (clean : Clean t) (last : t.getLast? = some '}') : Marker.deps <:+ t := by
  induction clean with
  | nil => cases last
  | @char c r _ closes _ ih =>
    cases r with
    | nil => exact absurd (Option.some.inj last) closes
    | cons d rest => exact (ih (by simpa using last)).trans (List.suffix_cons c _)
  | @deps r _ ih =>
    cases r with
    | nil => exact List.suffix_refl _
    | cons d rest => exact (ih (by simpa [List.getLast?_append] using last)).trans (List.suffix_append _ _)

theorem not_completes {path : Text} (clean : Clean path) : ¬ Completes path := by
  rintro ⟨front, rfl⟩
  have whole := deps_last clean (by simp [Marker.deps])
  have same := List.suffix_of_suffix_length_le (List.suffix_append front Marker.deps.dropLast)
    ((List.suffix_cons _ _ : Marker.deps.drop 1 <:+ Marker.deps).trans whole) (by decide)
  exact absurd same (by decide)

theorem mentions_word {w : Text} (tame : Tame [] w) : mentionsDeps (word w) = mentionsDeps w := by
  refine mentions_open ?_
  rintro ⟨path, among, completes⟩
  exact not_completes (items_fit (by simp [Apart]) tame _ among).1.clean completes

end PortableActions.Template.Suggestion
