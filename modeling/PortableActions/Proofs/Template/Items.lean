import PortableActions.Proofs.Template.Braces
import PortableActions.Proofs.Template.Words
-- A planned word as the items it is written from: text that is left alone, rooted paths
-- in braces, and the markers between and instead of them. Each item also reads as what a
-- POSIX shell is to see of it.
namespace PortableActions.Template.Suggestion

inductive Item where
  | plain (t : Text)
  | rooted (path : Text)
  | colon
  | home
  deriving DecidableEq, Repr

namespace Item

def write : Item → Text
  | plain t => t
  | rooted path => braced path
  | colon => Marker.pathSeparator
  | home => Marker.home

def read : Item → Text
  | plain t => t
  | rooted path => path
  | colon => [':']
  | home => ['~']

end Item

def itemOf (part : Text) : Item :=
  if startsRooted part then .rooted part
  else if part = ['~'] then .home
  else .plain part

def listed : List Text → List Item
  | [] => []
  | [part] => [itemOf part]
  | part :: next :: rest => itemOf part :: .colon :: listed (next :: rest)

def items (w : Text) : List Item :=
  if looksLikeClasspath w then
    let parts := (classpathParts w).map rootPart
    if startsRooted (parts.headD []) then [.rooted (Text.join [':'] parts)] else listed parts
  else if isAbsolute w || (segments w).length < 2 then [.plain w]
  else [.rooted (if isRooted w then w else ['.', '/'] ++ w)]

theorem items_cases (w : Text) : (∃ item, items w = [item]) ∨ ∃ parts, items w = listed parts := by
  unfold items
  split
  · dsimp only
    split
    · exact .inl ⟨_, rfl⟩
    · exact .inr ⟨_, rfl⟩
  split
  · exact .inl ⟨_, rfl⟩
  · exact .inl ⟨_, rfl⟩

-- A word with its relative paths rooted and no marker put in.
def rooted (w : Text) : Text :=
  if looksLikeClasspath w then Text.join [':'] ((classpathParts w).map rootPart)
  else if isAbsolute w || (segments w).length < 2 || isRooted w then w
  else ['.', '/'] ++ w

theorem itemOf_write (part : Text) : (itemOf part).write = markPart part := by
  unfold itemOf markPart
  split
  · rfl
  split <;> rfl

theorem itemOf_read (part : Text) : (itemOf part).read = part := by
  unfold itemOf
  split
  · rfl
  split
  · rename_i same
    rw [same]
    rfl
  · rfl

theorem listed_flatMap (show_ : Item → Text) (parts : List Text) :
    (listed parts).flatMap show_ = Text.join (show_ .colon) (parts.map fun part => show_ (itemOf part)) := by
  induction parts with
  | nil => rfl
  | cons first rest ih =>
    cases rest with
    | nil => simp [listed, Text.join]
    | cons next more =>
      rw [List.map_cons, Text.join_cons (by simp), ← ih, listed, List.flatMap_cons, List.flatMap_cons, List.append_assoc]

theorem listed_write (parts : List Text) :
    (listed parts).flatMap Item.write = Text.join Marker.pathSeparator (parts.map markPart) := by
  rw [listed_flatMap]
  simp only [itemOf_write]
  rfl

theorem listed_read (parts : List Text) : (listed parts).flatMap Item.read = Text.join [':'] parts := by
  rw [listed_flatMap]
  simp only [itemOf_read, List.map_id']
  rfl

theorem word_items (w : Text) : word w = (items w).flatMap Item.write := by
  unfold word classpath? path? items
  by_cases looks : looksLikeClasspath w = true
  · simp only [looks, if_true]
    split
    · simp [Item.write]
    · simp [listed_write]
  · simp only [looks]
    by_cases other : (isAbsolute w || decide ((segments w).length < 2)) = true
    · rw [if_pos other, if_pos other]
      simp [Item.write]
    · rw [if_neg other, if_neg other]
      simp [Item.write]

theorem rooted_items (w : Text) : rooted w = (items w).flatMap Item.read := by
  unfold rooted items
  by_cases looks : looksLikeClasspath w = true
  · simp only [looks, if_true]
    split
    · simp [Item.read]
    · simp [listed_read]
  · simp only [looks]
    by_cases other : (isAbsolute w || decide ((segments w).length < 2)) = true
    · have whole : (isAbsolute w || decide ((segments w).length < 2) || isRooted w) = true := by rw [other, Bool.true_or]
      rw [if_pos whole, if_pos other]
      simp [Item.read]
    · rw [if_neg other, Bool.eq_false_iff.mpr other, Bool.false_or]
      simp [Item.read]

-- Rooting puts roots in, and leaves out the colons at the end of a list.
theorem rooted_inserted (w : Text) : ∃ u k, w = u ++ List.replicate k ':' ∧ Inserted ['.', '/'] u (rooted w) := by
  unfold rooted
  split
  · rename_i looks
    obtain ⟨k, joined⟩ := classpath_joined looks
    have each : List.Forall₂ (Inserted ['.', '/']) (classpathParts w) ((classpathParts w).map rootPart) :=
      List.forall₂_map_right_iff.mpr (List.forall₂_same.mpr fun part _ => rootPart_rooting part)
    exact ⟨_, k, joined, .join (.refl _ _) each⟩
  split
  · exact ⟨w, 0, by simp, .refl _ _⟩
  · exact ⟨w, 0, by simp, .front (by simp) (.refl _ _)⟩

-- Clean text without some further characters.
structure Tame (banned : List Char) (t : Text) : Prop where
  clean : Clean t
  free : ∀ c ∈ banned, c ∉ t

theorem Tame.append {a b : Text} (one : Tame banned a) (two : Tame banned b) : Tame banned (a ++ b) :=
  ⟨one.clean.append two.clean, fun c bad inside => by
    rcases List.mem_append.mp inside with left | right
    · exact one.free c bad left
    · exact two.free c bad right⟩

-- What a banned character must not be: rooting and joining put these in.
def Apart (banned : List Char) : Prop := ∀ c ∈ ['.', '/', ':'], c ∉ banned

theorem Apart.tame {t : Text} (apart : Apart banned) (made : ∀ c ∈ t, c ∈ ['.', '/', ':']) : Tame banned t := by
  refine ⟨.braceless (fun inside => ?_) (fun inside => ?_), fun c bad inside => apart c (made c inside) bad⟩
  · have := made _ inside
    simp at this
  · have := made _ inside
    simp at this

theorem Tame.parts {w part : Text} (tame : Tame banned w) (among : part ∈ classpathParts w) : Tame banned part := by
  obtain ⟨k, split⟩ := classpathParts_split w
  have inside : part ∈ Text.splitOn ':' w := split ▸ List.mem_append_left _ among
  exact ⟨tame.clean.parts (by decide) part inside, fun c bad here => tame.free c bad (Text.mem_of_mem_splitOn inside here)⟩

theorem Tame.rootPart {part : Text} (apart : Apart banned) (tame : Tame banned part) : Tame banned (rootPart part) := by
  unfold Suggestion.rootPart
  split
  · exact tame
  · exact (apart.tame (by simp)).append tame

theorem Tame.join {parts : List Text} (apart : Apart banned) (each : ∀ part ∈ parts, Tame banned part) :
    Tame banned (Text.join [':'] parts) := by
  refine ⟨.join (.braceless (by simp) (by simp)) fun part among => (each part among).clean, fun c bad inside => ?_⟩
  rcases Text.mem_of_mem_join inside with between | ⟨part, among, here⟩
  · exact apart c (by simp_all) bad
  · exact (each part among).free c bad here

-- A path that the planner puts into braces.
def Led (path : Text) : Prop := ∃ root body, path = root :: '/' :: body ∧ Marker.isRoot root = true

theorem led_of_startsRooted {part : Text} (starts : startsRooted part = true) : Led part := by
  simp only [startsRooted, Text.startsWith, Bool.or_eq_true, List.isPrefixOf_iff_prefix] at starts
  rcases starts with ⟨rest, rfl⟩ | ⟨rest, rfl⟩
  · exact ⟨'.', rest, rfl, rfl⟩
  · exact ⟨'~', rest, rfl, rfl⟩

theorem led_of_join {first : Text} {rest : List Text} (led : Led first) : Led (Text.join [':'] (first :: rest)) := by
  obtain ⟨root, body, rfl, isRoot⟩ := led
  cases rest with
  | nil => exact ⟨root, body, rfl, isRoot⟩
  | cons next more => exact ⟨root, body ++ [':'] ++ Text.join [':'] (next :: more), by simp [Text.join], isRoot⟩

theorem isRooted_cases {w : Text} (root : isRooted w = true) : w = ['.'] ∨ w = ['~'] ∨ startsRooted w = true := by
  have halves := List.takeWhile_append_dropWhile (p := (· ≠ '/')) (l := w)
  simp only [isRooted, Bool.or_eq_true, decide_eq_true_eq] at root
  cases behind : w.dropWhile (· ≠ '/') with
  | nil =>
    rw [behind, List.append_nil] at halves
    rw [← halves]
    rcases root with dot | tilde
    · exact .inl dot
    · exact .inr (.inl tilde)
  | cons d body =>
    have slash : d = '/' := by
      have some_ : w.dropWhile (· ≠ '/') ≠ [] := by rw [behind]; simp
      have stopped := List.head_dropWhile_not (p := (· ≠ '/')) (l := w) some_
      simp only [behind] at stopped
      exact Decidable.not_not.mp (of_decide_eq_false stopped)
    rw [behind, slash] at halves
    rw [← halves]
    rcases root with dot | tilde
    · rw [dot]
      exact .inr (.inr rfl)
    · rw [tilde]
      exact .inr (.inr rfl)

theorem led_of_isRooted {w : Text} (root : isRooted w = true) (several : 2 ≤ (segments w).length) : Led w := by
  rcases isRooted_cases root with rfl | rfl | starts
  · exact absurd several (by decide)
  · exact absurd several (by decide)
  · exact led_of_startsRooted starts

def Item.Fit (banned : List Char) : Item → Prop
  | plain t => Tame banned t
  | rooted path => Tame banned path ∧ Led path
  | colon => True
  | home => True

-- Every path in braces is led by what roots it.

theorem itemOf_led {part path : Text} (rooted : itemOf part = .rooted path) : Led path := by
  unfold itemOf at rooted
  split at rooted
  · rename_i starts
    cases rooted
    exact led_of_startsRooted starts
  split at rooted <;> cases rooted

theorem listed_led {parts : List Text} {path : Text} (among : .rooted path ∈ listed parts) : Led path := by
  induction parts with
  | nil => cases among
  | cons first rest ih =>
    cases rest with
    | nil => exact itemOf_led (List.mem_singleton.mp among).symm
    | cons next more =>
      rcases List.mem_cons.mp among with here | later
      · exact itemOf_led here.symm
      · exact ih (by simpa using later)

theorem items_led {w path : Text} (among : .rooted path ∈ items w) : Led path := by
  unfold items at among
  split at among
  · dsimp only at among
    split at among
    · rename_i starts
      cases List.mem_singleton.mp among
      cases shown : (classpathParts w).map rootPart with
      | nil => simp [shown, startsRooted, Text.startsWith] at starts
      | cons first rest =>
        rw [shown] at starts
        exact led_of_join (led_of_startsRooted starts)
    · exact listed_led among
  split at among
  · simp at among
  · rename_i relative
    simp only [Bool.or_eq_true, decide_eq_true_eq, not_or, Nat.not_lt] at relative
    cases List.mem_singleton.mp among
    split
    · rename_i root
      exact led_of_isRooted root relative.2
    · exact ⟨'.', w, rfl, rfl⟩

-- What is put in for a word: its path in braces, or a list with separators that show.
theorem word_marked {w : Text} (rewritten : word w ≠ w) :
    (Led (rooted w) ∧ word w = braced (rooted w)) ∨ Marker.pathSeparator <:+: word w := by
  have led : ∀ {path}, .rooted path ∈ items w → Led path := items_led
  have written := word_items w
  have read := rooted_items w
  unfold items at led written read
  by_cases looks : looksLikeClasspath w = true
  · rw [if_pos looks] at led written read
    dsimp only at led written read
    -- A list that starts rooted is put into one pair of braces; otherwise its colons are marked.
    by_cases starts : startsRooted (((classpathParts w).map rootPart).headD []) = true
    · rw [if_pos starts] at led written read
      have path : rooted w = Text.join [':'] ((classpathParts w).map rootPart) := by simpa [Item.read] using read
      refine .inl ⟨path ▸ led (by simp), ?_⟩
      rw [path]
      simpa [Item.write] using written
    · rw [if_neg starts] at written
      obtain ⟨first, second, rest, parts⟩ := looksLike_parts looks
      rw [parts, List.map_cons, List.map_cons, listed, List.flatMap_cons, List.flatMap_cons] at written
      refine .inr ⟨(itemOf (rootPart first)).write, (listed (rootPart second :: rest.map rootPart)).flatMap Item.write, ?_⟩
      rw [written, List.append_assoc]
      rfl
  · rw [if_neg looks] at led written read
    by_cases other : (isAbsolute w || decide ((segments w).length < 2)) = true
    · rw [if_pos other] at written
      exact absurd (by simpa [Item.write] using written) rewritten
    · rw [if_neg other] at led written read
      have path : rooted w = if isRooted w then w else ['.', '/'] ++ w := by simpa [Item.read] using read
      refine .inl ⟨path ▸ led (by simp), ?_⟩
      rw [path]
      simpa [Item.write] using written

theorem itemOf_fit {part : Text} (tame : Tame banned part) : (itemOf part).Fit banned := by
  unfold itemOf
  split
  · rename_i starts
    exact ⟨tame, led_of_startsRooted starts⟩
  split
  · trivial
  · exact tame

theorem listed_fit {parts : List Text} (each : ∀ part ∈ parts, Tame banned part) :
    ∀ item ∈ listed parts, item.Fit banned := by
  induction parts with
  | nil => simp [listed]
  | cons first rest ih =>
    obtain ⟨here, later⟩ := List.forall_mem_cons.mp each
    cases rest with
    | nil => exact List.forall_mem_singleton.mpr (itemOf_fit here)
    | cons next more =>
      exact List.forall_mem_cons.mpr ⟨itemOf_fit here, List.forall_mem_cons.mpr ⟨trivial, ih later⟩⟩

theorem items_fit {w : Text} (apart : Apart banned) (tame : Tame banned w) : ∀ item ∈ items w, item.Fit banned := by
  have parts : ∀ part ∈ (classpathParts w).map rootPart, Tame banned part := by
    intro part among
    obtain ⟨inner, old, rfl⟩ := List.mem_map.mp among
    exact (tame.parts old).rootPart apart
  have led : ∀ {path}, .rooted path ∈ items w → Led path := items_led
  unfold items at led ⊢
  split
  · rename_i looks
    rw [if_pos looks] at led
    dsimp only at led ⊢
    split
    · rename_i starts
      rw [if_pos starts] at led
      exact List.forall_mem_singleton.mpr ⟨.join apart parts, led (by simp)⟩
    · exact listed_fit parts
  rename_i other
  rw [if_neg other] at led
  split
  · exact List.forall_mem_singleton.mpr tame
  · rename_i relative
    rw [if_neg relative] at led
    refine List.forall_mem_singleton.mpr ⟨?_, led (by simp)⟩
    split
    · exact tame
    · exact (apart.tame (by simp)).append tame

theorem Item.Fit.clean {item : Item} (fit : item.Fit banned) : Clean item.read := by
  cases item with
  | plain t => exact Tame.clean fit
  | rooted path => exact fit.1.clean
  | colon => exact .braceless (by simp [Item.read]) (by simp [Item.read])
  | home => exact .braceless (by simp [Item.read]) (by simp [Item.read])

theorem items_clean {shown : List Item} (fits : ∀ item ∈ shown, item.Fit banned) : Clean (shown.flatMap Item.read) := by
  induction shown with
  | nil => exact .nil
  | cons item rest ih =>
    obtain ⟨here, later⟩ := List.forall_mem_cons.mp fits
    exact here.clean.append (ih later)

end PortableActions.Template.Suggestion
