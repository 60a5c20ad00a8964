import PortableActions.Proofs.CommandLine.Contribution
import PortableActions.Proofs.CommandLine.Enclosure
import PortableActions.Proofs.Template.Completion
-- How much longer planning makes a word, with the classpath in its place: two characters for
-- every path that is rooted, and two for every bracket that is escaped.
namespace PortableActions.Template.Suggestion

-- How many parts of a word are rooted.
def rootings (w : Text) : Nat :=
  if looksLikeClasspath w then (classpathParts w).countP fun part => rootPart part ≠ part
  else if isAbsolute w || (segments w).length < 2 || isRooted w then 0
  else 1

end PortableActions.Template.Suggestion

namespace PortableActions.CommandLine
open PortableActions.Template
open PortableActions.Template.Suggestion (Item items listed rooted word braced Led Completes Completed rootings)

-- Filling a text that is cut where no marker reaches over.

theorem filled_split (joined : Text) {c : Char} (outside : c ∉ Marker.deps) (a b : Text) :
    filled joined (a ++ c :: b) = filled joined a ++ c :: filled joined b :=
  Text.replaceAll_split (by decide) outside joined a b

theorem filled_snoc (joined : Text) {c : Char} (other : c ≠ '}') (a : Text) : filled joined (a ++ [c]) = filled joined a ++ [c] := by
  refine Text.replaceAll_snoc (by decide) joined fun ⟨front, whole⟩ => ?_
  have same := congrArg List.getLast? whole
  rw [List.getLast?_append, List.getLast?_concat] at same
  exact other (Option.some.inj same).symm

theorem filled_parted (joined : Text) {a b : Text} (parted : Parted a b) :
    filled joined (a ++ b) = filled joined a ++ filled joined b := by
  rcases parted with last | first
  · rcases List.eq_nil_or_concat a with rfl | ⟨front, c, rfl⟩
    · rfl
    · have split : c ∉ Marker.deps := last c (by simp)
      rw [List.concat_eq_append, List.append_assoc, List.singleton_append, filled_split joined split, filled_split joined split]
      simp [filled, Text.replaceAll_nil]
  · cases b with
    | nil => simp [filled, Text.replaceAll_nil]
    | cons c r =>
      have split := first c rfl
      have other : c ≠ '{' := by rintro rfl; exact split (by decide)
      rw [filled_split joined split, filled_char joined r other]

theorem boundary_filled (joined : Text) {after : Text} (boundary : Boundary after) : Boundary (filled joined after) := by
  cases after with
  | nil => trivial
  | cons c r =>
    have other : c ≠ '{' := by rcases boundary with rfl | rfl | rfl <;> decide
    rw [filled_char joined r other]
    exact boundary

theorem filled_braced (joined : Text) {path : Text} (led : Led path) (open_ : ¬ Completes path) :
    filled joined (braced path) = braced (filled joined path) := by
  obtain ⟨root, body, rfl, isRoot⟩ := led
  have apart : root ≠ '{' := by rintro rfl; cases isRoot
  have unseen : Text.literal Marker.deps ('{' :: root :: '/' :: (body ++ ['}'])) = none := by
    rw [Text.literal_none (by decide)]
    exact fun leads => apart (List.cons_prefix_cons.mp (List.cons_prefix_cons.mp leads).2).1.symm
  have last : filled joined (root :: '/' :: body ++ ['}']) = filled joined (root :: '/' :: body) ++ ['}'] := by
    refine Text.replaceAll_snoc (by decide) joined fun ends => open_ ?_
    have split : Marker.deps = Marker.deps.dropLast ++ ['}'] := rfl
    rw [split, List.suffix_append_inj_of_length_eq rfl] at ends
    exact ends.1
  have whole : braced (root :: '/' :: body) = '{' :: root :: '/' :: (body ++ ['}']) := rfl
  rw [whole, filled, Text.replaceAll_plain unseen, ← filled]
  exact congrArg ('{' :: ·) last

-- What a text costs in the end, if the stages take what they have to take of its braces.
def Paid (price : Nat) (t : Text) : Prop := ∃ j, Braces Inner j t ∧ weight t ≤ price + 2 * j

theorem Paid.plain (t : Text) : Paid (weight t) t := ⟨0, .none_ t, Nat.le_refl _⟩

theorem Paid.append (one : Paid m a) (two : Paid n b) : Paid (m + n) (a ++ b) := by
  obtain ⟨i, bracesOne, mostOne⟩ := one
  obtain ⟨j, bracesTwo, mostTwo⟩ := two
  refine ⟨i + j, bracesOne.append (fun _ _ inner => inner) bracesTwo, ?_⟩
  rw [weight_append]
  omega

theorem Paid.braced {held : Text} (inner : Inner held) : Paid (weight held) (braced held) := by
  refine ⟨1, ?_, ?_⟩
  · have whole : Suggestion.braced held = '{' :: ([] ++ (held ++ '}' :: [])) := rfl
    rw [whole]
    exact .part inner .nil
  · rw [Suggestion.braced, weight_append, weight_append]
    simp [weight, Marker.standIn]
    omega

theorem Paid.single {k : Char} (known : k ∈ ['/', ':', '~', ';']) (quiet : k ≠ Marker.standIn) : Paid 1 ['{', k, '}'] := by
  have inner : Inner [k] := .inr ⟨k, known, rfl⟩
  have price : CommandLine.weight [k] = 1 := by simp [CommandLine.weight, quiet]
  exact price ▸ .braced inner

theorem paid_item (joined : Text) {item : Item} (led : ∀ path, item = .rooted path → Led path ∧ ¬ Completes path) :
    Paid (weight (filled joined item.read)) (filled joined item.write) := by
  cases item with
  | plain t => exact .plain _
  | rooted path =>
    obtain ⟨led, open_⟩ := led path rfl
    rw [Item.write, Item.read, filled_braced joined led open_]
    exact .braced (.inl (led_filled joined led))
  | colon => exact .single (by simp) (by decide)
  | home => exact .single (by simp) (by decide)

theorem paid_listed (joined : Text) {parts : List Text}
    (each : ∀ item ∈ listed parts, Paid (weight (filled joined item.read)) (filled joined item.write)) :
    Paid (weight (filled joined ((listed parts).flatMap Item.read))) (filled joined ((listed parts).flatMap Item.write)) := by
  induction parts with
  | nil => exact .plain _
  | cons first rest ih =>
    cases rest with
    | nil => simpa [listed] using each
    | cons next more =>
      rw [listed, List.forall_mem_cons, List.forall_mem_cons] at each
      obtain ⟨here, _, later⟩ := each
      have colon : Paid (weight [':']) Marker.pathSeparator := .single (by simp) (by decide)
      have read : filled joined ((listed (first :: next :: more)).flatMap Item.read) =
          filled joined (Suggestion.itemOf first).read ++ ([':'] ++ filled joined ((listed (next :: more)).flatMap Item.read)) :=
        filled_split joined (by decide) _ _
      have write : filled joined ((listed (first :: next :: more)).flatMap Item.write) =
          filled joined (Suggestion.itemOf first).write ++
            (Marker.pathSeparator ++ filled joined ((listed (next :: more)).flatMap Item.write)) := by
        have split : (listed (first :: next :: more)).flatMap Item.write =
            ((Suggestion.itemOf first).write ++ ['{']) ++ ':' :: '}' :: (listed (next :: more)).flatMap Item.write := by
          simp [listed, Item.write, Marker.pathSeparator]
        rw [split, filled_split joined (by decide), filled_snoc joined (by decide), filled_char joined _ (by decide)]
        simp [Marker.pathSeparator]
      rw [read, write, weight_append, weight_append]
      exact here.append (colon.append (ih later))

theorem paid_word (joined : Text) {w : Text} (open_ : ¬ Completed w) :
    Paid (weight (filled joined (rooted w))) (filled joined (word w)) := by
  have each : ∀ item ∈ items w, Paid (weight (filled joined item.read)) (filled joined item.write) := by
    intro item among
    refine paid_item joined fun path same => ?_
    subst same
    exact ⟨Suggestion.items_led among, fun completes => open_ ⟨path, among, completes⟩⟩
  rw [Suggestion.rooted_items, Suggestion.word_items]
  rcases Suggestion.items_cases w with ⟨item, single⟩ | ⟨parts, list⟩
  · simpa [single] using each
  · rw [list] at each ⊢
    exact paid_listed joined each

-- What rooting adds.

theorem weight_rootPart (joined part : Text) : weight (filled joined (Suggestion.rootPart part)) =
    weight (filled joined part) + 2 * if Suggestion.rootPart part ≠ part then 1 else 0 := by
  by_cases same : Suggestion.rootPart part = part
  · simp [same]
  · have rooted : Suggestion.rootPart part = '.' :: '/' :: part := by
      unfold Suggestion.rootPart at same ⊢
      split
      · rename_i stays
        rw [if_pos stays] at same
        exact absurd rfl same
      · rfl
    rw [if_pos same, rooted, filled_char joined _ (by decide), filled_char joined _ (by decide), weight_cons, weight_cons '/']
    simp [weight, Marker.standIn]
    omega

theorem weight_parts (joined : Text) (parts : List Text) :
    weight (filled joined (Text.join [':'] (parts.map Suggestion.rootPart))) =
      weight (filled joined (Text.join [':'] parts)) + 2 * parts.countP fun part => Suggestion.rootPart part ≠ part := by
  induction parts with
  | nil => rfl
  | cons first rest ih =>
    have here := weight_rootPart joined first
    cases rest with
    | nil => simpa [Text.join, List.countP_cons] using here
    | cons next more =>
      have between : ∀ a b, weight (filled joined (a ++ [':'] ++ b)) = weight (filled joined a) + 1 + weight (filled joined b) := by
        intro a b
        rw [List.append_assoc, List.singleton_append, filled_split joined (by decide), weight_append, weight_cons]
        simp [weight, Marker.standIn]
        omega
      have counted := List.countP_cons (p := fun part => decide (Suggestion.rootPart part ≠ part)) (a := first) (l := next :: more)
      simp only [decide_eq_true_eq] at counted
      rw [List.map_cons, Text.join_cons (by simp), Text.join_cons (by simp), between, between, ih, here, counted]
      omega

theorem weight_rooted (joined w : Text) : weight (filled joined (rooted w)) ≤ weight (filled joined w) + 2 * rootings w := by
  unfold rooted rootings
  split
  · rename_i looks
    obtain ⟨k, split⟩ := Suggestion.classpath_joined looks
    have outside : Outside (List.replicate k ':') := by
      intro c first
      rw [List.mem_replicate.mp (List.mem_of_mem_head? first) |>.2]
      decide
    have whole : weight (filled joined (Text.join [':'] (Suggestion.classpathParts w))) ≤ weight (filled joined w) := by
      conv => rhs; rw [split, filled_parted joined (.inr outside), weight_append]
      omega
    rw [weight_parts]
    omega
  split
  · omega
  · rw [List.cons_append, List.singleton_append, filled_char joined _ (by decide), filled_char joined _ (by decide),
      weight_cons, weight_cons '/']
    simp [weight, Marker.standIn]
    omega

-- What escaping adds: braces around so many brackets.
inductive Escaping : Nat → Text → Text → Prop where
  | nil : Escaping 0 [] []
  | keep {n : Nat} {x y : Text} (c : Char) : Escaping n x y → Escaping n (c :: x) (c :: y)
  | escape {n : Nat} {x y : Text} : Escaping n x y → Escaping (n + 1) (']' :: x) ('{' :: ']' :: '}' :: y)

theorem Escaping.front (t : Text) (escaping : Escaping n x y) : Escaping n (t ++ x) (t ++ y) := by
  induction t with
  | nil => exact escaping
  | cons c r ih => exact .keep c ih

theorem Escaping.refl (t : Text) : Escaping 0 t t := by
  have whole : Escaping 0 (t ++ []) (t ++ []) := .front t .nil
  rwa [List.append_nil] at whole

theorem Escaping.kept {c : Char} {r y : Text} (other : c ≠ ']') (escaping : Escaping n (c :: r) y) :
    ∃ z, y = c :: z ∧ Escaping n r z := by
  cases escaping with
  | keep _ rest => exact ⟨_, rfl, rest⟩
  | escape => exact absurd rfl other

theorem Escaping.split {a b y : Text} (escaping : Escaping n (a ++ b) y) :
    ∃ i j u v, y = u ++ v ∧ Escaping i a u ∧ Escaping j b v := by
  induction a generalizing n y with
  | nil => exact ⟨0, n, [], y, rfl, .nil, escaping⟩
  | cons c r ih =>
    cases escaping with
    | keep _ rest =>
      obtain ⟨i, j, u, v, rfl, left, right⟩ := ih rest
      exact ⟨i, j, c :: u, v, rfl, .keep c left, right⟩
    | escape rest =>
      obtain ⟨i, j, u, v, rfl, left, right⟩ := ih rest
      exact ⟨i + 1, j, '{' :: ']' :: '}' :: u, v, rfl, .escape left, right⟩

theorem Escaping.inner {held y : Text} (inner : Inner held) (escaping : Escaping n held y) : Inner y := by
  rcases inner with ⟨root, body, rfl, isRoot⟩ | ⟨k, among, rfl⟩
  · obtain ⟨_, rfl, rest⟩ := escaping.kept (by rintro rfl; cases isRoot)
    obtain ⟨z, rfl, _⟩ := rest.kept (by decide)
    exact .inl ⟨root, z, rfl, isRoot⟩
  · obtain ⟨_, rfl, rest⟩ := escaping.kept (by rintro rfl; simp at among)
    cases rest
    exact .inr ⟨k, among, rfl⟩

theorem Escaping.braces {j : Nat} {x y : Text} (escaping : Escaping n x y) (braces : Braces Inner j x) : Braces Inner j y := by
  induction braces generalizing n y with
  | nil => cases escaping; exact .nil
  | char c _ ih =>
    cases escaping with
    | keep _ rest => exact .char c (ih rest)
    | escape rest => exact .behind ['{', ']', '}'] (ih rest)
  | @part j held r inner _ ih =>
    have whole : Escaping n ('{' :: (held ++ '}' :: r)) y := escaping
    obtain ⟨_, rfl, opened⟩ := whole.kept (by decide)
    obtain ⟨_, _, u, _, rfl, inside, closed⟩ := opened.split
    obtain ⟨_, rfl, behind⟩ := closed.kept (by decide)
    exact .part (inside.inner inner) (ih behind)

theorem Escaping.weight (escaping : Escaping n x y) : weight y = weight x + 2 * n := by
  induction escaping with
  | nil => rfl
  | @keep n x y c _ ih => rw [weight_cons c x, weight_cons c y, ih]; omega
  | @escape n x y _ ih =>
    have whole : '{' :: ']' :: '}' :: y = ['{', ']', '}'] ++ y := rfl
    rw [whole, weight_append, weight_cons, ih]
    simp [CommandLine.weight, Marker.standIn]
    omega

theorem Paid.escaped (paid : Paid m x) (escaping : Escaping n x y) : Paid (m + 2 * n) y := by
  obtain ⟨j, braces, most⟩ := paid
  refine ⟨j, escaping.braces braces, ?_⟩
  rw [escaping.weight]
  omega

theorem filled_source (joined s : Text) : Escaping (s.count ']') (filled joined s) (filled joined (source true s)) := by
  induction size : s.length using Nat.strongRecOn generalizing s with
  | ind n ih =>
    by_cases bracket : ']' ∈ s
    · obtain ⟨a, b, rfl, free⟩ := List.eq_append_cons_of_mem bracket
      have later := ih b.length (by simp at size; omega) b rfl
      have written : source true (a ++ ']' :: b) = (a ++ ['{']) ++ ']' :: '}' :: source true b := by
        rw [source_append, source_same true free, source_cons]
        simp [Marker.escapedBracket]
      have counted : (a ++ ']' :: b).count ']' = b.count ']' + 1 := by simp [List.count_eq_zero.mpr free]
      rw [counted, written, filled_split joined (by decide), filled_split joined (by decide), filled_snoc joined (by decide),
        filled_char joined _ (by decide), List.append_assoc]
      exact .front _ (.escape later)
    · rw [source_same true bracket, List.count_eq_zero.mpr bracket]
      exact .refl _

end PortableActions.CommandLine
