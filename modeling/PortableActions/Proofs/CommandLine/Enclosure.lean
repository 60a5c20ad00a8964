import PortableActions.Proofs.CommandLine.Spending
import PortableActions.Proofs.CommandLine.Stages
import PortableActions.Proofs.Template.Constructs
import PortableActions.Proofs.Template.Wrapping
-- How much the stages take away at least. Whatever a classpath brings along, the braces and
-- brackets that planning has put in are paid back: if a stage does not take these, it takes
-- others in their place.
namespace PortableActions.CommandLine
open PortableActions.Template
open PortableActions.Template.Suggestion (Led)

-- A text with so many parts that open and close alike, one behind the other. Anything may
-- stand between them and inside of them, also more that opens or closes. The condition is
-- on what a part holds and on what follows it.
inductive Encloses (first : Char) (more : Text) (close : Char) (fits : Text → Text → Prop) : Nat → Text → Prop where
  | nil : Encloses first more close fits 0 []
  | char {n : Nat} {r : Text} (c : Char) : Encloses first more close fits n r → Encloses first more close fits n (c :: r)
  | part {n : Nat} {held r : Text} (fit : fits held r) : Encloses first more close fits n r →
      Encloses first more close fits (n + 1) (first :: (more ++ (held ++ close :: r)))

namespace Encloses

variable {first close : Char} {more : Text} {fits : Text → Text → Prop} {m n : Nat} {a b r : Text}

theorem behind (front : Text) (encloses : Encloses first more close fits n r) : Encloses first more close fits n (front ++ r) := by
  induction front with
  | nil => exact encloses
  | cons c rest ih => exact .char c ih

theorem none_ (t : Text) : Encloses first more close fits 0 t := by
  have whole : Encloses first more close fits 0 (t ++ []) := .behind t .nil
  rwa [List.append_nil] at whole

theorem mono {fits' : Text → Text → Prop} (weaker : ∀ held r, fits held r → fits' held r)
    (encloses : Encloses first more close fits n a) : Encloses first more close fits' n a := by
  induction encloses with
  | nil => exact .nil
  | char c _ ih => exact .char c ih
  | part fit _ ih => exact .part (weaker _ _ fit) ih

theorem eq_zero (never : ∀ held r, ¬ fits held r) (encloses : Encloses first more close fits n a) : n = 0 := by
  induction encloses with
  | nil => rfl
  | char _ _ ih => exact ih
  | part fit => exact absurd fit (never _ _)

theorem append (lasting : ∀ held r, fits held r → fits held (r ++ b)) (one : Encloses first more close fits m a)
    (two : Encloses first more close fits n b) : Encloses first more close fits (m + n) (a ++ b) := by
  induction one with
  | nil => rw [Nat.zero_add]; exact two
  | char c _ ih => exact .char c ih
  | @part m held r fit _ ih =>
    have split : first :: (more ++ (held ++ close :: r)) ++ b = first :: (more ++ (held ++ close :: (r ++ b))) := by simp
    rw [split, Nat.add_right_comm]
    exact .part (lasting _ _ fit) ih

theorem tail {c : Char} (other : c ≠ first) (encloses : Encloses first more close fits n (c :: r)) :
    Encloses first more close fits n r := by
  cases encloses with
  | char _ rest => exact rest
  | part => exact absurd rfl other

-- Up to the first character that closes there is at most one part.
theorem cut {s : Text} (absent : close ∉ s)
    (encloses : Encloses first more close fits n (s ++ close :: r)) :
    ∃ m, n ≤ m + 1 ∧ Encloses first more close fits m r := by
  generalize whole : s ++ close :: r = t at encloses
  induction encloses generalizing s with
  | nil => simp at whole
  | @char n rest c later ih =>
    cases s with
    | nil =>
      obtain ⟨_, rfl⟩ := List.cons.inj whole
      exact ⟨n, by omega, later⟩
    | cons d front =>
      obtain ⟨_, same⟩ := List.cons.inj whole
      exact ih (fun inside => absent (List.mem_cons_of_mem _ inside)) same
  | @part n held rest fit later _ =>
    have split : first :: (more ++ (held ++ close :: rest)) = (first :: more) ++ held ++ close :: rest := by simp
    rw [split] at whole
    refine ⟨n, Nat.le_refl _, ?_⟩
    rcases List.append_eq_append_iff.mp whole with ⟨inner, _, tail⟩ | ⟨inner, front, tail⟩
    · -- The first one closes the part, or stands inside of it.
      cases inner with
      | nil =>
        obtain ⟨_, rfl⟩ := List.cons.inj tail
        exact later
      | cons d inner =>
        obtain ⟨_, rfl⟩ := List.cons.inj tail
        exact .behind inner (.char close later)
    · cases inner with
      | nil =>
        obtain ⟨_, rfl⟩ := List.cons.inj tail
        exact later
      | cons d inner =>
        obtain ⟨rfl, _⟩ := List.cons.inj tail
        exact absurd (front ▸ by simp) absent

end Encloses

-- Parts in braces, by what they hold.
abbrev Braces (inner : Text → Prop) : Nat → Text → Prop := Encloses '{' [] '}' fun held _ => inner held

def Single (ks : List Char) (held : Text) : Prop := ∃ k ∈ ks, held = [k]

-- A character of a kind in front of a brace that closes becomes a part with one that opens.
theorem Encloses.single {ks : List Char} {k : Char} {m : Nat} {r : Text} (braces : Braces (Single ks) m (k :: '}' :: r))
    (among : k ∈ ks) (other : k ≠ '{') : Braces (Single ks) (m + 1) ('{' :: k :: '}' :: r) := by
  have rest : Braces (Single ks) m r := (braces.tail other).tail (by decide)
  have whole : '{' :: k :: '}' :: r = '{' :: ([] ++ ([k] ++ '}' :: r)) := rfl
  rw [whole]
  exact .part ⟨k, among, rfl⟩ rest

-- A stage that takes a closing brace with every occurrence, and finds one at every part of a kind.
structure Takes (pattern : Text.Pattern) (render : Text → Text) (inner : Text → Prop) : Prop where
  sized : Text.Sized pattern
  opens : ∀ c r, c ≠ '{' → pattern (c :: r) = none
  front : ∀ front rest held, pattern (front ++ rest) = some ⟨held, front.length⟩ →
    closes (render held) = 0 ∧ ∃ body, front = '{' :: (body ++ ['}']) ∧ '}' ∉ body
  found : ∀ held r, inner held → pattern ('{' :: (held ++ '}' :: r)) ≠ none

theorem Takes.spends {pattern : Text.Pattern} {render : Text → Text} {inner : Text → Prop} (takes : Takes pattern render inner)
    {ks : List Char} (apart : '{' ∉ ks) {n : Nat} {t : Text} (braces : Braces (fun held => inner held ∨ Single ks held) n t) :
    ∃ i m, n ≤ i + m ∧ closes (Text.replace pattern render t) + i ≤ closes t ∧
      Braces (Single ks) m (Text.replace pattern render t) := by
  have front : ∀ c s, closes (c :: s) = closes [c] + closes s := fun c s => closes_append [c] s
  induction t using Text.scan_induction takes.sized generalizing n with
  | nil =>
    cases braces
    exact ⟨0, 0, Nat.le_refl _, Nat.le_refl _, .nil⟩
  | plain c r unseen ih =>
    rw [Text.replace_plain unseen, front, front c r]
    cases braces with
    | char _ later =>
      obtain ⟨i, m, enough, fewer, left⟩ := ih later
      exact ⟨i, m, enough, by omega, .char c left⟩
    | @part n held rest fit later =>
      rcases fit with taken | ⟨k, among, rfl⟩
      · exact absurd unseen (takes.found held rest taken)
      · -- A part of another kind is passed over, character by character.
        obtain ⟨i, m, enough, fewer, left⟩ := ih (later.behind [k, '}'])
        have other : k ≠ '{' := fun same => apart (same ▸ among)
        have passed : Text.replace pattern render ([] ++ ([k] ++ '}' :: rest)) = k :: '}' :: Text.replace pattern render rest := by
          rw [List.nil_append, List.singleton_append, Text.replace_plain (takes.opens _ _ other),
            Text.replace_plain (takes.opens _ _ (by decide))]
        rw [passed] at fewer left ⊢
        exact ⟨i, m + 1, by omega, by omega, left.single among other⟩
  | hit text rest held seen split ih =>
    obtain ⟨none_, body, rfl, absent⟩ := takes.front _ _ _ seen
    -- A part that is taken pays for itself: its closing brace is gone.
    have whole : '{' :: (body ++ ['}']) ++ rest = ('{' :: body) ++ '}' :: rest := by simp
    have counted : closes ('{' :: (body ++ ['}']) ++ rest) = 1 + closes rest := by
      simp [closes, List.count_append, List.count_eq_zero.mpr absent, Nat.add_comm]
    rw [Text.replace_of_pieces split, closes_append, none_, counted]
    rw [whole] at braces
    obtain ⟨m, most, later⟩ := braces.cut (by simpa using absent)
    obtain ⟨i, k, enough, fewer, left⟩ := ih later
    exact ⟨i + 1, k, by omega, by omega, left.behind _⟩

theorem paths_take : Takes Marker.bracedPath (fun held => held) Led where
  sized := Marker.bracedPath_sized
  opens := fun _ r other => bracedPath_unlike r other
  front := by
    intro front rest held seen
    obtain ⟨shown, absent⟩ := Marker.bracedPath_front seen
    exact ⟨List.count_eq_zero.mpr absent, held, shown, absent⟩
  found := by
    rintro _ r ⟨root, body, rfl, isRoot⟩
    have inside : '}' ∈ body ++ '}' :: r := by simp
    obtain ⟨first, behind, split, absent⟩ := List.eq_append_cons_of_mem inside
    have closed := Marker.bracedPath_closed isRoot absent behind
    simp [split, closed]

theorem symbol_takes {k : Char} (close : k ≠ '}') :
    Takes (Text.literal ['{', k, '}']) (fun _ => [k]) (Single [k]) where
  sized := Text.literal_sized _
  opens := fun _ r other => Text.literal_unlike _ r other
  front := by
    intro front rest held seen
    refine ⟨by simp [closes, close], [k], Text.literal_front seen, ?_⟩
    simp [Ne.symm close]
  found := by
    rintro _ r ⟨_, among, rfl⟩
    rw [List.mem_singleton.mp among]
    simp [Text.literal]

-- What planning puts into braces.
def Inner (held : Text) : Prop := Led held ∨ Single ['/', ':', '~', ';'] held

theorem Takes.next {pattern : Text.Pattern} {render : Text → Text} {k : Char} {ks : List Char}
    (takes : Takes pattern render (Single [k])) (apart : '{' ∉ ks) {n : Nat} {t : Text} (braces : Braces (Single (k :: ks)) n t) :
    ∃ i m, n ≤ i + m ∧ closes (Text.replace pattern render t) + i ≤ closes t ∧
      Braces (Single ks) m (Text.replace pattern render t) := by
  refine takes.spends apart (braces.mono fun held _ single => ?_)
  obtain ⟨j, among, rfl⟩ := single
  rcases List.mem_cons.mp among with rfl | later
  · exact .inl ⟨j, by simp, rfl⟩
  · exact .inr ⟨j, later, rfl⟩

-- All stages together take a closing brace for every part in braces.
theorem stages_spend {n : Nat} {t : Text} (braces : Braces Inner n t) : closes (settleAll (pathsPlaced t)) + n ≤ closes t := by
  obtain ⟨i, m, enough, paths, braces⟩ := paths_take.spends (by decide) braces
  obtain ⟨i₁, m₁, enough₁, slash, braces⟩ := (symbol_takes (k := '/') (by decide)).next (by decide) braces
  obtain ⟨i₂, m₂, enough₂, colon, braces⟩ := (symbol_takes (k := ':') (by decide)).next (by decide) braces
  obtain ⟨i₃, m₃, enough₃, tilde, braces⟩ := (symbol_takes (k := '~') (by decide)).next (by decide) braces
  obtain ⟨i₄, m₄, enough₄, semicolon, braces⟩ := (symbol_takes (k := ';') (by decide)).next (by decide) braces
  -- No kind of part is left.
  have done : m₄ = 0 := braces.eq_zero fun _ _ ⟨_, among, _⟩ => by cases among
  have whole : settleAll (pathsPlaced t) = Text.replaceAll ['{', ';', '}'] [';'] (Text.replaceAll ['{', '~', '}'] ['~']
      (Text.replaceAll ['{', ':', '}'] [':'] (Text.replaceAll ['{', '/', '}'] ['/'] (pathsPlaced t)))) := rfl
  rw [whole]
  simp only [Text.replaceAll, pathsPlaced]
  omega

-- Constructs that close in front of a place where no word goes on.
abbrev Constructs : Nat → Text → Prop := Encloses '@' ['['] ']' fun _ rest => Boundary rest

-- Taking braces away leaves them.

theorem inserted_boundary {x r : Text} (boundary : Boundary r) (inserted : Inserted ['{', '}'] x r) : Boundary x := by
  cases r with
  | nil => cases inserted; trivial
  | cons c rest =>
    have other : c ∉ ['{', '}'] := by rcases boundary with rfl | rfl | rfl <;> decide
    obtain ⟨y, rfl, _⟩ := inserted.kept other
    exact boundary

theorem Constructs.unbraced {n : Nat} {t x : Text} (constructs : Constructs n t) (inserted : Inserted ['{', '}'] x t) :
    Constructs n x := by
  induction constructs generalizing x with
  | nil => cases inserted; exact .nil
  | char c _ ih =>
    cases inserted with
    | keep _ rest => exact .char c (ih rest)
    | add _ rest => exact ih rest
  | @part n held r boundary _ ih =>
    have whole : Inserted ['{', '}'] x ('@' :: '[' :: (held ++ ']' :: r)) := inserted
    obtain ⟨_, rfl, opened⟩ := whole.kept (by decide)
    obtain ⟨_, rfl, inside⟩ := opened.kept (by decide)
    obtain ⟨held, _, rfl, _, closed⟩ := inside.split
    obtain ⟨_, rfl, behind⟩ := closed.kept (by decide)
    exact .part (inserted_boundary boundary behind) (ih behind)

theorem settled_unbraced (t : Text) : Inserted ['{', '}'] (settleAll (pathsPlaced t)) t := by
  have symbol : ∀ k t, Inserted ['{', '}'] (Text.replaceAll ['{', k, '}'] [k] t) t := by
    intro k t
    refine inserted_replace (Text.literal_sized _) (fun front rest held seen => ?_) t
    rw [Text.literal_front seen]
    exact .add (by simp) (.keep k (.add (by simp) .nil))
  have paths : Inserted ['{', '}'] (pathsPlaced t) t := by
    refine inserted_replace Marker.bracedPath_sized (fun front rest held seen => ?_) t
    rw [(Marker.bracedPath_front seen).1]
    exact .add (by simp) (.back (by simp) (.refl _ held))
  exact (symbol ';' _).trans ((symbol '~' _).trans ((symbol ':' _).trans ((symbol '/' _).trans paths)))

-- Hiding escaped brackets leaves them.

theorem Constructs.hidden {n : Nat} {t : Text} (constructs : Constructs n t) : Constructs n (Marker.protect t) := by
  induction constructs with
  | nil => exact .nil
  | @char n r c _ ih =>
    cases seen : Text.literal Marker.escapedBracket (c :: r) with
    | none =>
      rw [Marker.protect_plain seen]
      exact .char c ih
    | some found =>
      obtain ⟨_, _, rest, split⟩ := Text.literal_some seen
      obtain ⟨_, rfl⟩ := List.cons.inj (split : '{' :: ']' :: '}' :: rest = c :: r).symm
      have inner : Marker.protect (']' :: '}' :: rest) = ']' :: '}' :: Marker.protect rest := by
        rw [Marker.protect_unlike (by decide), Marker.protect_unlike (by decide)]
      have left : Constructs n (']' :: '}' :: Marker.protect rest) := inner ▸ ih
      rw [← split, Marker.protect_escape]
      exact .char _ ((left.tail (by decide)).tail (by decide))
  | @part n held r boundary _ ih =>
    have whole : Marker.protect ('@' :: '[' :: (held ++ ']' :: r)) =
        '@' :: '[' :: (Marker.protect held ++ ']' :: Marker.protect r) := by
      rw [Marker.protect_unlike (by decide), Marker.protect_unlike (by decide), Marker.protect_closing boundary]
    have shown : Marker.protect ('@' :: (['['] ++ (held ++ ']' :: r))) = _ := whole
    rw [shown]
    exact .part (Marker.boundary_protect boundary) ih

theorem Constructs.met {n : Nat} {t : Text} (constructs : Constructs n t) : n ≤ Text.hits Marker.argsConstruct t := by
  induction t using Text.scan_induction Marker.argsConstruct_sized generalizing n with
  | nil => cases constructs; exact Nat.le_refl 0
  | plain c r unseen ih =>
    rw [Text.hits_plain unseen]
    cases constructs with
    | char _ later => exact ih later
    | @part n held rest _ later =>
      have inside : ']' ∈ held ++ ']' :: rest := by simp
      obtain ⟨first, behind, split, absent⟩ := List.eq_append_cons_of_mem inside
      have closed := Marker.argsConstruct_closed absent behind
      rw [← split] at closed
      exact absurd (closed.symm.trans unseen) (by simp)
  | hit front rest held seen split ih =>
    obtain ⟨rfl, absent⟩ := Marker.argsConstruct_front seen
    have whole : '@' :: '[' :: (held ++ [']']) ++ rest = ('@' :: '[' :: held) ++ ']' :: rest := by simp
    rw [Text.hits_of_pieces split]
    rw [whole] at constructs
    obtain ⟨m, most, later⟩ := constructs.cut (by simpa using absent)
    have := ih later
    omega

-- Stand-ins that are in a text from the start are written as escapes in the end.
def weight (t : Text) : Nat := t.length + 2 * t.count Marker.standIn

theorem weight_append (a b : Text) : weight (a ++ b) = weight a + weight b := by
  simp only [weight, List.length_append, List.count_append]
  omega

theorem weight_cons (c : Char) (r : Text) : weight (c :: r) = weight [c] + weight r := weight_append [c] r

theorem weight_pos (c : Char) : 1 ≤ weight [c] := Nat.le_add_right _ _

theorem additive_weight : Text.Additive fun t => weight t :=
  ⟨rfl, fun a b => by rw [weight_append, Int.natCast_add]⟩

theorem length_unprotect (t : Text) : (Marker.unprotect t).length = weight t := by
  rw [Marker.unprotect, Text.replaceAll_char]
  induction t with
  | nil => rfl
  | cons c r ih =>
    rw [List.flatMap_cons, List.length_append, ih, weight_cons]
    by_cases same : c = Marker.standIn
    · subst same; rfl
    · simp [same, weight]

theorem weight_content (held : Text) : weight (ArgsConstruct.content held) ≤ held.length := by
  have quiet : (ArgsConstruct.content held).count Marker.standIn = 0 :=
    List.count_eq_zero.mpr (ArgsConstruct.content_quiet held)
  have trimmed := Text.length_trim (Text.replaceAll [Marker.standIn] [']'] held)
  have kept : ((Text.replaceAll [Marker.standIn] [']'] held).length : Int) = held.length := by
    refine Text.measure_eq Text.additive_length (Text.literal_sized _) (fun front rest found seen => ?_) held
    rw [Text.literal_front seen]
    rfl
  rw [weight, quiet, ArgsConstruct.content]
  omega

theorem inline_weight {n : Nat} {t : Text} (constructs : Constructs n t) : (ArgsConstruct.inline t).length + 3 * n ≤ weight t := by
  have written : (weight (Text.write ArgsConstruct.content (ArgsConstruct.pieces t)) : Int) +
      3 * Text.hits Marker.argsConstruct (Marker.protect t) ≤ weight (Marker.protect t) := by
    refine Text.measure_le additive_weight Marker.argsConstruct_sized (fun front rest held seen => ?_) (Marker.protect t)
    have inside := weight_content held
    rw [(Marker.argsConstruct_front seen).1]
    simp only [weight, List.length_cons, List.length_append] at inside ⊢
    omega
  have hidden : (weight (Marker.protect t) : Int) = weight t := measure_protect additive_weight rfl t
  have met := constructs.hidden.met
  rw [ArgsConstruct.inline, length_unprotect]
  omega

-- Two characters for each part in braces and three for each construct are gone in the end.
theorem stages_bound {j k : Nat} {t : Text} (braces : Braces Inner j t) (constructs : Constructs k t) :
    (ArgsConstruct.inline (settleAll (pathsPlaced t))).length + 2 * j + 3 * k ≤ weight t := by
  have inlined := inline_weight (constructs.unbraced (settled_unbraced t))
  have spent := stages_spend braces
  -- Every closing brace goes with an opening one.
  have pairs : Text.Additive fun s => (weight s : Int) + -2 * s.count '}' :=
    additive_weight.add ((Text.additive_count '}').scale (-2))
  have paths := measure_paths pairs (by decide) t
  have settled := measure_settleAll pairs (by decide) (pathsPlaced t)
  simp only [closes] at spent
  omega

-- Without a construct nothing goes.
theorem stages_exact {t : Text} (bare : Marker.holdsConstruct t = false) :
    (ArgsConstruct.inline (settleAll (pathsPlaced t))).length = weight t := by
  simp only [Marker.holdsConstruct, List.any_cons, List.any_nil, Bool.or_eq_false_iff, Bool.or_false] at bare
  obtain ⟨⟨paths, slash, colon, tilde, semicolon⟩, args⟩ := bare
  have settled : settleAll (pathsPlaced t) = t := by
    rw [pathsPlaced, Text.replace_of_not_occurs _ paths]
    apply settleAll_quiet
    simp only [List.forall_mem_cons]
    exact ⟨slash, colon, tilde, semicolon, by simp⟩
  have plain : Text.write ArgsConstruct.content (ArgsConstruct.pieces t) = Marker.protect t :=
    Text.replace_of_not_occurs ArgsConstruct.content args
  have hidden : (weight (Marker.protect t) : Int) = weight t := measure_protect additive_weight rfl t
  rw [settled, ArgsConstruct.inline, plain, length_unprotect]
  omega

end PortableActions.CommandLine
