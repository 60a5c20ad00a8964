import Mathlib.Data.List.Forall2
import PortableActions.Proofs.Template.Lexing
import PortableActions.Proofs.Text.Parts
-- What becomes of a word when characters are put into it. Characters that neither end a
-- word nor quote leave it one word with the same quote open at its end.
namespace PortableActions.Template

-- The second text is the first with some of the extra characters put in.
inductive Inserted (extra : List Char) : Text → Text → Prop where
  | nil : Inserted extra [] []
  | keep (c : Char) : Inserted extra before after → Inserted extra (c :: before) (c :: after)
  | add {c : Char} (new : c ∈ extra) : Inserted extra before after → Inserted extra before (c :: after)

namespace Inserted

theorem refl (extra : List Char) (t : Text) : Inserted extra t t := by
  induction t with
  | nil => exact .nil
  | cons c r ih => exact .keep c ih

theorem append (one : Inserted extra a x) (two : Inserted extra b y) : Inserted extra (a ++ b) (x ++ y) := by
  induction one with
  | nil => exact two
  | keep c _ ih => exact .keep c ih
  | add new _ ih => exact .add new ih

theorem front {added : Text} (new : ∀ c ∈ added, c ∈ extra) (rest : Inserted extra a x) :
    Inserted extra a (added ++ x) := by
  induction added with
  | nil => exact rest
  | cons c r ih => exact .add (new c (by simp)) (ih fun d member => new d (by simp [member]))

theorem back {added : Text} (new : ∀ c ∈ added, c ∈ extra) (rest : Inserted extra a x) :
    Inserted extra a (x ++ added) := by
  have tail : Inserted extra [] (added ++ []) := front new .nil
  simpa using rest.append tail

theorem mono (inserted : Inserted extra before after) (wider : extra ⊆ more) : Inserted more before after := by
  induction inserted with
  | nil => exact .nil
  | keep c _ ih => exact .keep c ih
  | add new _ ih => exact .add (wider new) ih

theorem trans (one : Inserted extra a b) (two : Inserted extra b c) : Inserted extra a c := by
  induction two generalizing a with
  | nil => exact one
  | keep d _ ih =>
    cases one with
    | keep _ rest => exact .keep d (ih rest)
    | add new rest => exact .add new (ih rest)
  | add new _ ih => exact .add new (ih one)

-- Part by part, with a wider separator.
theorem join {sep wide : Text} {parts shown : List Text} (parted : Inserted extra sep wide)
    (each : List.Forall₂ (Inserted extra) parts shown) :
    Inserted extra (Text.join sep parts) (Text.join wide shown) := by
  induction each with
  | nil => exact .nil
  | cons first rest ih =>
    cases rest with
    | nil => exact first
    | cons next more => exact (first.append parted).append ih

theorem split {a b x : Text} (inserted : Inserted extra x (a ++ b)) :
    ∃ y z, x = y ++ z ∧ Inserted extra y a ∧ Inserted extra z b := by
  induction a generalizing x with
  | nil => exact ⟨[], x, rfl, .nil, inserted⟩
  | cons c r ih =>
    cases inserted with
    | keep _ rest =>
      obtain ⟨y, z, rfl, left, right⟩ := ih rest
      exact ⟨c :: y, z, rfl, .keep c left, right⟩
    | add new rest =>
      obtain ⟨y, z, rfl, left, right⟩ := ih rest
      exact ⟨y, z, rfl, .add new left, right⟩

theorem kept {c : Char} {r x : Text} (other : c ∉ extra) (inserted : Inserted extra x (c :: r)) :
    ∃ y, x = c :: y ∧ Inserted extra y r := by
  cases inserted with
  | keep _ rest => exact ⟨_, rfl, rest⟩
  | add new _ => exact absurd new other

theorem length_le (inserted : Inserted extra before after) : before.length ≤ after.length := by
  induction inserted with
  | nil => exact Nat.le_refl 0
  | keep c _ ih => simpa using ih
  | add new _ ih => exact Nat.le_succ_of_le ih

theorem count (inserted : Inserted extra before after) {c : Char} (other : c ∉ extra) :
    after.count c = before.count c := by
  induction inserted with
  | nil => rfl
  | keep d _ ih => simp [List.count_cons, ih]
  | @add _ _ d new _ ih =>
    have apart : d ≠ c := fun same => other (same ▸ new)
    rw [List.count_cons_of_ne apart, ih]

theorem of_filter {p : Char → Bool} (new : ∀ c, p c = false → c ∈ extra) (t : Text) : Inserted extra (t.filter p) t := by
  induction t with
  | nil => exact .nil
  | cons c r ih =>
    cases kept : p c with
    | true =>
      rw [List.filter_cons_of_pos kept]
      exact .keep c ih
    | false =>
      rw [List.filter_cons_of_neg (by simp [kept])]
      exact .add (new c kept) ih

-- A text without the extra characters stands in the second one only where it stands in the first.

theorem same (inserted : Inserted extra before after) (other : ∀ c ∈ after, c ∉ extra) : before = after := by
  induction inserted with
  | nil => rfl
  | keep c _ ih => rw [ih fun d member => other d (by simp [member])]
  | add new _ _ => exact absurd new (other _ (by simp))

theorem infix_ {part : Text} (inserted : Inserted extra before after) (other : ∀ c ∈ part, c ∉ extra)
    (inside : part <:+: after) : part <:+: before := by
  obtain ⟨front, back, rfl⟩ := inside
  obtain ⟨_, z, rfl, first, _⟩ := inserted.split
  obtain ⟨u, v, rfl, _, middle⟩ := first.split
  exact ⟨u, z, by rw [middle.same other]⟩

end Inserted

namespace Token

-- A text that a word can be, as far as it goes.
def Solid (quote : Option Char) (w : Text) : Prop := unbroken quote w [] = true

-- A character that neither ends a word, alone or doubled, nor quotes.
def isNeutral (c : Char) : Bool :=
  !(Text.isBlank c || isSingle c || c = '&' || c = '|' || isQuote c)

theorem isDoubled_of_append {c : Char} {r after : Text} (doubled : isDoubled c r = true) :
    isDoubled c (r ++ after) = true := by
  cases r with
  | nil => simp [isDoubled] at doubled
  | cons d rest => simpa [isDoubled] using doubled

theorem solid_of_unbroken {quote : Option Char} {w after : Text} (solid : unbroken quote w after = true) :
    Solid quote w := by
  induction w generalizing quote with
  | nil => rfl
  | cons c r ih =>
    simp only [unbroken, Solid, Bool.and_eq_true, Bool.not_eq_true', List.append_nil] at solid ⊢
    refine ⟨?_, ih solid.2⟩
    cases quote with
    | some open_ => rfl
    | none =>
      have here := solid.1
      simp only [Option.isNone_none, Bool.true_and, endsWord, Bool.or_eq_false_iff] at here ⊢
      exact ⟨here.1, Bool.eq_false_iff.mpr fun doubled => Bool.eq_false_iff.mp here.2 (isDoubled_of_append doubled)⟩

-- What may follow a word without becoming part of an operator with its last character.
def Follows (after : Text) : Prop := ∀ c ∈ after.head?, c ≠ '&' ∧ c ≠ '|'

theorem unbroken_of_solid {quote : Option Char} {w after : Text} (solid : Solid quote w) (follows : Follows after) :
    unbroken quote w after = true := by
  induction w generalizing quote with
  | nil => rfl
  | cons c r ih =>
    simp only [unbroken, Solid, Bool.and_eq_true, Bool.not_eq_true', List.append_nil] at solid ⊢
    refine ⟨?_, ih solid.2⟩
    cases quote with
    | some open_ => rfl
    | none =>
      have here := solid.1
      simp only [Option.isNone_none, Bool.true_and, endsWord, Bool.or_eq_false_iff] at here ⊢
      refine ⟨here.1, ?_⟩
      cases r with
      | cons d rest => simpa [isDoubled] using here.2
      | nil =>
        cases after with
        | nil => exact here.2
        | cons d rest =>
          have apart := follows d (by simp)
          simp only [isDoubled, List.nil_append, List.head?_cons, Option.some.injEq, Bool.and_eq_false_iff,
            Bool.or_eq_false_iff, decide_eq_false_iff_not]
          by_cases same : d = c
          · exact .inl (same ▸ apart)
          · exact .inr same

theorem solid_front {quote : Option Char} {w after : Text} (solid : Solid quote (w ++ after)) : Solid quote w := by
  suffices whole : unbroken quote w after = true from solid_of_unbroken whole
  induction w generalizing quote with
  | nil => rfl
  | cons c r ih =>
    simp only [Solid, List.cons_append, unbroken, Bool.and_eq_true, List.append_nil] at solid
    simp only [unbroken, Bool.and_eq_true]
    exact ⟨solid.1, ih solid.2⟩

theorem quoteAtEnd_append (quote : Option Char) (a b : Text) :
    quoteAtEnd quote (a ++ b) = quoteAtEnd (quoteAtEnd quote a) b := List.foldl_append

theorem quoteAfter_of_not_quote {quote : Option Char} {c : Char} (plain : isQuote c = false)
    (kept : ∀ open_ ∈ quote, isQuote open_ = true) : quoteAfter quote c = quote := by
  cases quote with
  | none => simp [quoteAfter, plain]
  | some open_ =>
    have other : c ≠ open_ := fun same => by
      have := kept open_ rfl
      rw [← same, plain] at this
      cases this
    simp [quoteAfter, other]

-- Only quotes are ever open.
def Quoting (quote : Option Char) : Prop := ∀ open_ ∈ quote, isQuote open_ = true

theorem Quoting.after {quote : Option Char} (quoting : Quoting quote) (c : Char) : Quoting (quoteAfter quote c) := by
  intro open_ among
  cases quote with
  | none =>
    simp only [quoteAfter] at among
    split at among
    · rename_i quote
      cases among
      exact quote
    · cases among
  | some open_ =>
    simp only [quoteAfter] at among
    split at among
    · cases among
    · cases among
      exact quoting _ rfl

theorem quoting_none : Quoting none := fun _ among => by cases among

theorem neutral_parts {c : Char} (neutral : isNeutral c = true) :
    (∀ after, endsWord c after = false) ∧ isQuote c = false ∧ c ≠ '&' ∧ c ≠ '|' := by
  simp only [isNeutral, Bool.not_eq_true', Bool.or_eq_false_iff, decide_eq_false_iff_not] at neutral
  obtain ⟨⟨⟨⟨blank, single⟩, and_⟩, or_⟩, quote⟩ := neutral
  exact ⟨fun after => by simp [endsWord, blank, single, isDoubled, and_, or_], quote, and_, or_⟩

theorem quoteAtEnd_inserted {extra : List Char} {before after : Text} (inserted : Inserted extra before after)
    (neutral : ∀ c ∈ extra, isNeutral c = true) {quote : Option Char} (quoting : Quoting quote) :
    quoteAtEnd quote after = quoteAtEnd quote before := by
  induction inserted generalizing quote with
  | nil => rfl
  | keep c _ ih => exact ih (quoting.after c)
  | @add before after c new _ ih =>
    obtain ⟨_, plain, _⟩ := neutral_parts (neutral c new)
    have step : quoteAtEnd quote (c :: after) = quoteAtEnd (quoteAfter quote c) after := rfl
    rw [step, quoteAfter_of_not_quote plain quoting, ih quoting]

theorem solid_inserted {extra : List Char} {before after : Text} (inserted : Inserted extra before after)
    (neutral : ∀ c ∈ extra, isNeutral c = true) {quote : Option Char} (quoting : Quoting quote)
    (solid : Solid quote before) : Solid quote after := by
  induction inserted generalizing quote with
  | nil => rfl
  | @add before after c new _ ih =>
    obtain ⟨free, plain, _⟩ := neutral_parts (neutral c new)
    have rest := ih quoting solid
    simp only [Solid, unbroken, List.append_nil, free, Bool.and_false, Bool.not_false, Bool.true_and,
      quoteAfter_of_not_quote plain quoting]
    exact rest
  | @keep before after c inserted ih =>
    simp only [Solid, unbroken, Bool.and_eq_true, Bool.not_eq_true', List.append_nil] at solid ⊢
    refine ⟨?_, ih (quoting.after c) solid.2⟩
    cases quote with
    | some open_ => rfl
    | none =>
      have here := solid.1
      simp only [Option.isNone_none, Bool.true_and, endsWord, Bool.or_eq_false_iff] at here ⊢
      refine ⟨here.1, Bool.eq_false_iff.mpr fun doubled => ?_⟩
      -- A character that was put in front is not the one that would double this one.
      cases inserted with
      | nil => simp [isDoubled] at doubled
      | keep d _ => simp [isDoubled] at here doubled; grind
      | @add _ _ d new _ =>
        obtain ⟨_, _, and_, or_⟩ := neutral_parts (neutral d new)
        simp only [isDoubled, List.head?_cons, Option.some.injEq, Bool.and_eq_true, Bool.or_eq_true,
          decide_eq_true_eq] at doubled
        obtain ⟨rfl | rfl, same⟩ := doubled
        · exact and_ same
        · exact or_ same

end Token
end PortableActions.Template
