import Mathlib.Data.List.Forall2
import Mathlib.Logic.Relation
import PortableActions.Proofs.Text.Parts
import PortableActions.Proofs.Text.Scanning
-- What becomes of a text when runs of some characters give way to runs of others. All other
-- characters stay where they are, and the text falls apart at each of them as it did before.
namespace PortableActions.Text

-- One run goes, and another comes in its place.
inductive Change (lost gained : List Char) : Text → Text → Prop where
  | mk (front : Text) {gone came : Text} (back : Text) (some_ : gone ≠ []) (out : gone ⊆ lost) (new : came ⊆ gained) :
      Change lost gained (front ++ gone ++ back) (front ++ came ++ back)

def Alters (lost gained : List Char) : Text → Text → Prop := Relation.ReflTransGen (Change lost gained)

variable {lost gained : List Char}

theorem Change.within {a x : Text} (change : Change lost gained a x) (front back : Text) :
    Change lost gained (front ++ a ++ back) (front ++ x ++ back) := by
  cases change with
  | mk left right some_ out new =>
    have wider := Change.mk (front ++ left) (right ++ back) some_ out new
    simpa using wider

-- A character that is not lost stands in none of the runs that go.
theorem Change.split {a b x : Text} {c : Char} (change : Change lost gained (a ++ c :: b) x) (kept : c ∉ lost) :
    (∃ y, Change lost gained a y ∧ x = y ++ c :: b) ∨ ∃ z, Change lost gained b z ∧ x = a ++ c :: z := by
  generalize whole : a ++ c :: b = t at change
  cases change with
  | @mk front gone came back some_ out new =>
    rcases List.append_eq_append_iff.mp whole with ⟨rest, left, behind⟩ | ⟨rest, left, behind⟩
    · cases rest with
      | nil =>
        refine .inl ⟨front ++ came ++ [], ?_, by simpa using behind.symm⟩
        have change := Change.mk front [] some_ out new
        rw [List.append_nil] at left
        rwa [List.append_nil, left] at change
      | cons d rest =>
        obtain ⟨rfl, rfl⟩ := List.cons.inj behind
        rcases List.append_eq_append_iff.mp left with ⟨more, _, inside⟩ | ⟨more, before, inside⟩
        · exact absurd (out (by simp [inside])) kept
        · cases more with
          | nil =>
            rw [List.nil_append] at inside
            exact absurd (out (inside ▸ List.mem_cons_self)) kept
          | cons e more =>
            obtain ⟨rfl, rfl⟩ := List.cons.inj inside
            exact .inr ⟨_, .mk more back some_ out new, by simp [before]⟩
    · refine .inl ⟨front ++ came ++ rest, ?_, by simp [behind]⟩
      rw [left]
      exact .mk front rest some_ out new

namespace Alters

theorem refl (t : Text) : Alters lost gained t t := Relation.ReflTransGen.refl

theorem trans {a b c : Text} (one : Alters lost gained a b) (two : Alters lost gained b c) : Alters lost gained a c :=
  Relation.ReflTransGen.trans one two

theorem run {gone came : Text} (some_ : gone ≠ []) (out : gone ⊆ lost) (new : came ⊆ gained) : Alters lost gained gone came := by
  have change := Change.mk [] [] some_ out new
  simp only [List.nil_append, List.append_nil] at change
  exact .single change

-- A run that goes without another in its place, and may be empty.
theorem gone {run : Text} (out : run ⊆ lost) : Alters lost gained run [] := by
  by_cases empty : run = []
  · exact empty ▸ refl _
  · exact Alters.run empty out (by simp)

theorem within {a x : Text} (alters : Alters lost gained a x) (front back : Text) :
    Alters lost gained (front ++ a ++ back) (front ++ x ++ back) := by
  induction alters with
  | refl => exact refl _
  | tail _ change ih => exact ih.tail (change.within front back)

theorem append {a b x y : Text} (one : Alters lost gained a x) (two : Alters lost gained b y) :
    Alters lost gained (a ++ b) (x ++ y) := by
  have left := one.within [] b
  have right := two.within x []
  simp only [List.nil_append, List.append_nil] at left right
  exact left.trans right

theorem cons {r x : Text} (c : Char) (alters : Alters lost gained r x) : Alters lost gained (c :: r) (c :: x) :=
  (refl [c]).append alters

-- The two texts fall apart at a character that is not lost.
theorem split {a b x : Text} {c : Char} (alters : Alters lost gained (a ++ c :: b) x) (kept : c ∉ lost) :
    ∃ y z, x = y ++ c :: z ∧ Alters lost gained a y ∧ Alters lost gained b z := by
  induction alters with
  | refl => exact ⟨a, b, rfl, refl a, refl b⟩
  | tail _ change ih =>
    obtain ⟨y, z, rfl, left, right⟩ := ih
    rcases change.split kept with ⟨y', step, rfl⟩ | ⟨z', step, rfl⟩
    · exact ⟨y', z, rfl, left.tail step, right⟩
    · exact ⟨y, z', rfl, left, right.tail step⟩

theorem of_nil {x : Text} (alters : Alters lost gained [] x) : x = [] := by
  induction alters with
  | refl => rfl
  | tail _ change ih =>
    subst ih
    generalize empty : ([] : Text) = t at change
    cases change with
    | mk front back some_ _ _ =>
      have none_ := List.append_eq_nil_iff.mp (List.append_eq_nil_iff.mp empty.symm).1
      exact absurd none_.2 some_

theorem uncons {b x : Text} {c : Char} (alters : Alters lost gained (c :: b) x) (kept : c ∉ lost) :
    ∃ z, x = c :: z ∧ Alters lost gained b z := by
  obtain ⟨y, z, rfl, front, back⟩ := split (a := []) alters kept
  rw [front.of_nil]
  exact ⟨z, rfl, back⟩

theorem mem {a x : Text} {c : Char} (alters : Alters lost gained a x) (inside : c ∈ x) : c ∈ a ∨ c ∈ gained := by
  induction alters with
  | refl => exact .inl inside
  | tail _ change ih =>
    cases change with
    | mk front back _ _ new =>
      simp only [List.mem_append] at inside ih
      rcases inside with (front_ | came) | back_
      · exact ih (.inl (.inl front_))
      · exact .inr (new came)
      · exact ih (.inr back_)

-- Word by word, since blanks are not lost.
theorem unwords {parts : List Text} {x : Text} (alters : Alters lost gained (Text.unwords parts) x) (blank : ' ' ∉ lost) :
    ∃ shown, x = Text.unwords shown ∧ List.Forall₂ (Alters lost gained) parts shown := by
  induction parts generalizing x with
  | nil =>
    have alters : Alters lost gained [] x := alters
    exact ⟨[], alters.of_nil, .nil⟩
  | cons first rest ih =>
    cases rest with
    | nil => exact ⟨[x], rfl, .cons alters .nil⟩
    | cons next more =>
      rw [unwords_cons (by simp)] at alters
      obtain ⟨y, z, rfl, here, later⟩ := alters.split blank
      obtain ⟨shown, rfl, each⟩ := ih later
      have some_ : shown ≠ [] := by
        rintro rfl
        cases each
      exact ⟨y :: shown, (unwords_cons some_).symm, .cons here each⟩

theorem filter {a x : Text} {p : Char → Bool} (alters : Alters lost gained a x) (out : ∀ c ∈ lost, p c = false)
    (new : ∀ c ∈ gained, p c = false) : x.filter p = a.filter p := by
  induction alters with
  | refl => rfl
  | tail _ change ih =>
    cases change with
    | @mk front gone came back _ goes comes =>
      have before : gone.filter p = [] := List.filter_eq_nil_iff.mpr fun c inside => by simp [out c (goes inside)]
      have after : came.filter p = [] := List.filter_eq_nil_iff.mpr fun c inside => by simp [new c (comes inside)]
      rw [← ih]
      simp [before, after]

end Alters

-- If every occurrence is written with runs exchanged, so is the text.
theorem alters_replace {pattern : Pattern} {render : Text → Text} (sized : Sized pattern)
    (each : ∀ front rest held, pattern (front ++ rest) = some ⟨held, front.length⟩ → Alters lost gained front (render held))
    (t : Text) : Alters lost gained t (replace pattern render t) := by
  induction t using scan_induction sized with
  | nil => exact .refl []
  | plain c r unseen ih =>
    rw [replace_plain unseen]
    exact ih.cons c
  | hit front rest held seen split ih =>
    rw [replace_of_pieces split]
    exact (each front rest held seen).append ih

-- Entry by entry of a list, if every entry is ended by what separates the list or comes after it.
theorem alters_join {f : Text → Text} {s e : Char} {between after : Text}
    (each : ∀ part end_ came, end_ ∈ lost → came ⊆ gained → Alters lost gained (part ++ [end_]) (f part ++ came))
    (separates : s ∈ lost) (parted : between ⊆ gained) (ends : e ∈ lost) (new : after ⊆ gained) {parts : List Text} (some_ : parts ≠ []) :
    Alters lost gained (join [s] parts ++ [e]) (join between (parts.map f) ++ after) := by
  induction parts with
  | nil => exact absurd rfl some_
  | cons first rest ih =>
    cases rest with
    | nil => exact each first e after ends new
    | cons next more =>
      have here := each first s between separates parted
      have whole := here.append (ih (by simp))
      simpa [join] using whole

end PortableActions.Text
