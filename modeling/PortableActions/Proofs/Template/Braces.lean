import PortableActions.Proofs.Template.Detection
import PortableActions.Proofs.Template.Lexing
import PortableActions.Proofs.Text.Parts
import PortableActions.Proofs.Text.Scanning
import PortableActions.Template.Suggestion
-- Templates whose braces all belong to the classpath marker. Such a text can be cut
-- anywhere but inside a marker, and shows no other marker.
namespace PortableActions.Template

inductive Clean : Text → Prop where
  | nil : Clean []
  | char {c : Char} {r : Text} (opens : c ≠ '{') (closes : c ≠ '}') : Clean r → Clean (c :: r)
  | deps {r : Text} : Clean r → Clean (Marker.deps ++ r)

namespace Clean

def isPlain : Text.Piece → Bool
  | .plain c => c ≠ '{' && c ≠ '}'
  | .hit _ => true

theorem pieces_char {c : Char} {r : Text} (opens : c ≠ '{') :
    Text.pieces (Text.literal Marker.deps) (c :: r) = .plain c :: Text.pieces (Text.literal Marker.deps) r :=
  Text.pieces_plain (Text.literal_unlike _ _ opens)

theorem pieces_deps (r : Text) : Text.pieces (Text.literal Marker.deps) (Marker.deps ++ r) =
    .hit Marker.deps :: Text.pieces (Text.literal Marker.deps) r := by
  have filled : Marker.deps ≠ [] := by decide
  exact Text.pieces_hit (Text.literal_append filled r)

theorem exact_ (t : Text) : Clean t ↔ (Text.pieces (Text.literal Marker.deps) t).all isPlain = true := by
  constructor
  · intro clean
    induction clean with
    | nil => rfl
    | char opens closes _ ih => simp [pieces_char opens, isPlain, opens, closes, ih]
    | deps _ ih => simp [pieces_deps, isPlain, ih]
  · intro plain
    induction t using Text.scan_induction (Text.literal_sized Marker.deps) with
    | nil => exact .nil
    | plain c r unseen ih =>
      rw [Text.pieces_plain unseen] at plain
      simp only [List.all_cons, isPlain, Bool.and_eq_true, decide_eq_true_eq] at plain
      exact .char plain.1.1 plain.1.2 (ih plain.2)
    | hit front rest held seen _ ih =>
      rw [Text.literal_front seen] at plain ⊢
      rw [pieces_deps] at plain
      simp only [List.all_cons, isPlain, Bool.true_and] at plain
      exact .deps (ih plain)

instance (t : Text) : Decidable (Clean t) := decidable_of_iff _ (exact_ t).symm

theorem append {a b : Text} (one : Clean a) (two : Clean b) : Clean (a ++ b) := by
  induction one with
  | nil => exact two
  | char opens closes _ ih => exact .char opens closes ih
  | deps _ ih => rw [List.append_assoc]; exact .deps ih

theorem braceless {t : Text} (opens : '{' ∉ t) (closes : '}' ∉ t) : Clean t := by
  induction t with
  | nil => exact .nil
  | cons c r ih =>
    simp only [List.mem_cons, not_or] at opens closes
    exact .char (Ne.symm opens.1) (Ne.symm closes.1) (ih opens.2 closes.2)

-- A cut in front of a character that no marker holds.
theorem cut {a b : Text} (clean : Clean (a ++ b)) (outside : ∀ c ∈ b.head?, c ∉ Marker.deps) : Clean a ∧ Clean b := by
  induction size : a.length using Nat.strongRecOn generalizing a with
  | ind n ih =>
    cases a with
    | nil => exact ⟨.nil, clean⟩
    | cons c r =>
      generalize whole : c :: r ++ b = t at clean
      cases clean with
      | nil => cases whole
      | @char _ rest opens closes later =>
        obtain ⟨rfl, rfl⟩ := List.cons.inj whole
        obtain ⟨left, right⟩ := ih r.length (by simp at size; omega) later rfl
        exact ⟨.char opens closes left, right⟩
      | @deps rest later =>
        rcases List.append_eq_append_iff.mp whole with ⟨inside, behind, split⟩ | ⟨more, split, behind⟩
        · -- The rest would start inside the marker.
          cases inside with
          | nil =>
            rw [List.append_nil] at behind
            rw [← behind]
            refine ⟨.deps .nil, ?_⟩
            rw [split]
            exact later
          | cons d tail =>
            exact absurd (behind ▸ List.mem_append_right _ (by simp)) (outside d (by rw [split]; rfl))
        · rw [behind] at later
          have shorter : more.length < n := by
            have := congrArg List.length split
            simp [Marker.deps] at this size
            omega
          obtain ⟨left, right⟩ := ih more.length shorter later rfl
          exact ⟨split ▸ .deps left, right⟩

theorem tail {c : Char} {r : Text} (clean : Clean (c :: r)) (outside : c ∉ Marker.deps) : Clean r := by
  generalize whole : c :: r = t at clean
  cases clean with
  | nil => cases whole
  | char _ _ later => obtain ⟨rfl, rfl⟩ := List.cons.inj whole; exact later
  | deps _ =>
    have first : c = '{' := (List.cons.inj whole).1
    exact absurd (by rw [first]; decide) outside

theorem cut_at {a b : Text} {c : Char} (clean : Clean (a ++ c :: b)) (outside : c ∉ Marker.deps) : Clean a ∧ Clean b := by
  obtain ⟨left, right⟩ := clean.cut (fun d first => by cases first; exact outside)
  exact ⟨left, right.tail outside⟩

theorem parts {sep : Char} {t : Text} (clean : Clean t) (outside : sep ∉ Marker.deps) :
    ∀ part ∈ Text.splitOn sep t, Clean part := by
  generalize split : Text.splitOn sep t = pieces
  have joined : Text.join [sep] pieces = t := split ▸ Text.join_splitOn sep t
  clear split
  induction pieces generalizing t with
  | nil => simp
  | cons first rest ih =>
    cases rest with
    | nil => exact List.forall_mem_singleton.mpr (by rw [← joined] at clean; exact clean)
    | cons next more =>
      rw [Text.join_cons (by simp), List.append_assoc, List.singleton_append] at joined
      obtain ⟨left, right⟩ := cut_at (by rwa [joined]) outside
      exact List.forall_mem_cons.mpr ⟨left, ih right rfl⟩

theorem join {sep : Text} {parts : List Text} (between : Clean sep) (each : ∀ part ∈ parts, Clean part) :
    Clean (Text.join sep parts) := by
  induction parts with
  | nil => exact .nil
  | cons first rest ih =>
    obtain ⟨here, later⟩ := List.forall_mem_cons.mp each
    cases rest with
    | nil => exact here
    | cons next more => exact (here.append between).append (ih later)

-- The words of a clean text are clean.

theorem blank_outside {c : Char} (blank : Text.isBlank c = true) : c ∉ Marker.deps := by
  intro inside
  simp only [Marker.deps, List.mem_cons, List.not_mem_nil, or_false] at inside
  rcases inside with rfl | rfl | rfl | rfl | rfl | rfl | rfl | rfl <;> cases blank

theorem endsWord_outside {c : Char} {after : Text} (stop : Token.endsWord c after = true) : c ∉ Marker.deps := by
  intro inside
  simp only [Marker.deps, List.mem_cons, List.not_mem_nil, or_false] at inside
  rcases inside with rfl | rfl | rfl | rfl | rfl | rfl | rfl | rfl <;> cases stop

theorem words {t : Text} {ts : List Token} (lexes : Token.Lexes t ts) (clean : Clean t) :
    ∀ w, .word w ∈ ts → Clean w := by
  induction lexes with
  | nil => simp
  | blank blank _ ih => exact ih (clean.tail (blank_outside blank))
  | opening _ ih => simpa using ih (clean.tail (by decide))
  | closing _ ih => simpa using ih (clean.tail (by decide))
  | separator kind _ ih =>
    cases kind with
    | sequence => simpa using ih (clean.tail (by decide))
    | and => simpa using ih ((clean.tail (by decide)).tail (by decide))
    | or => simpa using ih ((clean.tail (by decide)).tail (by decide))
  | @word w after ts filled solid ends _ ih =>
    obtain ⟨left, right⟩ := clean.cut (b := after) fun c first => by
      cases after with
      | nil => cases first
      | cons d rest => cases first; exact endsWord_outside ends.2
    intro other member
    rcases List.mem_cons.mp member with same | later
    · cases same; exact left
    · exact ih right other later

-- An opening brace is followed by what follows it in the marker.
theorem brace {t r : Text} (clean : Clean t) (inside : '{' :: r <:+ t) : r.head? = some '{' ∨ r.head? = some 'd' := by
  induction clean with
  | nil => simp at inside
  | char opens _ _ ih =>
    rcases List.suffix_cons_iff.mp inside with whole | later
    · exact absurd (List.cons.inj whole).1.symm opens
    · exact ih later
  | @deps rest _ ih =>
    simp only [Marker.deps, List.cons_append, List.nil_append, List.suffix_cons_iff, List.cons.injEq, Char.reduceEq,
      false_and, true_and, false_or] at inside
    rcases inside with rfl | rfl | later
    · exact .inl rfl
    · exact .inr rfl
    · exact ih later

theorem unused {t : Text} (clean : Clean t) (unsigned : '@' ∉ t) : Marker.isUsedIn t = false := by
  rw [Bool.eq_false_iff]
  intro used
  cases Marker.isUsedIn_exact.mp used with
  | @symbol c known inside =>
    obtain ⟨front, r, whole⟩ := inside
    have second := clean.brace (r := c :: '}' :: r) ⟨front, by simpa using whole⟩
    rcases second with same | same <;> cases same <;> cases known
  | path known inside closed =>
    rcases clean.brace inside with same | same <;> cases same <;> cases known
  | args inside closed => exact unsigned (inside.subset (by simp))

end Clean
end PortableActions.Template
