import PortableActions.Proofs.Text.Scanning
import PortableActions.Template.Marker
-- What detection sees. Hiding escaped brackets keeps all other characters in their order, so a
-- marker is detected wherever it stands if it is closed on its own line, and not by a
-- character of an escaped bracket.
namespace PortableActions.Template.Marker

theorem somewhere_exact {test : Text → Bool} {t : Text} :
    somewhere test t = true ↔ ∃ place, place <:+ t ∧ place ≠ [] ∧ test place = true :=
  Text.search_exact rfl fun _ _ => rfl

theorem protect_plain {c : Char} {r : Text} (unseen : Text.literal escapedBracket (c :: r) = none) :
    protect (c :: r) = c :: protect r := Text.replaceAll_plain unseen

theorem protect_unlike {c : Char} {r : Text} (other : c ≠ '{') : protect (c :: r) = c :: protect r :=
  protect_plain (Text.literal_unlike _ _ other)

theorem protect_brace {c : Char} {r : Text} (other : c ≠ ']') : protect ('{' :: c :: r) = '{' :: protect (c :: r) := by
  refine protect_plain ((Text.literal_none (by decide)).mpr fun leads => ?_)
  obtain ⟨rest, same⟩ := leads
  exact other (List.cons.inj (List.cons.inj same).2).1.symm

theorem protect_escape (r : Text) : protect (escapedBracket ++ r) = standIn :: protect r :=
  Text.replaceAll_hit (by decide) [standIn] r

-- A text starts with an escaped bracket, or with a character that stays.
theorem protect_cases (t : Text) : t = [] ∨ (∃ rest, t = escapedBracket ++ rest ∧ protect t = standIn :: protect rest) ∨
    ∃ c rest, t = c :: rest ∧ Text.literal escapedBracket t = none ∧ protect t = c :: protect rest := by
  cases t with
  | nil => exact .inl rfl
  | cons c r =>
    cases seen : Text.literal escapedBracket (c :: r) with
    | none => exact .inr (.inr ⟨c, r, rfl, rfl, protect_plain seen⟩)
    | some found =>
      obtain ⟨_, _, rest, split⟩ := Text.literal_some seen
      exact .inr (.inl ⟨rest, split.symm, by rw [← split, protect_escape]⟩)

theorem protect_shown {t s : Text} {c : Char} (shown : protect t = c :: s) (other : c ≠ standIn) :
    ∃ r, t = c :: r ∧ protect r = s := by
  rcases protect_cases t with rfl | ⟨rest, _, hidden⟩ | ⟨d, rest, rfl, _, kept⟩
  · cases shown
  · rw [hidden] at shown
    exact absurd (List.cons.inj shown).1.symm other
  · rw [kept] at shown
    obtain ⟨rfl, same⟩ := List.cons.inj shown
    exact ⟨rest, rfl, same⟩

theorem suffix_shown {t s : Text} (inside : s <:+ protect t) : ∃ place, place <:+ t ∧ protect place = s := by
  induction t using Text.scan_induction (Text.literal_sized escapedBracket) with
  | nil => exact ⟨[], List.suffix_refl _, (List.suffix_nil.mp inside).symm⟩
  | plain c r unseen ih =>
    rw [protect_plain unseen] at inside
    rcases List.suffix_cons_iff.mp inside with whole | later
    · exact ⟨c :: r, List.suffix_refl _, (protect_plain unseen).trans whole.symm⟩
    · obtain ⟨place, within, same⟩ := ih later
      exact ⟨place, within.trans (List.suffix_cons _ _), same⟩
  | hit front rest held seen _ ih =>
    rw [Text.literal_front seen] at inside ⊢
    rw [protect_escape] at inside
    rcases List.suffix_cons_iff.mp inside with whole | later
    · exact ⟨_, List.suffix_refl _, (protect_escape rest).trans whole.symm⟩
    · obtain ⟨place, within, same⟩ := ih later
      exact ⟨place, within.trans (List.suffix_append _ _), same⟩

-- A place that does not start inside an escaped bracket is hidden on its own.
theorem protect_suffix {t place : Text} (inside : place <:+ t) (outside : ∀ c ∈ place.head?, c ≠ ']' ∧ c ≠ '}') :
    protect place <:+ protect t := by
  induction t using Text.scan_induction (Text.literal_sized escapedBracket) with
  | nil => exact List.suffix_nil.mp inside ▸ List.suffix_refl _
  | plain c r unseen ih =>
    rcases List.suffix_cons_iff.mp inside with rfl | later
    · exact List.suffix_refl _
    · rw [protect_plain unseen]
      exact (ih later).trans (List.suffix_cons _ _)
  | hit front rest held seen _ ih =>
    rw [Text.literal_front seen] at inside ⊢
    simp only [escapedBracket, List.cons_append, List.nil_append, List.suffix_cons_iff] at inside
    rcases inside with rfl | rfl | rfl | later
    · exact List.suffix_refl _
    · simp at outside
    · simp at outside
    · rw [protect_escape]
      exact (ih later).trans (List.suffix_cons _ _)

-- The line that a text starts in.
def line (t : Text) : Text := t.takeWhile (· ≠ '\n')

theorem line_protect (t : Text) : line (protect t) = protect (line t) := by
  induction t using Text.scan_induction (Text.literal_sized escapedBracket) with
  | nil => rfl
  | plain c r unseen ih =>
    rw [protect_plain unseen]
    by_cases break_ : c = '\n'
    · rw [break_]
      simp [line]
      rfl
    · have same : ∀ s, line (c :: s) = c :: line s := fun s => by simp [line, break_]
      have alone : Text.literal escapedBracket (c :: line r) = none := by
        rw [Text.literal_none (by decide)] at unseen ⊢
        rw [← same]
        exact fun leads => unseen (leads.trans (List.takeWhile_prefix _))
      rw [same, same, protect_plain alone, ih]
  | hit front rest held seen _ ih =>
    have same : line (escapedBracket ++ rest) = escapedBracket ++ line rest := by simp [line, escapedBracket]
    rw [Text.literal_front seen, protect_escape, same, protect_escape, ← ih]
    simp [line, standIn]

-- The closing character comes on the same line, and not as part of an escaped bracket.
def Closes (close : Char) (t : Text) : Prop := close ∈ Text.replaceAll escapedBracket [] (line t)

theorem closesOnLine_protect {close : Char} {t : Text} (other : close ≠ standIn) :
    closesOnLine close (protect t) = true ↔ Closes close t := by
  rw [closesOnLine, ← line, line_protect, List.contains_iff_mem, Closes, protect,
    Text.mem_replaceAll (by simpa using other), Text.mem_replaceAll (by simp)]

-- A marker that detection can see: a one-character marker anywhere, or an opening that is
-- closed in sight.
inductive InSight (t : Text) : Prop where
  | symbol {c : Char} (known : isSymbol c = true) (inside : ['{', c, '}'] <:+: t)
  | path {root : Char} {r : Text} (known : isRoot root = true) (inside : '{' :: root :: '/' :: r <:+ t) (closed : Closes '}' r)
  | args {r : Text} (inside : '@' :: '[' :: r <:+ t) (closed : Closes ']' r)

theorem isSymbol_apart {c : Char} (known : isSymbol c = true) : c ≠ ']' ∧ c ≠ '{' ∧ c ≠ standIn := by
  refine ⟨?_, ?_, ?_⟩ <;> (rintro rfl; cases known)

theorem isRoot_apart {c : Char} (known : isRoot c = true) : c ≠ ']' ∧ c ≠ '{' ∧ c ≠ standIn := by
  refine ⟨?_, ?_, ?_⟩ <;> (rintro rfl; cases known)

theorem startsMarker_parts {t : Text} (seen : startsMarker t = true) :
    (∃ c r, t = '{' :: c :: '}' :: r ∧ isSymbol c = true) ∨
    (∃ root r, t = '{' :: root :: '/' :: r ∧ isRoot root = true ∧ closesOnLine '}' r = true) ∨
    ∃ r, t = '@' :: '[' :: r ∧ closesOnLine ']' r = true := by
  unfold startsMarker at seen
  split at seen
  · exact .inl ⟨_, _, rfl, seen⟩
  · exact .inr (.inl ⟨_, _, rfl, by simpa using seen⟩)
  · exact .inr (.inr ⟨_, rfl, seen⟩)
  · cases seen

theorem inSight_of_isUsedIn {t : Text} (used : isUsedIn t = true) : InSight t := by
  obtain ⟨shown, inside, _, seen⟩ := somewhere_exact.mp used
  obtain ⟨place, within, rfl⟩ := suffix_shown inside
  rcases startsMarker_parts seen with ⟨c, s, split, known⟩ | ⟨root, s, split, known, closed⟩ | ⟨s, split, closed⟩
  · obtain ⟨_, rfl, second⟩ := protect_shown split (by decide)
    obtain ⟨_, rfl, third⟩ := protect_shown second (isSymbol_apart known).2.2
    obtain ⟨r, rfl, _⟩ := protect_shown third (by decide)
    obtain ⟨front, whole⟩ := within
    exact .symbol known ⟨front, r, by simpa using whole⟩
  · obtain ⟨_, rfl, second⟩ := protect_shown split (by decide)
    obtain ⟨_, rfl, third⟩ := protect_shown second (isRoot_apart known).2.2
    obtain ⟨r, rfl, rfl⟩ := protect_shown third (by decide)
    exact .path known within ((closesOnLine_protect (by decide)).mp closed)
  · obtain ⟨_, rfl, second⟩ := protect_shown split (by decide)
    obtain ⟨r, rfl, rfl⟩ := protect_shown second (by decide)
    exact .args within ((closesOnLine_protect (by decide)).mp closed)

theorem isUsedIn_of_place {t place : Text} (inside : place <:+ t) (outside : ∀ c ∈ place.head?, c ≠ ']' ∧ c ≠ '}')
    (filled : protect place ≠ []) (seen : startsMarker (protect place) = true) : isUsedIn t = true :=
  somewhere_exact.mpr ⟨protect place, protect_suffix inside outside, filled, seen⟩

theorem isUsedIn_exact {t : Text} : isUsedIn t = true ↔ InSight t := by
  refine ⟨inSight_of_isUsedIn, fun sight => ?_⟩
  cases sight with
  | @symbol c known inside =>
    obtain ⟨front, r, whole⟩ := inside
    have apart := isSymbol_apart known
    have shown : protect ('{' :: c :: '}' :: r) = '{' :: c :: '}' :: protect r := by
      rw [protect_brace apart.1, protect_unlike apart.2.1, protect_unlike (by decide)]
    exact isUsedIn_of_place ⟨front, by simpa using whole⟩ (by simp) (by simp [shown]) (by simpa [shown, startsMarker] using known)
  | @path root r known inside closed =>
    have apart := isRoot_apart known
    have shown : protect ('{' :: root :: '/' :: r) = '{' :: root :: '/' :: protect r := by
      rw [protect_brace apart.1, protect_unlike apart.2.1, protect_unlike (by decide)]
    have ends := (closesOnLine_protect (by decide)).mpr closed
    exact isUsedIn_of_place inside (by simp) (by simp [shown]) (by simp [shown, startsMarker, known, ends])
  | @args r inside closed =>
    have shown : protect ('@' :: '[' :: r) = '@' :: '[' :: protect r := by
      rw [protect_unlike (by decide), protect_unlike (by decide)]
    have ends := (closesOnLine_protect (by decide)).mpr closed
    exact isUsedIn_of_place inside (by simp) (by simp [shown]) (by simp [shown, startsMarker, ends])

-- A command separator marker cannot be missed.
theorem isUsedIn_of_separator {t : Text} (inside : commandSeparator <:+: t) : isUsedIn t = true :=
  isUsedIn_exact.mpr (.symbol (c := ';') rfl inside)

end PortableActions.Template.Marker
