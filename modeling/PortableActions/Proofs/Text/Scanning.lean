import PortableActions.Proofs.Text.Replacement
-- A text as it is scanned for a pattern, occurrence by occurrence, and where the scan of a
-- joined text is that of its parts.
namespace PortableActions.Text

variable {pattern : Pattern} {render : Text → Text}

def Piece.isHit : Piece → Bool
  | .plain _ => false
  | .hit _ => true

-- How many occurrences are met when a text is scanned.
def hits (pattern : Pattern) (t : Text) : Nat := (pieces pattern t).countP Piece.isHit

-- An occurrence takes up at least one character, and none behind the text.
def Sized (pattern : Pattern) : Prop :=
  ∀ t found, pattern t = some found → 0 < found.size ∧ found.size ≤ t.length

theorem literal_sized (word : Text) : Sized (literal word) := by
  intro t found seen
  obtain ⟨rfl, filled, leads⟩ := literal_some seen
  exact ⟨List.length_pos_iff.mpr filled, leads.length_le⟩

theorem literal_front {word front rest held : Text} (seen : literal word (front ++ rest) = some ⟨held, front.length⟩) :
    front = word := by
  obtain ⟨same, _, leads⟩ := literal_some seen
  injection same with _ size
  exact (List.prefix_of_prefix_length_le leads (List.prefix_append front rest) (by omega)).eq_of_length size.symm |>.symm

-- A text as it is scanned: one plain character after the other, or an occurrence at once.
@[elab_as_elim]
theorem scan_induction (sized : Sized pattern) {motive : Text → Prop} (nil : motive [])
    (plain : ∀ c r, pattern (c :: r) = none → motive r → motive (c :: r))
    (hit : ∀ front rest held, pattern (front ++ rest) = some ⟨held, front.length⟩ →
      pieces pattern (front ++ rest) = .hit held :: pieces pattern rest → motive rest → motive (front ++ rest))
    (t : Text) : motive t := by
  induction size : t.length using Nat.strongRecOn generalizing t with
  | ind n ih =>
    cases t with
    | nil => exact nil
    | cons c r =>
      cases seen : pattern (c :: r) with
      | none => exact plain c r seen (ih r.length (by simp at size; omega) r rfl)
      | some found =>
        obtain ⟨some_, most⟩ := sized _ _ seen
        have halves := List.take_append_drop found.size (c :: r)
        have front : ((c :: r).take found.size).length = found.size := List.length_take_of_le most
        have behind : (c :: r).drop found.size = r.drop (found.size - 1) := by
          obtain ⟨k, shown⟩ : ∃ k, found.size = k + 1 := ⟨found.size - 1, by omega⟩
          simp [shown]
        have shorter : ((c :: r).drop found.size).length < n := by
          simp only [List.length_drop, List.length_cons] at size ⊢
          omega
        rw [← halves]
        refine hit _ _ found.held ?_ ?_ (ih _ shorter _ rfl)
        · rw [halves, front, seen]
        · rw [halves, pieces_hit seen, behind]

theorem hits_nil : hits pattern [] = 0 := rfl

theorem hits_plain {c : Char} {r : Text} (unseen : pattern (c :: r) = none) : hits pattern (c :: r) = hits pattern r := by
  simp [hits, pieces_plain unseen, Piece.isHit]

theorem hits_of_pieces {t rest held : Text} (split : pieces pattern t = .hit held :: pieces pattern rest) :
    hits pattern t = hits pattern rest + 1 := by
  rw [hits, split, List.countP_cons_of_pos rfl, hits]

theorem replace_of_pieces {t rest held : Text} (split : pieces pattern t = .hit held :: pieces pattern rest) :
    replace pattern render t = render held ++ replace pattern render rest := by
  simp [replace, split, write, Piece.write]

-- A pattern is met exactly in the texts in which it occurs.
theorem hits_pos {t : Text} (sized : Sized pattern) : 0 < hits pattern t ↔ occurs pattern t = true := by
  induction t using scan_induction sized with
  | nil => simp [hits_nil, occurs]
  | plain c r unseen ih => rw [hits_plain unseen, ih, occurs, unseen, Option.isSome_none, Bool.false_or]
  | hit front rest held seen split _ =>
    have filled : front ++ rest ≠ [] := fun none_ => by
      have := sized _ _ seen
      simp [List.append_eq_nil_iff.mp none_] at this
    have here : occurs pattern (front ++ rest) = true :=
      occurs_exact.mpr ⟨_, List.suffix_refl _, filled, by simp [seen]⟩
    simp [hits_of_pieces split, here]

-- Fixed words in a text that is cut at a character, or behind its last one.

theorem literal_in_front {word a b : Text} {c : Char} (filled : word ≠ []) (outside : c ∉ word)
    (unseen : literal word a = none) : literal word (a ++ c :: b) = none := by
  rw [literal_none filled] at unseen ⊢
  intro leads
  rcases List.prefix_or_prefix_of_prefix leads (List.prefix_append a (c :: b)) with inside | ⟨more, rfl⟩
  · exact unseen inside
  · cases more with
    | nil => exact unseen (by simp)
    | cons e more =>
      obtain ⟨rfl, _⟩ := List.cons_prefix_cons.mp ((List.prefix_append_right_inj a).mp leads)
      exact outside (by simp)

theorem replaceAll_split {word : Text} {c : Char} (filled : word ≠ []) (outside : c ∉ word) (new a b : Text) :
    replaceAll word new (a ++ c :: b) = replaceAll word new a ++ c :: replaceAll word new b := by
  induction a using scan_induction (literal_sized word) with
  | nil =>
    have unseen : literal word (c :: b) = none := by
      rw [literal_none filled]
      intro leads
      obtain ⟨d, rest, rfl⟩ := List.exists_cons_of_ne_nil filled
      exact outside (by simp [(List.cons_prefix_cons.mp leads).1])
    rw [List.nil_append, replaceAll_nil, List.nil_append, replaceAll_plain unseen]
  | plain d r unseen ih =>
    have still : literal word (d :: (r ++ c :: b)) = none := literal_in_front filled outside unseen
    rw [List.cons_append, replaceAll_plain still, replaceAll_plain unseen, ih, List.cons_append]
  | hit front rest held seen _ ih =>
    rw [literal_front seen, List.append_assoc, replaceAll_hit filled, replaceAll_hit filled, ih, List.append_assoc]

theorem replaceAll_snoc {word : Text} {c : Char} (filled : word ≠ []) (new : Text) {a : Text} (open_ : ¬ word <:+ a ++ [c]) :
    replaceAll word new (a ++ [c]) = replaceAll word new a ++ [c] := by
  induction a using scan_induction (literal_sized word) with
  | nil =>
    have unseen : literal word [c] = none := by
      rw [literal_none filled]
      intro leads
      rcases List.prefix_cons_iff.mp leads with none_ | ⟨rest, rfl, empty⟩
      · exact filled none_
      · exact open_ (by simp [List.prefix_nil.mp empty])
    rw [List.nil_append, replaceAll_plain unseen, replaceAll_nil, List.nil_append]
  | plain d r unseen ih =>
    have still : literal word (d :: (r ++ [c])) = none := by
      rw [literal_none filled] at unseen ⊢
      intro leads
      have longer : word <+: (d :: r) ++ [c] := leads
      rcases List.prefix_concat_iff.mp longer with whole | inside
      · exact open_ (whole ▸ List.suffix_refl _)
      · exact unseen inside
    rw [List.cons_append, replaceAll_plain still, replaceAll_plain unseen, ih fun last =>
      open_ (last.trans (List.suffix_cons d _)), List.cons_append]
  | hit front rest held seen _ ih =>
    rw [literal_front seen] at open_ ⊢
    rw [List.append_assoc, replaceAll_hit filled, replaceAll_hit filled, ih fun last =>
      open_ (by rw [List.append_assoc]; exact last.trans (List.suffix_append _ _)), List.append_assoc]

end PortableActions.Text
