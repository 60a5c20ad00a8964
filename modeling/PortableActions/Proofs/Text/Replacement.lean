import PortableActions.Text.Scan
-- How a substitution acts on a text that is put together from parts.
namespace PortableActions.Text

-- A stage passes over a front part if it writes that part the same way whatever follows.
-- Stages that read ahead without bound have no better notion of locality.
def Passes {β : Type} (stage : Text → List β) (front : Text) (written : List β) : Prop :=
  ∀ rest, stage (front ++ rest) = written ++ stage rest

section
variable {β : Type} {stage : Text → List β}

theorem Passes.nil : Passes stage [] [] := fun _ => rfl

theorem Passes.append {a b : Text} {x y : List β} (one : Passes stage a x) (two : Passes stage b y) :
    Passes stage (a ++ b) (x ++ y) := by
  intro rest
  rw [List.append_assoc, one, two, List.append_assoc]

theorem Passes.whole {a : Text} {x : List β} (passes : Passes stage a x) (empty : stage [] = []) : stage a = x := by
  simpa [empty] using passes []

theorem Passes.comp {stage : Text → Text} {later : Text → List β} {a b : Text} {x : List β}
    (one : Passes stage a b) (two : Passes later b x) : Passes (later ∘ stage) a x := by
  intro rest
  simp only [Function.comp_apply]
  rw [one, two]

theorem Passes.flatMap {α : Type} {front : α → Text} {written : α → List β} {parts : List α}
    (each : ∀ part ∈ parts, Passes stage (front part) (written part)) :
    Passes stage (parts.flatMap front) (parts.flatMap written) := by
  induction parts with
  | nil => exact .nil
  | cons part rest ih =>
    obtain ⟨here, later⟩ := List.forall_mem_cons.mp each
    exact here.append (ih later)

end

variable {pattern : Pattern} {render : Text → Text}

theorem pieces_passes_plain {c : Char} (unseen : ∀ rest, pattern (c :: rest) = none) :
    Passes (pieces pattern) [c] [.plain c] := fun rest => pieces_plain (unseen rest)

theorem pieces_passes_hit {front held : Text} (filled : front ≠ [])
    (seen : ∀ rest, pattern (front ++ rest) = some ⟨held, front.length⟩) :
    Passes (pieces pattern) front [.hit held] := by
  intro rest
  obtain ⟨c, r, rfl⟩ := List.exists_cons_of_ne_nil filled
  have here : pattern (c :: (r ++ rest)) = some ⟨held, r.length + 1⟩ := seen rest
  rw [List.cons_append, pieces_hit here]
  simp

-- No place of the front part, read on into whatever follows, looks like the pattern.
theorem pieces_passes_unseen {front : Text}
    (unseen : ∀ place, place <:+ front → place ≠ [] → ∀ rest, pattern (place ++ rest) = none) :
    Passes (pieces pattern) front (front.map .plain) := by
  induction front with
  | nil => exact .nil
  | cons c r ih =>
    intro rest
    have here : pattern (c :: (r ++ rest)) = none := unseen (c :: r) (List.suffix_refl _) (by simp) rest
    have later := ih fun place inside filled more =>
      unseen place (inside.trans (List.suffix_cons c r)) filled more
    rw [List.cons_append, pieces_plain here, later rest, List.map_cons, List.cons_append]

-- If the pattern is seen anywhere in the front part, there is a first place for it.
theorem pieces_first {t place rest : Text} (inside : place <:+ t) (filled : place ≠ [])
    (seen : pattern (place ++ rest) ≠ none) :
    ∃ front behind, t = front ++ behind ∧ behind ≠ [] ∧ pattern (behind ++ rest) ≠ none ∧
      pieces pattern (t ++ rest) = front.map .plain ++ pieces pattern (behind ++ rest) := by
  induction t with
  | nil => exact absurd (List.suffix_nil.mp inside) filled
  | cons c r ih =>
    cases here : pattern (c :: (r ++ rest)) with
    | some found =>
      refine ⟨[], c :: r, rfl, by simp, ?_, rfl⟩
      rw [List.cons_append, here]
      simp
    | none =>
      rcases List.suffix_cons_iff.mp inside with rfl | later
      · exact absurd here seen
      · obtain ⟨front, behind, rfl, some_, found, split⟩ := ih later
        refine ⟨c :: front, behind, rfl, some_, found, ?_⟩
        rw [List.cons_append, pieces_plain here, split, List.map_cons, List.cons_append]

theorem pieces_passes_absent {k : Char} {front : Text} (unlike : ∀ c r, c ≠ k → pattern (c :: r) = none) (absent : k ∉ front) :
    Passes (pieces pattern) front (front.map .plain) :=
  pieces_passes_unseen fun place inside filled rest => by
    obtain ⟨c, r, rfl⟩ := List.exists_cons_of_ne_nil filled
    exact unlike c _ fun same => absent (same ▸ inside.subset (by simp))

theorem mem_of_plain {n : Nat} {t : Text} {c : Char} (among : .plain c ∈ piecesAfter pattern n t) : c ∈ t := by
  induction t generalizing n with
  | nil => cases n <;> cases among
  | cons d r ih =>
    cases n with
    | succ n => exact List.mem_cons_of_mem _ (ih among)
    | zero =>
      simp only [piecesAfter] at among
      split at among
      · exact List.mem_cons_of_mem _ (ih (by simpa using among))
      · rcases List.mem_cons.mp among with same | later
        · exact (Piece.plain.inj same) ▸ List.mem_cons_self
        · exact List.mem_cons_of_mem _ (ih later)

theorem write_append (ps qs : List Piece) : write render (ps ++ qs) = write render ps ++ write render qs := by
  simp [write]

theorem write_plain (t : Text) : write render (t.map .plain) = t := by
  induction t with
  | nil => rfl
  | cons c r ih => exact congrArg (c :: ·) ih

theorem Passes.written {a : Text} {ps : List Piece} (passes : Passes (pieces pattern) a ps) (render : Text → Text) :
    Passes (replace pattern render) a (write render ps) := by
  intro rest
  rw [replace, passes rest, write_append, replace]

theorem passes_plain {c : Char} (unseen : ∀ rest, pattern (c :: rest) = none) :
    Passes (replace pattern render) [c] [c] := (pieces_passes_plain unseen).written render

theorem passes_hit (render : Text → Text) {front held : Text} (filled : front ≠ [])
    (seen : ∀ rest, pattern (front ++ rest) = some ⟨held, front.length⟩) :
    Passes (replace pattern render) front (render held) := by
  have passes := (pieces_passes_hit filled seen).written render
  simpa [write, Piece.write] using passes

theorem passes_unseen {front : Text}
    (unseen : ∀ place, place <:+ front → place ≠ [] → ∀ rest, pattern (place ++ rest) = none) :
    Passes (replace pattern render) front front := by
  have passes := (pieces_passes_unseen unseen).written render
  rwa [write_plain] at passes

theorem passes_absent {k : Char} {front : Text} (unlike : ∀ c r, c ≠ k → pattern (c :: r) = none) (absent : k ∉ front) :
    Passes (replace pattern render) front front := by
  have passes := (pieces_passes_absent unlike absent).written render
  rwa [write_plain] at passes

theorem replace_plain {c : Char} {r : Text} (unseen : pattern (c :: r) = none) :
    replace pattern render (c :: r) = c :: replace pattern render r := by
  simp [replace, pieces_plain unseen, write, Piece.write]

-- A search that tries one place after the other finds the places of the text.
theorem search_exact {search test : Text → Bool} (nil : search [] = false)
    (cons : ∀ c r, search (c :: r) = (test (c :: r) || search r)) {t : Text} :
    search t = true ↔ ∃ place, place <:+ t ∧ place ≠ [] ∧ test place = true := by
  induction t with
  | nil => simp [nil]
  | cons c r ih =>
    rw [cons, Bool.or_eq_true, ih]
    constructor
    · rintro (here | ⟨place, inside, filled, seen⟩)
      · exact ⟨c :: r, List.suffix_refl _, by simp, here⟩
      · exact ⟨place, inside.trans (List.suffix_cons c r), filled, seen⟩
    · rintro ⟨place, inside, filled, seen⟩
      rcases List.suffix_cons_iff.mp inside with rfl | later
      · exact .inl seen
      · exact .inr ⟨place, later, filled, seen⟩

theorem occurs_exact {t : Text} :
    occurs pattern t = true ↔ ∃ place, place <:+ t ∧ place ≠ [] ∧ (pattern place).isSome = true :=
  search_exact rfl fun _ _ => rfl

-- Fixed words.

theorem literal_unlike {k c : Char} (word r : Text) (differs : c ≠ k) : literal (k :: word) (c :: r) = none := by
  simp [literal, Ne.symm differs]

theorem literal_append {word : Text} (filled : word ≠ []) (rest : Text) :
    literal word (word ++ rest) = some ⟨word, word.length⟩ := by
  simp [literal, filled]

theorem literal_some {word t : Text} {found : Hit} (seen : literal word t = some found) :
    found = ⟨word, word.length⟩ ∧ word ≠ [] ∧ word <+: t := by
  simp only [literal] at seen
  split at seen
  · cases seen
  · rename_i filled
    split at seen
    · rename_i leads
      exact ⟨(Option.some.inj seen).symm, by simpa using filled, List.isPrefixOf_iff_prefix.mp leads⟩
    · cases seen

theorem literal_none {word t : Text} (filled : word ≠ []) : literal word t = none ↔ ¬ word <+: t := by
  simp [literal, filled, ← List.isPrefixOf_iff_prefix]

theorem mentions_exact {word t : Text} (filled : word ≠ []) : mentions word t = true ↔ word <:+: t := by
  rw [mentions, occurs_exact]
  constructor
  · rintro ⟨place, inside, _, seen⟩
    obtain ⟨found, here⟩ := Option.isSome_iff_exists.mp seen
    exact (literal_some here).2.2.isInfix.trans inside.isInfix
  · rintro ⟨front, back, rfl⟩
    exact ⟨word ++ back, ⟨front, by simp⟩, by simp [filled], by simp [literal_append filled back]⟩

theorem replaceAll_absent {word t : Text} (filled : word ≠ []) (new : Text) (absent : ¬ word <:+: t) :
    replaceAll word new t = t := by
  refine replace_of_not_occurs _ ?_
  rw [Bool.eq_false_iff]
  exact fun seen => absent ((mentions_exact filled).mp seen)

theorem replaceAll_nil (word new : Text) : replaceAll word new [] = [] := rfl

theorem replaceAll_plain {word new r : Text} {c : Char} (unseen : literal word (c :: r) = none) :
    replaceAll word new (c :: r) = c :: replaceAll word new r := replace_plain unseen

theorem replaceAll_hit {word : Text} (filled : word ≠ []) (new rest : Text) :
    replaceAll word new (word ++ rest) = new ++ replaceAll word new rest :=
  passes_hit (fun _ => new) filled (literal_append filled) rest

theorem replaceAll_char (c : Char) (new t : Text) :
    replaceAll [c] new t = t.flatMap fun d => if d = c then new else [d] := by
  induction t with
  | nil => rfl
  | cons d r ih =>
    by_cases same : d = c
    · subst d
      have whole : replaceAll [c] new ([c] ++ r) = new ++ replaceAll [c] new r := replaceAll_hit (by simp) new r
      simpa [← ih] using whole
    · simp [replaceAll_plain (literal_unlike [] r same), same, ← ih]

-- A character that is not put in is one that no occurrence of the word took up.
theorem mem_replaceAll {word new t : Text} {c : Char} (outside : c ∉ new) :
    c ∈ replaceAll word new t ↔ .plain c ∈ pieces (literal word) t := by
  simp only [replaceAll, replace, write, List.mem_flatMap]
  constructor
  · rintro ⟨piece, among, shown⟩
    cases piece with
    | plain d => rwa [List.mem_singleton.mp shown]
    | hit held => exact absurd shown outside
  · exact fun among => ⟨.plain c, among, by simp [Piece.write]⟩

end PortableActions.Text
