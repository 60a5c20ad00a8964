import PortableActions.Text
-- Texts joined from parts and split into them again.
namespace PortableActions.Text

-- What is to hold of every character of a text is looked up in the text.
instance (priority := high) decidableEach (t : Text) (P : Char → Prop) [DecidablePred P] : Decidable (∀ c ∈ t, P c) :=
  List.decidableBAll P t

theorem join_cons {sep part : Text} {parts : List Text} (more : parts ≠ []) :
    join sep (part :: parts) = part ++ sep ++ join sep parts := by
  cases parts with
  | nil => exact absurd rfl more
  | cons next rest => rfl

theorem join_char {c : Char} {part : Text} {parts : List Text} (more : parts ≠ []) :
    join [c] (part :: parts) = part ++ c :: join [c] parts := by
  rw [join_cons more, List.append_assoc, List.singleton_append]

theorem unwords_cons {word : Text} {words : List Text} (more : words ≠ []) :
    unwords (word :: words) = word ++ ' ' :: unwords words :=
  join_char more

theorem unwords_cons_append {word : Text} {words : List Text} (more : words ≠ []) (after : Text) :
    unwords (word :: words) ++ after = word ++ ' ' :: (unwords words ++ after) := by
  rw [unwords_cons more, List.append_assoc, List.cons_append]

theorem join_append {sep : Text} {front back : List Text} (first : front ≠ []) (more : back ≠ []) :
    join sep (front ++ back) = join sep front ++ sep ++ join sep back := by
  induction front with
  | nil => exact absurd rfl first
  | cons part rest ih =>
    cases rest with
    | nil => simpa [join] using join_cons more
    | cons next others =>
      have longer : join sep (part :: (next :: others ++ back)) = part ++ sep ++ join sep (next :: others ++ back) :=
        join_cons (by simp)
      have alone : join sep (part :: next :: others) = part ++ sep ++ join sep (next :: others) := join_cons (by simp)
      rw [List.cons_append, longer, ih (by simp), alone]
      simp

-- What a part starts or ends with is what the joined text from there, or up to there, starts or ends with.

theorem join_head (sep front first : Text) (rest : List Text) : join sep ((front ++ first) :: rest) = front ++ join sep (first :: rest) := by
  cases rest with
  | nil => rfl
  | cons next more => simp only [join, List.append_assoc]

theorem join_last (sep : Text) (front : List Text) (last back : Text) :
    join sep (front ++ [last ++ back]) = join sep (front ++ [last]) ++ back := by
  cases front with
  | nil => rfl
  | cons first others =>
    rw [join_append (by simp) (by simp), join_append (by simp) (by simp)]
    simp only [join, List.append_assoc]

theorem length_join_append (sep : Text) {front back : List Text} (first : front ≠ []) (more : back ≠ []) :
    (join sep (front ++ back)).length = (join sep front).length + sep.length + (join sep back).length := by
  rw [join_append first more, List.length_append, List.length_append]

theorem length_join_front (sep : Text) (front : List Text) (part : Text) (back : List Text) :
    (join sep (front ++ [part])).length ≤ (join sep (front ++ part :: back)).length := by
  cases back with
  | nil => exact Nat.le_refl _
  | cons next more =>
    have longer := length_join_append sep (by simp : front ++ [part] ≠ []) (by simp : next :: more ≠ [])
    rw [List.append_assoc, List.singleton_append] at longer
    omega

theorem head_join {sep first : Text} (filled : first ≠ []) (rest : List Text) : (join sep (first :: rest)).head? = first.head? := by
  cases rest with
  | nil => rfl
  | cons next more =>
    obtain ⟨c, r, rfl⟩ := List.exists_cons_of_ne_nil filled
    rfl

theorem mem_join_of_mem {sep part : Text} {parts : List Text} {c : Char} (among : part ∈ parts) (inside : c ∈ part) :
    c ∈ join sep parts := by
  induction parts with
  | nil => cases among
  | cons first rest ih =>
    cases rest with
    | nil => simpa [join, List.mem_singleton.mp among] using inside
    | cons next more =>
      rw [join_cons (by simp)]
      rcases List.mem_cons.mp among with rfl | later
      · simp [inside]
      · simp [ih later]

theorem mem_of_mem_join {sep : Text} {parts : List Text} {c : Char} (inside : c ∈ join sep parts) :
    c ∈ sep ∨ ∃ part ∈ parts, c ∈ part := by
  induction parts with
  | nil => cases inside
  | cons first rest ih =>
    cases rest with
    | nil => exact .inr ⟨first, by simp, by simpa [join] using inside⟩
    | cons next more =>
      rw [join_cons (by simp)] at inside
      rcases List.mem_append.mp inside with front | back
      · rcases List.mem_append.mp front with here | between
        · exact .inr ⟨first, by simp, here⟩
        · exact .inl between
      · rcases ih back with between | ⟨part, among, here⟩
        · exact .inl between
        · exact .inr ⟨part, by simp [among], here⟩

-- Parts that are shown in two ways, which differ for one part only.

theorem join_map_cons {α : Type} (sep : Text) (f : α → Text) (first next : α) (more : List α) :
    join sep ((first :: next :: more).map f) = f first ++ (sep ++ join sep ((next :: more).map f)) :=
  List.append_assoc (f first) sep _

theorem join_same {α : Type} {f g : α → Text} {sep : Text} {parts : List α} (sizes : ∀ part ∈ parts, (f part).length = (g part).length)
    (same : join sep (parts.map f) = join sep (parts.map g)) : ∀ part ∈ parts, f part = g part := by
  induction parts with
  | nil => simp
  | cons first rest ih =>
    obtain ⟨here, later⟩ := List.forall_mem_cons.mp sizes
    cases rest with
    | nil => exact List.forall_mem_singleton.mpr same
    | cons next more =>
      rw [join_map_cons, join_map_cons] at same
      obtain ⟨front, behind⟩ := List.append_inj same here
      exact List.forall_mem_cons.mpr ⟨front, ih later (List.append_cancel_left behind)⟩

variable {α : Type} [DecidableEq α] {f g : α → Text} {a : α}

theorem length_join_but (others : ∀ part ≠ a, f part = g part) (sep : Text) (parts : List α) :
    (join sep (parts.map f)).length + parts.count a * (g a).length = (join sep (parts.map g)).length + parts.count a * (f a).length := by
  induction parts with
  | nil => simp
  | cons first rest ih =>
    have here : (f first).length + [first].count a * (g a).length = (g first).length + [first].count a * (f a).length := by
      by_cases same : first = a
      · rw [same]
        simp [Nat.add_comm]
      · rw [others first same]
        simp [same]
    have counted : (first :: rest).count a = [first].count a + rest.count a := by rw [← List.singleton_append, List.count_append]
    rw [counted, Nat.add_mul, Nat.add_mul]
    cases rest with
    | nil => simpa [join] using here
    | cons next more =>
      rw [join_map_cons, join_map_cons]
      simp only [List.length_append]
      omega

theorem join_but (others : ∀ part ≠ a, f part = g part) (sep : Text) {parts : List α} (among : a ∈ parts) :
    join sep (parts.map f) = join sep (parts.map g) ↔ f a = g a := by
  constructor
  · intro same
    have sizes := length_join_but others sep parts
    rw [same, Nat.add_left_cancel_iff] at sizes
    have alike : (f a).length = (g a).length := (Nat.eq_of_mul_eq_mul_left (List.count_pos_iff.mpr among) sizes).symm
    apply join_same _ same a among
    intro part _
    by_cases chosen : part = a
    · rw [chosen, alike]
    · rw [others part chosen]
  · intro alike
    congr 1
    apply List.map_congr_left
    intro part _
    by_cases chosen : part = a
    · rw [chosen, alike]
    · exact others part chosen

theorem mem_of_mem_splitOn {sep c : Char} {t part : Text} (among : part ∈ splitOn sep t) (inside : c ∈ part) : c ∈ t := by
  have joined : c ∈ join [sep] (splitOn sep t) := mem_join_of_mem among inside
  rwa [join_splitOn] at joined

theorem splitOn_cons_sep (sep : Char) (t : Text) : splitOn sep (sep :: t) = [] :: splitOn sep t := by
  simp [splitOn]

theorem splitOn_cons {sep c : Char} {t first : Text} {rest : List Text} (other : c ≠ sep)
    (split : splitOn sep t = first :: rest) : splitOn sep (c :: t) = (c :: first) :: rest := by
  simp [splitOn, other, split]

theorem splitOn_of_not_mem {sep : Char} {t : Text} (absent : sep ∉ t) : splitOn sep t = [t] := by
  induction t with
  | nil => rfl
  | cons c r ih =>
    simp only [List.mem_cons, not_or] at absent
    exact splitOn_cons (Ne.symm absent.1) (ih absent.2)

theorem splitOn_append (sep : Char) (a b : Text) : splitOn sep (a ++ sep :: b) = splitOn sep a ++ splitOn sep b := by
  induction a with
  | nil => exact splitOn_cons_sep sep b
  | cons c r ih =>
    by_cases same : c = sep
    · subst c
      rw [List.cons_append, splitOn_cons_sep, splitOn_cons_sep, ih, List.cons_append]
    · obtain ⟨first, rest, split⟩ := List.exists_cons_of_ne_nil (splitOn_ne_nil sep r)
      have longer : splitOn sep (r ++ sep :: b) = first :: (rest ++ splitOn sep b) := by rw [ih, split, List.cons_append]
      rw [List.cons_append, splitOn_cons same longer, splitOn_cons same split, List.cons_append]

theorem splitOn_join {sep : Char} {parts : List Text} (some_ : parts ≠ []) (free : ∀ part ∈ parts, sep ∉ part) :
    splitOn sep (join [sep] parts) = parts := by
  induction parts with
  | nil => exact absurd rfl some_
  | cons first rest ih =>
    obtain ⟨here, later⟩ := List.forall_mem_cons.mp free
    cases rest with
    | nil => exact splitOn_of_not_mem here
    | cons next more =>
      rw [join_char (by simp), splitOn_append, splitOn_of_not_mem here, ih (by simp) later, List.singleton_append]

-- The last part of a text and the first of the one behind it become one.
theorem splitOn_concat (sep : Char) (a b : Text) : ∃ front last first rest,
    splitOn sep a = front ++ [last] ∧ splitOn sep b = first :: rest ∧ splitOn sep (a ++ b) = front ++ (last ++ first) :: rest := by
  induction a with
  | nil =>
    obtain ⟨first, rest, split⟩ := List.exists_cons_of_ne_nil (splitOn_ne_nil sep b)
    exact ⟨[], [], first, rest, rfl, split, split⟩
  | cons c r ih =>
    obtain ⟨front, last, first, rest, alone, behind, longer⟩ := ih
    by_cases same : c = sep
    · subst c
      exact ⟨[] :: front, last, first, rest, by rw [splitOn_cons_sep, alone]; rfl, behind,
        by rw [List.cons_append, splitOn_cons_sep, longer]; rfl⟩
    · cases front with
      | nil => exact ⟨[], c :: last, first, rest, splitOn_cons same alone, behind, splitOn_cons same longer⟩
      | cons part parts =>
        exact ⟨(c :: part) :: parts, last, first, rest, splitOn_cons same alone, behind, splitOn_cons same longer⟩

-- What is put behind a text lengthens its last part.
theorem splitOn_behind {sep : Char} {back : Text} (free : sep ∉ back) (t : Text) :
    ∃ front last, splitOn sep t = front ++ [last] ∧ splitOn sep (t ++ back) = front ++ [last ++ back] := by
  obtain ⟨front, last, first, rest, alone, behind, longer⟩ := splitOn_concat sep t back
  rw [splitOn_of_not_mem free] at behind
  obtain ⟨rfl, rfl⟩ := List.cons.inj behind
  exact ⟨front, last, alone, longer⟩

theorem infix_of_mem_join {sep part : Text} {parts : List Text} (among : part ∈ parts) : part <:+: join sep parts := by
  induction parts with
  | nil => cases among
  | cons first rest ih =>
    cases rest with
    | nil => simp [join, List.mem_singleton.mp among]
    | cons next more =>
      rw [join_cons (by simp), List.append_assoc]
      rcases List.mem_cons.mp among with rfl | later
      · exact (List.prefix_append part _).isInfix
      · exact (ih later).trans ((List.suffix_append sep _).trans (List.suffix_append first _)).isInfix

theorem infix_of_mem_splitOn {sep : Char} {t part : Text} (among : part ∈ splitOn sep t) : part <:+: t := by
  have joined : part <:+: join [sep] (splitOn sep t) := infix_of_mem_join among
  rwa [join_splitOn] at joined

-- A word that starts with another character is not found in front.
theorem infix_cons {lead c : Char} {word t : Text} (other : c ≠ lead) : lead :: word <:+: c :: t ↔ lead :: word <:+: t := by
  rw [List.infix_cons_iff, or_iff_right]
  intro leads
  exact other (List.cons_prefix_cons.mp leads).1.symm

-- A word without the character that stands between two texts is found in one of them.
theorem infix_around {word a b : Text} {c : Char} (outside : c ∉ word) :
    word <:+: a ++ c :: b ↔ word <:+: a ∨ word <:+: b := by
  constructor
  · rintro ⟨front, back, whole⟩
    rcases List.append_eq_append_iff.mp whole with ⟨rest, left, _⟩ | ⟨rest, left, right⟩
    · exact .inl ⟨front, rest, left.symm⟩
    · cases rest with
      | nil => exact .inl ⟨front, [], by simpa using left⟩
      | cons d tail =>
        obtain ⟨rfl, behind⟩ := List.cons.inj right
        rcases List.append_eq_append_iff.mp left with ⟨more, _, inside⟩ | ⟨more, _, inside⟩
        · rw [inside] at outside
          simp at outside
        · cases more with
          | nil =>
            rw [List.nil_append] at inside
            simp [← inside] at outside
          | cons e middle =>
            have later : tail = middle ++ word := (List.cons.inj inside).2
            exact .inr ⟨middle, back, by rw [behind, later]; rfl⟩
  · rintro (left | right)
    · exact left.trans (List.prefix_append a _).isInfix
    · exact right.trans ((List.suffix_cons c b).trans (List.suffix_append a _)).isInfix

theorem infix_join {word : Text} {c : Char} {parts : List Text} (outside : c ∉ word) (filled : word ≠ []) :
    word <:+: join [c] parts ↔ ∃ part ∈ parts, word <:+: part := by
  induction parts with
  | nil => simp [join, filled]
  | cons first rest ih =>
    cases rest with
    | nil => simp [join]
    | cons next more =>
      rw [join_cons (by simp), List.append_assoc, List.singleton_append, infix_around outside, ih]
      simp

end PortableActions.Text
