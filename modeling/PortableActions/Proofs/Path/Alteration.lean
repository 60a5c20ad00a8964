import PortableActions.Proofs.Path.NormalForm
import PortableActions.Proofs.Text.Alteration
-- What a Windows path keeps of the text it is read from. Separators and single dots go or are
-- turned around, and a root may come behind a share; everything else stays in its place.
namespace PortableActions.Path.Windows
open PortableActions.Text (Alters)

variable {lost gained : List Char}

-- What reading and printing a path may take out, and what it may put in.
structure Turns (lost gained : List Char) : Prop where
  slash : ['/'] ⊆ lost
  backslash : ['\\'] ⊆ lost
  dot : ['.'] ⊆ lost
  root : ['\\'] ⊆ gained
  here : ['.'] ⊆ gained

theorem backslashed_alters (turns : Turns lost gained) (path : Text) : Alters lost gained path (backslashed path) := by
  unfold backslashed
  induction path with
  | nil => exact .refl []
  | cons c r ih =>
    rw [List.map_cons]
    by_cases slash : c = '/'
    · have turned : Alters lost gained ['/'] ['\\'] := .run (by simp) turns.slash turns.root
      rw [slash, if_pos rfl]
      exact turned.append ih
    · rw [if_neg slash]
      exact ih.cons c

theorem kept_alters (turns : Turns lost gained) (parts : List Text) :
    Alters lost gained (Text.join ['\\'] parts) (Text.join ['\\'] (parts.filter fun part => part ≠ [] ∧ part ≠ ['.'])) := by
  induction parts with
  | nil => exact .refl []
  | cons first rest ih =>
    by_cases kept : first ≠ [] ∧ first ≠ ['.']
    · rw [List.filter_cons_of_pos (by simpa using kept)]
      cases rest with
      | nil => exact .refl first
      | cons next more =>
        rw [Text.join_cons (by simp), List.append_assoc]
        by_cases none_ : (next :: more).filter (fun part => part ≠ [] ∧ part ≠ ['.']) = []
        · rw [none_] at ih ⊢
          have tail := (Alters.refl first).append ((Alters.gone turns.backslash).append ih)
          simpa [Text.join] using tail
        · rw [Text.join_cons none_, List.append_assoc]
          exact (Alters.refl first).append ((Alters.refl ['\\']).append ih)
    · rw [List.filter_cons_of_neg (by simpa using kept)]
      have out : first ⊆ lost := by
        by_cases empty : first = []
        · simp [empty]
        · have dot : first = ['.'] := Decidable.not_not.mp fun other => kept ⟨empty, other⟩
          exact dot ▸ turns.dot
      cases rest with
      | nil => exact .gone out
      | cons next more =>
        rw [Text.join_cons (by simp)]
        have front : Alters lost gained (first ++ ['\\']) [] := .gone (List.append_subset.mpr ⟨out, turns.backslash⟩)
        exact front.append ih

theorem components_alters (turns : Turns lost gained) (t : Text) :
    Alters lost gained t (Text.join ['\\'] (components t)) := by
  have parts := kept_alters turns (Text.splitOn '\\' t)
  rwa [Text.join_splitOn] at parts

-- Further backslashes at a root go.
theorem root_alters (turns : Turns lost gained) (t : Text) : Alters lost gained t (t.dropWhile (· = '\\')) := by
  have halves := List.takeWhile_append_dropWhile (p := (· = '\\')) (l := t)
  have out : t.takeWhile (· = '\\') ⊆ lost := by
    intro c inside
    have same : c = '\\' := by simpa using List.mem_takeWhile_imp inside
    exact turns.backslash (by simp [same])
  have front : Alters lost gained (t.takeWhile (· = '\\')) [] := .gone out
  have whole := front.append (Alters.refl (t.dropWhile (· = '\\')))
  rwa [halves] at whole

theorem splitDrive_whole (body : Text) : (splitDrive body).1 ++ (splitDrive body).2 = body := by
  unfold splitDrive
  split
  · split <;> rfl
  · rfl

theorem share_alters (turns : Turns lost gained) {path mark body share tail rest : Text}
    (marked : splitExtended path = (mark, body)) (split : body = share ++ tail) (seen : splitShare? body = some (share, rest)) :
    Alters lost gained path (mark ++ (if mark.isEmpty then share else share.drop 1) ++ tail) := by
  obtain ⟨server, name, _, _, shown, _⟩ := splitShare?_parts seen
  rcases splitExtended_cases path with ⟨_, plain⟩ | ⟨r, same, _, plain⟩ | ⟨r, same, plain⟩
  · rw [plain] at marked
    cases marked
    rw [split]
    exact .refl _
  · rw [plain] at marked
    cases marked
    have first : Alters lost gained ['\\'] [] := .gone turns.backslash
    have dropped := first.within extended (share.drop 1 ++ tail)
    rw [same, split, shown]
    simpa [shown, extended] using dropped
  · rw [plain] at marked
    cases marked
    rw [shown] at split
    have tail_ : '\\' :: r = ('\\' :: (server ++ '\\' :: name)) ++ tail := (List.cons.inj split).2
    have whole : path = extended ++ ['U', 'N', 'C'] ++ share.drop 1 ++ tail := by
      rw [same, shown]
      simpa [extended] using tail_
    rw [whole]
    simpa [extended] using Alters.refl _

theorem drive_alters (turns : Turns lost gained) {path mark body : Text} (marked : splitExtended path = (mark, body)) :
    Alters lost gained path (mark ++ (splitDrive body).1 ++
      if (splitDrive body).2.head? = some '\\' then '\\' :: (splitDrive body).2.dropWhile (· = '\\') else (splitDrive body).2) := by
  have rooted : ∀ rest : Text, Alters lost gained rest
      (if rest.head? = some '\\' then '\\' :: rest.dropWhile (· = '\\') else rest) := by
    intro rest
    split
    · rename_i first
      cases rest with
      | nil => cases first
      | cons c r =>
        cases first
        rw [List.dropWhile_cons_of_pos (by simp)]
        exact (root_alters turns r).cons '\\'
    · exact .refl rest
  have plain : path = mark ++ body → Alters lost gained path (mark ++ (splitDrive body).1 ++
      if (splitDrive body).2.head? = some '\\' then '\\' :: (splitDrive body).2.dropWhile (· = '\\') else (splitDrive body).2) := by
    intro same
    have front := (Alters.refl (mark ++ (splitDrive body).1)).append (rooted (splitDrive body).2)
    rwa [List.append_assoc, splitDrive_whole, ← same] at front
  rcases splitExtended_cases path with ⟨_, same⟩ | ⟨r, whole, _, same⟩ | ⟨r, whole, same⟩
  · rw [same] at marked
    cases marked
    exact plain rfl
  · rw [same] at marked
    cases marked
    exact plain whole
  · rw [same] at marked
    cases marked
    have behind := (Alters.refl (extended ++ ['U', 'N', 'C'] ++ ['\\'])).append (root_alters turns r)
    rw [whole]
    simpa [splitDrive] using behind

-- The anchor and the rest of a path come out of its text; only the root behind a share that ends
-- the path is put behind it.
theorem splitAnchor_alters (turns : Turns lost gained) (path : Text) :
    ∃ t extra, Alters lost gained path t ∧ extra ⊆ gained ∧ (extra = [] ∨ (splitAnchor path).2.2 = []) ∧
      (splitAnchor path).1 ++ (if (splitAnchor path).2.1 then ['\\'] else []) ++ (splitAnchor path).2.2 = t ++ extra := by
  cases marked : splitExtended path with
  | mk mark body =>
    cases seen : splitShare? body with
    | some found =>
      obtain ⟨share, rest⟩ := found
      obtain ⟨_, _, tail, _, _, split, ended⟩ := splitShare?_parts seen
      have alters := share_alters turns marked split seen
      rw [splitAnchor_share marked seen]
      rcases ended with ⟨_, rfl⟩ | ⟨rfl, rfl⟩
      · exact ⟨_, [], alters, by simp, .inl rfl, by simp⟩
      · exact ⟨_, ['\\'], alters, turns.root, .inr rfl, by simp⟩
    | none =>
      have alters := drive_alters turns marked
      refine ⟨_, [], alters, by simp, .inl rfl, ?_⟩
      unfold splitAnchor
      simp only [marked, seen]
      split <;> simp

-- What a path prints, but for the dot of the empty one.
def text (path : Windows) : Text := path.anchor ++ Text.join ['\\'] path.parts

theorem print_text (path : Windows) : path.print = if path.text = [] then ['.'] else path.text := by
  unfold print text
  split
  · rename_i empty
    rw [if_pos empty]
  · rename_i t some_
    rw [if_neg fun none_ => some_ none_]

-- With an end behind it that is lost, the text of a path comes out of what it is read from.
theorem parse_alters (turns : Turns lost gained) (path : Text) {e : Char} {came : Text} (ends : e ∈ lost) (new : came ⊆ gained) :
    Alters lost gained (path ++ [e]) ((parse path).text ++ came) := by
  obtain ⟨t, extra, alters, comes, last, whole⟩ := splitAnchor_alters turns (backslashed path)
  have turned := (backslashed_alters turns path).trans alters
  have names := components_alters turns (splitAnchor (backslashed path)).2.2
  have closing : Alters lost gained [e] (extra ++ came) := .run (by simp) (by simpa using ends) (List.append_subset.mpr ⟨comes, new⟩)
  have shown : (parse path).text = (splitAnchor (backslashed path)).1 ++
      (if (splitAnchor (backslashed path)).2.1 then ['\\'] else []) ++ Text.join ['\\'] (components (splitAnchor (backslashed path)).2.2) := rfl
  rcases last with rfl | rest
  · rw [List.append_nil] at whole
    rw [← whole] at turned
    have read := turned.trans ((Alters.refl _).append names)
    rw [shown]
    exact read.append closing
  · rw [rest, List.append_nil] at whole
    have none_ : Text.join ['\\'] (components []) = [] := rfl
    rw [shown, rest, none_, List.append_nil, whole, List.append_assoc]
    exact turned.append closing

-- The empty path prints a dot.
theorem print_alters (turns : Turns lost gained) {path : Windows} {a came : Text} (new : came ⊆ gained)
    (shown : ∀ {came : Text}, came ⊆ gained → Alters lost gained a (path.text ++ came)) :
    Alters lost gained a (path.print ++ came) := by
  rw [print_text]
  split
  · rename_i empty
    have dotted := shown (List.append_subset.mpr ⟨turns.here, new⟩)
    rwa [empty] at dotted
  · exact shown new

theorem normal_alters (turns : Turns lost gained) (path : Text) {e : Char} {came : Text} (ends : e ∈ lost) (new : came ⊆ gained) :
    Alters lost gained (path ++ [e]) (normal path ++ came) :=
  print_alters turns new fun comes => parse_alters turns path ends comes

-- What a text and its normal form have in common.

theorem turns_bare : Turns ['/', '\\', '.'] ['\\', '.'] := by
  constructor <;> simp

theorem mem_altered {path shown : Text} {c : Char} (alters : Alters ['/', '\\', '.'] ['\\', '.'] (path ++ ['.']) (shown ++ []))
    (inside : c ∈ shown) : c ∈ path ∨ c ∈ ['\\', '.'] := by
  rw [List.append_nil] at alters
  rcases alters.mem inside with before | new
  · rcases List.mem_append.mp before with inner | dot
    · exact .inl inner
    · exact .inr (List.mem_cons_of_mem _ dot)
  · exact .inr new

theorem mem_text {path : Text} {c : Char} (inside : c ∈ (parse path).text) : c ∈ path ∨ c ∈ ['\\', '.'] :=
  mem_altered (parse_alters turns_bare path (by simp) (List.nil_subset _)) inside

theorem mem_normal {path : Text} {c : Char} (inside : c ∈ normal path) : c ∈ path ∨ c ∈ ['\\', '.'] :=
  mem_altered (normal_alters turns_bare path (by simp) (List.nil_subset _)) inside

theorem count_normal {k : Char} (other : k ∉ ['/', '\\', '.']) (path : Text) : (normal path).count k = path.count k := by
  have apart : ∀ c ∈ ['/', '\\', '.'], (c == k) = false := by
    intro c known
    refine beq_false_of_ne ?_
    rintro rfl
    exact other known
  have alters := normal_alters turns_bare path (by simp : '.' ∈ ['/', '\\', '.']) (List.nil_subset _)
  have kept := alters.filter apart fun c known => apart c (List.mem_cons_of_mem _ known)
  have dot : (['.'] : Text).filter (· == k) = [] := by simpa using apart '.' (by simp)
  rw [List.append_nil, List.filter_append, dot, List.append_nil] at kept
  rw [List.count_eq_length_filter, List.count_eq_length_filter, kept]

-- A path that is read behind another one ends in its own text.
theorem append_text (base path : Windows) :
    ∃ front, (base.append path).text = front ++ path.text ∧ ∀ c ∈ front, c ∈ base.text ∨ c = '\\' := by
  unfold append
  by_cases drive : path.drive = []
  · rw [if_neg (not_not.mpr drive)]
    by_cases rooted : path.rooted = true
    · rw [if_pos rooted]
      refine ⟨base.drive, by simp [text, anchor, drive, rooted], fun c inside => ?_⟩
      exact .inl (by simp [text, anchor, inside])
    · rw [if_neg rooted]
      have bare : path.anchor = [] := by simp [anchor, drive, rooted]
      have shown : path.text = Text.join ['\\'] path.parts := by rw [text, bare, List.nil_append]
      rw [shown]
      by_cases some_ : path.parts = []
      · refine ⟨base.text, ?_, fun c inside => .inl inside⟩
        rw [some_]
        simp [text, anchor, Text.join]
      by_cases first : base.parts = []
      · refine ⟨base.anchor, ?_, fun c inside => .inl (by simp [text, inside])⟩
        simp [text, anchor, first]
      · refine ⟨base.text ++ ['\\'], ?_, fun c inside => by simpa using inside⟩
        simp [text, anchor, Text.join_append first some_]
  · rw [if_pos drive]
    exact ⟨[], rfl, by simp⟩

end PortableActions.Path.Windows
