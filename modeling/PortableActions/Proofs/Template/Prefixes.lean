import Mathlib.Data.List.Pairwise
import PortableActions.Proofs.Template.Segments
-- What is read of the front of a text. In front of a token that is an operator the tokens do
-- not depend on what comes behind it, and a text that ends inside quotes can be closed.
namespace PortableActions.Template.Token

-- Texts that look alike to a sign in front of them.
def Alike (one two : Text) : Prop := ∀ sign ∈ ['&', '|'], one.head? = some sign ↔ two.head? = some sign

theorem Alike.append {one two : Text} (alike : Alike one two) (front : Text) : Alike (front ++ one) (front ++ two) := by
  cases front with
  | nil => exact alike
  | cons c r => exact fun _ _ => Iff.rfl

theorem Alike.stops {one two : Text} (alike : Alike one two) {c : Char} (stop : Stops c one) : Stops c two := by
  rcases stop with blank | single | ⟨sign, doubled⟩
  · exact .inl blank
  · exact .inr (.inl single)
  · exact .inr (.inr ⟨sign, (alike c sign).mp doubled⟩)

theorem Alike.symm {one two : Text} (alike : Alike one two) : Alike two one := fun sign known => (alike sign known).symm

-- A text in front of which a word may end.
def StopsAt (t : Text) : Prop := ∀ c rest, t = c :: rest → Stops c rest

theorem stands_turn {token front after other : Text} (stands : Stands token (front ++ after)) (filled : after ≠ [])
    (alike : Alike after other) (stop : StopsAt other) : Stands token (front ++ other) := by
  refine ⟨stands.filled, ?_⟩
  rcases stands.kind with known | word
  · exact .inl known
  refine .inr ⟨?_, ?_⟩
  · intro lead c back split outside stopped
    have turned := (alike.append (back ++ front)).symm
    rw [List.append_assoc, List.append_assoc] at turned
    exact word.inner lead c back split outside (turned.stops stopped)
  · intro c rest split
    cases front with
    | nil =>
      obtain ⟨d, more, rfl⟩ := List.exists_cons_of_ne_nil filled
      exact ⟨(word.ends d more rfl).1, stop c rest split⟩
    | cons d r =>
      obtain ⟨rfl, rfl⟩ := List.cons.inj split
      obtain ⟨closed, stopped⟩ := word.ends d (r ++ after) rfl
      exact ⟨closed, (alike.append r).stops stopped⟩

theorem laid_turn {segments : List Segment} {after other : Text} (laid : Laid after segments) (filled : after ≠ [])
    (alike : Alike after other) (stop : StopsAt other) : Laid other segments := by
  induction segments with
  | nil => trivial
  | cons s rest ih =>
    obtain ⟨here, gap, later⟩ := laid
    rw [← List.append_assoc] at here
    have turned := stands_turn here filled alike stop
    rw [List.append_assoc] at turned
    exact ⟨turned, gap, ih later⟩

-- Offsets grow, and lie within the text.

theorem placed_grows (start : Nat) {segments : List Segment} {after : Text} (laid : Laid after segments) :
    (placed start segments).Pairwise (fun one two => one.start < two.start) ∧
      ∀ p ∈ placed start segments, start ≤ p.start ∧ p.start < start + (written segments).length := by
  induction segments generalizing start with
  | nil => simp [placed]
  | cons s rest ih =>
    obtain ⟨here, _, later⟩ := laid
    obtain ⟨grows, within⟩ := ih (start + (s.token ++ s.gap).length) later
    have some_ := List.length_pos_iff.mpr here.filled
    rw [placed, written_cons, List.pairwise_cons, List.forall_mem_cons]
    simp only [List.length_append] at grows within ⊢
    refine ⟨⟨?_, grows⟩, by omega, ?_⟩
    · intro p among
      have := within p among
      omega
    · intro p among
      have := within p among
      omega

theorem readPlaced_grows (t : Text) :
    (readPlaced t).Pairwise (fun one two => one.start < two.start) ∧ ∀ p ∈ readPlaced t, p.start < t.length := by
  obtain ⟨s, cuts⟩ := cut_exists (lexes_read t)
  obtain ⟨grows, within⟩ := placed_grows s.lead.length cuts.laid
  rw [readPlaced_cut cuts, ← cuts.whole, List.length_append]
  exact ⟨grows, fun p among => (within p among).2⟩

-- The texts of the tokens that start before an offset.
def spelledBefore (offset : Nat) (t : Text) : List Text :=
  ((readPlaced t).filter fun p => decide (p.start < offset)).map fun p => p.token.text

theorem spelledBefore_token {t : Text} {earlier later : List Placed} {one : Placed}
    (split : readPlaced t = earlier ++ one :: later) :
    spelledBefore one.start t = (earlier.map Placed.token).map Token.text := by
  have grows := (readPlaced_grows t).1
  rw [split, List.pairwise_append, List.pairwise_cons] at grows
  obtain ⟨_, ⟨behind, _⟩, before⟩ := grows
  have kept : earlier.filter (fun p => decide (p.start < one.start)) = earlier :=
    List.filter_eq_self.mpr fun p among => decide_eq_true (before p among one (by simp))
  have dropped : (one :: later).filter (fun p => decide (p.start < one.start)) = [] := by
    refine List.filter_eq_nil_iff.mpr fun p among => ?_
    rcases List.mem_cons.mp among with rfl | further
    · simp
    · have := behind p further
      simp
      omega
  rw [spelledBefore, split, List.filter_append, kept, dropped, List.append_nil, List.map_map]
  rfl

theorem spelledBefore_end (t : Text) : spelledBefore t.length t = spellings t := by
  have kept : (readPlaced t).filter (fun p => decide (p.start < t.length)) = readPlaced t :=
    List.filter_eq_self.mpr fun p among => decide_eq_true ((readPlaced_grows t).2 p among)
  rw [spelledBefore, kept, spellings, read, List.map_map]
  rfl

-- A token of a text stands at its offset, behind the segments before it.
theorem placed_split {start : Nat} {segments : List Segment} {earlier later : List Placed} {one : Placed}
    (split : placed start segments = earlier ++ one :: later) :
    ∃ before s after, segments = before ++ s :: after ∧ placed start before = earlier ∧
      one = ⟨start + (written before).length, spelled s.token⟩ := by
  induction earlier generalizing start segments with
  | nil =>
    cases segments with
    | nil => cases split
    | cons s rest =>
      obtain ⟨first, _⟩ := List.cons.inj split
      exact ⟨[], s, rest, rfl, rfl, first.symm⟩
  | cons first more ih =>
    cases segments with
    | nil => cases split
    | cons s rest =>
      obtain ⟨here, later⟩ := List.cons.inj split
      obtain ⟨before, u, after, rfl, same, offset⟩ := ih later
      refine ⟨s :: before, u, after, rfl, by rw [placed, here, same], ?_⟩
      rw [offset, written_cons]
      simp only [List.length_append, Nat.add_assoc]

theorem read_laid {lead other : Text} {segments : List Segment} (blank : ∀ c ∈ lead, Text.isBlank c = true)
    (laid : Laid other segments) :
    read (lead ++ (written segments ++ other)) = (placed lead.length segments).map Placed.token ++ read other := by
  rw [read, readPlaced, readFrom_gap 0 blank, Nat.zero_add, readFrom_laid lead.length laid, List.map_append,
    readFrom_tokens _ 0, read, readPlaced]

-- Where a closing parenthesis is read, the cut of the text falls into the segments before it
-- and what stands behind it.
theorem closing_split {t : Text} {offset : Nat} {earlier later : List Placed}
    (split : readPlaced t = earlier ++ ⟨offset, .closing⟩ :: later) :
    ∃ lead before after, t = lead ++ written before ++ ')' :: after ∧ offset = (lead ++ written before).length ∧
      (∀ c ∈ lead, Text.isBlank c = true) ∧ Laid (')' :: after) before ∧ placed lead.length before = earlier := by
  obtain ⟨cut, cuts⟩ := cut_exists (lexes_read t)
  rw [readPlaced_cut cuts] at split
  obtain ⟨before, s, after, segments, same, here⟩ := placed_split split
  injection here with place token
  have parenthesis : s.token = [')'] := by rw [← spelled_spells s.token, ← token]; rfl
  have laid := cuts.laid
  have whole := cuts.whole
  rw [segments, laid_append, written_cons, parenthesis] at laid
  rw [segments, written_append, written_cons, parenthesis] at whole
  refine ⟨cut.lead, before, s.gap ++ written after, ?_, ?_, cuts.blank, by simpa using laid.1, same⟩
  · rw [← whole]
    simp
  · rw [place, List.length_append]

-- The text before the parenthesis has the tokens before it, and keeps them whatever follows.
theorem read_closing {t : Text} {offset : Nat} {earlier later : List Placed}
    (split : readPlaced t = earlier ++ ⟨offset, .closing⟩ :: later) :
    read (t.take offset) = earlier.map Placed.token ∧
      ∀ more, read (t.take (offset + 1) ++ more) = earlier.map Placed.token ++ .closing :: read more := by
  obtain ⟨lead, before, after, front, size, blank, laid, rfl⟩ := closing_split split
  constructor
  · have alike : Alike (')' :: after) [] := by simp [Alike]
    have stop : StopsAt [] := by
      intro c rest none_
      cases none_
    have alone := read_laid blank (laid_turn laid (List.cons_ne_nil _ _) alike stop)
    rw [read_nil, List.append_nil, List.append_nil] at alone
    rw [front, size, List.take_left]
    exact alone
  · intro more
    have alike : Alike (')' :: after) (')' :: more) := fun _ _ => Iff.rfl
    have stop : StopsAt (')' :: more) := by
      intro c rest same
      cases same
      exact .inr (.inl (by simp))
    have onward := read_laid blank (laid_turn laid (List.cons_ne_nil _ _) alike stop)
    have seen : operator? ')' more = some (closing, more) := rfl
    have next : read (')' :: more) = .closing :: read more := read_operator rfl seen
    have taken : t.take (offset + 1) = lead ++ written before ++ [')'] := by
      rw [front, size, List.take_length_add_append]
      rfl
    rw [taken, List.append_assoc, List.append_assoc, List.singleton_append, onward, next]

end PortableActions.Template.Token
