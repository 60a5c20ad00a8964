import PortableActions.Proofs.Template.Acceptance
-- A text is cut into its tokens and the blanks around them in exactly one way. What a token
-- is where it stands is said here without the reader; the reader finds that one cut, and the
-- offsets it gives are those of the cut.
namespace PortableActions.Template.Token

-- A character that stops a word outside quotes. A sign stops it if the next character of the
-- text is the same sign.
def Stops (c : Char) (after : Text) : Prop :=
  Text.isBlank c = true ∨ c ∈ ['(', ')', ';'] ∨ (c ∈ ['&', '|'] ∧ after.head? = some c)

theorem endsWord_exact {c : Char} {after : Text} : endsWord c after = true ↔ Stops c after := by
  simp [endsWord, isSingle, isDoubled, Stops, or_assoc]

-- A word in front of a text: read with no quote open, it holds no character outside quotes
-- that stops it, and it ends with the text or, outside quotes, at such a character.
structure IsWord (w after : Text) : Prop where
  inner : ∀ front c back, w = front ++ c :: back → quoteAtEnd none front = none → ¬ Stops c (back ++ after)
  ends : ∀ c rest, after = c :: rest → quoteAtEnd none w = none ∧ Stops c rest

theorem unbroken_exact {quote : Option Char} {w after : Text} : unbroken quote w after = true ↔
    ∀ front c back, w = front ++ c :: back → quoteAtEnd quote front = none → ¬ Stops c (back ++ after) := by
  induction w generalizing quote with
  | nil => simp [unbroken]
  | cons d r ih =>
    simp only [unbroken, Bool.and_eq_true, Bool.not_eq_true', Bool.and_eq_false_iff, ih]
    constructor
    · rintro ⟨here, later⟩ front c back split outside
      cases front with
      | nil =>
        obtain ⟨rfl, rfl⟩ := List.cons.inj split
        have outside : quote = none := outside
        rcases here with open_ | solid
        · simp [outside] at open_
        · exact fun stop => by simp [endsWord_exact.mpr stop] at solid
      | cons e more =>
        obtain ⟨rfl, rfl⟩ := List.cons.inj split
        exact later more c back rfl outside
    · intro free
      refine ⟨?_, fun front c back split outside => free (d :: front) c back (by rw [split]; rfl) outside⟩
      cases quote with
      | some open_ => exact .inl rfl
      | none => exact .inr (Bool.eq_false_iff.mpr fun stop => free [] d r rfl rfl (endsWord_exact.mp stop))

theorem ends_exact {quote : Option Char} {after : Text} :
    Ends quote after ↔ ∀ c rest, after = c :: rest → quote = none ∧ Stops c rest := by
  cases after with
  | nil => simp [Ends]
  | cons c rest =>
    rw [Ends, endsWord_exact]
    constructor
    · rintro parts _ _ same
      obtain ⟨rfl, rfl⟩ := List.cons.inj same
      exact parts
    · exact fun parts => parts c rest rfl

theorem isWord_exact {w after : Text} :
    IsWord w after ↔ unbroken none w after = true ∧ Ends (quoteAtEnd none w) after := by
  rw [unbroken_exact, ends_exact]
  exact ⟨fun word => ⟨word.inner, word.ends⟩, fun parts => ⟨parts.1, parts.2⟩⟩

-- A token in front of a text.
structure Stands (token after : Text) : Prop where
  filled : token ≠ []
  kind : token ∈ operators ∨ IsWord token after

-- One token of a text, and the gap behind it.
@[ext]
structure Segment where
  token : Text
  gap : Text
  deriving DecidableEq

def written (segments : List Segment) : Text := segments.flatMap fun s => s.token ++ s.gap

-- Segments side by side in front of a text. Only blanks are in the gaps.
def Laid (after : Text) : List Segment → Prop
  | [] => True
  | s :: rest =>
    Stands s.token (s.gap ++ (written rest ++ after)) ∧ (∀ c ∈ s.gap, Text.isBlank c = true) ∧ Laid after rest

-- A text from its first gap on.
@[ext]
structure Segmentation where
  lead : Text
  segments : List Segment
  deriving DecidableEq

def Segmentation.tokens (s : Segmentation) : List Text := s.segments.map Segment.token

structure Segmentation.Cuts (s : Segmentation) (t : Text) : Prop where
  whole : s.lead ++ written s.segments = t
  blank : ∀ c ∈ s.lead, Text.isBlank c = true
  laid : Laid [] s.segments

theorem written_cons (s : Segment) (rest : List Segment) : written (s :: rest) = s.token ++ s.gap ++ written rest := rfl

theorem written_append (one two : List Segment) : written (one ++ two) = written one ++ written two :=
  List.flatMap_append

theorem laid_append {one two : List Segment} {after : Text} :
    Laid after (one ++ two) ↔ Laid (written two ++ after) one ∧ Laid after two := by
  induction one with
  | nil => simp [Laid]
  | cons s rest ih =>
    rw [List.cons_append, Laid, Laid, ih, written_append, List.append_assoc]
    constructor
    · rintro ⟨here, gap, left, right⟩
      exact ⟨⟨here, gap, left⟩, right⟩
    · rintro ⟨⟨here, gap, left⟩, right⟩
      exact ⟨here, gap, left, right⟩

-- A cut for every text.

theorem Segmentation.Cuts.behind {s : Segmentation} {token after : Text} (stands : Stands token after) (cuts : s.Cuts after) :
    Segmentation.Cuts ⟨[], ⟨token, s.lead⟩ :: s.segments⟩ (token ++ after) := by
  have whole := cuts.whole
  refine ⟨?_, by simp, ?_, cuts.blank, cuts.laid⟩
  · rw [← whole, List.nil_append, written_cons, List.append_assoc]
  · rwa [List.append_nil, whole]

theorem cut_exists {t : Text} {ts : List Token} (lexes : Lexes t ts) : ∃ s : Segmentation, s.Cuts t := by
  induction lexes with
  | nil => exact ⟨⟨[], []⟩, rfl, by simp, trivial⟩
  | @blank c r ts blank _ ih =>
    obtain ⟨s, cuts⟩ := ih
    refine ⟨⟨c :: s.lead, s.segments⟩, ?_, List.forall_mem_cons.mpr ⟨blank, cuts.blank⟩, cuts.laid⟩
    rw [List.cons_append, cuts.whole]
  | @opening r ts _ ih =>
    obtain ⟨s, cuts⟩ := ih
    have stands : Stands ['('] r := ⟨by simp, .inl (by decide)⟩
    exact ⟨_, cuts.behind stands⟩
  | @closing r ts _ ih =>
    obtain ⟨s, cuts⟩ := ih
    have stands : Stands [')'] r := ⟨by simp, .inl (by decide)⟩
    exact ⟨_, cuts.behind stands⟩
  | @separator r ts kind _ ih =>
    obtain ⟨s, cuts⟩ := ih
    have stands : Stands kind.text r := ⟨by cases kind <;> decide, .inl (by cases kind <;> decide)⟩
    exact ⟨_, cuts.behind stands⟩
  | @word w after ts filled solid ends _ ih =>
    obtain ⟨s, cuts⟩ := ih
    exact ⟨_, cuts.behind ⟨filled, .inr (isWord_exact.mpr ⟨solid, ends⟩)⟩⟩

-- The tokens of a cut with their offsets.
def placed (start : Nat) : List Segment → List Placed
  | [] => []
  | s :: rest => ⟨start, spelled s.token⟩ :: placed (start + (s.token ++ s.gap).length) rest

theorem spelled_spells (t : Text) : (spelled t).text = t := by
  by_cases known : t ∈ operators
  · simp only [operators, List.mem_cons, List.not_mem_nil, or_false] at known
    rcases known with rfl | rfl | rfl | rfl | rfl <;> rfl
  · have proper : Proper (.word t) := known
    exact congrArg text (spelled_text proper)

theorem spelled_word {w after : Text} (filled : w ≠ []) (word : IsWord w after) : spelled w = .word w := by
  obtain ⟨solid, ends⟩ := isWord_exact.mp word
  have lexes := Lexes.word filled solid ends (lexes_read after)
  exact spelled_text (proper_of_lexes lexes (.word w) (by simp))

theorem readFrom_gap (start : Nat) {gap : Text} (blank : ∀ c ∈ gap, Text.isBlank c = true) (r : Text) :
    readFrom start (gap ++ r) = readFrom (start + gap.length) r := by
  induction gap generalizing start with
  | nil => rfl
  | cons c rest ih =>
    obtain ⟨here, later⟩ := List.forall_mem_cons.mp blank
    rw [List.cons_append, readFrom_blank start here, ih (start + 1) later, List.length_cons]
    congr 1
    omega

theorem operator?_spelled {token : Text} (known : token ∈ operators) (after : Text) :
    ∃ c r, token = c :: r ∧ Text.isBlank c = false ∧ operator? c (r ++ after) = some (spelled token, after) := by
  simp only [operators, List.mem_cons, List.not_mem_nil, or_false] at known
  rcases known with rfl | rfl | rfl | rfl | rfl <;> exact ⟨_, _, rfl, rfl, rfl⟩

theorem readFrom_stands (start : Nat) {token after : Text} (stands : Stands token after) :
    readFrom start (token ++ after) = ⟨start, spelled token⟩ :: readFrom (start + token.length) after := by
  rcases stands.kind with known | word
  · obtain ⟨c, r, rfl, visible, seen⟩ := operator?_spelled known after
    rw [List.cons_append, readFrom_operator start visible seen, spelled_spells]
  · obtain ⟨c, r, rfl⟩ := List.exists_cons_of_ne_nil stands.filled
    obtain ⟨solid, ends⟩ := isWord_exact.mp word
    have spelling := spelled_word stands.filled word
    simp only [unbroken, Option.isNone_none, Bool.true_and, Bool.and_eq_true, Bool.not_eq_true', endsWord,
      Bool.or_eq_false_iff] at solid
    obtain ⟨⟨⟨visible, single⟩, doubled⟩, rest⟩ := solid
    rw [List.cons_append, readFrom_word start visible (operator?_none.mpr ⟨single, doubled⟩), spanWord_exact rest ends,
      spelling, List.length_cons]

theorem readFrom_laid (start : Nat) {segments : List Segment} {after : Text} (laid : Laid after segments) :
    readFrom start (written segments ++ after) =
      placed start segments ++ readFrom (start + (written segments).length) after := by
  induction segments generalizing start with
  | nil => rfl
  | cons s rest ih =>
    obtain ⟨here, gap, later⟩ := laid
    rw [written_cons, List.append_assoc, List.append_assoc, readFrom_stands start here, readFrom_gap _ gap, ih _ later, placed,
      List.cons_append]
    simp only [List.length_append, Nat.add_assoc]

theorem readPlaced_cut {s : Segmentation} {t : Text} (cuts : s.Cuts t) : readPlaced t = placed s.lead.length s.segments := by
  have laid := readFrom_laid s.lead.length cuts.laid
  rw [List.append_nil, readFrom_nil, List.append_nil] at laid
  rw [readPlaced, ← cuts.whole, readFrom_gap 0 cuts.blank, Nat.zero_add, laid]

-- Offsets and spellings leave no choice where to cut.
theorem placed_inj {start : Nat} {one two : List Segment} {left right : Text}
    (whole : left ++ written one = right ++ written two)
    (same : placed (start + left.length) one = placed (start + right.length) two) : left = right ∧ one = two := by
  induction one generalizing start left right two with
  | nil =>
    cases two with
    | nil => exact ⟨by simpa [written] using whole, rfl⟩
    | cons s rest => cases same
  | cons s rest ih =>
    cases two with
    | nil => cases same
    | cons u more =>
      obtain ⟨first, later⟩ := List.cons.inj same
      injection first with offset spelling
      have leads : left = right := List.append_inj_left whole (by omega)
      have token : s.token = u.token := by rw [← spelled_spells s.token, spelling, spelled_spells]
      rw [leads, written_cons, written_cons, token, List.append_assoc, List.append_assoc] at whole
      have behind := List.append_cancel_left (List.append_cancel_left whole)
      rw [leads, token, List.length_append, List.length_append, ← Nat.add_assoc, ← Nat.add_assoc] at later
      obtain ⟨gap, segments⟩ := ih behind later
      exact ⟨leads, congrArg₂ List.cons (Segment.ext token gap) segments⟩

theorem tokens_cut {s : Segmentation} {t : Text} (cuts : s.Cuts t) : s.tokens = spellings t := by
  have texts : ∀ (start : Nat) (segments : List Segment),
      (placed start segments).map (fun p => p.token.text) = segments.map Segment.token := by
    intro start segments
    induction segments generalizing start with
    | nil => rfl
    | cons u rest ih => rw [placed, List.map_cons, List.map_cons, ih, spelled_spells]
  rw [spellings, read, readPlaced_cut cuts, List.map_map]
  exact (texts _ _).symm

-- Every text has one cut only, and its tokens are the ones that are read.
theorem spellings_sole_cut (t : Text) :
    ∃ s : Segmentation, s.Cuts t ∧ s.tokens = spellings t ∧ ∀ other : Segmentation, other.Cuts t → other = s := by
  obtain ⟨s, cuts⟩ := cut_exists (lexes_read t)
  refine ⟨s, cuts, tokens_cut cuts, ?_⟩
  intro other another
  have whole : other.lead ++ written other.segments = s.lead ++ written s.segments := another.whole.trans cuts.whole.symm
  have same : placed (0 + other.lead.length) other.segments = placed (0 + s.lead.length) s.segments := by
    rw [Nat.zero_add, Nat.zero_add, ← readPlaced_cut another, ← readPlaced_cut cuts]
  obtain ⟨lead, segments⟩ := placed_inj whole same
  exact Segmentation.ext lead segments

example : spellings "a&&&b 'c;d".toList = ["a".toList, "&&".toList, "&b".toList, "'c;d".toList] := by decide +kernel

end PortableActions.Template.Token
