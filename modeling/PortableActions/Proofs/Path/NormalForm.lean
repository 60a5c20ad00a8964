import Mathlib.Data.List.TakeWhile
import PortableActions.Path.Windows
import PortableActions.Proofs.Text.Parts
-- Windows paths in normal form. The text of such a path is its anchor and its components, and
-- the anchor is read again when more is written behind the path.
namespace PortableActions.Path.Windows

-- Components.

-- Text that consists of components: nothing, or backslashes between names.
def Tidy (t : Text) : Prop := ∀ part ∈ Text.splitOn '\\' t, part ≠ [] ∧ part ≠ ['.']

theorem components_free (t : Text) : ∀ part ∈ components t, '\\' ∉ part := fun part among =>
  Text.sep_not_mem_splitOn '\\' t part (List.mem_filter.mp among).1

theorem components_kept (t : Text) : ∀ part ∈ components t, part ≠ [] ∧ part ≠ ['.'] := by
  intro part among
  simpa using (List.mem_filter.mp among).2

theorem join_components {t : Text} : Text.join ['\\'] (components t) = t ↔ t = [] ∨ Tidy t := by
  constructor
  · intro same
    cases parts : components t with
    | nil =>
      rw [parts] at same
      exact .inl same.symm
    | cons first rest =>
      have some_ : components t ≠ [] := by simp [parts]
      have split := Text.splitOn_join some_ (components_free t)
      rw [same] at split
      refine .inr fun part among => ?_
      rw [split] at among
      exact components_kept t part among
  · rintro (rfl | tidy)
    · rfl
    · have all : components t = Text.splitOn '\\' t := List.filter_eq_self.mpr fun part among => by
        simpa using tidy part among
      rw [all, Text.join_splitOn]

theorem not_tidy_nil : ¬ Tidy [] := fun tidy => (tidy [] (by simp [Text.splitOn])).1 rfl

theorem tidy_split {a b : Text} : Tidy (a ++ '\\' :: b) ↔ Tidy a ∧ Tidy b := by
  unfold Tidy
  rw [Text.splitOn_append, List.forall_mem_append]

-- What follows text that is tidy or empty makes its last component longer.
theorem tidy_behind {a back : Text} (tidy : a = [] ∨ Tidy a) (free : '\\' ∉ back) (several : 2 ≤ back.length) :
    Tidy (a ++ back) := by
  obtain ⟨front, last, alone, longer⟩ := Text.splitOn_behind free a
  have earlier : ∀ part ∈ front, part ≠ [] ∧ part ≠ ['.'] := by
    intro part among
    rcases tidy with rfl | tidy
    · have sizes := congrArg List.length alone
      have none_ : front = [] := List.length_eq_zero_iff.mp (by simpa [Text.splitOn] using sizes.symm)
      rw [none_] at among
      cases among
    · exact tidy part (by rw [alone]; simp [among])
  unfold Tidy
  rw [longer]
  refine List.forall_mem_append.mpr ⟨earlier, List.forall_mem_singleton.mpr ?_⟩
  have size : 2 ≤ (last ++ back).length := by
    rw [List.length_append]
    omega
  constructor <;> intro same <;> simp [same] at size

theorem tidy_head {t : Text} (tidy : t = [] ∨ Tidy t) : t.head? ≠ some '\\' := by
  rcases tidy with rfl | tidy
  · simp
  · intro first
    cases t with
    | nil => cases first
    | cons c r =>
      cases first
      exact (tidy [] (by rw [Text.splitOn_cons_sep]; simp)).1 rfl

-- Anchors.

theorem prefix_behind {lead e t : Text} (free : ';' ∉ lead) (leads : lead <+: e ++ ';' :: t) : lead <+: e := by
  rcases List.prefix_or_prefix_of_prefix leads (List.prefix_append e (';' :: t)) with short | ⟨more, rfl⟩
  · exact short
  · cases more with
    | nil => simp
    | cons c more =>
      have first := (List.cons_prefix_cons.mp ((List.prefix_append_right_inj e).mp leads)).1
      rw [first] at free
      exact absurd (by simp) free

-- The mark of an extended-length path.
def extended : Text := ['\\', '\\', '?', '\\']

theorem splitExtended_plain {path : Text} (unmarked : ¬ extended <+: path) : splitExtended path = ([], path) := by
  unfold splitExtended
  split
  · exact absurd ⟨_, rfl⟩ unmarked
  · exact absurd ⟨_, rfl⟩ unmarked
  · rfl

theorem splitExtended_marked {r : Text} (other : ¬ ['U', 'N', 'C', '\\'] <+: r) :
    splitExtended (extended ++ r) = (extended, r) := by
  unfold splitExtended
  split
  · rename_i rest same
    have tail : r = 'U' :: 'N' :: 'C' :: '\\' :: rest := by simpa [extended] using same
    exact absurd ⟨rest, tail.symm⟩ other
  · rename_i rest _ same
    have tail : r = rest := by simpa [extended] using same
    rw [tail]
    rfl
  · rename_i none_
    exact absurd rfl (none_ r)

theorem splitExtended_share (r : Text) : splitExtended (extended ++ 'U' :: 'N' :: 'C' :: '\\' :: r) =
    (extended ++ ['U', 'N', 'C'], '\\' :: '\\' :: r) := rfl

theorem upTo_backslash {a : Text} (free : '\\' ∉ a) (b : Text) :
    (a ++ '\\' :: b).takeWhile (· ≠ '\\') = a ∧ (a ++ '\\' :: b).dropWhile (· ≠ '\\') = '\\' :: b := by
  have plain : ∀ c ∈ a, decide (c ≠ '\\') = true := fun c inside =>
    decide_eq_true fun same : c = '\\' => free (same ▸ inside)
  constructor
  · rw [List.takeWhile_append_of_pos plain, List.takeWhile_cons_of_neg (by simp), List.append_nil]
  · rw [List.dropWhile_append_of_pos plain, List.dropWhile_cons_of_neg (by simp)]

theorem no_backslash {a : Text} (free : '\\' ∉ a) : a.takeWhile (· ≠ '\\') = a ∧ a.dropWhile (· ≠ '\\') = [] := by
  have plain : ∀ c ∈ a, decide (c ≠ '\\') = true := fun c inside =>
    decide_eq_true fun same : c = '\\' => free (same ▸ inside)
  exact ⟨List.takeWhile_eq_self_iff.mpr plain, List.dropWhile_eq_nil_iff.mpr plain⟩

-- A name of a server or a share.
def Name (t : Text) : Prop := t ≠ [] ∧ '\\' ∉ t

theorem Name.head {t : Text} (name : Name t) (back : Text) : (t ++ back).head? ≠ some '\\' := by
  obtain ⟨c, r, rfl⟩ := List.exists_cons_of_ne_nil name.1
  intro first
  have same : c = '\\' := by simpa using first
  exact name.2 (by simp [same])

theorem splitShare?_ended {server share : Text} (one : Name server) (two : Name share) (rest : Text) :
    splitShare? ('\\' :: '\\' :: (server ++ '\\' :: (share ++ '\\' :: rest))) =
      some ('\\' :: '\\' :: (server ++ '\\' :: share), rest) := by
  have first := upTo_backslash one.2 (share ++ '\\' :: rest)
  have second := upTo_backslash two.2 rest
  simp only [splitShare?, one.head, if_false, first, two.head, second]
  simp

-- A share ends at a backslash, or is all there is.
theorem splitShare?_parts {body share rest : Text} (seen : splitShare? body = some (share, rest)) :
    ∃ server name tail, Name server ∧ share = '\\' :: '\\' :: (server ++ '\\' :: name) ∧ body = share ++ tail ∧
      ((Name name ∧ tail = '\\' :: rest) ∨ (rest = [] ∧ tail = [])) := by
  unfold splitShare? at seen
  split at seen
  · rename_i r
    split at seen
    · cases seen
    · rename_i headed
      by_cases ended : '\\' ∈ r
      · obtain ⟨server, after, rfl, free⟩ := List.eq_append_cons_of_mem ended
        have name : Name server := by
          refine ⟨?_, free⟩
          rintro rfl
          exact headed rfl
        simp only [upTo_backslash free after] at seen
        split at seen
        · cases seen
        · rename_i apart
          -- The share ends at the next backslash, or with the path.
          by_cases closed : '\\' ∈ after
          · obtain ⟨share, rest, rfl, free⟩ := List.eq_append_cons_of_mem closed
            have named : Name share := by
              refine ⟨?_, free⟩
              rintro rfl
              exact apart rfl
            simp only [upTo_backslash free rest, Option.some.injEq, Prod.mk.injEq] at seen
            obtain ⟨rfl, rfl⟩ := seen
            exact ⟨server, share, '\\' :: rest, name, by simp, by simp, .inl ⟨named, rfl⟩⟩
          · simp only [no_backslash closed, Option.some.injEq, Prod.mk.injEq] at seen
            obtain ⟨rfl, rfl⟩ := seen
            exact ⟨server, after, [], name, by simp, by simp, .inr ⟨rfl, rfl⟩⟩
      · simp only [no_backslash ended] at seen
        cases seen
  · cases seen

theorem splitExtended_cases (path : Text) :
    (¬ extended <+: path ∧ splitExtended path = ([], path)) ∨
    (∃ r, path = extended ++ r ∧ ¬ ['U', 'N', 'C', '\\'] <+: r ∧ splitExtended path = (extended, r)) ∨
    ∃ r, path = extended ++ 'U' :: 'N' :: 'C' :: '\\' :: r ∧
      splitExtended path = (extended ++ ['U', 'N', 'C'], '\\' :: '\\' :: r) := by
  by_cases marked : extended <+: path
  · obtain ⟨r, rfl⟩ := marked
    by_cases share : ['U', 'N', 'C', '\\'] <+: r
    · obtain ⟨rest, rfl⟩ := share
      exact .inr (.inr ⟨rest, rfl, splitExtended_share rest⟩)
    · exact .inr (.inl ⟨r, rfl, share, splitExtended_marked share⟩)
  · exact .inl ⟨marked, splitExtended_plain marked⟩

theorem splitExtended_behind {e mark body : Text} (marked : splitExtended e = (mark, body)) (t : Text) :
    splitExtended (e ++ ';' :: t) = (mark, body ++ ';' :: t) := by
  rcases splitExtended_cases e with ⟨plain, same⟩ | ⟨r, rfl, other, same⟩ | ⟨r, rfl, same⟩
  · rw [same] at marked
    cases marked
    exact splitExtended_plain fun leads => plain (prefix_behind (by decide) leads)
  · rw [same] at marked
    cases marked
    rw [List.append_assoc]
    exact splitExtended_marked fun leads => other (prefix_behind (by decide) leads)
  · rw [same] at marked
    cases marked
    exact splitExtended_share _

theorem splitShare?_lettered (letter : Char) (r : Text) : splitShare? (letter :: ':' :: r) = none := by
  unfold splitShare?
  split
  · rename_i same
    cases same
  · rfl

theorem splitAnchor_letter {path mark r : Text} {letter : Char} (marked : splitExtended path = (mark, letter :: ':' :: '\\' :: r))
    (known : isDriveLetter letter = true) :
    splitAnchor path = (mark ++ [letter, ':'], true, r.dropWhile (· = '\\')) := by
  simp [splitAnchor, marked, splitShare?_lettered, splitDrive, known]

theorem splitAnchor_share {path mark body share rest : Text} (marked : splitExtended path = (mark, body))
    (seen : splitShare? body = some (share, rest)) :
    splitAnchor path = (mark ++ (if mark.isEmpty then share else share.drop 1), true, rest) := by
  simp [splitAnchor, marked, seen]

-- An absolute path has a root behind a drive letter, or a share.
def isAbsolute (path : Text) : Bool :=
  match (splitExtended (backslashed path)).2 with
  | letter :: ':' :: '\\' :: _ => isDriveLetter letter
  | body => (splitShare? body).isSome

theorem backslashed_same {path : Text} (slashless : '/' ∉ path) : backslashed path = path := by
  unfold backslashed
  conv => rhs; rw [← List.map_id path]
  apply List.map_congr_left
  intro c inside
  have other : c ≠ '/' := fun same => slashless (same ▸ inside)
  simp [other]

theorem normal_rooted {path drive rest : Text} (slashless : '/' ∉ path) (anchor : splitAnchor path = (drive, true, rest)) :
    normal path = drive ++ '\\' :: Text.join ['\\'] (components rest) := by
  unfold normal parse
  rw [backslashed_same slashless, anchor]
  unfold print
  split
  · rename_i empty
    simp [Windows.anchor] at empty
  · simp [Windows.anchor]

theorem tidy_join (t : Text) : Text.join ['\\'] (components t) = [] ∨ Tidy (Text.join ['\\'] (components t)) := by
  cases parts : components t with
  | nil => exact .inl rfl
  | cons first rest =>
    have some_ : components t ≠ [] := by simp [parts]
    have split := Text.splitOn_join some_ (components_free t)
    rw [parts] at split
    refine .inr fun part among => ?_
    rw [split, ← parts] at among
    exact components_kept t part among

theorem dropWhile_tidy {t back : Text} (tidy : t = [] ∨ Tidy t) (other : back.head? ≠ some '\\') :
    (t ++ back).dropWhile (· = '\\') = t ++ back := by
  have first : (t ++ back).head? ≠ some '\\' := by
    cases t with
    | nil => exact other
    | cons c r => simpa using tidy_head tidy
  cases whole : t ++ back with
  | nil => rfl
  | cons c r =>
    rw [whole] at first
    have apart : c ≠ '\\' := by simpa using first
    rw [List.dropWhile_cons_of_neg (by simpa using apart)]

-- The text of a path in normal form is its anchor and its components, also in front of more.
structure Anchored (path drive rest : Text) : Prop where
  written : path = drive ++ '\\' :: rest
  tidy : rest = [] ∨ Tidy rest
  behind : ∀ t, splitAnchor (path ++ ';' :: t) = (drive, true, rest ++ ';' :: t)

theorem anchored_letter {path mark r : Text} {letter : Char} (slashless : '/' ∉ path) (same : normal path = path)
    (marked : splitExtended path = (mark, letter :: ':' :: '\\' :: r)) (known : isDriveLetter letter = true) :
    Anchored path (mark ++ [letter, ':']) r := by
  have anchor := splitAnchor_letter marked known
  have text : path = mark ++ letter :: ':' :: '\\' :: r := by
    rcases splitExtended_cases path with ⟨_, plain⟩ | ⟨rest, split, _, plain⟩ | ⟨rest, _, plain⟩
    · rw [plain] at marked
      cases marked
      rfl
    · rw [plain] at marked
      cases marked
      exact split
    · rw [plain] at marked
      cases marked
  have whole := (normal_rooted slashless anchor).symm.trans (same.trans text)
  have tail : Text.join ['\\'] (components (r.dropWhile (· = '\\'))) = r := by simpa using whole
  have tidy := tidy_join (r.dropWhile (· = '\\'))
  rw [tail] at tidy
  refine ⟨by rw [text]; simp, tidy, fun t => ?_⟩
  have more := splitAnchor_letter (r := r ++ ';' :: t) (splitExtended_behind marked t) known
  rwa [dropWhile_tidy tidy (by simp)] at more

theorem anchored_share {path mark body share rest : Text} (slashless : '/' ∉ path) (same : normal path = path)
    (marked : splitExtended path = (mark, body)) (seen : splitShare? body = some (share, rest)) :
    Anchored path (mark ++ (if mark.isEmpty then share else share.drop 1)) rest := by
  have whole := (normal_rooted slashless (splitAnchor_share marked seen)).symm.trans same
  obtain ⟨server, name, tail, first, shown, rfl, ended⟩ := splitShare?_parts seen
  have text : path = mark ++ (if mark.isEmpty then share else share.drop 1) ++ tail := by
    rcases splitExtended_cases path with ⟨_, plain⟩ | ⟨r, split, _, plain⟩ | ⟨r, split, plain⟩
    · rw [plain] at marked
      cases marked
      rfl
    · -- Behind the bare mark the share would lose a backslash.
      rw [plain] at marked
      cases marked
      obtain ⟨c, name', rfl⟩ := List.exists_cons_of_ne_nil first.1
      rw [split, shown] at whole
      have head : c = '\\' := (List.cons.inj (by simpa [extended] using whole : _ :: _ = _ :: _)).1
      exact absurd (by simp [head]) first.2
    · rw [plain] at marked
      obtain ⟨rfl, behind⟩ := Prod.mk.inj marked
      rw [split, shown]
      rw [shown] at behind
      have tail_ : '\\' :: r = ('\\' :: (server ++ '\\' :: name)) ++ tail := (List.cons.inj behind).2
      simpa [extended] using (List.cons.inj tail_).2
  -- The root is written, so the share is ended.
  have root : '\\' :: Text.join ['\\'] (components rest) = tail := List.append_cancel_left (whole.trans text)
  rcases ended with ⟨second, rfl⟩ | ⟨_, rfl⟩
  · have tidy := join_components.mp (List.cons.inj root).2
    refine ⟨text, tidy, fun t => ?_⟩
    have more := splitShare?_ended first second (rest ++ ';' :: t)
    have body : share ++ '\\' :: rest ++ ';' :: t = '\\' :: '\\' :: (server ++ '\\' :: (name ++ '\\' :: (rest ++ ';' :: t))) := by
      simp [shown]
    rw [← body, ← shown] at more
    exact splitAnchor_share (splitExtended_behind marked t) more
  · cases root

theorem isAbsolute_cases {path : Text} (slashless : '/' ∉ path) (absolute : isAbsolute path = true) :
    (∃ letter r, (splitExtended path).2 = letter :: ':' :: '\\' :: r ∧ isDriveLetter letter = true) ∨
      (splitShare? (splitExtended path).2).isSome := by
  unfold isAbsolute at absolute
  rw [backslashed_same slashless] at absolute
  split at absolute
  · rename_i letter r body
    exact .inl ⟨letter, r, body, absolute⟩
  · exact .inr absolute

theorem anchored_absolute {path : Text} (slashless : '/' ∉ path) (absolute : isAbsolute path = true)
    (same : normal path = path) : ∃ drive rest, Anchored path drive rest := by
  have cases_ := isAbsolute_cases slashless absolute
  cases marked : splitExtended path with
  | mk mark body =>
    rw [marked] at cases_
    rcases cases_ with ⟨letter, r, rfl, known⟩ | shared
    · exact ⟨_, _, anchored_letter slashless same marked known⟩
    · obtain ⟨⟨share, rest⟩, seen⟩ := Option.isSome_iff_exists.mp shared
      exact ⟨_, _, anchored_share slashless same marked seen⟩

theorem absolute_leads {path : Text} (slashless : '/' ∉ path) (absolute : isAbsolute path = true) :
    (∃ letter r, path = letter :: ':' :: '\\' :: r ∧ isDriveLetter letter = true) ∨ ∃ r, path = '\\' :: '\\' :: r := by
  have cases_ := isAbsolute_cases slashless absolute
  rcases splitExtended_cases path with ⟨_, plain⟩ | ⟨r, rfl, _⟩ | ⟨r, rfl, _⟩
  · rw [plain] at cases_
    rcases cases_ with letter | shared
    · exact .inl letter
    · obtain ⟨⟨share, rest⟩, seen⟩ := Option.isSome_iff_exists.mp shared
      obtain ⟨server, name, tail, _, rfl, split, _⟩ := splitShare?_parts seen
      exact .inr ⟨_, split⟩
  · exact .inr ⟨_, rfl⟩
  · exact .inr ⟨_, rfl⟩

-- A path in normal form in front of more text is in normal form with it exactly if what
-- follows continues its components.
theorem normal_behind {path drive rest t : Text} (anchored : Anchored path drive rest) (slashless : '/' ∉ path ++ ';' :: t) :
    normal (path ++ ';' :: t) = path ++ ';' :: t ↔ Tidy (rest ++ ';' :: t) := by
  have text : path ++ ';' :: t = drive ++ '\\' :: (rest ++ ';' :: t) := by
    conv => lhs; rw [anchored.written]
    simp
  rw [normal_rooted slashless (anchored.behind t)]
  conv => lhs; rhs; rw [text]
  rw [List.append_cancel_left_eq, List.cons.injEq, join_components, or_iff_right (by simp)]
  simp

end PortableActions.Path.Windows
