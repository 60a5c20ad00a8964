import Mathlib.Data.Nat.Find
import PortableActions.Text.Utf8
-- Reading UTF-8, held against writing it. Bytes are read a character at a time; where no
-- character is written, as many bytes as start one, but at least one, read as one replacement
-- character. Every sequence of bytes reads as exactly one text in this way.
namespace PortableActions.Text
open String (utf8EncodeChar)

-- Bytes that some character starts with.
def Begins (bytes : List UInt8) : Prop := ∃ c : Char, bytes <+: utf8EncodeChar c

-- Bytes in front of others that read as no character.
structure Broken (front rest : List UInt8) : Prop where
  filled : front ≠ []
  begun : front.length = 1 ∨ Begins front
  longest : ∀ longer, longer <+: front ++ rest → Begins longer → longer.length ≤ front.length
  incomplete : ∀ c, ¬ utf8EncodeChar c <+: front ++ rest

inductive Decodes : List UInt8 → Text → Prop where
  | nil : Decodes [] []
  | char {rest : List UInt8} {t : Text} (c : Char) : Decodes rest t → Decodes (utf8EncodeChar c ++ rest) (c :: t)
  | broken {front rest : List UInt8} {t : Text} : Broken front rest → Decodes rest t →
      Decodes (front ++ rest) (replacement :: t)

namespace Unfinished

-- The byte belongs to the sequence.
def Fits (u : Unfinished) (b : UInt8) : Prop := u.low ≤ b.toNat ∧ b.toNat ≤ u.high

-- The value with the byte's share.
def add (u : Unfinished) (b : UInt8) : Nat := u.value * 64 + (b.toNat - 0x80)

def after (u : Unfinished) (b : UInt8) : Unfinished := ⟨u.add b, u.missing - 1, 0x80, 0xBF⟩

-- The bytes that complete a sequence under way, and the character they make.
def Completes (u : Unfinished) : List UInt8 → Char → Prop
  | [], _ => False
  | b :: tail, c => u.Fits b ∧
    ((u.missing ≤ 1 ∧ tail = [] ∧ Char.ofNat (u.add b) = c) ∨ (1 < u.missing ∧ (u.after b).Completes tail c))

-- After these bytes, what completes the sequence is what completes them to a character.
structure Awaits (u : Unfinished) (front : List UInt8) : Prop where
  range : u.low ≤ u.high ∧ u.high < 256
  exact : ∀ tail c, u.Completes tail c ↔ utf8EncodeChar c = front ++ tail

end Unfinished

-- A byte where a character may start is one, starts none, or leaves a sequence to complete.
inductive Opens (b : UInt8) : Text × Option Unfinished → Prop where
  | alone {c : Char} : (∀ d tail, utf8EncodeChar d = b :: tail ↔ tail = [] ∧ c = d) → Opens b ([c], none)
  | refused : (∀ c tail, utf8EncodeChar c ≠ b :: tail) → Opens b ([replacement], none)
  | begun {u : Unfinished} : u.Awaits [b] → Opens b ([], some u)

open Unfinished
variable {u : Unfinished} {c : Char} {b : UInt8} {front tail rest : List UInt8} {t : Text}

-- A byte that is not the first of its character.
def Trails (x : UInt8) : Prop := 0x80 ≤ x.toNat ∧ x.toNat ≤ 0xBF

theorem toNat_valid (c : Char) : c.toNat < 0xD800 ∨ 0xDFFF < c.toNat ∧ c.toNat < 0x110000 := c.valid

theorem toNat_made {n : Nat} (valid : n.isValidChar) (made : Char.ofNat n = c) : c.toNat = n := by
  rw [← made, Char.ofNat, dif_pos valid]
  rfl

theorem made_of_toNat {n : Nat} (number : c.toNat = n) : Char.ofNat n = c := by
  rw [← number, Char.ofNat_toNat]

theorem ofNat_same {n : Nat} (same : n = b.toNat) : UInt8.ofNat n = b := by
  rw [same, UInt8.ofNat_toNat]

theorem toNat_trail (n : Nat) : (UInt8.ofNat (n % 64 + 128)).toNat = n % 64 + 128 :=
  UInt8.toNat_ofNat_of_lt' (by simp only [UInt8.size]; omega)

theorem trails_trail (n : Nat) : Trails (UInt8.ofNat (n % 64 + 128)) := by
  rw [Trails, toNat_trail]
  omega

-- The four lengths of a character, by its first byte.
theorem encoded_exact : utf8EncodeChar c = b :: tail ↔
    (tail = [] ∧ b.toNat < 0x80 ∧ c.toNat = b.toNat) ∨
    (∃ x, tail = [x] ∧ Trails x ∧ 0xC0 ≤ b.toNat ∧ b.toNat < 0xE0 ∧ 0x80 ≤ c.toNat ∧
      c.toNat = (b.toNat - 0xC0) * 64 + (x.toNat - 0x80)) ∨
    (∃ x y, tail = [x, y] ∧ Trails x ∧ Trails y ∧ 0xE0 ≤ b.toNat ∧ b.toNat < 0xF0 ∧ 0x800 ≤ c.toNat ∧
      c.toNat = ((b.toNat - 0xE0) * 64 + (x.toNat - 0x80)) * 64 + (y.toNat - 0x80)) ∨
    (∃ x y z, tail = [x, y, z] ∧ Trails x ∧ Trails y ∧ Trails z ∧ 0xF0 ≤ b.toNat ∧ 0x10000 ≤ c.toNat ∧
      c.toNat = (((b.toNat - 0xF0) * 64 + (x.toNat - 0x80)) * 64 + (y.toNat - 0x80)) * 64 + (z.toNat - 0x80)) := by
  have bound : c.toNat < 0x110000 := (toNat_valid c).elim (fun low => Nat.lt_trans low (by decide)) And.right
  have number : c.val.toNat = c.toNat := rfl
  unfold utf8EncodeChar
  dsimp only
  rw [number]
  constructor
  · intro same
    split at same
    · obtain ⟨rfl, rfl⟩ := List.cons.inj same
      rw [UInt8.toNat_ofNat_of_lt' (by simp only [UInt8.size]; omega)]
      exact .inl ⟨rfl, by omega, rfl⟩
    split at same
    · obtain ⟨rfl, rfl⟩ := List.cons.inj same
      rw [UInt8.toNat_ofNat_of_lt' (by simp only [UInt8.size]; omega)]
      refine .inr (.inl ⟨_, rfl, trails_trail _, ?_⟩)
      rw [toNat_trail]
      omega
    split at same
    · obtain ⟨rfl, rfl⟩ := List.cons.inj same
      rw [UInt8.toNat_ofNat_of_lt' (by simp only [UInt8.size]; omega)]
      refine .inr (.inr (.inl ⟨_, _, rfl, trails_trail _, trails_trail _, ?_⟩))
      rw [toNat_trail, toNat_trail]
      omega
    · obtain ⟨rfl, rfl⟩ := List.cons.inj same
      rw [UInt8.toNat_ofNat_of_lt' (by simp only [UInt8.size]; omega)]
      refine .inr (.inr (.inr ⟨_, _, _, rfl, trails_trail _, trails_trail _, trails_trail _, ?_⟩))
      rw [toNat_trail, toNat_trail, toNat_trail]
      omega
  -- The other way round the value alone decides which branch encodes it.
  · rintro (⟨rfl, small, value⟩ | ⟨x, rfl, ⟨_, _⟩, row⟩ | ⟨x, y, rfl, ⟨_, _⟩, ⟨_, _⟩, row⟩ |
      ⟨x, y, z, rfl, ⟨_, _⟩, ⟨_, _⟩, ⟨_, _⟩, row⟩)
    · rw [if_pos (by omega), ofNat_same value]
    · rw [if_neg (by omega), if_pos (by omega), @ofNat_same b _ (by omega), @ofNat_same x _ (by omega)]
    · rw [if_neg (by omega), if_neg (by omega), if_pos (by omega), @ofNat_same b _ (by omega), @ofNat_same x _ (by omega),
        @ofNat_same y _ (by omega)]
    · rw [if_neg (by omega), if_neg (by omega), if_neg (by omega), @ofNat_same b _ (by omega), @ofNat_same x _ (by omega),
        @ofNat_same y _ (by omega), @ofNat_same z _ (by omega)]

theorem completes_last {value low high : Nat} : Completes ⟨value, 1, low, high⟩ tail c ↔
    ∃ x : UInt8, tail = [x] ∧ low ≤ x.toNat ∧ x.toNat ≤ high ∧ Char.ofNat (value * 64 + (x.toNat - 0x80)) = c := by
  constructor
  · intro completes
    cases tail with
    | nil => cases completes
    | cons x rest =>
      obtain ⟨fits, ⟨_, rfl, made⟩ | ⟨several, _⟩⟩ := completes
      · exact ⟨x, rfl, fits.1, fits.2, made⟩
      · cases Nat.lt_irrefl 1 several
  · rintro ⟨x, rfl, above, below, made⟩
    exact ⟨⟨above, below⟩, .inl ⟨Nat.le_refl 1, rfl, made⟩⟩

theorem completes_more {value missing low high : Nat} : Completes ⟨value, missing + 2, low, high⟩ tail c ↔
    ∃ (x : UInt8) (rest : List UInt8), tail = x :: rest ∧ low ≤ x.toNat ∧ x.toNat ≤ high ∧
      Completes ⟨value * 64 + (x.toNat - 0x80), missing + 1, 0x80, 0xBF⟩ rest c := by
  constructor
  · intro completes
    cases tail with
    | nil => cases completes
    | cons x rest =>
      obtain ⟨fits, ⟨last, _⟩ | ⟨_, later⟩⟩ := completes
      · simp at last
      · exact ⟨x, rest, rfl, fits.1, fits.2, later⟩
  · rintro ⟨x, rest, rfl, above, below, later⟩
    exact ⟨⟨above, below⟩, .inr ⟨by simp, later⟩⟩

-- The first bytes of sequences. In longer ones the range of the next byte leaves out what
-- would be written shorter, the surrogates, and what lies behind the last character.

theorem opened_one (low : b.toNat < 0x80) : utf8EncodeChar c = b :: tail ↔ tail = [] ∧ Char.ofNat b.toNat = c := by
  rw [encoded_exact]
  constructor
  · rintro (⟨rfl, _, number⟩ | ⟨x, rfl, row⟩ | ⟨x, y, rfl, row⟩ | ⟨x, y, z, rfl, row⟩)
    · exact ⟨rfl, made_of_toNat number⟩
    · omega
    · omega
    · omega
  · rintro ⟨rfl, made⟩
    exact .inl ⟨rfl, low, toNat_made (.inl (by omega)) made⟩

theorem opened_two {value : Nat} (lead : b.toNat = 0xC0 + value) (range : 2 ≤ value ∧ value < 0x20) :
    Completes ⟨value, 1, 0x80, 0xBF⟩ tail c ↔ utf8EncodeChar c = b :: tail := by
  simp only [completes_last, encoded_exact, Trails]
  constructor
  · rintro ⟨x, rfl, above, below, made⟩
    have number := toNat_made (.inl (by omega)) made
    refine .inr (.inl ⟨x, rfl, ?_⟩)
    omega
  · rintro (⟨rfl, row⟩ | ⟨x, rfl, row⟩ | ⟨x, y, rfl, row⟩ | ⟨x, y, z, rfl, row⟩)
    · omega
    · exact ⟨x, rfl, row.1.1, row.1.2, made_of_toNat (by omega)⟩
    · omega
    · omega

theorem opened_three {value low high : Nat} (lead : b.toNat = 0xE0 + value) (short : value < 0x10)
    (trails : 0x80 ≤ low ∧ high ≤ 0xBF)
    (range : ∀ k, 0x80 ≤ k → k ≤ 0xBF → (low ≤ k ∧ k ≤ high ↔
      0x20 ≤ value * 64 + (k - 0x80) ∧ ¬ (0x360 ≤ value * 64 + (k - 0x80) ∧ value * 64 + (k - 0x80) < 0x380))) :
    Completes ⟨value, 2, low, high⟩ tail c ↔ utf8EncodeChar c = b :: tail := by
  have valid := toNat_valid c
  simp only [completes_more, Nat.reduceAdd, completes_last, encoded_exact, Trails]
  constructor
  · rintro ⟨x, _, rfl, above, below, y, rfl, trail, bound, made⟩
    have row := (range x.toNat (by omega) (by omega)).mp ⟨above, below⟩
    have number := toNat_made (by unfold Nat.isValidChar; omega) made
    refine .inr (.inr (.inl ⟨x, y, rfl, ?_⟩))
    omega
  · rintro (⟨rfl, row⟩ | ⟨x, rfl, row⟩ | ⟨x, y, rfl, row⟩ | ⟨x, y, z, rfl, row⟩)
    · omega
    · omega
    · have inside := (range x.toNat row.1.1 row.1.2).mpr (by omega)
      exact ⟨x, _, rfl, inside.1, inside.2, y, rfl, row.2.1.1, row.2.1.2, made_of_toNat (by omega)⟩
    · omega

theorem opened_four {value low high : Nat} (lead : b.toNat = 0xF0 + value) (trails : 0x80 ≤ low ∧ high ≤ 0xBF)
    (range : ∀ k, 0x80 ≤ k → k ≤ 0xBF → (low ≤ k ∧ k ≤ high ↔
      0x10 ≤ value * 64 + (k - 0x80) ∧ value * 64 + (k - 0x80) < 0x110)) :
    Completes ⟨value, 3, low, high⟩ tail c ↔ utf8EncodeChar c = b :: tail := by
  have valid := toNat_valid c
  simp only [completes_more, Nat.reduceAdd, completes_last, encoded_exact, Trails]
  constructor
  · rintro ⟨x, _, rfl, above, below, y, _, rfl, trail, bound, z, rfl, trail', bound', made⟩
    have row := (range x.toNat (by omega) (by omega)).mp ⟨above, below⟩
    have number := toNat_made (by unfold Nat.isValidChar; omega) made
    refine .inr (.inr (.inr ⟨x, y, z, rfl, ?_⟩))
    omega
  · rintro (⟨rfl, row⟩ | ⟨x, rfl, row⟩ | ⟨x, y, rfl, row⟩ | ⟨x, y, z, rfl, row⟩)
    · omega
    · omega
    · omega
    · have inside := (range x.toNat row.1.1 row.1.2).mpr (by omega)
      exact ⟨x, _, rfl, inside.1, inside.2, y, _, rfl, row.2.1.1, row.2.1.2, z, rfl, row.2.2.1.1, row.2.2.1.2,
        made_of_toNat (by omega)⟩

-- No character starts with a byte that trails one, would start a longer form than needed, or
-- lies behind the last that starts one.
theorem unopened (high : 0x80 ≤ b.toNat) (range : b.toNat < 0xC2 ∨ 0xF4 < b.toNat) : utf8EncodeChar c ≠ b :: tail := by
  intro same
  have valid := toNat_valid c
  simp only [encoded_exact, Trails] at same
  rcases same with ⟨_, row⟩ | ⟨x, _, row⟩ | ⟨x, y, _, row⟩ | ⟨x, y, z, _, row⟩ <;> omega

theorem openSequence_opens (b : UInt8) : Opens b (openSequence b.toNat) := by
  unfold openSequence
  refine iteInduction (fun one => .alone fun c tail => opened_one one) fun high => ?_
  refine iteInduction (fun pair => .begun ⟨by simp, fun tail c => opened_two (by omega) (by omega)⟩) fun unpaired => ?_
  refine iteInduction (fun lead => .begun ⟨by simp, fun tail c => ?_⟩) fun _ => ?_
  · exact opened_three (by omega) (by omega) (by omega) (by omega)
  refine iteInduction (fun lead => .begun ⟨by simp, fun tail c => ?_⟩) fun plain => ?_
  · exact opened_three (by omega) (by omega) (by omega) (by omega)
  refine iteInduction (fun lead => .begun ⟨by simp, fun tail c => ?_⟩) fun _ => ?_
  · exact opened_three (by omega) (by omega) (by omega) (by omega)
  refine iteInduction (fun lead => .begun ⟨by simp, fun tail c => ?_⟩) fun _ => ?_
  · exact opened_four (by omega) (by omega) (by omega)
  refine iteInduction (fun lead => .begun ⟨by simp, fun tail c => ?_⟩) fun _ => ?_
  · exact opened_four (by omega) (by omega) (by omega)
  refine iteInduction (fun lead => .begun ⟨by simp, fun tail c => ?_⟩) fun _ => ?_
  · exact opened_four (by omega) (by omega) (by omega)
  · exact .refused fun c tail => unopened (by omega) (by omega)

-- No sequence under way is a dead end.
theorem completes_exists (range : u.low ≤ u.high ∧ u.high < 256) : ∃ tail c, u.Completes tail c := by
  have number : (UInt8.ofNat u.low).toNat = u.low := UInt8.toNat_ofNat_of_lt' (Nat.lt_of_le_of_lt range.1 range.2)
  have fits : u.Fits (.ofNat u.low) := by
    unfold Fits
    omega
  induction remaining : u.missing generalizing u with
  | zero => exact ⟨[.ofNat u.low], _, fits, .inl ⟨by omega, rfl, rfl⟩⟩
  | succ missing ih =>
    by_cases last : u.missing ≤ 1
    · exact ⟨[.ofNat u.low], _, fits, .inl ⟨last, rfl, rfl⟩⟩
    · have number' : (u.after (.ofNat u.low)).missing = missing := by simp [after, remaining]
      obtain ⟨tail, c, completes⟩ := @ih (u.after (.ofNat u.low)) (by simp [after]) (by rfl) (by simp [Fits, after]) number'
      exact ⟨_ :: tail, c, fits, .inr ⟨by omega, completes⟩⟩

theorem Unfinished.Awaits.step (awaits : u.Awaits front) (fits : u.Fits b) (several : 1 < u.missing) : (u.after b).Awaits (front ++ [b]) := by
  constructor
  · simp [after]
  · intro tail c
    rw [List.append_assoc, List.singleton_append, ← awaits.exact, Completes]
    constructor
    · exact fun later => ⟨fits, .inr ⟨several, later⟩⟩
    · intro completes
      obtain ⟨_, ⟨last, _⟩ | ⟨_, later⟩⟩ := completes
      · omega
      · exact later

theorem Unfinished.Awaits.ended (awaits : u.Awaits front) (fits : u.Fits b) (last : u.missing ≤ 1) :
    utf8EncodeChar (Char.ofNat (u.add b)) = front ++ [b] :=
  (awaits.exact [b] _).mp ⟨fits, .inl ⟨last, rfl, rfl⟩⟩

theorem Unfinished.Awaits.begins (awaits : u.Awaits front) (fits : u.Fits b) : Begins (front ++ [b]) := by
  by_cases last : u.missing ≤ 1
  · refine ⟨Char.ofNat (u.add b), [], ?_⟩
    rw [List.append_nil, awaits.ended fits last]
  · have later := awaits.step fits (Nat.lt_of_not_le last)
    obtain ⟨tail, c, completes⟩ := completes_exists later.range
    refine ⟨c, ?_⟩
    rw [(later.exact tail c).mp completes]
    exact List.prefix_append _ _

-- What is read, one byte at a time.

theorem decodeFrom_opened {next : Text × Option Unfinished} (opened : openSequence b.toNat = next) (rest : List UInt8) :
    decodeFrom none (b :: rest) = next.1 ++ decodeFrom next.2 rest := by
  simp only [decodeFrom, decodeStep, opened]

theorem decodeFrom_last (fits : u.Fits b) (last : u.missing ≤ 1) (rest : List UInt8) :
    decodeFrom (some u) (b :: rest) = Char.ofNat (u.add b) :: decodeFrom none rest := by
  have taken : u.take b.toNat = some ([Char.ofNat (u.add b)], none) := (if_pos fits).trans (if_pos last)
  simp only [decodeFrom, decodeStep, taken, List.singleton_append]

theorem decodeFrom_more (fits : u.Fits b) (several : 1 < u.missing) (rest : List UInt8) :
    decodeFrom (some u) (b :: rest) = decodeFrom (some (u.after b)) rest := by
  have taken : u.take b.toNat = some ([], some (u.after b)) := (if_pos fits).trans (if_neg (Nat.not_le_of_lt several))
  simp only [decodeFrom, decodeStep, taken, List.nil_append]

theorem decodeFrom_refused (refused : ¬ u.Fits b) (rest : List UInt8) :
    decodeFrom (some u) (b :: rest) = replacement :: decodeFrom none (b :: rest) := by
  have taken : u.take b.toNat = none := if_neg refused
  simp only [decodeFrom, decodeStep, taken, List.cons_append]

theorem decodeFrom_completes (completes : u.Completes tail c) (rest : List UInt8) :
    decodeFrom (some u) (tail ++ rest) = c :: decodeFrom none rest := by
  induction tail generalizing u with
  | nil => cases completes
  | cons b tail ih =>
    obtain ⟨fits, ⟨last, rfl, rfl⟩ | ⟨several, later⟩⟩ := completes
    · exact decodeFrom_last fits last rest
    · rw [List.cons_append, decodeFrom_more fits several]
      exact ih later

-- A sequence is given up where nothing that is there goes on with it.
theorem decodeFrom_broken {more : List UInt8} (awaits : u.Awaits front) (begun : Begins (front ++ more))
    (broken : Broken (front ++ more) rest) : decodeFrom (some u) (more ++ rest) = replacement :: decodeFrom none rest := by
  induction more generalizing u front with
  | nil =>
    cases rest with
    | nil => rfl
    | cons b r =>
      have refused : ¬ u.Fits b := by
        intro fits
        have longer := broken.longest (front ++ [b]) (by simp) (awaits.begins fits)
        simp only [List.length_append, List.length_singleton, List.length_nil] at longer
        omega
      exact decodeFrom_refused refused r
  | cons b more ih =>
    obtain ⟨c, tail, whole⟩ := begun
    have completes : u.Completes (b :: (more ++ tail)) c := by
      rw [awaits.exact, ← whole]
      simp
    obtain ⟨fits, ⟨last, _⟩ | ⟨several, _⟩⟩ := completes
    · have there : utf8EncodeChar (Char.ofNat (u.add b)) <+: front ++ b :: more ++ rest := by
        rw [awaits.ended fits last]
        simp
      exact absurd there (broken.incomplete _)
    · rw [List.append_cons] at broken whole
      rw [List.cons_append, decodeFrom_more fits several]
      exact ih (awaits.step fits several) ⟨c, tail, whole⟩ broken

theorem ofUtf8_char (c : Char) (rest : List UInt8) : ofUtf8 (utf8EncodeChar c ++ rest) = c :: ofUtf8 rest := by
  cases bytes : utf8EncodeChar c with
  | nil => simp at bytes
  | cons b tail =>
    have opens := openSequence_opens b
    generalize opened : openSequence b.toNat = next at opens
    rw [ofUtf8, List.cons_append, decodeFrom_opened opened]
    cases opens with
    | alone exact_ =>
      obtain ⟨rfl, rfl⟩ := (exact_ c tail).mp bytes
      rfl
    | refused none_ => exact absurd bytes (none_ c tail)
    | begun awaits => exact decodeFrom_completes ((awaits.exact tail c).mpr bytes) rest

theorem ofUtf8_broken (broken : Broken front rest) : ofUtf8 (front ++ rest) = replacement :: ofUtf8 rest := by
  obtain ⟨b, more, rfl⟩ := List.exists_cons_of_ne_nil broken.filled
  have opens := openSequence_opens b
  generalize opened : openSequence b.toNat = next at opens
  rw [ofUtf8, List.cons_append, decodeFrom_opened opened]
  cases opens with
  | @alone c exact_ =>
    have whole : utf8EncodeChar c = [b] := (exact_ c []).mpr ⟨rfl, rfl⟩
    have there : utf8EncodeChar c <+: b :: more ++ rest := by
      rw [whole]
      simp
    exact absurd there (broken.incomplete c)
  | refused none_ =>
    -- A byte that opens nothing is broken on its own.
    have single : more = [] := by
      cases broken.begun with
      | inl one => simpa using one
      | inr begun =>
        obtain ⟨c, tail, whole⟩ := begun
        exact absurd whole.symm (none_ c (more ++ tail))
    rw [single]
    rfl
  | begun awaits =>
    have begun : Begins (b :: more) := by
      cases broken.begun with
      | inl one =>
        obtain ⟨tail, c, completes⟩ := completes_exists awaits.range
        have single : more = [] := by simpa using one
        exact ⟨c, tail, by rw [(awaits.exact tail c).mp completes, single]⟩
      | inr begun => exact begun
    exact decodeFrom_broken awaits begun broken

-- The characters of a text are read back.
theorem ofUtf8_utf8 (t : Text) : ofUtf8 (utf8 t) = t := by
  induction t with
  | nil => rfl
  | cons c r ih =>
    have split : utf8 (c :: r) = utf8EncodeChar c ++ utf8 r := rfl
    rw [split, ofUtf8_char, ih]

open Classical in
theorem broken_exists {bytes : List UInt8} (filled : bytes ≠ []) (incomplete : ∀ c, ¬ utf8EncodeChar c <+: bytes) :
    ∃ front rest, bytes = front ++ rest ∧ Broken front rest := by
  let most := Nat.findGreatest (fun n => Begins (bytes.take n)) bytes.length
  have some_ := List.length_pos_iff.mpr filled
  have bound : most ≤ bytes.length := Nat.findGreatest_le _
  have begins : Begins (bytes.take most) :=
    Nat.findGreatest_spec (P := fun n => Begins (bytes.take n)) (Nat.zero_le _) ⟨'a', List.nil_prefix⟩
  have length : (bytes.take (max 1 most)).length = max 1 most := by
    rw [List.length_take]
    omega
  refine ⟨bytes.take (max 1 most), bytes.drop (max 1 most), (List.take_append_drop _ _).symm, ?_, ?_, ?_, ?_⟩
  · apply List.length_pos_iff.mp
    omega
  · by_cases several : 1 ≤ most
    · rw [Nat.max_eq_right several]
      exact .inr begins
    · left
      omega
  · intro longer leads begun
    rw [List.take_append_drop] at leads
    rw [List.prefix_iff_eq_take.mp leads] at begun
    have most_ := Nat.le_findGreatest (P := fun n => Begins (bytes.take n)) leads.length_le begun
    omega
  · rw [List.take_append_drop]
    exact incomplete

theorem decodes_exists (bytes : List UInt8) : ∃ t, Decodes bytes t := by
  induction size : bytes.length using Nat.strongRecOn generalizing bytes with
  | ind n ih =>
    by_cases empty : bytes = []
    · exact ⟨[], empty ▸ .nil⟩
    · by_cases complete : ∃ c, utf8EncodeChar c <+: bytes
      · obtain ⟨c, rest, rfl⟩ := complete
        obtain ⟨t, reads⟩ := ih rest.length (by
          have := c.utf8Size_pos
          rw [← size, List.length_append, String.length_utf8EncodeChar]
          omega) rest rfl
        exact ⟨c :: t, .char c reads⟩
      · obtain ⟨front, rest, rfl, broken⟩ := broken_exists empty fun c leads => complete ⟨c, leads⟩
        have some_ := List.length_pos_iff.mpr broken.filled
        obtain ⟨t, reads⟩ := ih rest.length (by rw [← size, List.length_append]; omega) rest rfl
        exact ⟨replacement :: t, .broken broken reads⟩

theorem ofUtf8_of_decodes {bytes : List UInt8} (reads : Decodes bytes t) : ofUtf8 bytes = t := by
  induction reads with
  | nil => rfl
  | char c _ ih => rw [ofUtf8_char, ih]
  | broken broken _ ih => rw [ofUtf8_broken broken, ih]

-- Bytes read as one text and as no other.
theorem decodes_exact {bytes : List UInt8} : Decodes bytes t ↔ ofUtf8 bytes = t := by
  constructor
  · exact ofUtf8_of_decodes
  · rintro rfl
    obtain ⟨t, reads⟩ := decodes_exists bytes
    rwa [ofUtf8_of_decodes reads]

end PortableActions.Text
