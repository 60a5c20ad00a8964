namespace PortableActions

-- Templates, paths and output are worked on as lists of code points; every
-- length and every position in this library counts code points.
abbrev Text := List Char

namespace Text

-- The parts between occurrences of one separator. There is always at least one part.
def splitOn (sep : Char) : Text → List Text
  | [] => [[]]
  | c :: r =>
    if c = sep then [] :: splitOn sep r
    else match splitOn sep r with
      | [] => [[c]]
      | part :: parts => (c :: part) :: parts

def join (sep : Text) : List Text → Text
  | [] => []
  | [part] => part
  | part :: next :: parts => part ++ sep ++ join sep (next :: parts)

-- Words joined by single blanks.
def unwords (words : List Text) : Text := join [' '] words

def startsWith (lead t : Text) : Bool := lead.isPrefixOf t

def endsWith (tail t : Text) : Bool := tail.isSuffixOf t

-- ASCII letters only: every set of names that is compared after lowering is ASCII,
-- and no other letter lowers to one of the letters of those names.
def lower (t : Text) : Text := t.map Char.toLower

-- Texts in the order of their code points; a text comes before all that it starts.
def atMost : Text → Text → Bool
  | [], _ => true
  | _ :: _, [] => false
  | c :: r, d :: s => c.toNat < d.toNat || (c = d && atMost r s)

-- Decimal digits; a minus sign stands in front of negative numbers.
def ofNat (n : Nat) : Text := Nat.toDigits 10 n

def ofInt (n : Int) : Text := if n < 0 then '-' :: ofNat n.natAbs else ofNat n.natAbs

theorem splitOn_ne_nil (sep : Char) (t : Text) : splitOn sep t ≠ [] := by
  cases t with
  | nil => simp [splitOn]
  | cons c r =>
    simp only [splitOn]
    split
    · simp
    · split <;> simp

theorem join_splitOn (sep : Char) (t : Text) : join [sep] (splitOn sep t) = t := by
  induction t with
  | nil => rfl
  | cons c r ih =>
    by_cases same : c = sep
    · simp only [splitOn, same, if_true]
      cases rest : splitOn sep r with
      | nil => exact absurd rest (splitOn_ne_nil sep r)
      | cons part parts =>
        rw [rest] at ih
        simp [join, ih]
    · simp only [splitOn, same, if_false]
      cases rest : splitOn sep r with
      | nil => exact absurd rest (splitOn_ne_nil sep r)
      | cons part parts =>
        rw [rest] at ih
        cases parts with
        | nil => simpa [join] using ih
        | cons next more => simpa [join] using ih

theorem sep_not_mem_splitOn (sep : Char) (t : Text) : ∀ part ∈ splitOn sep t, sep ∉ part := by
  induction t with
  | nil => simp [splitOn]
  | cons c r ih =>
    by_cases same : c = sep
    · simpa [splitOn, same] using ih
    · simp only [splitOn, same, if_false]
      cases rest : splitOn sep r with
      | nil => exact absurd rest (splitOn_ne_nil sep r)
      | cons part parts =>
        rw [rest] at ih
        intro p member
        rcases List.mem_cons.mp member with rfl | old
        · have := ih part (by simp)
          simp [this, Ne.symm same]
        · exact ih p (by simp [old])

end Text
end PortableActions
