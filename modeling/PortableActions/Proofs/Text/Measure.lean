import PortableActions.Proofs.Text.Scanning
-- Quantities of a text that add up over its parts, such as its length or how often it shows
-- a character, and what a substitution does to them.
namespace PortableActions.Text

-- A quantity that adds up.
structure Additive (f : Text → Int) : Prop where
  nil : f [] = 0
  append : ∀ a b, f (a ++ b) = f a + f b

variable {pattern : Pattern} {render : Text → Text} {f g : Text → Int}

theorem Additive.cons (additive : Additive f) (c : Char) (r : Text) : f (c :: r) = f [c] + f r := additive.append [c] r

theorem Additive.neg (additive : Additive f) : Additive fun t => -f t :=
  ⟨by simp [additive.nil], fun a b => by rw [additive.append]; omega⟩

theorem Additive.add (one : Additive f) (two : Additive g) : Additive fun t => f t + g t :=
  ⟨by simp [one.nil, two.nil], fun a b => by rw [one.append, two.append]; omega⟩

theorem Additive.scale (additive : Additive f) (k : Int) : Additive fun t => k * f t :=
  ⟨by simp [additive.nil], fun a b => by rw [additive.append, Int.mul_add]⟩

theorem additive_length : Additive fun t => t.length := ⟨rfl, by simp⟩

theorem additive_count (c : Char) : Additive fun t => t.count c := ⟨rfl, by simp⟩

-- If every occurrence costs at least k, the text loses at least that for each.
theorem measure_le {k : Int} (additive : Additive f) (sized : Sized pattern)
    (each : ∀ front rest held, pattern (front ++ rest) = some ⟨held, front.length⟩ → f (render held) + k ≤ f front)
    (t : Text) : f (replace pattern render t) + k * hits pattern t ≤ f t := by
  induction t using scan_induction sized with
  | nil => simp [hits_nil, replace, pieces, piecesAfter, write]
  | plain c r unseen ih =>
    rw [replace_plain unseen, hits_plain unseen, additive.cons, additive.cons c r]
    omega
  | hit front rest held seen split ih =>
    have here := each front rest held seen
    rw [replace_of_pieces split, hits_of_pieces split, additive.append, additive.append, Int.natCast_add, Int.mul_add]
    omega

-- If every occurrence gains exactly k, so does the text for each.
theorem measure_gain {k : Int} (additive : Additive f) (sized : Sized pattern)
    (each : ∀ front rest held, pattern (front ++ rest) = some ⟨held, front.length⟩ → f (render held) = f front + k)
    (t : Text) : f (replace pattern render t) = f t + k * hits pattern t := by
  have most := measure_le (k := -k) additive sized (fun front rest held seen => by
    rw [each front rest held seen]; omega) t
  have least := measure_le (k := k) additive.neg sized (fun front rest held seen => by
    rw [each front rest held seen]; omega) t
  rw [Int.neg_mul] at most
  omega

-- If every occurrence is written with what it takes up, nothing is lost or gained.
theorem measure_eq (additive : Additive f) (sized : Sized pattern)
    (each : ∀ front rest held, pattern (front ++ rest) = some ⟨held, front.length⟩ → f (render held) = f front)
    (t : Text) : f (replace pattern render t) = f t := by
  have same := measure_gain (k := 0) additive sized (fun front rest held seen => by
    rw [each front rest held seen, Int.add_zero]) t
  rwa [Int.zero_mul, Int.add_zero] at same

end PortableActions.Text
