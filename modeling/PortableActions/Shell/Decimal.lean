import PortableActions.Shell.Numeral
-- Numbers with a fraction, as `printf` reads and prints them: read to the nearest number
-- with 53 binary digits, printed exactly and rounded to the digits that are asked for. Of
-- two numbers that are equally near, the even one counts.
namespace PortableActions.Shell.Decimal
open Numeral

-- A magnitude m * 2^e, or one of the values that are no number.
inductive Magnitude where
  | finite (mantissa : Nat) (exponent : Int)
  | infinite
  | notANumber
  deriving DecidableEq, Repr

structure Real where
  negative : Bool
  magnitude : Magnitude
  deriving DecidableEq, Repr

def power (base : Nat) (n : Nat) : Nat := Nat.pow base n

-- The nearest whole number to a quotient, ties to even.
def roundedQuotient (a b : Nat) : Nat :=
  let q := a / b
  let r := a % b
  if b < 2 * r then q + 1
  else if 2 * r = b then q + q % 2
  else q

-- A quotient of whole numbers brought to 53 binary digits.
def ofQuotient (a b : Nat) : Magnitude :=
  if a = 0 then .finite 0 0
  else
    let guess : Int := (Nat.log2 a : Int) - (Nat.log2 b : Int) - 52
    let scaled := fun (e : Int) => if 0 ≤ e then (a, b * power 2 e.toNat) else (a * power 2 (-e).toNat, b)
    let (x, y) := scaled guess
    let e := if x / y < power 2 52 then guess - 1 else guess
    let e := max e (-1074)
    let (x, y) := scaled e
    let m := roundedQuotient x y
    let (m, e) := if m = power 2 53 then (power 2 52, e + 1) else (m, e)
    if 971 < e then .infinite else .finite m e

-- Digits with a point and an exponent: the number is value * base^scale.
structure Written where
  value : Nat
  fractionDigits : Nat
  exponent : Int
  rest : Text
  deriving Repr

def exponentOf (marks : Text) (t : Text) : Int × Text :=
  match t with
  | c :: r =>
    if marks.contains c then
      let (negative, digits) := match r with
        | '-' :: d => (true, d)
        | '+' :: d => (false, d)
        | _ => (false, r)
      let found := digits.takeWhile Char.isDigit
      if found = [] then (0, t)
      else
        let n : Int := min (number found) 100000
        (if negative then -n else n, digits.dropWhile Char.isDigit)
    else (0, t)
  | [] => (0, t)

-- Digits at the front; none if there are none.
def written? (base : Nat) (isDigit : Char → Bool) (marks t : Text) : Option Written :=
  let whole := t.takeWhile isDigit
  let after := t.dropWhile isDigit
  let (fraction, after) := match after with
    | '.' :: r => (r.takeWhile isDigit, if whole = [] && (r.takeWhile isDigit) = [] then after else r.dropWhile isDigit)
    | _ => ([], after)
  if whole = [] && fraction = [] then none
  else
    let (exponent, rest) := exponentOf marks after
    some ⟨valueIn base (whole ++ fraction), fraction.length, exponent, rest⟩

def magnitudeOf (base : Nat) (exponentBase : Nat) (w : Written) : Magnitude :=
  let up := if 0 ≤ w.exponent then power exponentBase w.exponent.toNat else 1
  let down := if w.exponent < 0 then power exponentBase (-w.exponent).toNat else 1
  if w.value = 0 then .finite 0 0 else ofQuotient (w.value * up) (power base w.fractionDigits * down)

-- A number at the front of a text, and the text after it.
def read? (t : Text) : Option (Real × Text) :=
  let negative := isNegative t
  let body := withoutSign t
  let lower := body.map Char.toLower
  if Text.startsWith "infinity".toList lower then some (⟨negative, .infinite⟩, body.drop 8)
  else if Text.startsWith "inf".toList lower then some (⟨negative, .infinite⟩, body.drop 3)
  else if Text.startsWith "nan".toList lower then some (⟨negative, .notANumber⟩, body.drop 3)
  else
    let hexadecimal := if Text.startsWith "0x".toList lower then written? 16 isHexDigit "pP".toList (body.drop 2) else none
    match hexadecimal with
    | some w => some (⟨negative, magnitudeOf 16 2 w⟩, w.rest)
    | none => (written? 10 Char.isDigit "eE".toList body).map fun w => (⟨negative, magnitudeOf 10 10 w⟩, w.rest)

-- The number as a quotient of whole numbers.
def quotient (m : Nat) (e : Int) : Nat × Nat :=
  if 0 ≤ e then (m * power 2 e.toNat, 1) else (m, power 2 (-e).toNat)

def padZeros (width : Nat) (t : Text) : Text := List.replicate (width - t.length) '0' ++ t

def withPoint (alternate : Bool) (whole fraction : Text) : Text :=
  if fraction = [] then whole ++ (if alternate then ['.'] else []) else whole ++ ['.'] ++ fraction

-- Digits before and after the point.
def fixedDigits (places m : Nat) (e : Int) : Text × Text :=
  let (a, b) := quotient m e
  let digits := padZeros (places + 1) (Text.ofNat (roundedQuotient (a * power 10 places) b))
  (digits.take (digits.length - places), digits.drop (digits.length - places))

-- The number of digits before the point less one, or of zeros after it.
def decimalExponent : Nat → Nat → Nat → Int → Int
  | 0, _, _, x => x
  | fuel + 1, a, b, x =>
    if a = 0 then 0
    else
      let low := if 0 ≤ x then (a, b * power 10 x.toNat) else (a * power 10 (-x).toNat, b)
      if low.1 < low.2 then decimalExponent fuel a b (x - 1)
      else if 10 * low.2 ≤ low.1 then decimalExponent fuel a b (x + 1)
      else x

-- One digit before the point, some after it, and the exponent.
def scientificDigits (places m : Nat) (e : Int) : Text × Int :=
  if m = 0 then (List.replicate (places + 1) '0', 0)
  else
    let (a, b) := quotient m e
    let guess := (((Nat.log2 m : Int) + e) * 30103) / 100000
    let x := decimalExponent 8 a b guess
    let shift := (places : Int) - x
    let n := if 0 ≤ shift then roundedQuotient (a * power 10 shift.toNat) b
      else roundedQuotient a (b * power 10 (-shift).toNat)
    if power 10 (places + 1) ≤ n then (Text.ofNat (n / 10), x + 1) else (Text.ofNat n, x)

def exponentText (letter : Char) (x : Int) : Text :=
  [letter, if x < 0 then '-' else '+'] ++ padZeros 2 (Text.ofNat x.natAbs)

def scientific (alternate : Bool) (places m : Nat) (e : Int) : Text :=
  let (digits, x) := scientificDigits places m e
  withPoint alternate (digits.take 1) (digits.drop 1) ++ exponentText 'e' x

def withoutZeros (t : Text) : Text := (t.reverse.dropWhile (· = '0')).reverse

-- The shorter of the two forms, without zeros at the end of the fraction.
def general (alternate : Bool) (precision m : Nat) (e : Int) : Text :=
  let digits := if precision = 0 then 1 else precision
  let (found, x) := scientificDigits (digits - 1) m e
  let trimmed := fun (t : Text) => if alternate then t else withoutZeros t
  if x < -4 ∨ (digits : Int) ≤ x then
    withPoint alternate (found.take 1) (trimmed (found.drop 1)) ++ exponentText 'e' x
  else
    let (whole, fraction) := fixedDigits (digits - 1 - x).toNat m e
    withPoint alternate whole (trimmed fraction)

-- Hexadecimal digits of the mantissa with a binary exponent.
def hexadecimal (alternate : Bool) (precision : Option Nat) (m : Nat) (e : Int) : Text :=
  if m = 0 then "0x".toList ++ withPoint alternate ['0'] (List.replicate (precision.getD 0) '0') ++ "p+0".toList
  else
    let top := Nat.log2 m
    let isSmall := e = -1074 && top < 52
    let x : Int := if isSmall then -1022 else (top : Int) + e
    let scaled := if isSmall then m else m * power 2 (52 - top)
    let (lead, digits) := match precision with
      | some p =>
        if 13 ≤ p then (scaled / power 2 52, padZeros 13 (Nat.toDigits 16 (scaled % power 2 52)) ++ List.replicate (p - 13) '0')
        else
          let n := roundedQuotient scaled (power 16 (13 - p))
          (n / power 16 p, if p = 0 then [] else padZeros p (Nat.toDigits 16 (n % power 16 p)))
      | none => (scaled / power 2 52, withoutZeros (padZeros 13 (Nat.toDigits 16 (scaled % power 2 52))))
    "0x".toList ++ withPoint alternate (Text.ofNat lead) digits ++
      ['p', if x < 0 then '-' else '+'] ++ Text.ofNat x.natAbs

-- The digits of a magnitude in the form that a letter names, in lower case.
def print (form : Char) (alternate : Bool) (precision : Option Nat) : Magnitude → Text
  | .infinite => "inf".toList
  | .notANumber => "nan".toList
  | .finite m e =>
    match form with
    | 'f' =>
      let (whole, fraction) := fixedDigits (precision.getD 6) m e
      withPoint alternate whole fraction
    | 'e' => scientific alternate (precision.getD 6) m e
    | 'g' => general alternate (precision.getD 6) m e
    | _ => hexadecimal alternate precision m e

end PortableActions.Shell.Decimal
