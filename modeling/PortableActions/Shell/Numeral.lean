import PortableActions.Text
-- Numbers as a shell reads them; letters stand for the digits after nine. Where a whole
-- text has to be a number the answer is optional; elsewhere the digits at the front count.
namespace PortableActions.Shell.Numeral

def digitValue (c : Char) : Nat :=
  if c.isDigit then c.toNat - 48 else if c.isLower then c.toNat - 87 else c.toNat - 55

def valueIn (base : Nat) (digits : Text) : Nat := digits.foldl (fun n c => n * base + digitValue c) 0

def number (digits : Text) : Nat := valueIn 10 digits

def isOctal (c : Char) : Bool := '0' ≤ c && c ≤ '7'

def octalValue (digits : Text) : Nat := valueIn 8 digits

def isHexDigit (c : Char) : Bool := c.isDigit || "abcdefABCDEF".toList.contains c

def isDecimal (t : Text) : Bool := t ≠ [] && t.all Char.isDigit

-- Blanks of the C language: the space and the five controls from tab to carriage return.
def isSpace (c : Char) : Bool := c = ' ' || ('\t' ≤ c && c ≤ '\r')

-- How many values 64 bits have, and the largest one with a sign.
def wordRange : Nat := 18446744073709551616

def largest : Nat := 9223372036854775807

-- The number at the front of a text and what follows it: "0x" starts a hexadecimal number,
-- another "0" an octal one.
def numeral (t : Text) : Nat × Text :=
  match t with
  | '0' :: x :: r =>
    if (x = 'x' || x = 'X') && (r.head?.map isHexDigit).getD false then
      (valueIn 16 (r.takeWhile isHexDigit), r.dropWhile isHexDigit)
    else (octalValue (t.takeWhile isOctal), t.dropWhile isOctal)
  | _ => (number (t.takeWhile Char.isDigit), t.dropWhile Char.isDigit)

def decimal (t : Text) : Nat × Text := (number (t.takeWhile Char.isDigit), t.dropWhile Char.isDigit)

-- A number with blanks and a sign in front, brought into 64 bits.
structure Signed where
  value : Int
  rest : Text
  clamped : Bool
  deriving DecidableEq, Repr

def isNegative (t : Text) : Bool := (t.dropWhile isSpace).head? = some '-'

def withoutSign (t : Text) : Text :=
  match t.dropWhile isSpace with
  | '-' :: r => r
  | '+' :: r => r
  | r => r

def clamp (negative : Bool) (n : Nat) (rest : Text) : Signed :=
  if negative then ⟨-(min n (largest + 1) : Nat), rest, largest + 1 < n⟩
  else ⟨(min n largest : Nat), rest, largest < n⟩

-- None if no digit stands where the number should be.
def signed? (read : Text → Nat × Text) (t : Text) : Option Signed :=
  let digits := withoutSign t
  if (digits.head?.map Char.isDigit).getD false then
    some (clamp (isNegative t) (read digits).1 (read digits).2)
  else none

-- A whole text with blanks around the number.
def whole? (found : Option Signed) : Option Int :=
  match found with
  | some found => if found.clamped || !found.rest.all isSpace then none else some found.value
  | none => none

def integer? (t : Text) : Option Int := whole? (signed? decimal t)

-- A value in arithmetic: any base, and blanks alone are zero.
def operand? (t : Text) : Option Int := if t.all isSpace then some 0 else whole? (signed? numeral t)

-- Numbers of builtin commands are not negative and have 31 bits.
def count? (t : Text) : Option Nat :=
  match integer? t with
  | some n => if 0 ≤ n ∧ n ≤ 2147483647 then some n.toNat else none
  | none => none

end PortableActions.Shell.Numeral
