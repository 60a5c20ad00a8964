import PortableActions.Shell.Decimal
-- Backslash escapes of `echo` and `printf`, and the directives of `printf`. An octal escape
-- names any byte.
namespace PortableActions.Shell.Escape
open Numeral

def named? (c : Char) : Option Char :=
  match c with
  | 'a' => some '\x07'
  | 'b' => some '\x08'
  | 'e' => some '\x1b'
  | 'f' => some '\x0c'
  | 'n' => some '\n'
  | 'r' => some '\r'
  | 't' => some '\t'
  | 'v' => some '\x0b'
  | '\\' => some '\\'
  | _ => none

def byte (n : Nat) : Char := Char.ofNat (n % 256)

-- What stands for a backslash and the text after it, and what is left of the text.
def read (leadingZero : Bool) : Text → Text × Text
  | [] => (['\\'], [])
  | c :: r =>
    match named? c with
    | some d => ([d], r)
    | none =>
      if isOctal c then
        let zero := leadingZero && c = '0'
        let digits := if zero then (r.take 3).takeWhile isOctal else ((c :: r).take 3).takeWhile isOctal
        ([byte (octalValue digits)], (c :: r).drop (if zero then digits.length + 1 else digits.length))
      else (['\\', c], r)

-- A text with its escapes; the flag says that "\c" has cut it short.
def expand : Nat → Text → Text × Bool
  | 0, _ => ([], false)
  | _ + 1, [] => ([], false)
  | _ + 1, '\\' :: 'c' :: _ => ([], true)
  | fuel + 1, '\\' :: r =>
    let found := read true r
    let after := expand fuel found.2
    (found.1 ++ after.1, after.2)
  | fuel + 1, t =>
    let after := expand fuel (t.dropWhile (· ≠ '\\'))
    (t.takeWhile (· ≠ '\\') ++ after.1, after.2)

def echo (args : List Text) : Text :=
  let (newline, args) := match args with
    | ['-', 'n'] :: rest => (false, rest)
    | _ => (true, args)
  let line := Text.unwords args
  let found := expand (line.length + 1) line
  if found.2 || !newline then found.1 else found.1 ++ ['\n']

structure Directive where
  left : Bool
  zero : Bool
  plus : Bool
  blank : Bool
  alternate : Bool
  width : Nat
  precision : Option Nat
  kind : Char
  deriving DecidableEq, Repr

-- The number at the front of an argument, decimal, octal or hexadecimal, and what is wrong
-- with the argument as a number. A quote stands for the byte after it.
def wholeNumber (hasSign : Bool) (t : Text) : Int × Option Text :=
  match t with
  | '\'' :: r => ((r.headD '\x00').toNat, none)
  | '"' :: r => ((r.headD '\x00').toNat, none)
  | _ =>
    let body := withoutSign t
    if !(body.head?.map Char.isDigit).getD false then
      (0, if t = [] then none else some (t ++ ": expected numeric value".toList))
    else
      let (n, rest) := numeral body
      let (n, out) : Int × Bool := if hasSign then
          let found := clamp (isNegative t) n rest
          (found.value, found.clamped)
        else if wordRange ≤ n then (wordRange - 1, true)
        else (if isNegative t then -(n : Int) else n, false)
      let wrong := if rest ≠ [] then some (t ++ ": not completely converted".toList)
        else if out then some (t ++ ": Numerical result out of range".toList)
        else none
      (n, wrong)

def realNumber (t : Text) : Decimal.Real × Option Text :=
  match t with
  | '\'' :: r => (⟨false, .finite (r.headD '\x00').toNat 0⟩, none)
  | '"' :: r => (⟨false, .finite (r.headD '\x00').toNat 0⟩, none)
  | _ =>
    match Decimal.read? t with
    | some (found, []) => (found, none)
    | some (found, _) => (found, some (t ++ ": not completely converted".toList))
    | none => (⟨false, .finite 0 0⟩, if t = [] then none else some (t ++ ": expected numeric value".toList))

-- A width or precision that is written out or taken from the arguments, what follows it,
-- the arguments that are left, and what is wrong with the one that was taken.
structure Measure where
  size : Int
  rest : Text
  args : List Text
  complaint : Option Text

def measure (t : Text) (args : List Text) : Measure :=
  match t with
  | '*' :: r =>
    let (n, complaint) := wholeNumber true (args.headD [])
    ⟨n, r, args.tail, complaint⟩
  | _ => ⟨number (t.takeWhile Char.isDigit), t.dropWhile Char.isDigit, args, none⟩

-- What follows a percent sign, up to and with the letter, the text and the arguments that
-- are left, and what is wrong with arguments that were taken.
def directive? (t : Text) (args : List Text) : Option (Directive × Text × List Text × List Text) :=
  let isFlag := fun (c : Char) => "-0+ #".toList.contains c
  let flags := t.takeWhile isFlag
  let width := measure (t.dropWhile isFlag) args
  let precision := match width.rest with
    | '.' :: r => some (measure r width.args)
    | _ => none
  let last := precision.getD width
  match last.rest with
  | [] => none
  | kind :: rest =>
    let places := precision.bind fun m => if m.size < 0 then none else some m.size.toNat
    some (⟨flags.contains '-' || width.size < 0, flags.contains '0', flags.contains '+', flags.contains ' ',
      flags.contains '#', width.size.natAbs, places, kind⟩, rest, last.args,
      width.complaint.toList ++ (precision.bind Measure.complaint).toList)

-- Zeros go after a sign and after the letters of a base.
def pad (d : Directive) (zero : Bool) (body : Text) : Text :=
  let missing := d.width - body.length
  if d.left then body ++ List.replicate missing ' '
  else if zero then
    let (sign, digits) := match body with
      | c :: r => if c = '-' || c = '+' || c = ' ' then ([c], r) else ([], body)
      | [] => ([], body)
    let (base, digits) := match digits with
      | '0' :: x :: r => if x = 'x' || x = 'X' then (['0', x], r) else ([], digits)
      | _ => ([], digits)
    sign ++ base ++ List.replicate missing '0' ++ digits
  else List.replicate missing ' ' ++ body

-- Digits, at least as many as the precision says.
def digitsIn (d : Directive) (base : Nat) (n : Nat) : Text :=
  if n = 0 && d.precision = some 0 then []
  else Decimal.padZeros (d.precision.getD 1) (Nat.toDigits base n)

def withSign (d : Directive) (negative : Bool) (digits : Text) : Text :=
  if negative then '-' :: digits
  else if d.plus then '+' :: digits
  else if d.blank then ' ' :: digits
  else digits

-- Without a sign a number counts modulo 2^64.
def unsigned (d : Directive) (base : Nat) (n : Int) : Text :=
  let digits := digitsIn d base (Int.toNat (n % Int.ofNat wordRange))
  if d.alternate then
    match base with
    | 16 => if n = 0 then digits else '0' :: 'x' :: digits
    | 8 => if digits.head? = some '0' then digits else '0' :: digits
    | _ => digits
  else digits

-- What a directive makes of its argument: text, a complaint, and whether all output ends.
structure Formatted where
  text : Text
  complaint : Option Text
  ends : Bool

-- None for a letter that names no conversion.
def format? (d : Directive) (argument : Text) : Option Formatted :=
  let signed := fun (render : Int → Text) =>
    let found := wholeNumber true argument
    some ⟨pad d (d.zero && d.precision.isNone) (render found.1), found.2, false⟩
  let numeric := fun (render : Int → Text) =>
    let found := wholeNumber false argument
    some ⟨pad d (d.zero && d.precision.isNone) (render found.1), found.2, false⟩
  let real := fun (change : Char → Char) =>
    let (found, complaint) := realNumber argument
    let isFinite := match found.magnitude with
      | .finite _ _ => true
      | _ => false
    let digits := (Decimal.print d.kind.toLower d.alternate d.precision found.magnitude).map change
    some ⟨pad d (d.zero && isFinite) (withSign d found.negative digits), complaint, false⟩
  match d.kind with
  | 's' => some ⟨pad d false (match d.precision with | some n => argument.take n | none => argument), none, false⟩
  | 'b' =>
    let found := expand (argument.length + 1) argument
    some ⟨pad d false (match d.precision with | some n => found.1.take n | none => found.1), none, found.2⟩
  | 'c' => some ⟨pad d false [argument.headD '\x00'], none, false⟩
  | 'd' | 'i' => signed fun n => withSign d (decide (n < 0)) (digitsIn d 10 n.natAbs)
  | 'u' => numeric (unsigned d 10)
  | 'o' => numeric (unsigned d 8)
  | 'x' => numeric (unsigned d 16)
  | 'X' => numeric fun n => (unsigned d 16 n).map Char.toUpper
  | 'a' | 'e' | 'f' | 'g' => real id
  | 'A' | 'E' | 'F' | 'G' => real Char.toUpper
  | _ => none

-- What has been printed, the arguments that are left, the complaints, whether an argument
-- was used, and whether all output has ended, by the will of the format or by a fault.
structure Printed where
  text : Text
  left : List Text
  complaints : List Text
  used : Bool
  cut : Bool
  fault : Bool
  deriving Repr

-- The format once from left to right.
def printOnce : Nat → Text → List Text → Printed
  | 0, _, args => ⟨[], args, [], false, false, false⟩
  | _ + 1, [], args => ⟨[], args, [], false, false, false⟩
  | fuel + 1, '\\' :: r, args =>
    let found := read false r
    let after := printOnce fuel found.2 args
    { after with text := found.1 ++ after.text }
  | fuel + 1, '%' :: '%' :: r, args =>
    let after := printOnce fuel r args
    { after with text := '%' :: after.text }
  | fuel + 1, '%' :: r, args =>
    match directive? r args with
    | none => ⟨[], args, ["missing format character".toList], false, true, true⟩
    | some (d, rest, args, wrong) =>
      match format? d (args.headD []) with
      | none =>
        let written := '%' :: r.take (r.length - rest.length)
        ⟨[], args, wrong ++ [written ++ ": invalid directive".toList], false, true, true⟩
      | some found =>
        if found.ends then ⟨found.text, args.tail, wrong ++ found.complaint.toList, true, true, false⟩
        else
          let after := printOnce fuel rest args.tail
          { after with
            text := found.text ++ after.text
            complaints := wrong ++ found.complaint.toList ++ after.complaints
            used := true }
  | fuel + 1, t, args =>
    let isPlain := fun (c : Char) => c ≠ '\\' && c ≠ '%'
    let after := printOnce fuel (t.dropWhile isPlain) args
    { after with text := t.takeWhile isPlain ++ after.text }

-- The format again and again while it uses up arguments.
def printAll (template : Text) : Nat → List Text → Printed
  | 0, args => ⟨[], args, [], false, false, false⟩
  | fuel + 1, args =>
    let once := printOnce (template.length + 1) template args
    if once.cut || !once.used || once.left.isEmpty then once
    else
      let after := printAll template fuel once.left
      { after with text := once.text ++ after.text, complaints := once.complaints ++ after.complaints }

end PortableActions.Shell.Escape
