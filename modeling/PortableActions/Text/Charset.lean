import PortableActions.Text.Quoted
import PortableActions.Text.Utf8
-- Character sets a text can be written in. The single-byte sets refuse what lies above
-- their last code point; the marked ones write a byte order mark first, also before
-- an empty text.
namespace PortableActions.Text

inductive Charset where
  | ascii
  | latin1
  | utf8
  | utf8Marked
  | utf16
  | utf16Little
  | utf16Big
  | utf32
  | utf32Little
  | utf32Big
  deriving DecidableEq, Repr

-- A run of characters that the set does not have: the first of them and both ends.
structure Unencodable where
  charset : Charset
  char : Char
  first : Nat
  last : Nat
  deriving DecidableEq, Repr

namespace Charset

-- A name is known by its letters, digits and full stops; case does not matter, and any
-- run of other characters counts as one underscore, or as nothing at either end.
def foldName (name : Text) : Text :=
  let step := fun (state : Text × Bool) (c : Char) =>
    if c.isAlphanum || c = '.' then
      (c.toLower :: (if state.2 && !state.1.isEmpty then '_' :: state.1 else state.1), false)
    else (state.1, true)
  (name.foldl step ([], false)).1.reverse

-- The own name of a set, and the names it is also known by.
def names : Charset → List String
  | ascii => ["ascii", "646", "ansi_x3.4_1968", "ansi_x3_4_1968", "ansi_x3.4_1986", "cp367", "csascii",
      "ibm367", "iso646_us", "iso_646.irv_1991", "iso_ir_6", "us", "us_ascii"]
  | latin1 => ["latin_1", "8859", "cp819", "csisolatin1", "ibm819", "iso8859", "iso8859_1", "iso_8859_1",
      "iso_8859_1_1987", "iso_ir_100", "l1", "latin", "latin1"]
  | utf8 => ["utf_8", "u8", "utf", "utf8", "utf8_ucs2", "utf8_ucs4", "cp65001"]
  | utf8Marked => ["utf_8_sig"]
  | utf16 => ["utf_16", "u16", "utf16"]
  | utf16Little => ["utf_16_le", "unicodelittleunmarked", "utf_16le"]
  | utf16Big => ["utf_16_be", "unicodebigunmarked", "utf_16be"]
  | utf32 => ["utf_32", "u32", "utf32"]
  | utf32Little => ["utf_32_le", "utf_32le"]
  | utf32Big => ["utf_32_be", "utf_32be"]

def all : List Charset :=
  [ascii, latin1, utf8, utf8Marked, utf16, utf16Little, utf16Big, utf32, utf32Little, utf32Big]

-- In the other names a full stop may stand for an underscore.
def named? (name : Text) : Option Charset :=
  let folded := foldName name
  let undotted := folded.map fun c => if c = '.' then '_' else c
  all.find? fun charset =>
    charset.names.contains (String.ofList folded) || charset.names.tail.contains (String.ofList undotted)

-- One past the last code point the set has; none for those that have them all.
def limit? : Charset → Option Nat
  | ascii => some 0x80
  | latin1 => some 0x100
  | _ => none

-- The name that a refusal shows.
def label : Charset → Text
  | ascii => "ascii".toList
  | latin1 => "latin-1".toList
  | charset => (charset.names.headD "").toList

end Charset

def bytesOf : Nat → Nat → List UInt8
  | 0, _ => []
  | width + 1, n => UInt8.ofNat (n % 256) :: bytesOf width (n / 256)

def units16 (c : Char) : List Nat :=
  let n := c.toNat
  if n < 0x10000 then [n]
  else [0xD800 + (n - 0x10000) / 0x400, 0xDC00 + (n - 0x10000) % 0x400]

def utf16Little (t : Text) : List UInt8 := t.flatMap fun c => (units16 c).flatMap (bytesOf 2)

def utf16Big (t : Text) : List UInt8 := t.flatMap fun c => (units16 c).flatMap fun u => (bytesOf 2 u).reverse

def utf32Little (t : Text) : List UInt8 := t.flatMap fun c => bytesOf 4 c.toNat

def utf32Big (t : Text) : List UInt8 := t.flatMap fun c => (bytesOf 4 c.toNat).reverse

-- The position of the first character that fails the test, if there is one.
def firstBad (limit : Nat) : Nat → Text → Option (Nat × Char × Text)
  | _, [] => none
  | n, c :: r => if c.toNat < limit then firstBad limit (n + 1) r else some (n, c, r)

def encodeBelow (charset : Charset) (limit : Nat) (t : Text) : Except Unencodable (List UInt8) :=
  match firstBad limit 0 t with
  | none => .ok (t.map fun c => UInt8.ofNat c.toNat)
  | some (n, c, r) => .error ⟨charset, c, n, n + (r.takeWhile fun d => limit ≤ d.toNat).length⟩

def encode (charset : Charset) (t : Text) : Except Unencodable (List UInt8) :=
  match charset with
  | .ascii => encodeBelow .ascii 0x80 t
  | .latin1 => encodeBelow .latin1 0x100 t
  | .utf8 => .ok (utf8 t)
  | .utf8Marked => .ok (utf8 ('\ufeff' :: t))
  | .utf16 => .ok (utf16Little ('\ufeff' :: t))
  | .utf16Little => .ok (utf16Little t)
  | .utf16Big => .ok (utf16Big t)
  | .utf32 => .ok (utf32Little ('\ufeff' :: t))
  | .utf32Little => .ok (utf32Little t)
  | .utf32Big => .ok (utf32Big t)

def Unencodable.message (u : Unencodable) : Text :=
  let where_ :=
    if u.first = u.last then
      " codec can't encode character '".toList ++ codeEscape u.char ++ "' in position ".toList ++ ofNat u.first
    else
      " codec can't encode characters in position ".toList ++ ofNat u.first ++ ['-'] ++ ofNat u.last
  ['\''] ++ u.charset.label ++ ['\''] ++ where_ ++ ": ordinal not in range(".toList ++
    ofNat (u.charset.limit?.getD 0) ++ [')']

end PortableActions.Text
