import PortableActions.Text
-- UTF-8, both ways. Writing is exact. Reading never fails: each maximal run of bytes
-- that starts no well-formed sequence, or is the start of a broken one, reads as one
-- replacement character.
namespace PortableActions.Text

def utf8 (t : Text) : List UInt8 := t.flatMap String.utf8EncodeChar

def utf8Size : Text → Nat
  | [] => 0
  | c :: r => c.utf8Size + utf8Size r

def replacement : Char := '\ufffd'

-- A multi-byte sequence under way. The next byte has to lie in a closed range, which is
-- narrower after those lead bytes that would allow overlong forms or surrogates.
structure Unfinished where
  value : Nat
  missing : Nat
  low : Nat
  high : Nat
  deriving DecidableEq, Repr

-- A byte where a character may start: what can be written at once, and what is begun.
def openSequence (b : Nat) : Text × Option Unfinished :=
  if b < 0x80 then ([Char.ofNat b], none)
  else if 0xC2 ≤ b ∧ b ≤ 0xDF then ([], some ⟨b - 0xC0, 1, 0x80, 0xBF⟩)
  else if b = 0xE0 then ([], some ⟨0, 2, 0xA0, 0xBF⟩)
  else if b = 0xED then ([], some ⟨0xD, 2, 0x80, 0x9F⟩)
  else if 0xE1 ≤ b ∧ b ≤ 0xEF then ([], some ⟨b - 0xE0, 2, 0x80, 0xBF⟩)
  else if b = 0xF0 then ([], some ⟨0, 3, 0x90, 0xBF⟩)
  else if 0xF1 ≤ b ∧ b ≤ 0xF3 then ([], some ⟨b - 0xF0, 3, 0x80, 0xBF⟩)
  else if b = 0xF4 then ([], some ⟨4, 3, 0x80, 0x8F⟩)
  else ([replacement], none)

-- A byte that continues the sequence, or none if it does not belong to it.
def Unfinished.take (u : Unfinished) (b : Nat) : Option (Text × Option Unfinished) :=
  if u.low ≤ b ∧ b ≤ u.high then
    let value := u.value * 64 + (b - 0x80)
    if u.missing ≤ 1 then some ([Char.ofNat value], none)
    else some ([], some ⟨value, u.missing - 1, 0x80, 0xBF⟩)
  else none

def decodeStep (state : Option Unfinished) (b : Nat) : Text × Option Unfinished :=
  match state with
  | none => openSequence b
  | some u =>
    match u.take b with
    | some next => next
    | none => let next := openSequence b; (replacement :: next.1, next.2)

def decodeFrom : Option Unfinished → List UInt8 → Text
  | none, [] => []
  | some _, [] => [replacement]
  | state, b :: r =>
    let next := decodeStep state b.toNat
    next.1 ++ decodeFrom next.2 r

def ofUtf8 (bytes : List UInt8) : Text := decodeFrom none bytes

end PortableActions.Text
