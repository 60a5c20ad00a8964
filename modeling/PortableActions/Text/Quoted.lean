import PortableActions.Text.Printable
-- Text in quotes, as error messages show a path. Single quotes are used unless the
-- text holds a single quote and no double quote; the quote in use, the backslash and
-- whatever cannot be shown are written as escapes.
namespace PortableActions.Text

def hexDigit (n : Nat) : Char := Char.ofNat (if n < 10 then 48 + n else 87 + n)

-- Lower-case hexadecimal, the given number of digits, high digits dropped.
def hex : Nat → Nat → Text
  | 0, _ => []
  | width + 1, n => hex width (n / 16) ++ [hexDigit (n % 16)]

-- The shortest of the three escapes that can name the character.
def codeEscape (c : Char) : Text :=
  let n := c.toNat
  if n < 0x100 then ['\\', 'x'] ++ hex 2 n
  else if n < 0x10000 then ['\\', 'u'] ++ hex 4 n
  else ['\\', 'U'] ++ hex 8 n

def quoteFor (t : Text) : Char :=
  if t.contains '\'' && !t.contains '"' then '"' else '\''

def escapeIn (quote c : Char) : Text :=
  if c = quote || c = '\\' then ['\\', c]
  else if c = '\t' then ['\\', 't']
  else if c = '\n' then ['\\', 'n']
  else if c = '\r' then ['\\', 'r']
  else if isPrintable c then [c]
  else codeEscape c

def quoted (t : Text) : Text :=
  let quote := quoteFor t
  [quote] ++ t.flatMap (escapeIn quote) ++ [quote]

end PortableActions.Text
