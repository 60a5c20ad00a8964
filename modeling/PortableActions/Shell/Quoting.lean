import PortableActions.Text
-- Texts in quotes, as the shell lists values and as programs name files.
namespace PortableActions.Shell.Quoting

-- In single quotes; runs of single quotes stand in double quotes.
def listed : Nat → Text → Text
  | 0, _ => []
  | fuel + 1, t =>
    let front := ['\''] ++ t.takeWhile (· ≠ '\'') ++ ['\'']
    let rest := t.dropWhile (· ≠ '\'')
    let quotes := rest.takeWhile (· = '\'')
    let more := rest.dropWhile (· = '\'')
    if quotes = [] then front
    else front ++ ['"'] ++ quotes ++ ['"'] ++ (if more = [] then [] else listed fuel more)

def value (t : Text) : Text := listed (t.length + 1) t

-- In single quotes always, as programs name files in messages.
def always (name : Text) : Text :=
  if name.contains '\'' && !name.any (fun c => "\"$`\\!".toList.contains c) then ['"'] ++ name ++ ['"']
  else ['\''] ++ name.flatMap (fun c => if c = '\'' then "'\\''".toList else [c]) ++ ['\'']

def isOrdinary (c : Char) : Bool := c.isAlphanum || "%+,-./@]_\x7b\x7d#~".toList.contains c || 0x7F < c.toNat

-- In quotes only where a shell would read the name differently.
def wherePlainFails (name : Text) : Text :=
  let isPlain := name ≠ [] && name.all isOrdinary && !"#~".toList.contains (name.headD ' ') &&
    name ≠ ['\x7b'] && name ≠ ['\x7d']
  if isPlain then name else always name

-- In typographic quotes, in the bytes of UTF-8, as programs show what they do not accept.
def curled (t : Text) : Text := ['\xe2', '\x80', '\x98'] ++ t ++ ['\xe2', '\x80', '\x99']

end PortableActions.Shell.Quoting
