import PortableActions.Text.Utf8
-- Texts inside the shell hold one character for each byte: what a shell counts, cuts and
-- matches are bytes. These are the ways in and out.
namespace PortableActions.Shell.Octets

def ofBytes (bytes : List UInt8) : Text := bytes.map fun b => Char.ofNat b.toNat

def toBytes (t : Text) : List UInt8 := t.map fun c => UInt8.ofNat c.toNat

-- The bytes of a text of code points.
def ofText (t : Text) : Text := ofBytes (Text.utf8 t)

def toText (t : Text) : Text := Text.ofUtf8 (toBytes t)

end PortableActions.Shell.Octets
