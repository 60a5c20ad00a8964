import PortableActions.Path.Posix
import PortableActions.Platform
import PortableActions.Template.Marker
-- Classpath entries in their given order, and their place in a template.
namespace PortableActions

-- An entry is plain text or a path, which prints in its normal form.
inductive Entry where
  | text (spelling : Text)
  | path (spelling : Text)
  deriving DecidableEq, Repr

def Entry.print : Entry → Text
  | text spelling => spelling
  | path spelling => Path.Posix.normal spelling

abbrev Classpath := List Entry

namespace Classpath

def print (classpath : Classpath) (platform : Platform) : Text :=
  Text.join platform.pathSeparator (classpath.map Entry.print)

-- No classpath at all reads like an empty one.
def substitute (classpath : Option Classpath) (platform : Platform) (command : Text) : Text :=
  Text.replaceAll Template.Marker.deps ((classpath.getD []).print platform) command

end Classpath
end PortableActions
