import PortableActions.Classpath
import PortableActions.CommandLine.ArgsConstruct
import PortableActions.CommandLine.PathList
-- From a template to a command line: the classpath first, then rooted paths, then the
-- one-character markers, and args constructs last. Each stage reads what the one before
-- it has written.
namespace PortableActions.CommandLine
open PortableActions.Template

def substitutePaths (platform : Platform) (command : Text) : Text :=
  Text.replace Marker.bracedPath (PathList.native platform) command

-- One marker after the other, in this order.
def substituteSymbols (platform : Platform) (command : Text) : Text :=
  let command := Text.replaceAll Marker.fileSeparator platform.fileSeparator command
  let command := Text.replaceAll Marker.pathSeparator platform.pathSeparator command
  let command := Text.replaceAll Marker.home platform.homeMarker command
  Text.replaceAll Marker.commandSeparator platform.commandSeparator command

-- All stages but the last.
def expand (template : Text) (classpath : Option Classpath) (platform : Platform) : Text :=
  substituteSymbols platform (substitutePaths platform (Classpath.substitute classpath platform template))

-- The command line with its args constructs inlined; no file is made. Its length decides
-- whether args files are needed.
def inlined (template : Text) (classpath : Option Classpath) (platform : Platform) : Text :=
  ArgsConstruct.inline (expand template classpath platform)

-- The command line with each args construct in a file of its own.
def spilled {ε σ : Type} (create : Text → EStateM ε σ Text)
    (template : Text) (classpath : Option Classpath) (platform : Platform) : EStateM ε σ Text :=
  ArgsConstruct.spill create (expand template classpath platform)

end PortableActions.CommandLine
