import PortableActions.Path.Windows
import PortableActions.Template.Marker
import PortableActions.Template.Tree.Reader
-- Markers for templates that were written without any. Words that look like relative
-- paths or classpaths get path markers, ";" gets its marker, and classpath arguments of
-- tools that read argument files are put into args constructs.
namespace PortableActions.Template.Suggestion

def segments (path : Text) : List Text := (Text.splitOn '/' path).filter (· ≠ [])

def isAbsolute (path : Text) : Bool := Text.startsWith ['/'] path

-- The first segment is "." or "~".
def isRooted (path : Text) : Bool :=
  let first := path.takeWhile (· ≠ '/')
  first = ['.'] || first = ['~']

def mentionsDeps (word : Text) : Bool := Text.mentions Marker.deps word

-- The parts of a classpath, without the empty ones at its end.
def classpathParts (word : Text) : List Text :=
  ((Text.splitOn ':' word).reverse.dropWhile List.isEmpty).reverse

-- A part that is relative and not rooted yet is rooted at ".".
def rootPart (part : Text) : Text :=
  if part.isEmpty || mentionsDeps part || isAbsolute part || isRooted part then part
  else ['.', '/'] ++ part

def startsRooted (part : Text) : Bool := Text.startsWith ['.', '/'] part || Text.startsWith ['~', '/'] part

def braced (t : Text) : Text := ['{'] ++ t ++ ['}']

def markPart (part : Text) : Text :=
  if startsRooted part then braced part
  else if part = ['~'] then Marker.home
  else part

-- At least two parts, and a sign that the word is a list of paths: it mentions the
-- classpath, or no part is absolute and some part has two segments.
def looksLikeClasspath (word : Text) : Bool :=
  let parts := classpathParts word
  2 ≤ parts.length &&
    (mentionsDeps word || (!parts.any isAbsolute && parts.any fun part => 2 ≤ (segments part).length))

-- One marker in braces for the whole list if its first part allows that, else a marker
-- for each part and the path separator marker between them.
def classpath? (word : Text) : Option Text :=
  if looksLikeClasspath word then
    let parts := (classpathParts word).map rootPart
    if startsRooted (parts.headD []) then some (braced (Text.join [':'] parts))
    else some (Text.join Marker.pathSeparator (parts.map markPart))
  else none

def path? (word : Text) : Option Text :=
  if isAbsolute word || (segments word).length < 2 then none
  else some (braced (if isRooted word then word else ['.', '/'] ++ word))

def word (w : Text) : Text := ((classpath? w).or (path? w)).getD w

def executableSuffixes : List Text := [".exe".toList, ".bat".toList, ".cmd".toList]

def argsFileTools : List Text :=
  ["java".toList, "javac".toList, "javadoc".toList, "javap".toList, "jdeps".toList, "jmod".toList]

-- Whether a program, named as the template names it, reads argument files. Both slashes
-- separate directories, case does not matter, and one executable suffix is left out.
def takesArgsFiles (program : Text) : Bool :=
  let name := Text.lower (Path.Windows.parse program).name
  let bare := match executableSuffixes.find? (Text.endsWith · name) with
    | some suffix => name.take (name.length - suffix.length)
    | none => name
  argsFileTools.contains bare

-- An argument that mentions the classpath, as an args construct.
def wrapArgument (argument : Text) : Text :=
  if mentionsDeps argument then
    ['@', '['] ++ Text.replaceAll [']'] Marker.escapedBracket argument ++ [']']
  else argument

-- A program that is written with "@" in front takes args files whatever its name is; the
-- "@" is dropped.
def command (program : Text) (args : List Text) : Text :=
  let program := word program
  let args := args.map word
  match program with
  | '@' :: bare => Text.unwords (bare :: args.map wrapArgument)
  | _ => Text.unwords (program :: if takesArgsFiles program then args.map wrapArgument else args)

-- A command given as its words; none if there is no program.
def commandOf? : List Text → Option Text
  | [] => none
  | program :: args => some (command program args)

def separator : Separator → Text
  | .sequence => [' '] ++ Marker.commandSeparator ++ [' ']
  | .and => [' ', '&', '&', ' ']
  | .or => [' ', '|', '|', ' ']

mutual
def render : Node → Text
  | .command program args => command program args
  | .separator kind => separator kind
  | .group body => ['('] ++ renderAll body ++ [')']

def renderAll : List Node → Text
  | [] => []
  | node :: rest => render node ++ renderAll rest
end

-- A template with markers, or one that is malformed, is left as it is.
def plan (template : Text) : Text :=
  if Marker.isUsedIn template then template
  else match parse? template with
    | some nodes => renderAll nodes
    | none => template

end PortableActions.Template.Suggestion
