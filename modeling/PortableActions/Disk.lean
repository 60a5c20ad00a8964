import PortableActions.Path.Posix
import PortableActions.Text.Quoted
import PortableActions.Text.Utf8
-- A disk as a value: directories and files at absolute locations. The root is always a
-- directory. A location is listed once at most as long as entries are only added
-- through `put`.
namespace PortableActions

-- Names from the root down.
abbrev Location := List Text

namespace Location

def print (location : Location) : Text := ['/'] ++ Text.join ['/'] location

end Location

inductive Errno where
  | noEntry
  | argumentsTooLong
  | noExecution
  | badDescriptor
  | denied
  | exists_
  | notDirectory
  | isDirectory
  | nameTooLong
  deriving DecidableEq, Repr

namespace Errno

def number : Errno → Nat
  | noEntry => 2
  | argumentsTooLong => 7
  | noExecution => 8
  | badDescriptor => 9
  | denied => 13
  | exists_ => 17
  | notDirectory => 20
  | isDirectory => 21
  | nameTooLong => 36

def description : Errno → Text
  | noEntry => "No such file or directory".toList
  | argumentsTooLong => "Argument list too long".toList
  | noExecution => "Exec format error".toList
  | badDescriptor => "Bad file descriptor".toList
  | denied => "Permission denied".toList
  | exists_ => "File exists".toList
  | notDirectory => "Not a directory".toList
  | isDirectory => "Is a directory".toList
  | nameTooLong => "File name too long".toList

-- The text of an error with the path it is about.
def message (e : Errno) (path : Text) : Text :=
  "[Errno ".toList ++ Text.ofNat e.number ++ "] ".toList ++ e.description ++ ": ".toList ++ Text.quoted path

end Errno

structure Disk where
  entries : List (Location × Option (List UInt8))
  deriving DecidableEq, Repr

namespace Disk

-- What stands at a location.
inductive Content where
  | directory
  | file (bytes : List UInt8)
  deriving DecidableEq, Repr

def Content.ofEntry : Option (List UInt8) → Content
  | none => directory
  | some bytes => file bytes

def empty : Disk := ⟨[]⟩

def lookup (disk : Disk) (location : Location) : Option Content :=
  if location = [] then some .directory
  else (disk.entries.find? fun entry => entry.1 = location).map fun entry => .ofEntry entry.2

-- Everything at and below a location goes.
def remove (disk : Disk) (location : Location) : Disk :=
  ⟨disk.entries.filter fun entry => !location.isPrefixOf entry.1⟩

-- Only what stands at the location itself goes.
def erase (disk : Disk) (location : Location) : Disk :=
  ⟨disk.entries.filter fun entry => entry.1 ≠ location⟩

-- Replaces what stands at the location, or adds it.
def put (disk : Disk) (location : Location) (entry : Option (List UInt8)) : Disk :=
  ⟨(location, entry) :: (disk.erase location).entries⟩

def write (disk : Disk) (location : Location) (bytes : List UInt8) : Disk := disk.put location (some bytes)

-- A name may have 255 bytes, a whole path 4095.
def isLongName (name : Text) : Bool := 255 < Text.utf8Size name

def isLongPath (path : Text) : Bool := 4095 < Text.utf8Size path

-- One step down (or up) from a directory.
def enter (disk : Disk) (location : Location) (name : Text) : Except Errno Location :=
  if name = [] ∨ name = ['.'] then .ok location
  else if name = ['.', '.'] then .ok location.dropLast
  else if isLongName name then .error .nameTooLong
  else match disk.lookup (location ++ [name]) with
    | some .directory => .ok (location ++ [name])
    | some (.file _) => .error .notDirectory
    | none => .error .noEntry

def walk (disk : Disk) : Location → List Text → Except Errno Location
  | location, [] => .ok location
  | location, name :: rest =>
    match disk.enter location name with
    | .ok next => disk.walk next rest
    | .error e => .error e

-- Directory names and last name of an absolute path, and whether a slash ends it.
def splitLast (path : Text) : List Text × Text × Bool :=
  let names := (Text.splitOn '/' path).filter (· ≠ [])
  (names.dropLast, names.getLast?.getD [], Text.endsWith ['/'] path)

-- Where a new file with this absolute path would come to stand. It is refused if the
-- path leads nowhere, asks for a directory, or is taken.
def vacancy (disk : Disk) (path : Text) : Except Errno Location :=
  if isLongPath path then .error .nameTooLong
  else
    let (parents, name, slash) := splitLast path
    match disk.walk [] parents with
    | .error e => .error e
    | .ok parent =>
      if slash then .error .isDirectory
      else if name = [] ∨ name = ['.'] ∨ name = ['.', '.'] then .error .exists_
      else if isLongName name then .error .nameTooLong
      else match disk.lookup (parent ++ [name]) with
        | some _ => .error .exists_
        | none => .ok (parent ++ [name])

-- What an absolute path leads to.
def find (disk : Disk) (path : Text) : Except Errno (Location × Content) :=
  if isLongPath path then .error .nameTooLong
  else
    let (parents, name, slash) := splitLast path
    match disk.walk [] parents with
    | .error e => .error e
    | .ok parent =>
      if name = [] ∨ name = ['.'] ∨ name = ['.', '.'] then
        match disk.enter parent name with
        | .ok location => .ok (location, .directory)
        | .error e => .error e
      else if isLongName name then .error .nameTooLong
      else match disk.lookup (parent ++ [name]) with
        | some (.file bytes) => if slash then .error .notDirectory else .ok (parent ++ [name], .file bytes)
        | some .directory => .ok (parent ++ [name], .directory)
        | none => .error .noEntry

-- Deletes a file; a directory is refused, and nothing is left to do for what is not there.
def unlink (disk : Disk) (location : Location) : Except Errno Disk :=
  match disk.lookup location with
  | some .directory => .error .isDirectory
  | some (.file _) => .ok (disk.erase location)
  | none => .ok disk

-- A directory and those above it, as far as they are not there.
def makeDirectories (disk : Disk) (base : Location) : List Text → Disk
  | [] => disk
  | name :: rest =>
    let location := base ++ [name]
    let disk := match disk.lookup location with
      | some _ => disk
      | none => disk.put location none
    disk.makeDirectories location rest

-- Everything below a directory with its path from there, in the order of the paths.
def below (disk : Disk) (base : Location) : List (Text × Content) :=
  let inside := disk.entries.filter fun entry => base.isPrefixOf entry.1 && base.length < entry.1.length
  let listed := inside.map fun entry => (Text.join ['/'] (entry.1.drop base.length), Content.ofEntry entry.2)
  listed.mergeSort fun x y => Text.atMost x.1 y.1

end Disk
end PortableActions
