import PortableActions.Shell.Tool.Listing
-- Programs that make, copy, move and remove files.
namespace PortableActions.Shell.Tool

-- Goes through operands; a step that fails complains and spoils the status.
def each (name : String) (step : Text → State → Except Text State) (operands : List Text) (s : State) : State × Nat :=
  operands.foldl (fun (s, status) operand =>
    match step operand s with
    | .ok s => (s, status)
    | .error message => (complain name message s, 1)) (s, 0)

-- Goes through operands with a step that tells its own complaints.
def eachTelling (step : Text → State → State × Bool) (operands : List Text) (s : State) : State × Nat :=
  operands.foldl (fun (s, status) operand =>
    let (s, fine) := step operand s
    (s, if fine then status else 1)) (s, 0)

def missingOperand (name : String) (s : State) : State × Nat := fails s name ("missing operand".toList ++ advice name) 1

def withoutEndSlashes (t : Text) : Text := (t.reverse.dropWhile (· = '/')).reverse

-- The last part of a path, slashes at its end left out.
def lastName (path : Text) : Text := ((withoutEndSlashes path).reverse.takeWhile (· ≠ '/')).reverse

-- Whether the input says yes to a question.
def consents (name : String) (question : Text) (s : State) : Bool × State :=
  let s := s.emit 2 (name.toList ++ ": ".toList ++ question ++ "? ".toList)
  let waiting := s.waiting 0
  let line := waiting.takeWhile (· ≠ '\n')
  (line.head? = some 'y' || line.head? = some 'Y', s.consume 0 (min waiting.length (line.length + 1)))

-- How files are removed: the last of the letters for questions counts.
structure Removal where
  below : Bool
  emptyOnes : Bool
  told : Bool
  asks : Bool
  forced : Bool

def removal (given : Given) : Removal :=
  let latest := (given.letters.reverse.find? fun entry => entry.1 = 'f' || entry.1 = 'i' || entry.1 = 'I').map Prod.fst
  ⟨given.has 'r' || given.has 'R', given.has 'd', given.has 'v', latest = some 'i', latest = some 'f'⟩

def kindOf (s : State) (location : Location) : Text :=
  match s.disk.lookup location with
  | some .directory => "directory".toList
  | some (.file []) => "regular empty file".toList
  | _ => "regular file".toList

def cannotRemove (path : Text) (why : Text) (s : State) : State × Bool :=
  (complain "rm" ("cannot remove ".toList ++ Quoting.always path ++ ": ".toList ++ why) s, false)

def removed (how : Removal) (path : Text) (isDirectory : Bool) (s : State) : State × Bool :=
  (if how.told then
      print ("removed ".toList ++ (if isDirectory then "directory ".toList else []) ++ Quoting.always path ++ ['\n']) s
    else s, true)

-- Removes what is at a place after everything below it. The flag says whether nothing is
-- left that should be gone; what is kept by an answer counts as left only for its directory.
def removeAt (how : Removal) : Nat → Text → Location → State → State × Bool × Bool
  | 0, _, _, s => (s, true, true)
  | fuel + 1, path, location, s =>
    match s.disk.lookup location with
    | none => (s, true, true)
    | some (.file _) =>
      let (agreed, s) := if how.asks then consents "rm" ("remove ".toList ++ kindOf s location ++ [' '] ++ Quoting.always path) s
        else (true, s)
      if !agreed then (s, true, false)
      else
        let (s, fine) := removed how path false { s with disk := s.disk.erase location }
        (s, fine, true)
    | some .directory =>
      let names := namesBelow s location
      let (enters, s) := if how.asks && !names.isEmpty then
          consents "rm" ("descend into directory ".toList ++ Quoting.always path) s
        else (true, s)
      if !enters then (s, true, false)
      else
        let (s, fine, gone) := names.foldl (fun (s, fine, gone) name =>
          let inner := path ++ (if path.getLast? = some '/' then [] else ['/']) ++ name
          let (s, ok, empty) := removeAt how fuel inner (location ++ [Octets.toText name]) s
          (s, fine && ok, gone && empty)) (s, true, true)
        if !gone then (s, fine, false)
        else
          let (agreed, s) := if how.asks then consents "rm" ("remove directory ".toList ++ Quoting.always path) s else (true, s)
          if !agreed then (s, fine, false)
          else
            let (s, _) := removed how path true { s with disk := s.disk.remove location }
            (s, fine, true)

def rmOne (how : Removal) (name : Text) (s : State) : State × Bool :=
  let last := lastName name
  match s.find name with
  | .ok (location, .file _) =>
    let (s, fine, _) := removeAt how 1 name location s
    (s, fine)
  | .ok (location, .directory) =>
    if how.below then
      if last = ['.'] || last = ['.', '.'] then
        (complain "rm" ("refusing to remove '.' or '..' directory: skipping ".toList ++ Quoting.always name) s, false)
      else if location = [] then
        (complain "rm" "use --no-preserve-root to override this failsafe".toList
          (complain "rm" "it is dangerous to operate recursively on '/'".toList s), false)
      else
        let (s, fine, _) := removeAt how 64 name location s
        (s, fine)
    else if how.emptyOnes then
      if (namesBelow s location).isEmpty then
        let (s, fine, _) := removeAt how 1 name location s
        (s, fine)
      else cannotRemove name "Directory not empty".toList s
    else cannotRemove name Errno.isDirectory.description s
  | .error e => if how.forced && (e = .noEntry || e = .notDirectory) then (s, true) else cannotRemove name e.description s

def rm : Tool := withOptions "rm" ⟨"dfirvIR", [("recursive", 'r'), ("force", 'f'), ("dir", 'd'), ("verbose", 'v')]⟩ 1
  fun given s =>
    let how := removal given
    let latest := (given.letters.reverse.find? fun entry => entry.1 = 'f' || entry.1 = 'i' || entry.1 = 'I').map Prod.fst
    if given.operands.isEmpty then (if how.forced then (s, 0) else missingOperand "rm" s)
    else
      let count := given.operands.length
      let asked := latest = some 'I' && (how.below || 3 < count)
      let (agreed, s) := if asked then
          consents "rm" ("remove ".toList ++ Text.ofNat count ++ (if count = 1 then " argument".toList else " arguments".toList) ++
            (if how.below then " recursively".toList else [])) s
        else (true, s)
      if agreed then eachTelling (rmOne how) given.operands s else (s, 0)

def cannotMake (name : Text) (e : Errno) : Text :=
  "cannot create directory ".toList ++ Quoting.curled name ++ ": ".toList ++ e.description

def made (told : Bool) (name : Text) (s : State) : State :=
  if told then print ("mkdir: created directory ".toList ++ Quoting.always name ++ ['\n']) s else s

-- Makes the directories of a path that are missing, one after the other.
def makePath (told : Bool) : List Text → Text → State → Except Text State
  | [], _, s => .ok s
  | part :: rest, before, s =>
    let path := before ++ part
    if part = [] then makePath told rest (path ++ ['/']) s
    else match s.find path with
      | .ok (_, .directory) => makePath told rest (path ++ ['/']) s
      | .ok (_, .file _) => .error (cannotMake path (if rest.all (· = []) then .exists_ else .notDirectory))
      | .error _ =>
        match s.disk.vacancy (s.absolute path) with
        | .ok location => makePath told rest (path ++ ['/']) (made told path { s with disk := s.disk.put location none })
        | .error e => .error (cannotMake path e)

def mkdirOne (given : Given) (name : Text) (s : State) : Except Text State :=
  match s.find name with
  | .ok (_, .directory) => if given.has 'p' then .ok s else .error (cannotMake name .exists_)
  | .ok (_, .file _) => .error (cannotMake name .exists_)
  | .error e =>
    if name = [] then .error (cannotMake name e)
    else if given.has 'p' then makePath (given.has 'v') (Text.splitOn '/' name) [] s
    else match e, s.disk.vacancy (withoutEndSlashes (s.absolute name)) with
      | .notDirectory, _ => .error (cannotMake name .notDirectory)
      | _, .ok location => .ok (made (given.has 'v') name { s with disk := s.disk.put location none })
      | _, .error e => .error (cannotMake name e)

def isMode (mode : Text) : Bool := mode ≠ [] && mode.all "01234567ugoa+-=rwxXst,".toList.contains

def mkdir : Tool := withOptions "mkdir" ⟨"pm:vZ", [("parents", 'p'), ("mode", 'm'), ("verbose", 'v')]⟩ 1 fun given s =>
  if given.operands.isEmpty then missingOperand "mkdir" s
  else match given.argument? 'm' with
    | some mode =>
      if isMode mode then each "mkdir" (mkdirOne given) given.operands s
      else fails s "mkdir" ("invalid mode ".toList ++ Quoting.curled mode) 1
    | none => each "mkdir" (mkdirOne given) given.operands s

-- Removes an empty directory, and then those above it as far as the path tells them.
def removeEmpty (given : Given) : Nat → Bool → Text → State → Except Text State
  | 0, _, _, s => .ok s
  | fuel + 1, isParent, name, s =>
    let refuse := fun (why : Text) =>
      .error ("failed to remove ".toList ++ (if isParent then "directory ".toList else []) ++ Quoting.always name ++ ": ".toList ++ why)
    let s := if given.has 'v' then print ("rmdir: removing directory, ".toList ++ Quoting.always name ++ ['\n']) s else s
    if lastName name = ['.'] then refuse "Invalid argument".toList
    else match s.find name with
      | .ok (location, .directory) =>
        if (namesBelow s location).isEmpty then
          let s := { s with disk := s.disk.remove location }
          let above := withoutEndSlashes ((withoutEndSlashes name).reverse.dropWhile (· ≠ '/')).reverse
          if given.has 'p' && above ≠ [] then removeEmpty given fuel true above s else .ok s
        else refuse "Directory not empty".toList
      | .ok (_, .file _) => refuse Errno.notDirectory.description
      | .error e => refuse e.description

def rmdir : Tool := withOptions "rmdir" ⟨"pv", [("parents", 'p'), ("verbose", 'v')]⟩ 1 fun given s =>
  if given.operands.isEmpty then missingOperand "rmdir" s
  else each "rmdir" (fun name s => removeEmpty given (name.length + 1) false name s) given.operands s

def touchOne (given : Given) (name : Text) (s : State) : Except Text State :=
  match s.find name with
  | .ok _ => .ok s
  | .error e =>
    if given.has 'c' then .ok s
    else
      let refuse := fun (e : Errno) =>
        .error ("cannot touch ".toList ++ Quoting.always name ++ ": ".toList ++ e.description)
      if name = [] then refuse e
      else match s.disk.vacancy (s.absolute name) with
        | .ok location => .ok { s with disk := s.disk.write location [] }
        | .error .isDirectory => refuse .noEntry
        | .error e => refuse e

def touch : Tool := withOptions "touch" ⟨"acd:fhmr:t:", [("no-create", 'c'), ("date", 'd'), ("reference", 'r')]⟩ 1 fun given s =>
  if given.operands.isEmpty then fails s "touch" ("missing file operand".toList ++ advice "touch") 1
  else each "touch" (touchOne given) given.operands s

-- How files are brought somewhere else. The last of the letters for files that are there
-- already counts.
structure Transfer where
  tool : String
  moves : Bool
  below : Bool
  told : Bool
  keeps : Bool
  asks : Bool

-- Copies everything at and below a location to another.
def copyTree (disk : Disk) (source target : Location) : Disk :=
  let moved := disk.entries.filterMap fun entry =>
    if source.isPrefixOf entry.1 then some (target ++ entry.1.drop source.length, entry.2) else none
  moved.foldl (fun disk entry => if (disk.lookup entry.1).isSome && entry.2 = none then disk else disk.put entry.1 entry.2) disk

-- What is copied, each with its new name, a directory before what it holds.
def copiedNames (s : State) : Nat → Text × Text → Location → List (Text × Text)
  | 0, _, _ => []
  | fuel + 1, (source, target), location =>
    (source, target) :: match s.disk.lookup location with
      | some .directory => (namesBelow s location).flatMap fun name =>
          copiedNames s fuel (source ++ ['/'] ++ name, target ++ ['/'] ++ name) (location ++ [Octets.toText name])
      | _ => []

def Transfer.tells (how : Transfer) (source target : Text) (location : Location) (s : State) : State :=
  let arrow := fun (entry : Text × Text) => Quoting.always entry.1 ++ " -> ".toList ++ Quoting.always entry.2 ++ ['\n']
  if !how.told then s
  else if how.moves then print ("renamed ".toList ++ arrow (source, target)) s
  else print ((copiedNames s 64 (source, target) location).flatMap arrow) s

-- Where something comes to stand under a name, with what is there.
def placeAt (target : Text) (s : State) : Except Errno Location :=
  match s.find target with
  | .ok (location, _) => .ok location
  | .error e => if target = [] then .error e else s.disk.vacancy (withoutEndSlashes (s.absolute target))

-- Puts a file or a tree at a place where it may stand.
def Transfer.put (how : Transfer) (source target : Text) (from_ place : Location) (s : State) : State :=
  let told := how.tells source target from_ s
  let cleared := if how.moves then s.disk.remove place else s.disk
  let copied := copyTree cleared from_ place
  let runnable := s.executables.filter (· ≠ place) ++ (if s.executables.contains from_ then [place] else [])
  { told with disk := if how.moves then copied.remove from_ else copied, executables := runnable }

def Transfer.one (how : Transfer) (source target : Text) (s : State) : State × Bool :=
  let refuse := fun (message : Text) => (complain how.tool message s, false)
  let named := Quoting.always source
  let aimed := Quoting.always target
  match s.find source with
  | .error e => refuse ("cannot stat ".toList ++ named ++ ": ".toList ++ e.description)
  | .ok (from_, content) =>
    let isTree := content = .directory
    let cannot := fun (e : Errno) =>
      if how.moves then refuse ("cannot move ".toList ++ named ++ " to ".toList ++ aimed ++ ": ".toList ++ e.description)
      else refuse ("cannot create ".toList ++ (if isTree then "directory ".toList else "regular file ".toList) ++ aimed ++
        ": ".toList ++ e.description)
    if isTree && !how.moves && !how.below then refuse ("-r not specified; omitting directory ".toList ++ named)
    else match placeAt target s with
      | .error e => cannot e
      | .ok place =>
        let found := s.disk.lookup place
        let isAfile : Bool := match found with
          | some (.file _) => true
          | _ => false
        if found.isNone && target.getLast? = some '/' && !isTree then cannot .notDirectory
        else if found.isSome && how.keeps then (s, true)
        else if place = from_ then refuse (named ++ " and ".toList ++ aimed ++ " are the same file".toList)
        else if isTree && isAfile then
          refuse ("cannot overwrite non-directory ".toList ++ aimed ++ " with directory ".toList ++ named)
        else if !isTree && found = some .directory then
          refuse ("cannot overwrite directory ".toList ++ aimed ++ " with non-directory".toList)
        else if from_.isPrefixOf place then
          refuse ((if how.moves then "cannot move ".toList else "cannot copy a directory, ".toList) ++ named ++
            (if how.moves then " to a subdirectory of itself, ".toList else ", into itself, ".toList) ++ aimed)
        else if how.moves && found = some .directory && !(namesBelow s place).isEmpty then
          refuse ("cannot move ".toList ++ named ++ " to ".toList ++ aimed ++ ": Directory not empty".toList)
        else
          let (agreed, s) := if how.asks && isAfile then consents how.tool ("overwrite ".toList ++ aimed) s else (true, s)
          (if agreed then how.put source target from_ place s else s, true)

-- The name that a source has inside a directory.
def insideOf (directory source : Text) : Text :=
  directory ++ (if directory.getLast? = some '/' then [] else ['/']) ++ lastName source

def isDirectoryAt (name : Text) (s : State) : Bool := match s.find name with
  | .ok (_, .directory) => true
  | _ => false

-- Brings sources into a directory. One that is told twice is passed over.
def Transfer.into (how : Transfer) (directory : Text) : List Text → List Text → State → State × Nat
  | [], _, s => (s, 0)
  | source :: rest, before, s =>
    if before.contains source && !how.moves && !isDirectoryAt source s then
      how.into directory rest before
        (complain how.tool ("warning: source file ".toList ++ Quoting.always source ++ " specified more than once".toList) s)
    else
      let (s, fine) := how.one source (insideOf directory source) s
      let (s, status) := how.into directory rest (source :: before) s
      (s, if fine then status else 1)

def noDirectory (s : State) (name : Text) : Text :=
  Quoting.always name ++ (if (s.find name).isOk then ": Not a directory".toList else ": No such file or directory".toList)

def Transfer.run (how : Transfer) (given : Given) (s : State) : State × Nat :=
  let missing := fun (what : Text) => fails s how.tool (what ++ advice how.tool) 1
  match given.argument? 't', given.operands with
  | _, [] => missing "missing file operand".toList
  | some directory, operands =>
    if isDirectoryAt directory s then how.into directory operands [] s
    else fails s how.tool ("target directory ".toList ++ noDirectory s directory) 1
  | none, [only] => missing ("missing destination file operand after ".toList ++ Quoting.always only)
  | none, operands =>
    let target := operands.getLast?.getD []
    let sources := operands.dropLast
    if given.has 'T' && 1 < sources.length then missing ("extra operand ".toList ++ Quoting.always (operands.getD 2 []))
    else if isDirectoryAt target s && !given.has 'T' then how.into target sources [] s
    else match sources with
      | [source] =>
        let (s, fine) := how.one source target s
        (s, if fine then 0 else 1)
      | _ => fails s how.tool ("target ".toList ++ noDirectory s target) 1

def transfer (tool : String) (moves : Bool) (letters : String) : Tool :=
  withOptions tool ⟨letters, [("force", 'f'), ("interactive", 'i'), ("no-clobber", 'n'), ("verbose", 'v'), ("target-directory", 't'),
    ("no-target-directory", 'T'), ("update", 'u')]⟩ 1 fun given s =>
    let latest := (given.letters.reverse.find? fun entry => entry.1 = 'i' || entry.1 = 'n' || (entry.1 = 'f' && moves)).map Prod.fst
    let how : Transfer := ⟨tool, moves, given.has 'r' || given.has 'R' || given.has 'a', given.has 'v', latest = some 'n', latest = some 'i'⟩
    how.run given s

def cp : Tool := transfer "cp" false "abdfHilLnprst:uvxPRS:TZ"

def mv : Tool := transfer "mv" true "bfint:uvS:TZ"

-- Whether a mode lets files be run, if it says so at all.
def runs? (mode : Text) : Option Bool :=
  if mode.all (fun c => '0' ≤ c && c ≤ '7') && mode ≠ [] then some (mode.any fun c => c.toNat % 2 = 1)
  else
    let isSign := fun (c : Char) => c = '+' || c = '-' || c = '='
    match mode.dropWhile fun c => !isSign c with
    | sign :: letters =>
      if letters.contains 'x' then some (sign ≠ '-') else if sign = '=' then some false else none
    | [] => none

def chmodOne (mode : Text) (name : Text) (s : State) : Except Text State :=
  match s.find name with
  | .error e => .error ("cannot access ".toList ++ Quoting.always name ++ ": ".toList ++ e.description)
  | .ok (location, _) =>
    match runs? mode with
    | some true => .ok { s with executables := location :: s.executables }
    | some false => .ok { s with executables := s.executables.filter (· ≠ location) }
    | none => .ok s

-- A mode may look like an option.
def chmod : Tool := fun args s =>
  let args := args.filter fun arg => !(["-R".toList, "-v".toList, "-f".toList, "--".toList].contains arg)
  match args with
  | [] => missingOperand "chmod" s
  | [mode] => fails s "chmod" ("missing operand after ".toList ++ Quoting.curled mode ++ advice "chmod") 1
  | mode :: names =>
    if !isMode mode then fails s "chmod" ("invalid mode: ".toList ++ Quoting.curled mode ++ advice "chmod") 1
    else each "chmod" (chmodOne mode) names s

end PortableActions.Shell.Tool
