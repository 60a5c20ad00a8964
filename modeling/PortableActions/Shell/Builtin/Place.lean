import PortableActions.Shell.Builtin.Variable
-- Where the shell stands on the disk, and with what rights it makes files.
namespace PortableActions.Shell.Builtin
open Numeral Outcome

def directory? (s : State) (path : Text) : Option Location :=
  match s.disk.walk [] (Text.splitOn '/' (Path.Posix.lexical (s.absolute path))) with
  | .ok location => some location
  | .error _ => none

def joined (base path : Text) : Text := if base = [] then path else base ++ ['/'] ++ path

-- Paths that start with a slash or with one or two dots are not looked for elsewhere.
def isPlaced (path : Text) : Bool :=
  path.head? = some '/' || (Text.splitOn '/' path).head? = some ['.'] || (Text.splitOn '/' path).head? = some ['.', '.']

-- The path to go to, and whether it is told.
def destination (s : State) (path : Text) : Text × Bool :=
  if isPlaced path then (path, false)
  else
    let path := if path = [] then ['.'] else path
    let bases := Text.splitOn ':' ((s.value? "CDPATH".toList).getD [])
    match bases.find? fun base => (directory? s (joined base path)).isSome with
    | some base => (joined base path, base ≠ [])
    | none => (path, false)

def changeDirectory (args : List Text) (s : State) : Outcome :=
  match Option.read "LP" args with
  | .error e => complains s e
  | .ok found =>
    let wanted := match found.rest with
      | [] => (s.value? "HOME".toList).getD []
      | ['-'] :: _ => (s.value? "OLDPWD".toList).getD []
      | path :: _ => path
    let (path, isFound) := destination s wanted
    let isTold := isFound || found.rest.head? = some ['-']
    match directory? s path with
    | none => complains s ("can't cd to ".toList ++ wanted)
    | some location =>
      let before := s.workingDirectory
      let s := { s with here := location }
      let s := (s.assign "OLDPWD".toList before).markExported "OLDPWD".toList
      let s := (s.assign "PWD".toList s.workingDirectory).markExported "PWD".toList
      ends (if isTold then s.emit 1 (s.workingDirectory ++ ['\n']) else s) 0

def printDirectory (args : List Text) (s : State) : Outcome :=
  match Option.read "LP" args with
  | .error e => complains s e
  | .ok _ => ends (s.emit 1 (s.workingDirectory ++ ['\n'])) 0

def rights (n : Nat) : Text :=
  (if n / 4 % 2 = 1 then ['r'] else []) ++ (if n / 2 % 2 = 1 then ['w'] else []) ++ (if n % 2 = 1 then ['x'] else [])

-- The rights that new files may have, in letters.
def symbolicMask (mask : Nat) : Text :=
  let allowed := 511 - mask
  "u=".toList ++ rights (allowed / 64) ++ ",g=".toList ++ rights (allowed / 8) ++ ",o=".toList ++ rights allowed

def rightsValue (t : Text) : Option Nat :=
  t.foldl (fun n c => match n, c with
    | some n, 'r' => some (n ||| 4)
    | some n, 'w' => some (n ||| 2)
    | some n, 'x' => some (n ||| 1)
    | _, _ => none) (some 0)

def whoValue (t : Text) : Option Nat :=
  t.foldl (fun n c => match n, c with
    | some n, 'u' => some (n ||| 64)
    | some n, 'g' => some (n ||| 8)
    | some n, 'o' => some (n ||| 1)
    | some n, 'a' => some (n ||| 73)
    | _, _ => none) (some 0)

-- One clause such as "u+x" applied to rights.
def changeRights (t : Text) (before : Nat) : Option Nat :=
  let isSign := fun (c : Char) => c = '+' || c = '-' || c = '='
  let who := t.takeWhile fun c => !isSign c
  match t.dropWhile fun c => !isSign c with
  | sign :: letters => do
    let who ← whoValue (if who = [] then ['a'] else who)
    let value ← rightsValue letters
    let bits := who * value
    let all := who * 7
    pure (match sign with
      | '+' => before ||| bits
      | '-' => before - (before &&& bits)
      | _ => (before - (before &&& all)) ||| bits)
  | [] => none

def symbolicRights (t : Text) (before : Nat) : Option Nat :=
  (Text.splitOn ',' t).foldl (fun n clause => n.bind (changeRights clause)) (some before)

def mask (args : List Text) (s : State) : Outcome :=
  match Option.read "S" args with
  | .error e => complains s e
  | .ok found =>
    match found.rest with
    | [] =>
      if found.letters.isEmpty then
        let digits := Nat.toDigits 8 s.mask
        ends (s.emit 1 (List.replicate (4 - digits.length) '0' ++ digits ++ ['\n'])) 0
      else ends (s.emit 1 (symbolicMask s.mask ++ ['\n'])) 0
    | t :: _ =>
      if (t.head?.map Char.isDigit).getD false then
        if t.all isOctal then ends { s with mask := octalValue t % 512 } 0
        else complains s ("Illegal number: ".toList ++ t)
      else match symbolicRights t (511 - s.mask) with
        | some allowed => ends { s with mask := 511 - allowed } 0
        | none => complains s ("Illegal mode: ".toList ++ t)

end PortableActions.Shell.Builtin
