import PortableActions.Text
-- Options in front of the arguments of a builtin command.
namespace PortableActions.Shell.Option

-- The letters that were given, with their arguments, and the arguments after them.
structure Found where
  letters : List (Char × Text)
  rest : List Text
  deriving DecidableEq, Repr

-- Whether a letter is allowed, and whether it takes an argument: a colon follows it then.
def allowed? (c : Char) : Text → Option Bool
  | [] => none
  | d :: ':' :: r => if d = c then some true else allowed? c r
  | d :: r => if d = c then some false else allowed? c r

def prepend (c : Char) (argument : Text) (found : Except Text Found) : Except Text Found :=
  found.map fun found => { found with letters := (c, argument) :: found.letters }

-- The letters of one argument; the rest of it, or the next one, may belong to the last.
def lettersOf (letters : Text) (more : List Text → Except Text Found) : Text → List Text → Except Text Found
  | [], rest => more rest
  | c :: r, rest =>
    match allowed? c letters with
    | none => .error ("Illegal option -".toList ++ [c])
    | some false => prepend c [] (lettersOf letters more r rest)
    | some true =>
      match r, rest with
      | [], [] => .error ("No arg for -".toList ++ [c] ++ " option".toList)
      | [], next :: rest => prepend c next (more rest)
      | _, rest => prepend c r (more rest)

def parse (letters : Text) : Nat → List Text → Except Text Found
  | 0, args => .ok ⟨[], args⟩
  | fuel + 1, args =>
    match args with
    | ['-', '-'] :: rest => .ok ⟨[], rest⟩
    | ('-' :: c :: r) :: rest => lettersOf letters (parse letters fuel) (c :: r) rest
    | _ => .ok ⟨[], args⟩

def read (letters : String) (args : List Text) : Except Text Found := parse letters.toList (args.length + 1) args

end PortableActions.Shell.Option
