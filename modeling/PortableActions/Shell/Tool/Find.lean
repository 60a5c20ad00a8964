import PortableActions.Shell.Pattern
import PortableActions.Shell.Tool.File
import PortableActions.Text.Scan
-- Walking a tree of files, asking about each of them, and doing something with those that
-- fit.
namespace PortableActions.Shell.Tool

-- What is asked about a file. Some questions do something when they are reached; a command
-- that runs once for all files is meant by its place among such commands.
inductive Question where
  | always (b : Bool)
  | name (pattern : Text) (folds : Bool)
  | path (pattern : Text) (folds : Bool)
  | kind (letters : Text)
  | empty
  | runnable
  | size (order : Ordering) (n unit : Nat)
  | prune
  | quit
  | print_ (stop : Char)
  | delete
  | run (command : List Text)
  | gather (place : Nat)
  | not (q : Question)
  | both (p q : Question)
  | either (p q : Question)
  | sequence (p q : Question)

-- How far the walk goes, whether a directory comes after what it holds, whether anything is
-- done with the files that fit, and the commands that run once.
structure Walk where
  lowest : Nat
  highest : Option Nat
  depthFirst : Bool
  acts : Bool
  commands : List (List Text)

-- The parts of an expression.
inductive Term where
  | question (q : Question)
  | opening
  | closing
  | bang (word : Text)
  | conjunction (word : Text)
  | disjunction (word : Text)
  | comma

abbrev Asking := StateT (List Text × Walk) (Except Text)

def ticked (word : Text) : Text := ['\x60'] ++ word ++ ['\'']

def findArgument (word : Text) : Asking Text := do
  let (words, walk) ← get
  match words with
  | t :: rest =>
    set (rest, walk)
    pure t
  | [] => throw ("missing argument to ".toList ++ ticked word)

def onWalk (change : Walk → Walk) : Asking Unit := modify fun entry => (entry.1, change entry.2)

-- Letters of kinds between commas.
def kindLetters : Text → Except Text Text
  | [] => .error "Arguments to -type should contain at least one letter".toList
  | [c] => if "bcdpfls".toList.contains c then .ok [c] else .error ("Unknown argument to -type: ".toList ++ [c])
  | c :: ',' :: r =>
    if !"bcdpfls".toList.contains c then .error ("Unknown argument to -type: ".toList ++ [c])
    else if r = [] then .error "Last file type in list argument to -type is missing, i.e., list is ending on: ','".toList
    else (kindLetters r).map (c :: ·)
  | c :: _ =>
    if "bcdpfls".toList.contains c then .error "Must separate multiple arguments to -type using: ','".toList
    else .error ("Unknown argument to -type: ".toList ++ [c])

-- A size with its sign and unit.
def sizeQuestion (t : Text) : Except Text Question :=
  let order := match t.head? with
    | some '+' => Ordering.gt
    | some '-' => Ordering.lt
    | _ => Ordering.eq
  let body := if order = .eq then t else t.tail
  let digits := body.takeWhile Char.isDigit
  let unit := match body.drop digits.length with
    | [] | ['b'] => some 512
    | ['c'] => some 1
    | ['w'] => some 2
    | ['k'] => some 1024
    | ['M'] => some 1048576
    | ['G'] => some 1073741824
    | _ => none
  match unit with
  | some unit => if digits = [] then .error ("Invalid argument ".toList ++ ticked t ++ " to -size".toList)
    else .ok (.size order (Numeral.number digits) unit)
  | none =>
    let last := body.getLast?.getD ' '
    if last.isDigit then .error ("Invalid argument ".toList ++ ticked t ++ " to -size".toList)
    else .error ("invalid -size type ".toList ++ ticked [last])

-- The words of a command up to its end: a semicolon, or a plus behind braces.
def commandWords : Nat → List Text → Option (List Text × Bool × List Text)
  | 0, _ => none
  | fuel + 1, words =>
    match words with
    | [] => none
    | [';'] :: rest => some ([], false, rest)
    | ['\x7b', '\x7d'] :: ['+'] :: rest => some ([['\x7b', '\x7d']], true, rest)
    | word :: rest => (commandWords fuel rest).map fun found => (word :: found.1, found.2)

def command (word : Text) : Asking Question := do
  let (words, walk) ← get
  match commandWords (words.length + 1) words with
  | none => throw ("missing argument to ".toList ++ ticked word)
  | some ([], _, _) => throw ("invalid argument ".toList ++ ticked [';'] ++ " to ".toList ++ ticked word)
  | some (found, false, rest) =>
    set (rest, { walk with acts := true })
    pure (.run found)
  | some (found, true, rest) =>
    if 1 < found.count ['\x7b', '\x7d'] then
      throw ("Only one instance of \x7b\x7d is supported with ".toList ++ word ++ " ... +".toList)
    set (rest, { walk with acts := true, commands := walk.commands ++ [found.dropLast] })
    pure (.gather walk.commands.length)

def levelOf (word t : Text) : Asking Nat :=
  if Numeral.isDecimal t then pure (Numeral.number t)
  else throw ("Expected a positive decimal integer argument to ".toList ++ word ++ ", but got ".toList ++ Quoting.curled t)

def isExpression (leading : Bool) (t : Text) : Bool :=
  match t with
  | '-' :: _ :: _ | ['('] | ['!'] => true
  | [')'] | [','] => !leading
  | _ => false

def term (word : Text) : Asking Term := do
  let acting := fun (q : Question) => do
    onWalk fun walk => { walk with acts := true }
    pure (Term.question q)
  match String.ofList word with
  | "(" => pure .opening
  | ")" => pure .closing
  | "!" | "-not" => pure (.bang word)
  | "," => pure .comma
  | "-a" | "-and" => pure (.conjunction word)
  | "-o" | "-or" => pure (.disjunction word)
  | "-true" => pure (.question (.always true))
  | "-false" => pure (.question (.always false))
  | "-name" => do pure (.question (.name (← findArgument word) false))
  | "-iname" => do pure (.question (.name (← findArgument word) true))
  | "-path" | "-wholename" => do pure (.question (.path (← findArgument word) false))
  | "-ipath" | "-iwholename" => do pure (.question (.path (← findArgument word) true))
  | "-type" => do
    let letters ← kindLetters (← findArgument word)
    pure (.question (.kind letters))
  | "-empty" => pure (.question .empty)
  | "-executable" => pure (.question .runnable)
  | "-readable" | "-writable" => pure (.question (.always true))
  | "-size" => do
    let q ← sizeQuestion (← findArgument word)
    pure (.question q)
  | "-prune" => pure (.question .prune)
  | "-quit" => acting .quit
  | "-print" => acting (.print_ '\n')
  | "-print0" => acting (.print_ '\x00')
  | "-delete" => do
    onWalk fun walk => { walk with depthFirst := true }
    acting .delete
  | "-exec" => do pure (.question (← command word))
  | "-depth" | "-d" => do
    onWalk fun walk => { walk with depthFirst := true }
    pure (.question (.always true))
  | "-noleaf" | "-mount" | "-xdev" => pure (.question (.always true))
  | "-maxdepth" => do
    let n ← levelOf word (← findArgument word)
    onWalk fun walk => { walk with highest := some n }
    pure (.question (.always true))
  | "-mindepth" => do
    let n ← levelOf word (← findArgument word)
    onWalk fun walk => { walk with lowest := n }
    pure (.question (.always true))
  | _ => throw ("unknown predicate ".toList ++ ticked word)

-- All parts of an expression. A word that is none is told, and with it the one before if it
-- may be a pattern that was not quoted.
def terms (s : State) : Nat → Option Text → Asking (List Term)
  | 0, _ => pure []
  | fuel + 1, latest => do
    let (words, walk) ← get
    match words with
    | [] => pure []
    | word :: rest =>
      if !isExpression false word then
        let hint := match latest with
          | some p => if (s.find word).isOk then "\nfind: possible unquoted pattern after predicate ".toList ++ ticked p ++ ['?'] else []
          | none => []
        throw ("paths must precede expression: ".toList ++ ticked word ++ hint)
      else
        set (rest, walk)
        let found ← term word
        let more ← terms s fuel (some word)
        pure (found :: more)

abbrev Building := StateT (List Term) (Except Text)

-- How tightly the operator at the front binds, and what it joins to; operands that follow
-- each other without one belong together.
def operator? (level : Nat) (t : List Term) : Option (Text × List Term × (Question → Question → Question)) :=
  match level, t with
  | 0, .comma :: rest => some ([','], rest, .sequence)
  | 1, .disjunction word :: rest => some (word, rest, .either)
  | 2, .conjunction word :: rest => some (word, rest, .both)
  | 2, .question q :: rest => some ([], .question q :: rest, .both)
  | 2, .opening :: rest => some ([], .opening :: rest, .both)
  | 2, .bang word :: rest => some ([], .bang word :: rest, .both)
  | _, _ => none

mutual

def expression : Nat → Nat → Text → Building Question
  | 0, _, _ => throw "invalid expression".toList
  | fuel + 1, level, latest => do
    let first ← if level < 3 then expression fuel (level + 1) latest else operand fuel latest
    if level < 3 then onwardFrom fuel level first else pure first

def onwardFrom : Nat → Nat → Question → Building Question
  | 0, _, _ => throw "invalid expression".toList
  | fuel + 1, level, left => do
    match operator? level (← get) with
    | none => pure left
    | some (word, rest, joined) =>
      set rest
      let right ← expression fuel (level + 1) word
      onwardFrom fuel level (joined left right)

def operand : Nat → Text → Building Question
  | 0, _ => throw "invalid expression".toList
  | fuel + 1, latest => do
    let quoted := fun (word : Text) => ['\''] ++ word ++ ['\'']
    match ← get with
    | [] => throw ("expected an expression after ".toList ++ quoted latest)
    | .question q :: rest =>
      set rest
      pure q
    | .bang word :: rest =>
      set rest
      let q ← operand fuel word
      pure (.not q)
    | [.opening] =>
      throw ("invalid expression; expected to find a ')' but didn't see one. ".toList ++
        "Perhaps you need an extra predicate after '('".toList)
    | .opening :: .closing :: _ => throw "invalid expression; empty parentheses are not allowed.".toList
    | .opening :: rest =>
      set rest
      let q ← expression fuel 0 ['(']
      match ← get with
      | .closing :: rest =>
        set rest
        pure q
      | _ => throw "invalid expression; I was expecting to find a ')' somewhere but did not see one.".toList
    | .closing :: _ =>
      if latest = [] || latest = ['('] then throw "invalid expression; you have too many ')'".toList
      else throw ("expected an expression between ".toList ++ quoted latest ++ " and ')'".toList)
    | .comma :: _ => throw ("invalid expression; you have used a binary operator ',' with nothing before it.".toList)
    | .conjunction word :: _ | .disjunction word :: _ =>
      throw ("invalid expression; you have used a binary operator ".toList ++ quoted word ++ " with nothing before it.".toList)

end

-- What is asked; files that fit are printed if nothing else is done with any of them.
def readQuestion (s : State) (words : List Text) : Except Text (Question × Walk) := do
  let (found, _, walk) ← (terms s (words.length + 1) none).run (words, ⟨0, none, false, false, []⟩)
  if found.isEmpty then pure (.print_ '\n', walk)
  else
    let (q, rest) ← (expression (5 * found.length + 10) 0 []).run found
    if rest.isEmpty then pure (if walk.acts then q else .both q (.print_ '\n'), walk)
    else throw "you have too many ')'".toList

structure Visited where
  path : Text
  location : Location
  depth : Nat

-- What a walk has done: whether something failed, whether it goes below the file it is at,
-- whether it is over, and the files for each command that runs once.
structure Walking where
  state : State
  failed : Bool
  pruned : Bool
  stopped : Bool
  gathered : List (List Text)

-- How commands are run.
abbrev Launch := List Text → State → State × Nat

def Walking.complain (w : Walking) (message : Text) : Walking :=
  { w with state := Tool.complain "find" message w.state, failed := true }

def lastPart (path : Text) : Text :=
  match path.reverse.dropWhile (· = '/') with
  | [] => path
  | r => (r.takeWhile (· ≠ '/')).reverse

def fits (pattern t : Text) (folds : Bool) : Bool :=
  if folds then Pattern.accepts (pattern.map Char.toLower) (t.map Char.toLower) else Pattern.accepts pattern t

def sizeAt (s : State) (location : Location) : Nat :=
  match s.disk.lookup location with
  | some (.file bytes) => bytes.length
  | _ => 4096

def deleteAt (w : Walking) (v : Visited) : Bool × Walking :=
  if v.path = ['.'] then (true, w)
  else
    let failed := fun (e : Text) =>
      (false, w.complain ("cannot delete ".toList ++ Quoting.curled v.path ++ ": ".toList ++ e))
    match w.state.disk.lookup v.location with
    | none => failed Errno.noEntry.description
    | some .directory =>
      if (namesBelow w.state v.location).isEmpty then
        (true, { w with state := { w.state with disk := w.state.disk.remove v.location } })
      else failed "Directory not empty".toList
    | some (.file _) => (true, { w with state := { w.state with disk := w.state.disk.erase v.location } })

def ask (launch : Launch) (v : Visited) : Question → Walking → Bool × Walking
  | .always b, w => (b, w)
  | .name pattern folds, w => (fits pattern (lastPart v.path) folds, w)
  | .path pattern folds, w => (fits pattern v.path folds, w)
  | .kind letters, w =>
    (match w.state.disk.lookup v.location with
      | some .directory => letters.contains 'd'
      | some (.file _) => letters.contains (if State.isDevice v.location then 'c' else 'f')
      | none => false, w)
  | .empty, w =>
    (match w.state.disk.lookup v.location with
      | some .directory => (namesBelow w.state v.location).isEmpty
      | some (.file bytes) => bytes.isEmpty && !State.isDevice v.location
      | none => false, w)
  | .runnable, w =>
    (w.state.executables.contains v.location || (match w.state.disk.lookup v.location with
      | some .directory => true
      | _ => false), w)
  | .size order n unit, w => (compare ((sizeAt w.state v.location + unit - 1) / unit) n = order, w)
  | .prune, w => (true, { w with pruned := true })
  | .quit, w => (true, { w with stopped := true })
  | .print_ stop, w => (true, { w with state := print (v.path ++ [stop]) w.state })
  | .delete, w => deleteAt w v
  | .run words, w =>
    let (s, status) := launch (words.map fun word => Text.replaceAll ['\x7b', '\x7d'] v.path word) w.state
    (status = 0, { w with state := s })
  | .gather place, w => (true, { w with gathered := w.gathered.modify place (· ++ [v.path]) })
  | .not q, w =>
    let (b, w) := ask launch v q w
    (!b, w)
  | .both p q, w =>
    let (b, w) := ask launch v p w
    if b && !w.stopped then ask launch v q w else (false, w)
  | .either p q, w =>
    let (b, w) := ask launch v p w
    if b || w.stopped then (true, w) else ask launch v q w
  | .sequence p q, w =>
    let (_, w) := ask launch v p w
    if w.stopped then (true, w) else ask launch v q w

def goThrough (launch : Launch) (walk : Walk) (q : Question) : Nat → Visited → Walking → Walking
  | 0, _, w => w
  | fuel + 1, v, w =>
    let vanished := fun (w : Walking) =>
      w.complain (Quoting.curled v.path ++ ": ".toList ++ Errno.noEntry.description)
    if w.stopped then w
    else match w.state.disk.lookup v.location with
      | none => vanished w
      | some found =>
        let asked := fun (w : Walking) => if walk.lowest ≤ v.depth && !w.stopped then (ask launch v q w).2 else w
        let w := if walk.depthFirst then { w with pruned := false } else asked { w with pruned := false }
        let goesOn := found = .directory && ((walk.highest.map fun n => decide (v.depth < n)).getD true) &&
          !w.pruned && !w.stopped
        let w := if !goesOn then w
          else if (w.state.disk.lookup v.location).isNone then vanished w
          else (namesBelow w.state v.location).foldl (fun w name =>
            let path := v.path ++ (if v.path.getLast? = some '/' then [] else ['/']) ++ name
            goThrough launch walk q fuel ⟨path, v.location ++ [Octets.toText name], v.depth + 1⟩ w) w
        if walk.depthFirst then asked w else w

def find (launch : Launch) : Tool := fun args s =>
  let args := args.dropWhile fun t => ["-L".toList, "-H".toList, "-P".toList, "--".toList].contains t
  let places := args.takeWhile fun t => !isExpression true t
  match readQuestion s (args.drop places.length) with
  | .error e => fails s "find" e 1
  | .ok (q, walk) =>
    let start : Walking := ⟨s, false, false, false, walk.commands.map fun _ => []⟩
    let w := (if places.isEmpty then [['.']] else places).foldl (fun w place =>
      if w.stopped then w
      else match w.state.find place with
        | .error e => w.complain (Quoting.curled place ++ ": ".toList ++ e.description)
        | .ok (location, _) => goThrough launch walk q 64 ⟨place, location, 0⟩ w) start
    (walk.commands.zip w.gathered).foldl (fun (s, status) entry =>
      if entry.2.isEmpty then (s, status)
      else
        let (s, last) := launch (entry.1 ++ entry.2) s
        (s, if last = 0 then status else 1)) (w.state, if w.failed then 1 else 0)

end PortableActions.Shell.Tool
