import PortableActions.Shell.Expansion
-- Where file descriptors lead while a command runs. A redirection that cannot be made
-- fails the command; one that cannot be expanded ends the shell.
namespace PortableActions.Shell.Redirection
open Outcome

-- A redirection whose target has been expanded.
inductive Opening where
  | file (fd : Nat) (kind : RedirectKind) (path : Text)
  | copy (fd source : Nat)
  | closing (fd : Nat)
  | document (fd number : Nat)
  deriving DecidableEq, Repr

def Opening.fd : Opening → Nat
  | file fd _ _ | copy fd _ | closing fd | document fd _ => fd

-- The line of this complaint is the one that is being read.
def badNumber {α : Type} : Expand α := do
  modify fun s => { s with line := s.readingLine }
  Expand.fail "Syntax error: Bad fd number".toList

def expand (capture : Capture) : Redirect → Expand Opening
  | .mk fd .copy target => do
    match ← Expansion.single capture target with
    | ['-'] => pure (.closing fd)
    | [c] => if c.isDigit then pure (.copy fd (c.toNat - 48)) else badNumber
    | _ => badNumber
  | .mk fd (.here number) _ => pure (.document fd number)
  | .mk fd kind target => do pure (.file fd kind (← Expansion.single capture target))

def expandAll (capture : Capture) : List Redirect → Expand (List Opening)
  | [] => pure []
  | r :: rest => do
    let first ← expand capture r
    let more ← expandAll capture rest
    pure (first :: more)

-- Files that lead to what a descriptor leads to.
def alias? (path : Text) : Option Nat :=
  match String.ofList path with
  | "/dev/stdin" => some 0
  | "/dev/stdout" => some 1
  | "/dev/stderr" => some 2
  | _ =>
    let number := path.drop 8
    if Text.startsWith "/dev/fd/".toList path && Numeral.isDecimal number then some (Numeral.number number) else none

def accessFor : RedirectKind → Access
  | .read => .reads
  | .append => .appends
  | .readWrite => .both
  | _ => .writes

-- What an open file at a location is.
def channelAt (location : Location) (access : Access) : Channel :=
  if location = State.nullDevice then .nothing
  else if location = State.zeroDevice then .text State.zeros
  else if location = ["dev".toList, "full".toList] then .full
  else .file location 0 access

def cannotOpen {α : Type} (path : Text) (e : Errno) : Expand α :=
  let why := if e = .noEntry || e = .notDirectory then "No such file".toList else e.description
  Expand.fail ("cannot open ".toList ++ path ++ ": ".toList ++ why)

def cannotCreate {α : Type} (path : Text) (e : Errno) : Expand α :=
  let why := if e = .noEntry || e = .notDirectory then "Directory nonexistent".toList else e.description
  Expand.fail ("cannot create ".toList ++ path ++ ": ".toList ++ why)

def openForReading (path : Text) : Expand Channel := do
  let s ← get
  match s.find path with
  | .ok (location, .file _) => pure (channelAt location .reads)
  | .ok (location, .directory) => pure (.file location 0 .reads)
  | .error e => cannotOpen path e

-- A new file, or one that is there, emptied unless its content is kept.
def openForWriting (kind : RedirectKind) (path : Text) : Expand Channel := do
  let s ← get
  match s.find path with
  | .ok (location, .file _) =>
    let channel := channelAt location (accessFor kind)
    match channel with
    | .file _ _ _ =>
      if kind = .write && s.isOn 'C' then cannotCreate path .exists_
      else
        if kind = .write || kind = .overwrite then set { s with disk := s.disk.write location [] }
        pure channel
    | _ => pure channel
  | .ok (_, .directory) => cannotCreate path .isDirectory
  | .error _ =>
    match (if path = [] then .error .noEntry else s.disk.vacancy (s.absolute path)) with
    | .ok location =>
      set { s with disk := s.disk.write location [] }
      pure (.file location 0 (accessFor kind))
    | .error e => cannotCreate path e

def apply (capture : Capture) : Opening → Expand Unit
  | .closing fd => modify fun s => s.close fd
  | .copy fd source => do
    match (← get).channel? source with
    | some (index, _) => modify fun s => s.connect fd index
    | none => Expand.fail (Text.ofNat source ++ ": Bad file descriptor".toList)
  | .document fd number => do
    let body := (((← get).documents.find? fun entry => entry.1 = number).map Prod.snd).getD []
    let text ← Expansion.document capture body
    modify fun s => s.attach fd (.text text)
  | .file fd kind path => do
    match (alias? path).bind (← get).channel? with
    | some (index, _) => modify fun s => s.connect fd index
    | none =>
      let channel ← if kind = .read then openForReading path else openForWriting kind path
      modify fun s => s.attach fd channel

def applyAll (capture : Capture) : List Opening → Expand Unit
  | [] => pure ()
  | o :: rest => do
    apply capture o
    applyAll capture rest

-- Descriptors that were changed lead again to where they led before.
def giveBack (openings : List Opening) (outer inner : State) : State :=
  let back := openings.foldl (fun s o =>
    match outer.descriptors.find? fun entry => entry.1 = o.fd with
    | some entry => s.connect o.fd entry.2
    | none => s.close o.fd) inner
  dropChannels outer.channels.length back

-- Runs a body with redirections; if they cannot be made, the second body runs instead.
-- They end with the body, unless they are kept and the shell goes on.
def opened (capture : Capture) (keeps : Bool) (openings : List Opening) (body failed : State → Outcome) (s : State) :
    Outcome :=
  if openings.isEmpty then body s
  else match applyAll capture openings s with
    | .error .fault inner => failed ((giveBack openings s inner).withStatus 2)
    | .error flow inner => (flow, inner)
    | .ok () inner =>
      let (flow, after) := body inner
      (flow, if keeps && flow = .next then after else giveBack openings s after)

-- Redirections of a process hold up to its end; if they cannot be made, it ends at once.
def inProcess (capture : Capture) (openings : List Opening) (body : State → Outcome) (s : State) : Outcome :=
  after (applyAll capture openings s) fun _ s => body s

-- The redirections of a command of several words.
def redirected (capture : Capture) (redirects : List Redirect) (body : State → Outcome) (s : State) : Outcome :=
  after (expandAll capture redirects s) fun openings s =>
    opened capture false openings body (fun s => (.next, s)) s

end PortableActions.Shell.Redirection
