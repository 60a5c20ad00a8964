import PortableActions.Invocation
import PortableActions.Shell.Run
-- A POSIX host's way to start programs. It has "/bin/sh" and no other shell; one argument
-- may have 131071 bytes. Children find an empty input, and their two output streams
-- arrive as one.
namespace PortableActions.Shell

-- Programs that every host has.
def programs : List String :=
  ["[", "basename", "cat", "chmod", "cp", "cut", "dirname", "echo", "env", "expr", "false", "find", "grep", "head", "kill", "ls", "mkdir", "mv",
    "nl", "od", "paste", "printenv", "printf", "pwd", "rev", "rm", "rmdir", "sed", "seq", "sh", "sleep", "sort", "sync", "tac",
    "tail", "tee", "test", "touch", "tr", "true", "uniq", "wc", "which", "xargs", "yes"]

def directories : List (List String) :=
  [["bin"], ["dev"], ["etc"], ["home"], ["lib"], ["media"], ["mnt"], ["opt"], ["proc"], ["root"], ["run"], ["sbin"],
    ["srv"], ["sys"], ["tmp"], ["usr"], ["usr", "bin"], ["usr", "lib"], ["usr", "local"], ["usr", "local", "bin"],
    ["usr", "sbin"], ["var"], ["var", "tmp"]]

def devices : List String := ["full", "null", "stderr", "stdin", "stdout", "tty", "zero"]

def programPlaces : List (Location × Option (List UInt8)) :=
  programs.flatMap fun name =>
    let content := some (Program.mark ++ Octets.toBytes name.toList)
    [(["usr".toList, "bin".toList, name.toList], content), (["bin".toList, name.toList], content)]

-- What stands on every host besides the files of its users.
def furniture : List (Location × Option (List UInt8)) :=
  directories.map (fun names => (names.map String.toList, none)) ++
    devices.map (fun name => (["dev".toList, name.toList], some [])) ++ programPlaces

-- A disk with the furniture that it does not have yet.
def furnished (disk : Disk) : Disk :=
  ⟨disk.entries ++ furniture.filter fun entry => (disk.lookup entry.1).isNone⟩

-- The disk without the furniture that was put there.
def cleared (before after : Disk) : Disk :=
  ⟨after.entries.filter fun entry => (before.lookup entry.1).isSome || !furniture.contains entry⟩

def initial (home : Text) (here : Location) (disk : Disk) : State :=
  let exported := fun (name : String) (value : Text) => (name.toList, Variable.mk (some value) true false)
  { name := "/bin/sh".toList
    params := []
    bindings := [exported "HOME" home, exported "PATH" "/usr/local/bin:/usr/bin:/bin".toList,
      exported "PWD" (Octets.ofText here.print)] ++ Program.startVariables 1
    scopes := []
    functions := []
    aliases := []
    documents := []
    numbers := 0
    options := []
    remembered := []
    traps := []
    mainTraps := none
    pending := []
    calls := 0
    texts := 0
    loops := 0
    inFunction := false
    tested := false
    status := 0
    substituted := 0
    savedStatus := none
    jobs := []
    lastJob := none
    pid := 1000
    nextPid := 1001
    heading := none
    line := 0
    readingLine := 0
    optionIndex := 1
    optionOffset := none
    mask := 18
    here := here
    disk := disk
    executables := programPlaces.map Prod.fst
    descriptors := [(0, 0), (1, 1), (2, 1)]
    channels := [.nothing, .sink 0]
    sinks := [[]]
    lost := false }

-- Far more steps than a script of ordinary length takes.
def fuel : Nat := 1000000

def exitCode (outcome : Outcome) : Int :=
  match outcome with
  | (.killed signal, _) => -(signal : Int)
  | (_, s) => (s.status % 256 : Nat)

def runScript (home script : Text) (here : Location) (disk : Disk) : Child :=
  let text := Run.textOf fuel
  let outcome := Outcome.finish text (text (Octets.ofText script) (initial (Octets.ofText home) here (furnished disk)))
  ⟨exitCode outcome, Octets.toBytes (outcome.2.collected 0), cleared disk outcome.2.disk⟩

def isLongArgument (argument : Text) : Bool := 131071 < Text.utf8Size argument

def launcher (home : Text) : Launcher := fun argv here disk =>
  let program := argv.headD []
  if program ≠ "/bin/sh".toList then .error (.noEntry, program)
  else if argv.any isLongArgument then .error (.argumentsTooLong, program)
  else .ok (runScript home (argv.getLastD []) here disk)

end PortableActions.Shell
