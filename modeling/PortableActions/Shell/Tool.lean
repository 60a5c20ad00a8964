import PortableActions.Shell.Tool.CharacterSet
import PortableActions.Shell.Tool.Dump
import PortableActions.Shell.Tool.File
import PortableActions.Shell.Tool.Grep
import PortableActions.Shell.Tool.Number
import PortableActions.Shell.Tool.Stream
import PortableActions.Shell.Tool.Word
-- The table of programs that start nothing themselves.
namespace PortableActions.Shell.Tool

def run? (name : Text) : Option Tool :=
  match String.ofList name with
  | "[" => some (test "[" true)
  | "basename" => some basename
  | "cat" => some cat
  | "chmod" => some chmod
  | "cp" => some cp
  | "cut" => some cut
  | "dirname" => some dirname
  | "echo" => some echo
  | "expr" => some expr
  | "false" => some (quietly 1)
  | "grep" => some grep
  | "head" => some head
  | "ls" => some ls
  | "mkdir" => some mkdir
  | "mv" => some mv
  | "nl" => some nl
  | "od" => some od
  | "paste" => some paste
  | "printenv" => some printenv
  | "printf" => some printf
  | "pwd" => some pwd
  | "rev" => some rev
  | "rm" => some rm
  | "rmdir" => some rmdir
  | "sed" => some sed
  | "seq" => some seq
  | "sleep" => some sleep
  | "sort" => some sort
  | "sync" | "true" => some (quietly 0)
  | "tac" => some tac
  | "tail" => some tail
  | "tee" => some tee
  | "test" => some (test "test" false)
  | "touch" => some touch
  | "tr" => some tr
  | "uniq" => some uniq
  | "wc" => some wc
  | "yes" => some yes
  | _ => none

end PortableActions.Shell.Tool
