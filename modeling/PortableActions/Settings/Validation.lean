import PortableActions.Settings
import PortableActions.Settings.Value
-- Settings from a loosely typed value. Every field is looked at, in the order of the
-- fields, and every problem is reported; fields that are not known are passed over.
namespace PortableActions

inductive Problem where
  | notModel (model : Text)
  | notFlag
  | unreadableFlag
  | notText
  | notPath
  | notTable
  | frozen
  deriving DecidableEq, Repr

namespace Problem

def code : Problem → Text
  | notModel _ => "model_type".toList
  | notFlag => "bool_type".toList
  | unreadableFlag => "bool_parsing".toList
  | notText => "string_type".toList
  | notPath => "path_type".toList
  | notTable => "dict_type".toList
  | frozen => "frozen_instance".toList

def message : Problem → Text
  | notModel model => "Input should be a valid dictionary or instance of ".toList ++ model
  | notFlag => "Input should be a valid boolean".toList
  | unreadableFlag => "Input should be a valid boolean, unable to interpret input".toList
  | notText => "Input should be a valid string".toList
  | notPath => "Input is not a valid path for <class 'pathlib.Path'>".toList
  | notTable => "Input should be a valid dictionary".toList
  | frozen => "Instance is frozen".toList

end Problem

-- A problem and the keys that lead to it.
structure Issue where
  problem : Problem
  place : List Text
  deriving DecidableEq, Repr

structure Invalid where
  model : Text
  issues : List Issue
  deriving DecidableEq, Repr

namespace Settings

def modelName : Text := "ExecutionSettings".toList

def falseWords : List String := ["0", "f", "n", "no", "off", "false"]

def trueWords : List String := ["1", "t", "y", "yes", "on", "true"]

-- Whole numbers of 64 bits and words can name a flag; whatever else they name is
-- unreadable, and no other value is a flag at all.
def checkFlag : Value → Except Problem Bool
  | .flag b => .ok b
  | .text t =>
    let word := String.ofList (Text.lower t)
    if falseWords.contains word then .ok false
    else if trueWords.contains word then .ok true
    else .error .unreadableFlag
  | value =>
    match value.whole? with
    | none => .error .notFlag
    | some n =>
      if n = 0 then .ok false
      else if n = 1 then .ok true
      else if -9223372036854775808 ≤ n ∧ n ≤ 9223372036854775807 then .error .unreadableFlag
      else .error .notFlag

def checkText : Value → Except Problem Text
  | .text t => .ok t
  | _ => .error .notText

def checkDirectory : Value → Except Problem (Option Text)
  | .null => .ok none
  | .text t => .ok (some (Path.Posix.normal t))
  | _ => .error .notPath

-- A field that is absent keeps its default.
def checkField {α : Type} (fields : List (Text × Value)) (name : String) (otherwise : α)
    (check : Value → Except Problem α) : α × List Issue :=
  match Value.field? fields name.toList with
  | none => (otherwise, [])
  | some value =>
    match check value with
    | .ok found => (found, [])
    | .error problem => (otherwise, [⟨problem, [name.toList]⟩])

def check : Value → Except Invalid Settings
  | .record fields =>
    let defaults : Settings := {}
    let verbose := checkField fields "verbose" defaults.verbose checkFlag
    let start := checkField fields "args_file_prefix" defaults.fileNameStart checkText
    let ending := checkField fields "args_file_suffix" defaults.fileNameEnd checkText
    let directory := checkField fields "args_file_dir" defaults.directory checkDirectory
    let encoding := checkField fields "args_file_encoding" defaults.encoding checkText
    match verbose.2 ++ start.2 ++ ending.2 ++ directory.2 ++ encoding.2 with
    | [] => .ok ⟨verbose.1, start.1, ending.1, directory.1, encoding.1⟩
    | issues => .error ⟨modelName, issues⟩
  | _ => .error ⟨modelName, [⟨.notModel modelName, []⟩]⟩

-- Settings never change: every assignment is refused, whatever the field and the value.
def refuseAssignment (field : Text) : Invalid := ⟨modelName, [⟨.frozen, [field]⟩]⟩

end Settings
end PortableActions
