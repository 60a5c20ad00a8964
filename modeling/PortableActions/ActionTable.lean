import PortableActions.Settings.Validation
-- The actions of a project: templates under names, in the order of definition. A name
-- that is defined again keeps its place and takes the later template.
namespace PortableActions

structure ActionTable where
  entries : List (Text × Text)
  deriving DecidableEq, Repr

namespace ActionTable

def empty : ActionTable := ⟨[]⟩

def names (table : ActionTable) : List Text := table.entries.map Prod.fst

def get? (table : ActionTable) (name : Text) : Option Text :=
  (table.entries.find? fun entry => entry.1 = name).map Prod.snd

def put (table : ActionTable) (name template : Text) : ActionTable :=
  if name ∈ table.names then
    ⟨table.entries.map fun entry => if entry.1 = name then (name, template) else entry⟩
  else ⟨table.entries ++ [(name, template)]⟩

def ofList (pairs : List (Text × Text)) : ActionTable :=
  pairs.foldl (fun table pair => table.put pair.1 pair.2) empty

def modelName : Text := "ProjectActions".toList

def fieldName : Text := "actions".toList

def checkEntries : List (Text × Value) → List (Text × Text) × List Issue
  | [] => ([], [])
  | (name, value) :: rest =>
    let found := checkEntries rest
    match value with
    | .text template => ((name, template) :: found.1, found.2)
    | _ => (found.1, ⟨.notText, [fieldName, name]⟩ :: found.2)

-- A table from a loosely typed value; a project without actions has an empty one.
def check : Value → Except Invalid ActionTable
  | .record fields =>
    match Value.field? fields fieldName with
    | none => .ok empty
    | some (.record actions) =>
      match checkEntries actions with
      | (pairs, []) => .ok (ofList pairs)
      | (_, issues) => .error ⟨modelName, issues⟩
    | some _ => .error ⟨modelName, [⟨.notTable, [fieldName]⟩]⟩
  | _ => .error ⟨modelName, [⟨.notModel modelName, []⟩]⟩

theorem get?_empty (name : Text) : empty.get? name = none := rfl

theorem names_put_of_mem {table : ActionTable} {name : Text} (known : name ∈ table.names) (template : Text) :
    (table.put name template).names = table.names := by
  simp only [put, if_pos known]
  simp only [names, List.map_map]
  apply List.map_congr_left
  intro entry _
  simp only [Function.comp]
  split
  · rename_i same; exact same.symm
  · rfl

theorem names_put_of_not_mem {table : ActionTable} {name : Text} (new : name ∉ table.names) (template : Text) :
    (table.put name template).names = table.names ++ [name] := by
  simp only [put, if_neg new]
  simp [names]

end ActionTable
end PortableActions
