import SeriesExec.Range.Text
import SeriesExec.Task.Basic
import SeriesExec.Text.Quoted

/-!
# Task text — tasks as log lines show them

This file defines `Task.describe`, the text of a task with the parts that tell tasks apart.
-/

namespace SeriesExec
namespace Task

/-- A truth value as a word. -/
def truth (b : Bool) : String :=
  if b then "true" else "false"

/-- Named parts in braces behind a heading. -/
def record (heading : String) (parts : List (String × String)) : String :=
  heading ++ " \x7b " ++ ", ".intercalate (parts.map fun p => p.1 ++ ": " ++ p.2) ++ " \x7d"

/-- The kinds of the operators, with commas between. -/
def operatorNames (t : Task) : String :=
  ",".intercalate (t.operators.map fun op => op.kind.name)

/-- What all kinds of tasks have in common; `name` writes the task itself. -/
def describeCore (name : String) (t : Task) : String :=
  record "TaskCore"
    [("id", name), ("operators", Text.quoted t.operatorNames), ("is_sync", truth t.isSync),
     ("needs_broadcasting", truth t.broadcasts), ("finished", truth t.result.isSome)]

/-- A text that may be missing. -/
def describeOption : Option String → String
  | none => "None"
  | some s => "Some(" ++ Text.quoted s ++ ")"

def describe (name : String) (t : Task) : String :=
  match t.shape with
  | .storage s =>
    record "StoragePhysicalTask"
      [("core", describeCore name t), ("fragment", Text.quoted s.fragment.range.render),
       ("storage_unit", describeOption s.stamp)]
  | .memory m =>
    record "MemoryPhysicalTask"
      [("core", describeCore name t), ("required_parents", toString m.required),
       ("ready_parents", toString m.ready)]
  | .global => record "GlobalPhysicalTask" [("core", describeCore name t)]

end Task
end SeriesExec
