import SeriesExec.KeyedList

/-!
# Tags — key and value texts attached to a series

This file defines `Tags`, a finite map between texts whose entries are held in the order of their
keys, so two maps with the same entries are equal, and `Tags.render`, the text `{k=v,k2=v2}`.
-/

namespace SeriesExec

/-- A finite map from texts to texts. -/
structure Tags where
  entries : List (String × String)
  sorted : KeyedList.Sorted entries
  deriving DecidableEq

namespace Tags

def empty : Tags := ⟨[], List.Pairwise.nil⟩

instance : Inhabited Tags := ⟨empty⟩

/-- The map with these entries; of two values for one key the later wins. -/
def ofList (entries : List (String × String)) : Tags :=
  ⟨KeyedList.ofList entries, KeyedList.sorted_ofList entries⟩

def isEmpty (t : Tags) : Bool :=
  t.entries.isEmpty

def get? (t : Tags) (key : String) : Option String :=
  KeyedList.find? key t.entries

/-- The text of the entries in braces, in the order of the keys. -/
def render (t : Tags) : List Char :=
  ['\x7b'] ++ [','].intercalate (t.entries.map fun e => e.1.toList ++ '=' :: e.2.toList) ++ ['\x7d']

theorem ofList_render (t : Tags) : String.ofList t.render =
    "\x7b" ++ ",".intercalate (t.entries.map fun e => e.1 ++ "=" ++ e.2) ++ "\x7d" := by
  rw [← String.toList_inj, String.toList_ofList, render]
  simp [String.toList_append, String.toList_intercalate, Function.comp_def]

end Tags
end SeriesExec
