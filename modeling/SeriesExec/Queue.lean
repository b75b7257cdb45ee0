/-!
# Queue — first in, first out

This file defines `Queue`, a list of waiting things, with `Queue.push` at its end and `Queue.pop?`
at its front, and `Queue.toList`, the view in which both are stated.
-/

namespace SeriesExec

/-- Things that wait, the one that came first in front. -/
structure Queue (α : Type) where
  items : List α
  deriving DecidableEq, Repr, Inhabited

namespace Queue

variable {α : Type}

def empty : Queue α := ⟨[]⟩

def push (q : Queue α) (a : α) : Queue α := ⟨q.items ++ [a]⟩

/-- The first thing and the queue without it. -/
def pop? (q : Queue α) : Option (α × Queue α) :=
  match q.items with
  | [] => none
  | a :: rest => some (a, ⟨rest⟩)

def size (q : Queue α) : Nat := q.items.length

def isEmpty (q : Queue α) : Bool := q.items.isEmpty

def toList (q : Queue α) : List α := q.items

@[simp]
theorem toList_push (q : Queue α) (a : α) : (q.push a).toList = q.toList ++ [a] := rfl

theorem toList_of_pop? {q q' : Queue α} {a : α} (h : q.pop? = some (a, q')) :
    q.toList = a :: q'.toList := by
  unfold pop? at h
  split at h
  · cases h
  · rename_i b rest hitems
    injection h with h
    obtain ⟨rfl, rfl⟩ := Prod.mk.inj h
    exact hitems

end Queue
end SeriesExec
