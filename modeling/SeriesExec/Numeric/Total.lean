/-!
# Totals — a quantity summed over a list

Rows are counted batch by batch, and the work that is left in a system queue by queue.  This file
defines `totalOf`, the sum of a quantity over the items of a list, and states how it behaves on the
ways in which lists are built.
-/

namespace SeriesExec

variable {α β : Type}

/-- The sum of the quantity `f` over the items of a list. -/
def totalOf (f : α → Nat) : List α → Nat
  | [] => 0
  | a :: rest => f a + totalOf f rest

@[simp]
theorem totalOf_nil (f : α → Nat) : totalOf f [] = 0 := rfl

@[simp]
theorem totalOf_cons (f : α → Nat) (a : α) (l : List α) :
    totalOf f (a :: l) = f a + totalOf f l := rfl

@[simp]
theorem totalOf_append (f : α → Nat) (l m : List α) :
    totalOf f (l ++ m) = totalOf f l + totalOf f m := by
  induction l with
  | nil => simp
  | cons a rest ih => simp [ih, Nat.add_assoc]

@[simp]
theorem totalOf_map (f : β → Nat) (g : α → β) (l : List α) :
    totalOf f (l.map g) = totalOf (fun a => f (g a)) l := by
  induction l with
  | nil => rfl
  | cons a rest ih => simp [ih]

theorem totalOf_perm (f : α → Nat) {l m : List α} (h : l.Perm m) : totalOf f l = totalOf f m := by
  induction h with
  | nil => rfl
  | cons a _ ih => rw [totalOf_cons, totalOf_cons, ih]
  | swap a b l => exact Nat.add_left_comm _ _ _
  | trans _ _ ih ih' => exact ih.trans ih'

theorem totalOf_add (f g : α → Nat) (l : List α) :
    totalOf (fun a => f a + g a) l = totalOf f l + totalOf g l := by
  induction l with
  | nil => rfl
  | cons a rest ih =>
    rw [totalOf_cons, totalOf_cons, totalOf_cons, ih]
    exact Nat.add_add_add_comm _ _ _ _

theorem totalOf_flatMap (f : β → Nat) (g : α → List β) (l : List α) :
    totalOf f (l.flatMap g) = totalOf (fun a => totalOf f (g a)) l := by
  induction l with
  | nil => rfl
  | cons a rest ih => simp [ih]

/-- Counting is adding up ones. -/
theorem totalOf_ite (p : α → Bool) (l : List α) :
    totalOf (fun a => if p a then 1 else 0) l = l.countP p := by
  induction l with
  | nil => rfl
  | cons a rest ih => simp [ih, List.countP_cons, Nat.add_comm]

/-- One item that changes changes the total by as much. -/
theorem totalOf_modify (f : α → Nat) {g : α → α} {l : List α} {i : Nat} {a : α}
    (h : l[i]? = some a) : totalOf f (l.modify i g) + f a = totalOf f l + f (g a) := by
  induction l generalizing i with
  | nil => cases h
  | cons b rest ih =>
    cases i with
    | zero =>
      rcases Option.some.inj h with rfl
      simp [Nat.add_comm, Nat.add_left_comm]
    | succ i =>
      have hrest := ih (i := i) (by simpa using h)
      simp only [List.modify_succ_cons, totalOf_cons]
      omega

/-- Joining lists adds up their lengths. -/
theorem length_flatMap_eq_totalOf (f : α → List β) (l : List α) :
    (l.flatMap f).length = totalOf (fun a => (f a).length) l := by
  induction l with
  | nil => rfl
  | cons a rest ih => simp [ih]

end SeriesExec
