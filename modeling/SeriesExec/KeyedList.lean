/-!
# KeyedList — maps as lists in the order of their keys

Wherever an answer shows the entries of a map, it shows them in the order of the keys, so maps are
kept as lists that are strictly ascending by key.  This file defines, in the namespace `KeyedList`:

* `Sorted` — the keys ascend strictly;
* `update` — sets the value at a key from the value that was there;
* `insert`, `insertNew` — adding an entry, with the new or the old value winning;
* `find?`, `contains`, `erase` — looking a key up, and removing it.

Main statements: `update` keeps the list sorted (`sorted_update`), and putting an entry in changes
what is found at its key and nothing else (`find?_insert`).
-/

namespace SeriesExec
namespace KeyedList

variable {κ ν : Type} [Ord κ]

/-- The keys ascend strictly, so each occurs once. -/
def Sorted (l : List (κ × ν)) : Prop :=
  l.Pairwise fun a b => compare a.1 b.1 = .lt

/-- The list with `f old` at the key `k`, where `old` is the value that was there. -/
def update (k : κ) (f : Option ν → ν) : List (κ × ν) → List (κ × ν)
  | [] => [(k, f none)]
  | e :: rest =>
    match compare k e.1 with
    | .lt => (k, f none) :: e :: rest
    | .eq => (k, f (some e.2)) :: rest
    | .gt => e :: update k f rest

/-- The list with `v` at the key `k`, whatever was there. -/
def insert (k : κ) (v : ν) (l : List (κ × ν)) : List (κ × ν) :=
  update k (fun _ => v) l

/-- The list with `v` at the key `k`, unless the key is there already. -/
def insertNew (k : κ) (v : ν) (l : List (κ × ν)) : List (κ × ν) :=
  update k (fun old => old.getD v) l

/-- The value at a key. -/
def find? (k : κ) (l : List (κ × ν)) : Option ν :=
  (l.find? fun e => compare k e.1 == .eq).map Prod.snd

def contains (k : κ) (l : List (κ × ν)) : Bool :=
  l.any fun e => compare k e.1 == .eq

def erase (k : κ) (l : List (κ × ν)) : List (κ × ν) :=
  l.filter fun e => compare k e.1 != .eq

/-- The entries put in one after another; a later value wins. -/
def ofList (entries : List (κ × ν)) : List (κ × ν) :=
  entries.foldl (fun l e => insert e.1 e.2 l) []

theorem key_of_mem_update {k : κ} {f : Option ν → ν} {l : List (κ × ν)} {e : κ × ν}
    (h : e ∈ update k f l) : e.1 = k ∨ e ∈ l := by
  induction l with
  | nil =>
    rw [update, List.mem_singleton] at h
    exact .inl (h ▸ rfl)
  | cons a rest ih =>
    simp only [update] at h
    split at h
    · exact (List.mem_cons.mp h).imp_left (congrArg Prod.fst)
    · exact (List.mem_cons.mp h).imp (congrArg Prod.fst) (List.mem_cons_of_mem _)
    · rcases List.mem_cons.mp h with rfl | h
      · exact .inr List.mem_cons_self
      · exact (ih h).imp_right (List.mem_cons_of_mem _)

/-! ## Looking up -/

theorem find?_cons (k : κ) (e : κ × ν) (l : List (κ × ν)) :
    find? k (e :: l) = if compare k e.1 = .eq then some e.2 else find? k l := by
  by_cases h : compare k e.1 = .eq <;> simp [find?, h]

theorem isSome_find? (k : κ) (l : List (κ × ν)) : (find? k l).isSome = contains k l := by
  induction l with
  | nil => rfl
  | cons a rest ih =>
    rw [find?_cons]
    by_cases h : compare k a.1 = .eq
    · simp [contains, h]
    · have hne : (compare k a.1 == .eq) = false := beq_eq_false_iff_ne.mpr h
      rw [if_neg h, ih, contains, contains, List.any_cons, hne, Bool.false_or]

/-- Of two values put in at one key the second stays. -/
theorem insert_insert [Std.ReflOrd κ] (k : κ) (v w : ν) (l : List (κ × ν)) :
    insert k w (insert k v l) = insert k w l := by
  induction l with
  | nil => simp [insert, update]
  | cons a rest ih =>
    cases hcmp : compare k a.1 with
    | lt => simp [insert, update, hcmp]
    | eq => simp [insert, update, hcmp]
    | gt =>
      simp only [insert, update, hcmp]
      exact congrArg (a :: ·) ih

/-- A key that is not there is put in between two parts of the list. -/
theorem exists_split_of_find?_eq_none {k : κ} {l : List (κ × ν)} (h : find? k l = none) :
    ∃ front back, l = front ++ back ∧ ∀ w, insert k w l = front ++ (k, w) :: back := by
  induction l with
  | nil => exact ⟨[], [], rfl, fun _ => rfl⟩
  | cons a rest ih =>
    rw [find?_cons] at h
    split at h
    · cases h
    · rename_i hne
      cases hcmp : compare k a.1 with
      | lt => exact ⟨[], a :: rest, rfl, fun w => by simp [insert, update, hcmp]⟩
      | eq => exact absurd hcmp hne
      | gt =>
        obtain ⟨front, back, hl, hw⟩ := ih h
        refine ⟨a :: front, back, congrArg (a :: ·) hl, fun w => ?_⟩
        have hstep : insert k w (a :: rest) = a :: insert k w rest := by
          simp [insert, update, hcmp]
        rw [hstep, hw w, List.cons_append]

/-! ## Order -/

variable [Std.TransOrd κ] [Std.LawfulEqOrd κ]

/-- The value of a key that is there is replaced in its place. -/
theorem exists_split_of_find?_eq_some {k : κ} {v : ν} {l : List (κ × ν)} (hs : Sorted l)
    (h : find? k l = some v) :
    ∃ front back, l = front ++ (k, v) :: back ∧
      ∀ w, insert k w l = front ++ (k, w) :: back := by
  induction l with
  | nil => cases h
  | cons a rest ih =>
    rw [find?_cons] at h
    split at h
    · rename_i heq
      have hk : k = a.1 := Std.LawfulEqCmp.compare_eq_iff_eq.mp heq
      injection h with h
      subst hk h
      exact ⟨[], rest, rfl, fun w => by simp [insert, update]⟩
    · obtain ⟨front, back, hl, hw⟩ := ih hs.of_cons h
      have hmem : (k, v) ∈ rest := by simp [hl]
      have hlt : compare a.1 k = .lt := (List.pairwise_cons.mp hs).1 _ hmem
      have hgt : compare k a.1 = .gt := Std.OrientedCmp.gt_iff_lt.mpr hlt
      refine ⟨a :: front, back, congrArg (a :: ·) hl, fun w => ?_⟩
      have hstep : insert k w (a :: rest) = a :: insert k w rest := by
        simp [insert, update, hgt]
      rw [hstep, hw w, List.cons_append]

omit [Std.TransOrd κ] in
theorem mem_of_find? {k : κ} {v : ν} {l : List (κ × ν)} (h : find? k l = some v) :
    (k, v) ∈ l := by
  obtain ⟨e, he, rfl⟩ := Option.map_eq_some_iff.mp h
  have hcmp := List.find?_some he
  have hk : k = e.1 := Std.LawfulEqCmp.compare_eq_iff_eq.mp (eq_of_beq hcmp)
  subst hk
  exact List.mem_of_find?_eq_some he

theorem find?_of_mem {k : κ} {v : ν} {l : List (κ × ν)} (hs : Sorted l) (h : (k, v) ∈ l) :
    find? k l = some v := by
  induction l with
  | nil => cases h
  | cons a rest ih =>
    rw [find?_cons]
    rcases List.mem_cons.mp h with rfl | h
    · simp
    · have hlt : compare a.1 k = .lt := (List.pairwise_cons.mp hs).1 _ h
      have hgt : compare k a.1 = .gt := Std.OrientedCmp.gt_iff_lt.mpr hlt
      simpa [hgt] using ih hs.of_cons h

omit [Std.TransOrd κ] in
/-- Putting an entry in changes what is found at its key and nothing else. -/
theorem find?_insert [DecidableEq κ] (k k' : κ) (v : ν) (l : List (κ × ν)) :
    find? k' (insert k v l) = if k' = k then some v else find? k' l := by
  have hiff : k' = k ↔ compare k' k = .eq := Std.LawfulEqCmp.compare_eq_iff_eq.symm
  simp only [hiff]
  induction l with
  | nil => exact find?_cons k' (k, v) []
  | cons a rest ih =>
    have hstep : insert k v (a :: rest) =
        match compare k a.1 with
        | .lt => (k, v) :: a :: rest
        | .eq => (k, v) :: rest
        | .gt => a :: insert k v rest := rfl
    cases hcmp : compare k a.1 with
    | lt => simp only [hstep, hcmp, find?_cons]
    | eq =>
      have hk : k = a.1 := Std.LawfulEqCmp.compare_eq_iff_eq.mp hcmp
      rw [hstep, hcmp, find?_cons, find?_cons, ← hk]
      split <;> rfl
    | gt =>
      have hne : ¬ (compare k' k = .eq ∧ compare k' a.1 = .eq) := by
        rintro ⟨h, h'⟩
        rw [Std.LawfulEqCmp.compare_eq_iff_eq.mp h, hcmp] at h'
        cases h'
      simp only [hstep, hcmp, find?_cons, ih]
      by_cases h : compare k' a.1 = .eq <;> by_cases h' : compare k' k = .eq <;> simp_all

/-- Setting the value at a key from the one that was there changes what is found at that key and
nothing else. -/
theorem find?_update [DecidableEq κ] (k k' : κ) (f : Option ν → ν) {l : List (κ × ν)}
    (hs : Sorted l) :
    find? k' (update k f l) = if k' = k then some (f (find? k l)) else find? k' l := by
  -- What is put in stands where the key was, or where it belongs, so it is an `insert`.
  have hput : ∀ {l : List (κ × ν)}, Sorted l → update k f l = insert k (f (find? k l)) l := by
    intro l hs
    induction l with
    | nil => rfl
    | cons a rest ih =>
      rw [find?_cons]
      cases hcmp : compare k a.1 with
      | eq => simp [insert, update, hcmp]
      | lt =>
        -- The keys of the rest are greater still, so the key is nowhere in the list.
        have hnone : find? k rest = none := by
          rw [find?, List.find?_eq_none.mpr, Option.map_none]
          intro e he heq
          have hlt := Std.TransCmp.lt_trans hcmp ((List.pairwise_cons.mp hs).1 e he)
          rw [eq_of_beq heq] at hlt
          cases hlt
        simp [insert, update, hcmp, hnone]
      | gt =>
        have hrest := ih hs.of_cons
        simp only [insert, update, hcmp] at hrest ⊢
        rw [hrest]
        rfl
  rw [hput hs, find?_insert]

theorem sorted_update (k : κ) (f : Option ν → ν) {l : List (κ × ν)} (h : Sorted l) :
    Sorted (update k f l) := by
  induction l with
  | nil => exact List.pairwise_singleton _ _
  | cons a rest ih =>
    have hrest : ∀ e ∈ rest, compare a.1 e.1 = .lt := (List.pairwise_cons.mp h).1
    have htail : Sorted rest := h.of_cons
    simp only [update]
    split
    · rename_i hlt
      refine List.pairwise_cons.mpr ⟨fun e he => ?_, h⟩
      rcases List.mem_cons.mp he with rfl | he
      · exact hlt
      · exact Std.TransCmp.lt_trans hlt (hrest e he)
    · rename_i heq
      have hk : k = a.1 := Std.LawfulEqCmp.compare_eq_iff_eq.mp heq
      exact List.pairwise_cons.mpr ⟨fun e he => hk ▸ hrest e he, htail⟩
    · rename_i hgt
      refine List.pairwise_cons.mpr ⟨fun e he => ?_, ih htail⟩
      rcases key_of_mem_update he with hk | he
      · exact hk ▸ Std.OrientedCmp.gt_iff_lt.mp hgt
      · exact hrest e he

/-- An entry of the updated list is the one that was put in, or was there before. -/
theorem mem_update [DecidableEq κ] {k : κ} {f : Option ν → ν} {l : List (κ × ν)} (hs : Sorted l)
    {e : κ × ν} (h : e ∈ update k f l) : e = (k, f (find? k l)) ∨ e ∈ l := by
  have hfound : find? e.1 (update k f l) = some e.2 := find?_of_mem (sorted_update k f hs) h
  rw [find?_update k e.1 f hs] at hfound
  split at hfound
  · rename_i hkey
    exact .inl (Prod.ext hkey (Option.some.inj hfound).symm)
  · exact .inr (mem_of_find? hfound)

omit [Std.TransOrd κ] [Std.LawfulEqOrd κ] in
theorem update_ne_nil (k : κ) (f : Option ν → ν) (l : List (κ × ν)) : update k f l ≠ [] := by
  cases l with
  | nil => exact List.cons_ne_nil _ _
  | cons a rest =>
    rw [update]
    split <;> exact List.cons_ne_nil _ _

theorem sorted_ofList (entries : List (κ × ν)) : Sorted (ofList entries) := by
  suffices ∀ acc : List (κ × ν), Sorted acc →
      Sorted (entries.foldl (fun l e => insert e.1 e.2 l) acc) from
    this [] List.Pairwise.nil
  induction entries with
  | nil => exact fun _ h => h
  | cons e rest ih => exact fun acc h => ih _ (sorted_update e.1 _ h)

omit [Std.TransOrd κ] in
/-- Of the entries that are put in for one key the last stays. -/
theorem find?_ofList [DecidableEq κ] (k : κ) (entries : List (κ × ν)) :
    find? k (ofList entries) = (entries.reverse.find? fun e => decide (e.1 = k)).map Prod.snd := by
  have hfold : ∀ acc : List (κ × ν), find? k (entries.foldl (fun l e => insert e.1 e.2 l) acc) =
      ((entries.reverse.find? fun e => decide (e.1 = k)).map Prod.snd).or (find? k acc) := by
    induction entries with
    | nil => exact fun acc => rfl
    | cons e rest ih =>
      intro acc
      rw [List.foldl_cons, ih, find?_insert, List.reverse_cons, List.find?_append,
        List.find?_singleton]
      cases rest.reverse.find? fun e => decide (e.1 = k) with
      | some p => rfl
      | none =>
        by_cases hk : k = e.1
        · simp [hk]
        · simp [hk, Ne.symm hk]
  rw [ofList, hfold]
  cases (entries.reverse.find? fun e => decide (e.1 = k)) <;> rfl

end KeyedList
end SeriesExec
