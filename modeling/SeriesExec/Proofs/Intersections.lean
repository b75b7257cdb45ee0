import Mathlib.Data.Char
import Mathlib.Data.String.Basic
import SeriesExec.Range.Basic

/-!
# Intersections — ranges that share a path

The paths below a root begin with the root and a dot.  In the order of texts these are the ones from
there up to the root and a slash, because the slash follows the dot, so a subtree is its root and an
interval.  Between the two stand the paths that continue the root with something less than a dot,
such as a hyphen; they are not in the subtree.  (Texts are compared by their characters, which is
the same as by their bytes; see `Text.bytes_lt_bytes`.)

Main statement: ranges with a common path intersect, and of ranges that intersect, each of which has
a path, there is a common one (`intersects_iff_shared`).
-/

namespace SeriesExec

/-! ## Intervals -/

namespace PathBounds

variable {a b : PathBounds} {path : String} {start stop : Option String}

theorem contains_iff :
    b.contains path = true ↔ (∀ s ∈ b.start, s ≤ path) ∧ ∀ e ∈ b.stop, path < e := by
  obtain ⟨start, stop⟩ := b
  cases start <;> cases stop <;> simp [contains]

theorem opens_iff : opens start stop = true ↔ ∀ s ∈ start, ∀ e ∈ stop, s < e := by
  cases start <;> cases stop <;> simp [opens]

theorem overlap_comm (a b : PathBounds) : a.overlap b = b.overlap a :=
  Bool.and_comm _ _

/-- An interval opens before each other one that has a path of it ends. -/
theorem opens_of_contains (ha : a.contains path = true) (hb : b.contains path = true) :
    opens a.start b.stop = true := by
  rw [opens_iff]
  intro s hs e he
  have hle : s ≤ path := (contains_iff.mp ha).1 s hs
  have hlt : path < e := (contains_iff.mp hb).2 e he
  exact lt_of_le_of_lt hle hlt

theorem overlap_of_contains (ha : a.contains path = true) (hb : b.contains path = true) :
    a.overlap b = true := by
  rw [overlap, Bool.and_eq_true]
  exact ⟨opens_of_contains ha hb, opens_of_contains hb ha⟩

/-- The least path that the lower bound admits. -/
def floor (b : PathBounds) : String :=
  b.start.getD ""

theorem empty_le (s : String) : "" ≤ s := by
  rw [← not_lt, String.lt_iff_toList_lt]
  exact List.not_lt_nil _

theorem le_floor {s : String} (hs : s ∈ b.start) : s ≤ b.floor := by
  rw [Option.mem_def] at hs
  simp [floor, hs]

/-- The least path of an interval lies in another one that has any paths, if it is not below that
one and does not open behind its end. -/
theorem contains_floor (ha : ∃ path, a.contains path = true) (hle : a.floor ≤ b.floor)
    (hopens : opens b.start a.stop = true) : a.contains b.floor = true := by
  obtain ⟨path, hpath⟩ := ha
  rw [contains_iff]
  refine ⟨fun s hs => le_trans (le_floor hs) hle, fun e he => ?_⟩
  cases h : b.start with
  | none =>
    have hfloor : b.floor = "" := by simp [floor, h]
    calc b.floor = "" := hfloor
      _ ≤ path := empty_le path
      _ < e := (contains_iff.mp hpath).2 e he
  | some s =>
    have hfloor : b.floor = s := by simp [floor, h]
    rw [hfloor]
    exact opens_iff.mp hopens s h e he

/-- Of two intervals that overlap, each of which has a path, there is a common one. -/
theorem exists_shared (ha : ∃ path, a.contains path = true) (hb : ∃ path, b.contains path = true)
    (h : a.overlap b = true) : ∃ path, a.contains path = true ∧ b.contains path = true := by
  obtain ⟨hab, hba⟩ := Bool.and_eq_true_iff.mp h
  have hself : ∀ c : PathBounds, (∃ path, c.contains path = true) → c.contains c.floor = true := by
    rintro c ⟨path, hpath⟩
    exact contains_floor ⟨path, hpath⟩ le_rfl (opens_of_contains hpath hpath)
  -- The greater one of the two least paths.
  rcases le_total a.floor b.floor with hle | hle
  · exact ⟨b.floor, contains_floor ha hle hba, hself b hb⟩
  · exact ⟨a.floor, hself a ha, contains_floor hb hle hab⟩

end PathBounds

/-! ## Subtrees -/

namespace PathRange

variable {a b : PathRange} {root path : String} {start stop : Option String}

/-- No character stands between the dot and the slash. -/
theorem eq_dot_iff {c : Char} : c = '.' ↔ ¬ c < '.' ∧ c < '/' := by
  constructor
  · rintro rfl
    decide
  · rintro ⟨hlow, hhigh⟩
    have hle : 46 ≤ c.toNat := Nat.le_of_not_lt hlow
    have hlt : c.toNat < 47 := hhigh
    have hdot : c.toNat = '.'.toNat := Nat.le_antisymm (Nat.le_of_lt_succ hlt) hle
    exact Char.toNat_inj.mp hdot

/-- The texts that begin with another one and a dot are those from there up to the slash. -/
theorem dotted_isPrefix_iff (root path : List Char) :
    root ++ ['.'] <+: path ↔ ¬ path < root ++ ['.'] ∧ path < root ++ ['/'] := by
  induction root generalizing path with
  | nil =>
    cases path with
    | nil => simp
    | cons c path => simpa [List.cons_lt_cons_iff, eq_comm] using eq_dot_iff (c := c)
  | cons d root ih =>
    cases path with
    | nil => simp
    | cons c path =>
      have hrest := ih path
      by_cases hc : c = d
      · subst hc
        simpa [List.cons_lt_cons_iff] using hrest
      · -- Another first character puts the path on one side of both bounds.
        simp [List.cons_lt_cons_iff, hc, Ne.symm hc]

theorem isBelow_iff : isBelow root path = true ↔ (below root).contains path = true := by
  have hstart : root ++ "." ≤ path ↔ ¬ path.toList < root.toList ++ ['.'] := by
    rw [← not_lt, String.lt_iff_toList_lt]
    simp
  have hstop : path < root ++ "/" ↔ path.toList < root.toList ++ ['/'] := by
    rw [String.lt_iff_toList_lt]
    simp
  calc isBelow root path = true
      ↔ root.toList ++ ['.'] <+: path.toList := List.isPrefixOf_iff_prefix
    _ ↔ root ++ "." ≤ path ∧ path < root ++ "/" := by rw [dotted_isPrefix_iff, hstart, hstop]
    _ ↔ (below root).contains path = true := by simp [below, PathBounds.contains_iff]

theorem contains_subtree_iff :
    (subtree root).contains path = true ↔ path = root ∨ (below root).contains path = true := by
  rw [← isBelow_iff]
  simp [contains]

theorem contains_root (root : String) : (subtree root).contains root = true :=
  contains_subtree_iff.mpr (.inl rfl)

/-- The first path below a root. -/
theorem contains_below (root : String) : (below root).contains (root ++ ".") = true :=
  isBelow_iff.mp (List.isPrefixOf_iff_prefix.mpr (by simp))

theorem meetsSubtree_of_shared {b : PathBounds} (hb : b.contains path = true)
    (h : (subtree root).contains path = true) : meetsSubtree b root = true := by
  rw [meetsSubtree, Bool.or_eq_true]
  rcases contains_subtree_iff.mp h with rfl | hbelow
  · exact .inl hb
  · exact .inr (PathBounds.overlap_of_contains hb hbelow)

theorem exists_shared_of_meetsSubtree {b : PathBounds} (hb : ∃ path, b.contains path = true)
    (h : meetsSubtree b root = true) :
    ∃ path, b.contains path = true ∧ (subtree root).contains path = true := by
  rw [meetsSubtree, Bool.or_eq_true] at h
  rcases h with hroot | hoverlap
  · exact ⟨root, hroot, contains_root root⟩
  · obtain ⟨path, hpath, hbelow⟩ :=
      PathBounds.exists_shared hb ⟨_, contains_below root⟩ hoverlap
    exact ⟨path, hpath, contains_subtree_iff.mpr (.inr hbelow)⟩

/-- A root that is followed by a dot at the beginning of another root and a dot is that root or
above it. -/
theorem contains_of_dotted {root' : String}
    (h : root.toList ++ ['.'] <+: root'.toList ++ ['.']) :
    (subtree root).contains root' = true := by
  rw [contains_subtree_iff, ← isBelow_iff]
  rcases List.prefix_concat_iff.mp h with heq | hprefix
  · exact .inl (String.toList_inj.mp (List.append_cancel_right heq)).symm
  · exact .inr (List.isPrefixOf_iff_prefix.mpr hprefix)

/-- Of two subtrees with a common path one has the root of the other. -/
theorem contains_root_of_shared {root' : String} (h : (subtree root).contains path = true)
    (h' : (subtree root').contains path = true) :
    (subtree root).contains root' = true ∨ (subtree root').contains root = true := by
  rcases contains_subtree_iff.mp h with rfl | hbelow
  · exact .inr h'
  · rcases contains_subtree_iff.mp h' with rfl | hbelow'
    · exact .inl h
    · rw [← isBelow_iff] at hbelow hbelow'
      -- The path begins with both roots and their dots, so it begins with the longer of them.
      have hprefix : root.toList ++ ['.'] <+: path.toList := List.isPrefixOf_iff_prefix.mp hbelow
      have hprefix' : root'.toList ++ ['.'] <+: path.toList := List.isPrefixOf_iff_prefix.mp hbelow'
      rcases List.prefix_or_prefix_of_prefix hprefix hprefix' with hshort | hshort
      · exact .inl (contains_of_dotted hshort)
      · exact .inr (contains_of_dotted hshort)

/-! ## Ranges -/

theorem intersects_comm (a b : PathRange) : a.intersects b = b.intersects a := by
  cases a with
  | interval start stop =>
    cases b with
    | interval start' stop' => exact PathBounds.overlap_comm _ _
    | subtree root' => rfl
  | subtree root =>
    cases b with
    | interval start' stop' => rfl
    | subtree root' => exact Bool.or_comm _ _

theorem intersects_of_shared (ha : a.contains path = true) (hb : b.contains path = true) :
    a.intersects b = true := by
  cases a with
  | interval start stop =>
    cases b with
    | interval start' stop' => exact PathBounds.overlap_of_contains ha hb
    | subtree root' => exact meetsSubtree_of_shared ha hb
  | subtree root =>
    cases b with
    | interval start' stop' => exact meetsSubtree_of_shared hb ha
    | subtree root' => simpa [intersects] using contains_root_of_shared ha hb

theorem exists_shared (ha : ∃ path, a.contains path = true) (hb : ∃ path, b.contains path = true)
    (h : a.intersects b = true) : ∃ path, a.contains path = true ∧ b.contains path = true := by
  cases a with
  | interval start stop =>
    cases b with
    | interval start' stop' => exact PathBounds.exists_shared ha hb h
    | subtree root' => exact exists_shared_of_meetsSubtree ha h
  | subtree root =>
    cases b with
    | interval start' stop' =>
      obtain ⟨path, hpath, hroot⟩ := exists_shared_of_meetsSubtree hb h
      exact ⟨path, hroot, hpath⟩
    | subtree root' =>
      rcases Bool.or_eq_true_iff.mp h with hroot | hroot
      · exact ⟨root', hroot, contains_root root'⟩
      · exact ⟨root, contains_root root, hroot⟩

/-- Ranges of any kind with a common path intersect, whichever is asked first; of two ranges that
intersect, each of which has a path, there is a common one.  A range without paths, such as an
interval that ends before it starts, can be said to intersect another one. -/
theorem intersects_iff_shared (a b : PathRange) :
    ((∃ path, a.contains path = true ∧ b.contains path = true) →
      a.intersects b = true ∧ b.intersects a = true) ∧
    ((∃ path, a.contains path = true) → (∃ path, b.contains path = true) →
      a.intersects b = true → ∃ path, a.contains path = true ∧ b.contains path = true) ∧
    a.intersects b = b.intersects a := by
  refine ⟨?_, exists_shared, intersects_comm a b⟩
  rintro ⟨path, ha, hb⟩
  exact ⟨intersects_of_shared ha hb, intersects_of_shared hb ha⟩

/-- Intervals that begin between a root and the paths below it. -/
theorem intersects_iff_shared_sample :
    (interval (some "cpu-") (some "cpu.a")).intersects (subtree "cpu") = true ∧
    ∃ path, (subtree "cpu").contains path = true ∧
      (interval (some "cpu-a") none).contains path = true := by
  constructor
  · exact ((intersects_iff_shared _ _).1 ⟨"cpu.", by decide, by decide⟩).1
  · exact (intersects_iff_shared _ _).2.1 ⟨"cpu", by decide⟩ ⟨"cpu-a", by decide⟩ (by decide)

end PathRange
end SeriesExec
