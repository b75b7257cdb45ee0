import Mathlib.Data.List.Nodup
import SeriesExec.Store.Projection

/-!
# Layouts — what a read makes of stored batches

A read that succeeds shows one column for each path that a pattern matches, with type and tags of
the first column that was stored under the path, and the batches that have such a column, each of
them aligned.  This file defines:

* `Projection.IsLayout` — fields that stand for the matching series, one for each path;
* `Projection.Adding` — what becomes of the fields that are known when one more is added.

Main statements: the fields of a layout are of this form (`isLayout_of_layout`), and rows that are
read are the batches with a column of the layout, aligned (`rows_of_read`).
-/

namespace SeriesExec
namespace Projection

variable {patterns : List String} {batches : List Batch} {b : Batch} {f g : Field}
variable {known known' fields : List Field} {name : String} {c : Column}

/-- A field as a read shows it. -/
def shown (f : Field) : Field :=
  { f with nullable := true }

/-- The fields that a pattern matches, in the order of the batches. -/
def allMatching (patterns : List String) (batches : List Batch) : List Field :=
  batches.flatMap (matching patterns)

/-- Fields, no two of one name, that stand for `found`: of those with one name for the first. -/
structure IsLayout (found fields : List Field) : Prop where
  nodup : (fields.map Field.name).Nodup
  find? : ∀ name, (fields.find? fun g => g.name == name) =
    (found.find? fun f => f.name == name).map shown

/-! ## Collecting fields -/

theorem name_of_find? (h : (fields.find? fun g => g.name == name) = some f) : f.name = name := by
  have hname := List.find?_some h
  exact eq_of_beq hname

theorem exists_of_foldlM_cons {ε σ α : Type} {step : σ → α → Except ε σ} {a : α} {rest : List α}
    {s s' : σ} (h : (a :: rest).foldlM step s = .ok s') :
    ∃ t, step s a = .ok t ∧ rest.foldlM step t = .ok s' := by
  rw [List.foldlM_cons] at h
  cases hstep : step s a with
  | error e =>
    rw [hstep] at h
    cases h
  | ok t =>
    rw [hstep] at h
    exact ⟨t, rfl, h⟩

/-- What becomes of fields that are known when one more is added. -/
inductive Adding (known : List Field) (f : Field) : Except Error (List Field) → Prop where
  | new (hnew : ∀ g ∈ known, g.name ≠ f.name) : Adding known f (.ok (known ++ [shown f]))
  | old (g : Field) (hfind : (known.find? fun g => g.name == f.name) = some g)
      (htype : g.type = f.type) : Adding known f (.ok known)
  | clash (g : Field) (hfind : (known.find? fun g => g.name == f.name) = some g)
      (htype : g.type ≠ f.type) (e : Error) : Adding known f (.error e)

theorem adding (known : List Field) (f : Field) : Adding known f (addField known f) := by
  unfold addField
  cases hfind : known.find? fun g => g.name == f.name with
  | none =>
    exact .new fun g hg hname => List.find?_eq_none.mp hfind g hg (beq_iff_eq.mpr hname)
  | some g =>
    dsimp only
    split
    · rename_i htype
      exact .old g hfind htype
    · rename_i htype
      exact .clash g hfind htype _

theorem IsLayout.of_addField (h : IsLayout fields known) (hadd : addField known f = .ok known') :
    IsLayout (fields ++ [f]) known' := by
  have hadding := adding known f
  rw [hadd] at hadding
  cases hadding with
  | new hnew =>
    refine ⟨?_, fun name => ?_⟩
    · rw [List.map_append, List.nodup_append]
      refine ⟨h.nodup, List.nodup_singleton _, ?_⟩
      rintro _ hg _ hf rfl
      obtain ⟨g, hg, hname⟩ := List.mem_map.mp hg
      exact hnew g hg (hname.trans (List.mem_singleton.mp hf))
    · rw [List.find?_append, List.find?_append, h.find? name, Option.map_or]
      congr 1
      rw [List.find?_singleton, List.find?_singleton]
      change (if f.name == name then some (shown f) else none) = _
      split <;> rfl
  | old g hfind _ =>
    refine ⟨h.nodup, fun name => ?_⟩
    rw [h.find? name, List.find?_append, Option.map_or]
    by_cases hname : f.name = name
    · -- The name has been found before.
      subst hname
      rw [← h.find?, hfind]
      rfl
    · rw [List.find?_singleton, if_neg (by simpa using hname), Option.map_none, Option.or_none]

theorem IsLayout.of_foldlM (h : IsLayout fields known) {new : List Field}
    (hadd : new.foldlM addField known = .ok known') : IsLayout (fields ++ new) known' := by
  induction new generalizing fields known with
  | nil =>
    cases hadd
    rw [List.append_nil]
    exact h
  | cons f new ih =>
    obtain ⟨next, hnext, hrest⟩ := exists_of_foldlM_cons hadd
    rw [List.append_cons]
    exact ih (h.of_addField hnext) hrest

/-- The fields of a layout, if there is one. -/
def fieldsOf (l : Option Layout) : List Field :=
  l.elim [] Layout.series

theorem foldlM_of_addBatch {l l' : Option Layout} (h : addBatch patterns l b = .ok l') :
    (matching patterns b).foldlM addField (fieldsOf l) = .ok (fieldsOf l') := by
  unfold addBatch at h
  split at h
  · rename_i f rest first hmatching hfirst
    have hstart : (l.getD ⟨first.field, []⟩).series = fieldsOf l := by cases l <;> rfl
    rw [hmatching]
    dsimp only at h
    rw [hstart] at h
    cases hadd : (f :: rest).foldlM addField (fieldsOf l) with
    | error e =>
      rw [hadd] at h
      cases h
    | ok series =>
      rw [hadd] at h
      cases h
      rfl
  · rename_i hnone
    cases h
    cases hmatching : matching patterns b with
    | nil => rfl
    | cons f rest =>
      -- A batch with a matching series has a first column.
      cases hcolumns : b.columns with
      | nil =>
        rw [matching, hcolumns] at hmatching
        cases hmatching
      | cons first columns => exact (hnone f rest first hmatching (by rw [hcolumns]; rfl)).elim

theorem isLayout_of_foldlM {l l' : Option Layout} (h : IsLayout fields (fieldsOf l))
    (hadd : batches.foldlM (addBatch patterns) l = .ok l') :
    IsLayout (fields ++ allMatching patterns batches) (fieldsOf l') := by
  induction batches generalizing fields l with
  | nil =>
    cases hadd
    rw [allMatching, List.flatMap_nil, List.append_nil]
    exact h
  | cons b rest ih =>
    obtain ⟨next, hnext, hrest⟩ := exists_of_foldlM_cons hadd
    rw [allMatching, List.flatMap_cons, ← List.append_assoc]
    exact ih (h.of_foldlM (foldlM_of_addBatch hnext)) hrest

/-- The layout of a read has one field for each path that a pattern matches. -/
theorem isLayout_of_layout {l : Option Layout} (h : layout patterns batches = .ok l) :
    IsLayout (allMatching patterns batches) (fieldsOf l) := by
  have hnothing : IsLayout [] (fieldsOf none) := ⟨List.nodup_nil, fun _ => rfl⟩
  exact isLayout_of_foldlM hnothing h

/-! ## Fields of a layout -/

variable {found : List Field}

theorem IsLayout.eq_of_name (h : IsLayout found fields) (hf : f ∈ fields) (hg : g ∈ fields)
    (hname : f.name = g.name) : f = g :=
  List.inj_on_of_nodup_map h.nodup hf hg hname

/-- Each field of a layout shows a field that was found, the first of its name. -/
theorem IsLayout.exists_shown (h : IsLayout found fields) (hg : g ∈ fields) :
    ∃ f ∈ found, g = shown f := by
  have hsome : (fields.find? fun g' => g'.name == g.name).isSome :=
    List.find?_isSome.mpr ⟨g, hg, beq_self_eq_true _⟩
  obtain ⟨g', hg'⟩ := Option.isSome_iff_exists.mp hsome
  have hsame : g' = g := h.eq_of_name (List.mem_of_find?_eq_some hg') hg (name_of_find? hg')
  subst hsame
  rw [h.find?] at hg'
  obtain ⟨f, hf, rfl⟩ := Option.map_eq_some_iff.mp hg'
  exact ⟨f, List.mem_of_find?_eq_some hf, rfl⟩

/-- Each name that was found has a field in the layout. -/
theorem IsLayout.exists_mem (h : IsLayout found fields) (hf : f ∈ found) :
    ∃ g ∈ fields, g.name = f.name := by
  have hsome : (found.find? fun f' => f'.name == f.name).isSome :=
    List.find?_isSome.mpr ⟨f, hf, beq_self_eq_true _⟩
  have hshown : (fields.find? fun g => g.name == f.name).isSome := by
    rw [h.find?, Option.isSome_map]
    exact hsome
  obtain ⟨g, hg⟩ := Option.isSome_iff_exists.mp hshown
  exact ⟨g, List.mem_of_find?_eq_some hg, name_of_find? hg⟩

/-! ## Columns of a batch -/

theorem exists_of_position? {name : String} {i : Nat} (h : position? b name = some i) :
    ∃ c ∈ b.columns.drop 1, c.field.name = name ∧ b.column i = c.cells := by
  unfold position? at h
  split at h
  · rename_i i hfound
    cases h
    obtain ⟨hi, hname, -⟩ := List.findIdx?_eq_some_iff_getElem.mp hfound
    refine ⟨b.columns[i + 1], ?_, eq_of_beq hname, ?_⟩
    · exact List.mem_iff_getElem?.mpr ⟨i, by rw [List.getElem?_drop, Nat.add_comm,
        List.getElem?_eq_getElem hi]⟩
    · rw [Batch.column, List.getElem?_eq_getElem hi]
  · cases h

/-- A read takes the values of a column of that name, or there are none. -/
theorem cells_cases (b : Batch) (f : Field) :
    (∃ c ∈ b.columns.drop 1, c.field.name = f.name ∧ cells b f = c.cells) ∨
      position? b f.name = none ∧ cells b f = List.replicate b.rows none := by
  unfold cells
  cases hposition : position? b f.name with
  | none => exact .inr ⟨rfl, rfl⟩
  | some i => exact .inl (exists_of_position? hposition)

theorem cells_congr (b : Batch) {f g : Field} (h : f.name = g.name) : cells b f = cells b g := by
  rw [cells, cells, h]

/-- Only a series that is named as the key is not found by its name. -/
theorem name_of_position?_eq_none (hb : Store.hasKey b = true) (hc : c ∈ b.columns.drop 1)
    (h : position? b c.field.name = none) : c.field.name = keyName := by
  unfold position? at h
  cases hfound : b.columns.findIdx? fun c' => c'.field.name == c.field.name with
  | none =>
    have hne := List.findIdx?_eq_none_iff.mp hfound c (List.mem_of_mem_drop hc)
    exact absurd (beq_self_eq_true _) (Bool.eq_false_iff.mp hne)
  | some i =>
    cases i with
    | succ i =>
      rw [hfound] at h
      cases h
    | zero =>
      -- The first column has the name, and it is the key.
      obtain ⟨hlt, hname, -⟩ := List.findIdx?_eq_some_iff_getElem.mp hfound
      rw [Store.hasKey, List.head?_eq_getElem?, List.getElem?_eq_getElem hlt] at hb
      exact (eq_of_beq hname).symm.trans (Option.some.inj (eq_of_beq hb))

theorem position?_keyName (hb : Store.hasKey b = true) : position? b keyName = none := by
  cases hcolumns : b.columns with
  | nil =>
    rw [Store.hasKey, hcolumns] at hb
    cases hb
  | cons first rest =>
    rw [Store.hasKey, hcolumns] at hb
    have hfirst : (first.field.name == keyName) = true :=
      beq_iff_eq.mpr (Option.some.inj (eq_of_beq hb))
    rw [position?, hcolumns, List.findIdx?_cons, hfirst]
    rfl

/-! ## Reading -/

theorem alignAll_eq {l : Layout} {bs : { bs : List Batch // ∀ b ∈ bs, b.schema = schema l }}
    (h : alignAll l batches = .ok bs) : bs.1 = batches.map (align l) := by
  induction batches generalizing bs with
  | nil =>
    cases h
    rfl
  | cons b rest ih =>
    rw [alignAll] at h
    split at h
    · cases h
    · cases h
    · rename_i bs' _ hrest
      cases h
      exact congrArg (align l b :: ·) (ih hrest)

/-- What a read shows: the batches with a column of the layout, aligned. -/
theorem rows_of_read {rows : RowStream} (h : read patterns batches = .ok rows) :
    ∃ l : Layout, IsLayout (allMatching patterns batches) l.series ∧ rows.schema = schema l ∧
      rows.batches = (batches.filter (isTouched l)).map (align l) := by
  unfold read at h
  split at h
  · cases h
  · -- Nothing matches, so the layout has the key alone, and no batch has a column of it.
    rename_i hlayout
    cases h
    refine ⟨⟨emptyKey, []⟩, isLayout_of_layout hlayout, rfl, ?_⟩
    have hnone : batches.filter (isTouched ⟨emptyKey, []⟩) = [] :=
      List.filter_eq_nil_iff.mpr fun b _ => Bool.false_ne_true
    rw [hnone]
    rfl
  · rename_i l hlayout
    refine ⟨l, isLayout_of_layout hlayout, ?_⟩
    cases hall : alignAll l (batches.filter (isTouched l)) with
    | error e =>
      rw [hall] at h
      cases h
    | ok bs =>
      rw [hall] at h
      cases h
      exact ⟨rfl, alignAll_eq hall⟩

end Projection
end SeriesExec
