import Mathlib.Data.List.Forall2
import SeriesExec.Proofs.Layouts

/-!
# Alignment — which reads succeed, and what they show

A read goes through the batches twice: once to collect the matching series, and once to put the
batches side by side.  Both times only the batches count that have a matching series.  This file
defines:

* `Projection.matched` — the batches with a matching series;
* `Projection.Keyed` — a batch whose key has its name to itself;
* `Projection.firsts` — of the fields of each name the first;
* `Projection.Unreadable` — three reasons why batches cannot be read together;
* `Projection.Aligned` — what becomes of a batch that is read.

Main statements: a read fails for one of the three reasons and for no other, and does not depend on
batches without a matching series (`read_fails_iff`); a read that succeeds shows the batches with a
matching series, in their order and with all their rows (`rows_aligned`).
-/

namespace SeriesExec
namespace Projection

variable {patterns : List String} {bs : List Batch} {b first : Batch} {rest : List Batch}
variable {f : Field} {fields known known' : List Field} {l : Layout} {rows : RowStream}

/-- Whether a pattern matches a series of the batch. -/
def isMatched (patterns : List String) (b : Batch) : Bool :=
  !(matching patterns b).isEmpty

/-- The batches with a matching series. -/
def matched (patterns : List String) (bs : List Batch) : List Batch :=
  bs.filter (isMatched patterns)

/-- A batch that starts with the key, and has no series of that name. -/
structure Keyed (b : Batch) : Prop where
  key : Store.hasKey b = true
  series : ∀ c ∈ b.columns.drop 1, c.field.name ≠ keyName

/-- Of the fields of each name the first. -/
def firsts : List Field → List Field
  | [] => []
  | f :: rest => f :: (firsts rest).filter fun g => g.name != f.name

/-- Fields of one name have one type. -/
def SameTypes (fields : List Field) : Prop :=
  ∀ f ∈ fields, ∀ g ∈ fields, f.name = g.name → f.type = g.type

/-! ## Collecting fields -/

/-- Which types there are under which names is all that matters. -/
theorem sameTypes_congr {fields fields' : List Field}
    (h : ∀ name type, (∃ f ∈ fields, f.name = name ∧ f.type = type) ↔
      ∃ f ∈ fields', f.name = name ∧ f.type = type) : SameTypes fields ↔ SameTypes fields' := by
  have hone : ∀ {as bs : List Field}, (∀ name type, (∃ f ∈ bs, f.name = name ∧ f.type = type) →
      ∃ f ∈ as, f.name = name ∧ f.type = type) → SameTypes as → SameTypes bs := by
    intro as bs hsub has f hf g hg hname
    obtain ⟨f', hf', hfname, hftype⟩ := hsub _ _ ⟨f, hf, rfl, rfl⟩
    obtain ⟨g', hg', hgname, hgtype⟩ := hsub _ _ ⟨g, hg, rfl, rfl⟩
    rw [← hftype, ← hgtype]
    exact has f' hf' g' hg' (hfname.trans (hname.trans hgname.symm))
  exact ⟨hone fun name type => (h name type).mpr, hone fun name type => (h name type).mp⟩

/-- Fields can be collected exactly if each name has one type. -/
theorem exists_foldlM_addField_iff (hknown : SameTypes known) :
    (∃ known', fields.foldlM addField known = .ok known') ↔ SameTypes (known ++ fields) := by
  induction fields generalizing known with
  | nil => exact ⟨fun _ => (List.append_nil known).symm ▸ hknown, fun _ => ⟨known, rfl⟩⟩
  | cons f rest ih =>
    rw [List.foldlM_cons]
    have hadding := adding known f
    generalize addField known f = added at hadding ⊢
    cases hadding with
    | new hnew =>
      have hmore : SameTypes (known ++ [shown f]) := by
        intro g hg g' hg' hname
        rcases List.mem_append.mp hg with hg | hg <;> rcases List.mem_append.mp hg' with hg' | hg'
        · exact hknown g hg g' hg' hname
        · obtain rfl := List.mem_singleton.mp hg'
          exact absurd hname (hnew g hg)
        · obtain rfl := List.mem_singleton.mp hg
          exact absurd hname.symm (hnew g' hg')
        · rw [List.mem_singleton.mp hg, List.mem_singleton.mp hg']
      refine (ih hmore).trans (sameTypes_congr fun name type => ?_)
      simp [shown, or_and_right, exists_or]
    | old g hfind htype =>
      refine (ih hknown).trans (sameTypes_congr fun name type => ?_)
      -- The field brings nothing that is not known.
      simp only [List.mem_append, List.mem_cons]
      constructor
      · rintro ⟨g', hg' | hg', h⟩
        · exact ⟨g', .inl hg', h⟩
        · exact ⟨g', .inr (.inr hg'), h⟩
      · rintro ⟨g', hg' | rfl | hg', h⟩
        · exact ⟨g', .inl hg', h⟩
        · exact ⟨g, .inl (List.mem_of_find?_eq_some hfind), (name_of_find? hfind).trans h.1,
            htype.trans h.2⟩
        · exact ⟨g', .inr hg', h⟩
    | clash g hfind htype e =>
      refine iff_of_false (fun ⟨_, h⟩ => nomatch h) fun h => ?_
      exact absurd (h g (List.mem_append_left _ (List.mem_of_find?_eq_some hfind)) f
        (List.mem_append_right _ List.mem_cons_self) (name_of_find? hfind)) htype

/-- What is collected: the first field of each name that is new. -/
theorem eq_of_foldlM_addField (h : fields.foldlM addField known = .ok known') :
    known' = known ++
      ((firsts fields).filter fun f => known.all fun g => g.name != f.name).map shown := by
  induction fields generalizing known with
  | nil =>
    cases h
    exact (List.append_nil _).symm
  | cons f rest ih =>
    obtain ⟨next, hnext, hrest⟩ := exists_of_foldlM_cons h
    rw [ih hrest, firsts, List.filter_cons, List.filter_filter]
    have hadding := adding known f
    rw [hnext] at hadding
    cases hadding with
    | new hnew =>
      have hall : (known.all fun g => g.name != f.name) = true :=
        List.all_eq_true.mpr fun g hg => bne_iff_ne.mpr (hnew g hg)
      rw [if_pos hall, List.map_cons, List.append_assoc]
      have hmore : ∀ g : Field, ((known ++ [shown f]).all fun g' => g'.name != g.name) =
          ((known.all fun g' => g'.name != g.name) && g.name != f.name) := fun g => by
        rw [List.all_append, List.all_cons, List.all_nil, Bool.and_true, bne_comm (b := g.name)]
        rfl
      exact congrArg (fun l => known ++ shown f :: List.map shown l)
        (List.filter_congr fun g _ => hmore g)
    | old g hfind _ =>
      have hg : g ∈ known := List.mem_of_find?_eq_some hfind
      have hname : g.name = f.name := name_of_find? hfind
      have hold : (known.all fun g => g.name != f.name) = false :=
        List.all_eq_false.mpr ⟨g, hg, by simp [hname]⟩
      rw [if_neg (by simp [hold])]
      -- A field whose name is new has another name than the one that is known.
      refine congrArg (fun l => known ++ List.map shown l) (List.filter_congr fun g' _ => ?_)
      cases hnew : known.all fun g => g.name != g'.name with
      | false => rfl
      | true =>
        have hne := bne_iff_ne.mp (List.all_eq_true.mp hnew g hg)
        exact (bne_iff_ne.mpr (hname ▸ hne.symm)).symm

/-! ## The layout of matched batches -/

theorem mem_matched : b ∈ matched patterns bs ↔ b ∈ bs ∧ matching patterns b ≠ [] := by
  rw [matched, List.mem_filter, isMatched, Bool.not_eq_true', List.isEmpty_eq_false_iff]

theorem matched_matched : matched patterns (matched patterns bs) = matched patterns bs :=
  List.filter_eq_self.mpr fun _ hb => (List.mem_filter.mp hb).2

theorem allMatching_matched : allMatching patterns (matched patterns bs) =
    allMatching patterns bs := by
  induction bs with
  | nil => rfl
  | cons b rest ih =>
    rw [matched, List.filter_cons, isMatched]
    cases hb : matching patterns b with
    | nil =>
      rw [allMatching, allMatching, List.flatMap_cons, hb]
      exact ih
    | cons f fs =>
      rw [allMatching, allMatching, List.flatMap_cons, hb]
      exact (List.flatMap_cons ..).trans (hb.symm ▸ congrArg (f :: fs ++ ·) ih)

theorem addBatch_some (patterns : List String) (l : Layout) (b : Batch) :
    addBatch patterns (some l) b = ((matching patterns b).foldlM addField l.series).map
      fun series => some { l with series := series } := by
  unfold addBatch
  split
  · rename_i f fs first hmatching hfirst
    rw [hmatching]
    rfl
  · rename_i hnone
    cases hmatching : matching patterns b with
    | nil => rfl
    | cons f fs =>
      cases hcolumns : b.columns with
      | nil =>
        rw [matching, hcolumns] at hmatching
        cases hmatching
      | cons first columns => exact (hnone f fs first hmatching (by rw [hcolumns]; rfl)).elim

theorem foldlM_addBatch_some (patterns : List String) (bs : List Batch) (l : Layout) :
    bs.foldlM (addBatch patterns) (some l) =
      ((allMatching patterns bs).foldlM addField l.series).map
        fun series => some { l with series := series } := by
  induction bs generalizing l with
  | nil => rfl
  | cons b rest ih =>
    rw [List.foldlM_cons, addBatch_some, allMatching, List.flatMap_cons, List.foldlM_append]
    cases (matching patterns b).foldlM addField l.series with
    | error e => rfl
    | ok series => exact ih { l with series := series }

theorem layout_of_unmatched (h : matched patterns bs = []) : layout patterns bs = .ok none := by
  induction bs with
  | nil => rfl
  | cons b rest ih =>
    rw [matched, List.filter_eq_nil_iff] at h
    have hb : matching patterns b = [] := by
      simpa [isMatched] using h b List.mem_cons_self
    rw [layout, List.foldlM_cons, addBatch, hb]
    exact ih (List.filter_eq_nil_iff.mpr fun b' hb' => h b' (List.mem_cons_of_mem _ hb'))

/-- The first batch with a matching series gives the key, and all of them give the series. -/
theorem layout_of_matched {key : Field} (h : matched patterns bs = first :: rest)
    (hkey : first.schema.head? = some key) :
    layout patterns bs = ((allMatching patterns bs).foldlM addField []).map
      fun series => some ⟨key, series⟩ := by
  induction bs with
  | nil => cases h
  | cons b bs ih =>
    rw [matched, List.filter_cons] at h
    rw [layout, List.foldlM_cons, allMatching, List.flatMap_cons]
    cases hb : matching patterns b with
    | nil =>
      rw [if_neg (by simp [isMatched, hb])] at h
      rw [addBatch, hb]
      exact ih h
    | cons f fs =>
      rw [if_pos (by simp [isMatched, hb])] at h
      obtain ⟨rfl, -⟩ := List.cons.inj h
      rw [Batch.schema, List.head?_map] at hkey
      obtain ⟨column, hcolumn, rfl⟩ := Option.map_eq_some_iff.mp hkey
      rw [addBatch, hb, hcolumn, List.foldlM_append]
      change ((f :: fs).foldlM addField []).map _ >>= _ = _
      cases (f :: fs).foldlM addField [] with
      | error e => rfl
      | ok series => exact foldlM_addBatch_some patterns bs ⟨column.field, series⟩

/-- A batch with a matching series has a first column. -/
theorem exists_key (hb : b ∈ matched patterns bs) : ∃ key, b.schema.head? = some key := by
  have hne := (mem_matched.mp hb).2
  cases hcolumns : b.columns with
  | nil =>
    rw [matching, hcolumns] at hne
    exact absurd rfl hne
  | cons c cs => exact ⟨c.field, by rw [Batch.schema, hcolumns]; rfl⟩

/-! ## Batches that fit -/

/-- A read touches the batches with a matching series. -/
theorem isTouched_eq (hl : IsLayout (allMatching patterns bs) l.series) (hb : b ∈ bs)
    (hkeyed : Keyed b) : isTouched l b = isMatched patterns b := by
  rw [Bool.eq_iff_iff, isTouched, List.any_eq_true, isMatched, Bool.not_eq_true',
    List.isEmpty_eq_false_iff_exists_mem]
  constructor
  · rintro ⟨f, hf, hposition⟩
    obtain ⟨i, hi⟩ := Option.isSome_iff_exists.mp hposition
    obtain ⟨c, hc, hname, -⟩ := exists_of_position? hi
    obtain ⟨g, hg, rfl⟩ := hl.exists_shown hf
    obtain ⟨b', -, hg⟩ := List.mem_flatMap.mp hg
    -- The column has the name of a series that matches, so it matches too.
    refine ⟨c.field, List.mem_filter.mpr ⟨List.mem_map_of_mem hc, ?_⟩⟩
    rw [hname]
    exact (List.mem_filter.mp hg).2
  · rintro ⟨f, hf⟩
    obtain ⟨g, hg, hname⟩ := hl.exists_mem (List.mem_flatMap.mpr ⟨b, hb, hf⟩)
    obtain ⟨c, hc, rfl⟩ := List.mem_map.mp (List.mem_filter.mp hf).1
    refine ⟨g, hg, Option.isSome_iff_ne_none.mpr fun hnone => ?_⟩
    rw [hname] at hnone
    exact hkeyed.series c hc (name_of_position?_eq_none hkeyed.key hc hnone)

theorem filter_isTouched (hl : IsLayout (allMatching patterns bs) l.series)
    (hkeyed : ∀ b ∈ bs, Keyed b) : bs.filter (isTouched l) = matched patterns bs :=
  List.filter_congr fun b hb => isTouched_eq hl hb (hkeyed b hb)

theorem wrongType?_eq_none_iff {n : Nat} {types : List ColumnType} :
    wrongType? n fields types = none ↔ ∀ p ∈ fields.zip types, p.1.type = p.2 := by
  induction fields generalizing n types with
  | nil => simp [wrongType?]
  | cons f fields ih =>
    cases types with
    | nil => simp [wrongType?]
    | cons t types =>
      rw [wrongType?, List.zip_cons_cons, List.forall_mem_cons]
      by_cases h : f.type = t
      · rw [if_pos h, ih]
        exact (and_iff_right h).symm
      · rw [if_neg h]
        exact iff_of_false (fun hsome => nomatch hsome) fun hall => h hall.1

/-- The values that a read takes for a series have the type of the series. -/
theorem cellType_eq (hl : IsLayout (allMatching patterns bs) l.series)
    (htypes : SameTypes (allMatching patterns bs)) (hb : b ∈ bs) (hf : f ∈ l.series) :
    cellType b f = f.type := by
  unfold cellType
  split
  · rename_i i hi
    obtain ⟨f₀, hf₀, rfl⟩ := hl.exists_shown hf
    obtain ⟨b₀, -, hmatching⟩ := List.mem_flatMap.mp hf₀
    unfold position? at hi
    split at hi
    · rename_i j hfound
      cases hi
      obtain ⟨hlt, hname, -⟩ := List.findIdx?_eq_some_iff_getElem.mp hfound
      have hname : b.columns[j + 1].field.name = f₀.name := eq_of_beq hname
      have hmem : b.columns[j + 1] ∈ b.columns.drop 1 := List.mem_iff_getElem?.mpr
        ⟨j, by rw [List.getElem?_drop, Nat.add_comm, List.getElem?_eq_getElem hlt]⟩
      have hall : b.columns[j + 1].field ∈ allMatching patterns bs :=
        List.mem_flatMap.mpr ⟨b, hb, List.mem_filter.mpr
          ⟨List.mem_map_of_mem hmem, hname ▸ (List.mem_filter.mp hmatching).2⟩⟩
      rw [List.getElem?_eq_getElem hlt]
      exact htypes _ hall f₀ hf₀ hname
    · cases hi
  · rfl

/-- A batch fits if its key does: series may have missing values, and have the types they should
have. -/
theorem misfit_eq_none_iff (hl : IsLayout (allMatching patterns bs) l.series)
    (htypes : SameTypes (allMatching patterns bs)) (hb : b ∈ bs)
    (hkey : b.schema.head? = some f) :
    misfit l b = none ↔ ¬(l.key.nullable = false ∧ none ∈ b.column 0) ∧ f.type = l.key.type := by
  have hnulls : ((align l b).columns.find? fun c => !c.field.nullable && c.cells.contains none) =
      if l.key.nullable = false ∧ none ∈ b.column 0 then some ⟨l.key, b.column 0⟩ else none := by
    have hseries : ((l.series.map fun f => (⟨f, cells b f⟩ : Column)).find?
        fun c => !c.field.nullable && c.cells.contains none) = none := by
      refine List.find?_eq_none.mpr fun c hc => ?_
      obtain ⟨f, hf, rfl⟩ := List.mem_map.mp hc
      obtain ⟨f₀, -, rfl⟩ := hl.exists_shown hf
      exact Bool.false_ne_true
    rw [align, List.find?_cons, hseries]
    cases hnullable : l.key.nullable <;> cases hmem : (b.column 0).contains none <;>
      simp_all
  have hfound : wrongType? 0 (l.key :: l.series) (foundTypes l b) = none ↔
      f.type = l.key.type := by
    rw [Batch.schema, List.head?_map] at hkey
    obtain ⟨column, hcolumn, rfl⟩ := Option.map_eq_some_iff.mp hkey
    rw [wrongType?_eq_none_iff, foundTypes, hcolumn, List.zip_cons_cons, List.forall_mem_cons]
    refine ⟨fun h => h.1.symm, fun h => ⟨h.symm, ?_⟩⟩
    rw [List.zip_map_right, List.forall_mem_map, List.zip_eq_zipWith, List.zipWith_self,
      List.forall_mem_map]
    exact fun g hg => (cellType_eq hl htypes hb hg).symm
  rw [misfit, hnulls]
  by_cases h : l.key.nullable = false ∧ none ∈ b.column 0
  · rw [if_pos h]
    exact iff_of_false (Option.some_ne_none _) fun hfits => hfits.1 h
  · rw [if_neg h]
    exact hfound.trans (and_iff_right h).symm

theorem alignAll_fails_iff :
    (∃ e, alignAll l bs = .error e) ↔ ∃ b ∈ bs, misfit l b ≠ none := by
  induction bs with
  | nil =>
    constructor
    · rintro ⟨e, h⟩
      cases h
    · rintro ⟨b, hb, -⟩
      cases hb
  | cons b rest ih =>
    rw [alignAll, List.exists_mem_cons_iff, ← ih]
    cases misfit l b with
    | some f => exact iff_of_true ⟨_, rfl⟩ (.inl (Option.some_ne_none f))
    | none =>
      cases alignAll l rest with
      | error e => exact iff_of_true ⟨e, rfl⟩ (.inr ⟨e, rfl⟩)
      | ok aligned =>
        constructor
        · rintro ⟨e, h⟩
          cases h
        · rintro (h | ⟨e, h⟩)
          · exact absurd rfl h
          · cases h

/-! ## Reading -/

theorem layout_matched (patterns : List String) (bs : List Batch) :
    layout patterns (matched patterns bs) = layout patterns bs := by
  cases h : matched patterns bs with
  | nil => rw [layout_of_unmatched h]; rfl
  | cons first rest =>
    obtain ⟨key, hkey⟩ := exists_key (h ▸ List.mem_cons_self : first ∈ matched patterns bs)
    rw [layout_of_matched h hkey, ← h, layout_of_matched (matched_matched.trans h) hkey,
      allMatching_matched]

theorem read_of_layout (hkeyed : ∀ b ∈ bs, Keyed b) (h : layout patterns bs = .ok (some l)) :
    read patterns bs =
      (alignAll l (matched patterns bs)).map fun aligned => ⟨schema l, aligned.1, aligned.2⟩ := by
  rw [read, h]
  dsimp only
  rw [filter_isTouched (isLayout_of_layout h) hkeyed]

theorem read_matched (hkeyed : ∀ b ∈ bs, Keyed b) :
    read patterns bs = read patterns (matched patterns bs) := by
  cases h : layout patterns bs with
  | error e => rw [read, read, layout_matched, h]
  | ok l? =>
    cases l? with
    | none => rw [read, read, layout_matched, h]
    | some l =>
      have hsub : ∀ b ∈ matched patterns bs, Keyed b := fun b hb =>
        hkeyed b (mem_matched.mp hb).1
      rw [read_of_layout hkeyed h, read_of_layout hsub ((layout_matched patterns bs).trans h),
        matched_matched]

/-- Why batches cannot be read together.  The key of the first batch with a matching series is the
key of all rows that are read. -/
inductive Unreadable (patterns : List String) (bs : List Batch) : Prop where
  /-- Two matching series of one name have different types. -/
  | seriesTypes {f g : Field} (hf : f ∈ allMatching patterns bs)
      (hg : g ∈ allMatching patterns bs) (hname : f.name = g.name) (htype : f.type ≠ g.type)
  /-- The key of a batch with a matching series has another type. -/
  | keyTypes {first b : Batch} {key own : Field}
      (hfirst : (matched patterns bs).head? = some first)
      (hkey : first.schema.head? = some key) (hb : b ∈ matched patterns bs)
      (hown : b.schema.head? = some own) (htype : own.type ≠ key.type)
  /-- The key may not be missing, and is missing in a batch with a matching series. -/
  | missingKey {first b : Batch} {key : Field}
      (hfirst : (matched patterns bs).head? = some first)
      (hkey : first.schema.head? = some key) (hnullable : key.nullable = false)
      (hb : b ∈ matched patterns bs) (hcell : none ∈ b.column 0)

theorem not_unreadable_of_unmatched (h : matched patterns bs = []) : ¬Unreadable patterns bs := by
  intro hun
  cases hun with
  | seriesTypes hf _ _ _ =>
    rw [← allMatching_matched, h] at hf
    cases hf
  | keyTypes hfirst _ _ _ _ =>
    rw [h] at hfirst
    cases hfirst
  | missingKey hfirst _ _ _ _ =>
    rw [h] at hfirst
    cases hfirst

/-- With one type for each name, batches can be read together exactly if all of them fit. -/
theorem unreadable_iff {key : Field} (h : (matched patterns bs).head? = some first)
    (hkey : first.schema.head? = some key) (htypes : SameTypes (allMatching patterns bs))
    (hl : IsLayout (allMatching patterns bs) l.series) (hlkey : l.key = key) :
    Unreadable patterns bs ↔ ∃ b ∈ matched patterns bs, misfit l b ≠ none := by
  have hfits : ∀ b ∈ matched patterns bs, ∀ own, b.schema.head? = some own →
      (misfit l b = none ↔
        ¬(key.nullable = false ∧ none ∈ b.column 0) ∧ own.type = key.type) := fun b hb own hown =>
    hlkey ▸ misfit_eq_none_iff hl htypes (mem_matched.mp hb).1 hown
  constructor
  · intro hun
    cases hun with
    | seriesTypes hf hg hname htype => exact absurd (htypes _ hf _ hg hname) htype
    | @keyTypes first' b key' own hfirst hkey' hb hown htype =>
      obtain rfl : first = first' := Option.some.inj (h.symm.trans hfirst)
      obtain rfl : key = key' := Option.some.inj (hkey.symm.trans hkey')
      exact ⟨b, hb, fun hnone => htype ((hfits b hb own hown).mp hnone).2⟩
    | @missingKey first' b key' hfirst hkey' hnullable hb hcell =>
      obtain rfl : first = first' := Option.some.inj (h.symm.trans hfirst)
      obtain rfl : key = key' := Option.some.inj (hkey.symm.trans hkey')
      obtain ⟨own, hown⟩ := exists_key hb
      exact ⟨b, hb, fun hnone => ((hfits b hb own hown).mp hnone).1 ⟨hnullable, hcell⟩⟩
  · rintro ⟨b, hb, hmisfit⟩
    obtain ⟨own, hown⟩ := exists_key hb
    by_cases hcell : key.nullable = false ∧ none ∈ b.column 0
    · exact .missingKey h hkey hcell.1 hb hcell.2
    · exact .keyTypes h hkey hb hown fun htype =>
        hmisfit ((hfits b hb own hown).mpr ⟨hcell, htype⟩)

/-- A read of batches that start with the key fails exactly if two matching series of one name have
different types, if a key has another type than the first one, or if a key is missing where the
first one may not be; and it is a read of the batches with a matching series, so that no other
batch makes a difference. -/
theorem read_fails_iff (hkeyed : ∀ b ∈ bs, Keyed b) :
    ((∃ e, read patterns bs = .error e) ↔ Unreadable patterns bs) ∧
      read patterns bs = read patterns (matched patterns bs) := by
  refine ⟨?_, read_matched hkeyed⟩
  cases h : matched patterns bs with
  | nil =>
    rw [read, layout_of_unmatched h]
    exact iff_of_false (fun ⟨_, hread⟩ => nomatch hread) (not_unreadable_of_unmatched h)
  | cons first rest =>
    have hfirst : (matched patterns bs).head? = some first := h ▸ rfl
    obtain ⟨key, hkey⟩ := exists_key (h ▸ List.mem_cons_self : first ∈ matched patterns bs)
    have hlayout := layout_of_matched h hkey
    have hnothing : SameTypes [] := fun f hf => nomatch hf
    cases hfold : (allMatching patterns bs).foldlM addField [] with
    | error e =>
      have htypes : ¬SameTypes (allMatching patterns bs) := fun htypes => by
        obtain ⟨series, hok⟩ := (exists_foldlM_addField_iff hnothing).mpr htypes
        exact nomatch hfold.symm.trans hok
      rw [hfold] at hlayout
      refine iff_of_true ⟨e, by rw [read, hlayout]; rfl⟩ ?_
      simp only [SameTypes, not_forall] at htypes
      obtain ⟨f, hf, g, hg, hname, htype⟩ := htypes
      exact .seriesTypes hf hg hname htype
    | ok series =>
      have htypes : SameTypes (allMatching patterns bs) :=
        (exists_foldlM_addField_iff hnothing).mp ⟨series, hfold⟩
      rw [hfold] at hlayout
      have hl : layout patterns bs = .ok (some ⟨key, series⟩) := hlayout
      rw [read_of_layout hkeyed hl,
        unreadable_iff (l := ⟨key, series⟩) hfirst hkey htypes (isLayout_of_layout hl) rfl]
      rw [← alignAll_fails_iff]
      cases alignAll ⟨key, series⟩ (matched patterns bs) with
      | error e => exact iff_of_true ⟨e, rfl⟩ ⟨e, rfl⟩
      | ok aligned => exact iff_of_false (fun ⟨_, h⟩ => nomatch h) fun ⟨_, h⟩ => nomatch h

/-- Two batches that can be read together, and between them one whose key is a text. -/
def mixedBatches : List Batch :=
  [⟨[⟨⟨keyName, .int64, false, Tags.empty⟩, [some (.int 1), some (.int 2)]⟩,
      ⟨⟨"cpu", .int64, false, Tags.ofList [("host", "a")]⟩, [some (.int 7), some (.int 8)]⟩], 2,
      by decide⟩,
    ⟨[⟨⟨keyName, .utf8, true, Tags.empty⟩, [none]⟩,
      ⟨⟨"mem", .float64, true, Tags.empty⟩, [none]⟩], 1, by decide⟩,
    ⟨[⟨⟨keyName, .int64, true, Tags.empty⟩, [some (.int 3)]⟩,
      ⟨⟨"disk.free", .utf8, true, Tags.empty⟩, [some (.text "full")]⟩,
      ⟨⟨"cpu", .int64, true, Tags.empty⟩, [none]⟩], 1, by decide⟩]

theorem keyed_mixedBatches : ∀ b ∈ mixedBatches, Keyed b := by
  have hall : ∀ b ∈ mixedBatches,
      Store.hasKey b = true ∧ ∀ c ∈ b.columns.drop 1, c.field.name ≠ keyName := by decide
  exact fun b hb => ⟨(hall b hb).1, (hall b hb).2⟩

theorem read_fails_iff_sample : (∃ e, read ["*"] mixedBatches = .error e) ∧
    ¬Unreadable ["cpu", "disk.*"] mixedBatches := by
  refine ⟨(read_fails_iff keyed_mixedBatches).1.mpr ?_, fun hun => ?_⟩
  · have hfirst : (matched ["*"] mixedBatches).head? = some mixedBatches[0] := rfl
    have hb : mixedBatches[1] ∈ matched ["*"] mixedBatches :=
      List.mem_filter.mpr ⟨List.getElem_mem _, rfl⟩
    exact .keyTypes hfirst rfl hb rfl (by decide)
  · obtain ⟨e, he⟩ := (read_fails_iff keyed_mixedBatches).1.mpr hun
    cases he

/-- What a read makes of a batch with a matching series: a batch of the key and the series, with the
same rows, the keys that the batch has, and for each series the values of the first column of its
name, or none. -/
structure Aligned (key : Field) (series : List Field) (b b' : Batch) : Prop where
  schema : b'.schema = key :: series.map shown
  rows : b'.rows = b.rows
  keys : b'.column 0 = b.column 0
  series : ∀ j f, series[j]? = some f → b'.column (j + 1) =
    ((b.columns.find? fun c => c.field.name == f.name).map Column.cells).getD
      (List.replicate b.rows none)

/-- The values of a series are those of the first column of its name. -/
theorem cells_eq (hb : Store.hasKey b = true) (hname : f.name ≠ keyName) :
    cells b f = ((b.columns.find? fun c => c.field.name == f.name).map Column.cells).getD
      (List.replicate b.rows none) := by
  unfold cells position?
  cases hfound : b.columns.findIdx? fun c => c.field.name == f.name with
  | none =>
    have hnone := List.find?_eq_none.mpr fun c hc =>
      Bool.eq_false_iff.mp (List.findIdx?_eq_none_iff.mp hfound c hc)
    rw [hnone]
    rfl
  | some i =>
    obtain ⟨hlt, hi, hbefore⟩ := List.findIdx?_eq_some_iff_getElem.mp hfound
    cases i with
    | zero =>
      -- The first column is the key.
      rw [Store.hasKey, List.head?_eq_getElem?, List.getElem?_eq_getElem hlt] at hb
      exact absurd ((eq_of_beq hi).symm.trans (Option.some.inj (eq_of_beq hb))) hname
    | succ i =>
      have hsome : (b.columns.find? fun c => c.field.name == f.name) = some b.columns[i + 1] :=
        List.find?_eq_some_iff_getElem.mpr ⟨hi, i + 1, hlt, rfl, fun j hj => by
          simpa using hbefore j hj⟩
      rw [hsome]
      simp only [Batch.column, List.getElem?_eq_getElem hlt]
      rfl

/-- A matching series of batches that start with the key is not named as the key. -/
theorem name_ne_keyName (hkeyed : ∀ b ∈ bs, Keyed b) (hf : f ∈ allMatching patterns bs) :
    f.name ≠ keyName := by
  obtain ⟨b, hb, hf⟩ := List.mem_flatMap.mp hf
  obtain ⟨c, hc, rfl⟩ := List.mem_map.mp (List.mem_filter.mp hf).1
  exact (hkeyed b hb).series c hc

theorem aligned_align {key : Field} (hb : Store.hasKey b = true)
    (hnames : ∀ f ∈ fields, f.name ≠ keyName) :
    Aligned key fields b (align ⟨key, fields.map shown⟩ b) := by
  refine ⟨schema_align _ b, rfl, rfl, fun j f hf => ?_⟩
  rw [← cells_eq hb (hnames f (List.mem_of_getElem? hf)), Batch.column]
  simp only [align, List.getElem?_cons_succ, List.map_map, List.getElem?_map, hf, Option.map_some]
  exact cells_congr b rfl

theorem firsts_subset (fields : List Field) : firsts fields ⊆ fields := by
  induction fields with
  | nil => exact List.Subset.refl _
  | cons f rest ih =>
    exact List.cons_subset_cons f fun g hg => ih (List.mem_filter.mp hg).1

/-- A read of batches that start with the key, some of which have a matching series, shows the key
of the first of these and the matching series, of those with one name the first.  It shows each
batch with a matching series, with all its rows, the keys it has, and for each series the values of
the first column of that name; series that a batch does not have are missing in it. -/
theorem rows_aligned (hkeyed : ∀ b ∈ bs, Keyed b) (hread : read patterns bs = .ok rows)
    (hmatched : matched patterns bs ≠ []) :
    ∃ first key, (matched patterns bs).head? = some first ∧ first.schema.head? = some key ∧
      rows.schema = key :: (firsts (allMatching patterns bs)).map shown ∧
      List.Forall₂ (Aligned key (firsts (allMatching patterns bs))) (matched patterns bs)
        rows.batches ∧
      rows.rowCount = totalOf Batch.rows (matched patterns bs) := by
  obtain ⟨first, rest, h⟩ := List.exists_cons_of_ne_nil hmatched
  obtain ⟨key, hkey⟩ := exists_key (h ▸ List.mem_cons_self : first ∈ matched patterns bs)
  refine ⟨first, key, h ▸ rfl, hkey, ?_⟩
  -- The first batch decides the key, all of them decide the series, and a read that succeeds has
  -- collected both.
  have hlayout := layout_of_matched h hkey
  cases hfold : (allMatching patterns bs).foldlM addField [] with
  | error e =>
    rw [hfold] at hlayout
    rw [read, hlayout] at hread
    cases hread
  | ok series =>
    obtain rfl : series = (firsts (allMatching patterns bs)).map shown := by
      rw [eq_of_foldlM_addField hfold]
      exact congrArg (List.map shown) (List.filter_eq_self.mpr fun _ _ => rfl)
    rw [hfold] at hlayout
    rw [read_of_layout hkeyed hlayout] at hread
    cases hall : alignAll ⟨key, (firsts (allMatching patterns bs)).map shown⟩
        (matched patterns bs) with
    | error e =>
      rw [hall] at hread
      cases hread
    | ok aligned =>
      rw [hall] at hread
      cases hread
      have hbatches := alignAll_eq hall
      refine ⟨rfl, ?_, ?_⟩
      · dsimp only
        rw [hbatches, List.forall₂_map_right_iff, List.forall₂_same]
        intro b hb
        exact aligned_align (hkeyed b (mem_matched.mp hb).1).key fun f hf =>
          name_ne_keyName hkeyed (firsts_subset _ hf)
      · change totalOf Batch.rows aligned.1 = _
        rw [hbatches, totalOf_map]
        rfl

theorem rows_aligned_sample : ∃ rows, read ["cpu", "disk.*"] mixedBatches = .ok rows ∧
    rows.schema.map Field.name = [keyName, "cpu", "disk.free"] ∧
    List.Forall₂ (Aligned ⟨keyName, .int64, false, Tags.empty⟩
      (firsts (allMatching ["cpu", "disk.*"] mixedBatches)))
      [mixedBatches[0], mixedBatches[2]] rows.batches ∧ rows.rowCount = 3 := by
  obtain ⟨first, key, hfirst, hkey, hschema, hbatches, hrows⟩ :=
    rows_aligned keyed_mixedBatches (rfl : read ["cpu", "disk.*"] mixedBatches = .ok _) (by decide)
  cases hfirst
  cases hkey
  exact ⟨_, rfl, congrArg (List.map Field.name) hschema, hbatches, hrows⟩

end Projection
end SeriesExec
