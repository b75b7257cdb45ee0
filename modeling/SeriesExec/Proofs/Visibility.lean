import SeriesExec.Proofs.Listings

/-!
# Visibility — what a history of writes leaves in a store

A store that starts empty and is called for tasks, one after another, keeps of each inserted batch
what the deletions since have left of it.  This file defines:

* `StoreCall.inserted?` and `StoreCall.deleted?` — what a call writes into a unit;
* `Insertion` — a batch that was put into a unit, with the deletions since, and `Insertion.left`,
  what is left of the batch;
* `insertions` — the insertions of a history, oldest first.

Main statements: a unit has what is left of its insertions, in their order (`batches_of_calls`); a
series is stored exactly if it was inserted and no deletion since has a pattern for it
(`path_stored_iff`); all of it, with what a listing then shows (`visible_of_calls`).

Calls that read, that fail, or that are for other units stand in a history as well.  They leave
nothing behind.
-/

namespace SeriesExec
namespace Store

variable {s : Store} {u : UnitId} {b : Batch} {ps : List String} {p : String}

/-- The paths of the series of a batch: the names of all its columns but the first. -/
def paths (b : Batch) : List String :=
  (b.columns.drop 1).map fun c => c.field.name

/-! ## One deletion after another -/

theorem batch_ext {b b' : Batch} (hcolumns : b.columns = b'.columns) (hrows : b.rows = b'.rows) :
    b = b' := by
  cases b
  cases b'
  cases hcolumns
  cases hrows
  rfl

theorem take_one_strip (ps : List String) (b : Batch) :
    (strip ps b).columns.take 1 = b.columns.take 1 := by
  cases hcolumns : b.columns <;> simp [strip, hcolumns]

theorem drop_one_strip (ps : List String) (b : Batch) : (strip ps b).columns.drop 1 =
    (b.columns.drop 1).filter fun c => !Wildcard.anyTest ps c.field.name := by
  cases hcolumns : b.columns <;> simp [strip, hcolumns]

theorem anyTest_append (ps qs : List String) (p : String) :
    Wildcard.anyTest (ps ++ qs) p = (Wildcard.anyTest ps p || Wildcard.anyTest qs p) :=
  List.any_append

theorem strip_nil (b : Batch) : strip [] b = b := by
  refine batch_ext ?_ rfl
  have hall : ((b.columns.drop 1).filter fun c => !Wildcard.anyTest [] c.field.name) =
      b.columns.drop 1 := List.filter_eq_self.mpr fun _ _ => rfl
  change b.columns.take 1 ++ (b.columns.drop 1).filter _ = b.columns
  rw [hall, List.take_append_drop]

/-- Patterns one after another remove what all of them together remove. -/
theorem strip_strip (ps qs : List String) (b : Batch) :
    strip qs (strip ps b) = strip (ps ++ qs) b := by
  refine batch_ext ?_ rfl
  change (strip ps b).columns.take 1 ++ ((strip ps b).columns.drop 1).filter _ = _
  rw [take_one_strip, drop_one_strip, List.filter_filter]
  simp only [strip, anyTest_append, Bool.not_or, Bool.and_comm]

theorem paths_strip (ps : List String) (b : Batch) :
    paths (strip ps b) = (paths b).filter fun p => !Wildcard.anyTest ps p := by
  rw [paths, drop_one_strip, paths, List.filter_map]
  rfl

theorem length_columns_iff (b : Batch) : 1 < b.columns.length ↔ ∃ p, p ∈ paths b := by
  rw [← List.length_pos_iff_exists_mem, paths, List.length_map, List.length_drop,
    Nat.sub_pos_iff_lt]

/-- What a deletion leaves of a batch, if it leaves any series. -/
def stripped? (ps : List String) (b : Batch) : Option Batch :=
  if 1 < (strip ps b).columns.length then some (strip ps b) else none

theorem stripAll_eq (ps : List String) (bs : List Batch) :
    stripAll ps bs = bs.filterMap (stripped? ps) := by
  induction bs with
  | nil => rfl
  | cons b rest ih =>
    rw [stripAll] at ih ⊢
    by_cases hleft : 1 < (strip ps b).columns.length <;> simp [stripped?, hleft, ih]

theorem stripped?_bind (ps qs : List String) (b : Batch) :
    (stripped? ps b).bind (stripped? qs) = stripped? (ps ++ qs) b := by
  by_cases hleft : 1 < (strip ps b).columns.length
  · rw [stripped?, if_pos hleft, Option.bind_some, stripped?, strip_strip, stripped?]
  · -- Where nothing is left, more patterns leave nothing either.
    have hgone : ¬1 < (strip (ps ++ qs) b).columns.length := by
      rw [length_columns_iff] at hleft ⊢
      rintro ⟨p, hp⟩
      rw [← strip_strip, paths_strip] at hp
      exact hleft ⟨p, (List.mem_filter.mp hp).1⟩
    rw [stripped?, if_neg hleft, Option.bind_none, stripped?, if_neg hgone]

theorem mem_paths_stripped? (ps : List String) (b : Batch) (p : String) :
    (∃ b', stripped? ps b = some b' ∧ p ∈ paths b') ↔
      p ∈ paths b ∧ Wildcard.anyTest ps p = false := by
  have hpaths : p ∈ paths (strip ps b) ↔ p ∈ paths b ∧ Wildcard.anyTest ps p = false := by
    rw [paths_strip, List.mem_filter, Bool.not_eq_true']
  rw [← hpaths]
  constructor
  · rintro ⟨b', hb', hp⟩
    rw [stripped?] at hb'
    split at hb'
    · cases hb'
      exact hp
    · cases hb'
  · intro hp
    exact ⟨_, if_pos ((length_columns_iff _).mpr ⟨p, hp⟩), hp⟩

/-! ## Insertions and the deletions since -/

/-- What a call does to a unit before anything else: its first operator, if it is for the unit. -/
def StoreCall.first? (u : UnitId) (call : StoreCall) : Option Operator :=
  if call.isOn u then call.operators.head? else none

/-- The batch that a call puts into a unit.  If the insertion is all that the call is for, it
succeeds exactly if there is one. -/
def StoreCall.inserted? (u : UnitId) (call : StoreCall) : Option Batch :=
  match call.first? u with
  | some (.insert b) => if hasKey b then some b else none
  | _ => none

section

variable [PatternLibrary]

/-- The patterns by which a call removes series from a unit.  If one of them is refused, nothing is
removed.  If the deletion is all that the call is for, it succeeds exactly if there are some. -/
def StoreCall.deleted? (u : UnitId) (call : StoreCall) : Option (List String) :=
  match call.first? u with
  | some (.delete patterns) =>
    if (Wildcard.rejection? patterns).isSome then none else some patterns
  | _ => none

/-- What a call leaves of a stored batch of a unit. -/
def StoreCall.keep? (u : UnitId) (call : StoreCall) (b : Batch) : Option Batch :=
  match call.deleted? u with
  | none => some b
  | some patterns => stripped? patterns b

theorem keep?_of_none {call : StoreCall} (h : call.deleted? u = none) : call.keep? u = some :=
  funext fun b => by rw [StoreCall.keep?, h]

theorem keep?_of_some {call : StoreCall} (h : call.deleted? u = some ps) :
    call.keep? u = stripped? ps :=
  funext fun b => by rw [StoreCall.keep?, h]

/-- A batch that was put into a unit, with the patterns of each deletion in the unit since. -/
structure Insertion where
  batch : Batch
  deletions : List (List String)

/-- What is left of the batch.  It is there as a whole until the first deletion. -/
def Insertion.left (i : Insertion) : Option Batch :=
  match i.deletions with
  | [] => some i.batch
  | first :: more => stripped? (first :: more).flatten i.batch

/-- Whether no deletion since has a pattern for a path. -/
def Insertion.spares (i : Insertion) (p : String) : Prop :=
  ∀ patterns ∈ i.deletions, Wildcard.anyTest patterns p = false

omit [PatternLibrary] in
theorem spares_iff (i : Insertion) (p : String) :
    i.spares p ↔ Wildcard.anyTest i.deletions.flatten p = false := by
  rw [Wildcard.anyTest, List.any_flatten, List.any_eq_false]
  simp only [Insertion.spares, Wildcard.anyTest, Bool.not_eq_true]

/-- The insertion after a further call. -/
def Insertion.past (u : UnitId) (call : StoreCall) (i : Insertion) : Insertion :=
  ⟨i.batch, i.deletions ++ (call.deleted? u).toList⟩

/-- The insertions into a unit, oldest first. -/
def insertions (u : UnitId) : List StoreCall → List Insertion
  | [] => []
  | call :: later =>
    ((call.inserted? u).map fun b => ⟨b, later.filterMap (StoreCall.deleted? u)⟩).toList ++
      insertions u later

theorem insertions_snoc (u : UnitId) (calls : List StoreCall) (call : StoreCall) :
    insertions u (calls ++ [call]) = (insertions u calls).map (Insertion.past u call) ++
      ((call.inserted? u).map fun b => ⟨b, []⟩).toList := by
  induction calls with
  | nil => simp [insertions]
  | cons first calls ih =>
    rw [List.cons_append, insertions, ih, insertions, List.map_append, List.append_assoc]
    congr 1
    rw [List.filterMap_append]
    cases first.inserted? u with
    | none => rfl
    | some b =>
      cases hdeleted : call.deleted? u <;> simp [Insertion.past, hdeleted]

theorem batch_insertions (u : UnitId) (calls : List StoreCall) :
    (insertions u calls).map Insertion.batch = calls.filterMap (StoreCall.inserted? u) := by
  induction calls with
  | nil => rfl
  | cons call later ih =>
    rw [insertions, List.map_append, ih, List.filterMap_cons]
    cases call.inserted? u <;> rfl

theorem mem_insertions {calls : List StoreCall} {i : Insertion} :
    i ∈ insertions u calls ↔ ∃ before call after, calls = before ++ call :: after ∧
      call.inserted? u = some i.batch ∧ i.deletions = after.filterMap (StoreCall.deleted? u) := by
  induction calls with
  | nil =>
    constructor
    · intro hi
      cases hi
    · rintro ⟨before, call, after, hcalls, -⟩
      exact absurd hcalls.symm (List.append_ne_nil_of_right_ne_nil _ (List.cons_ne_nil _ _))
  | cons first later ih =>
    rw [insertions, List.mem_append, ih]
    constructor
    · rintro (hi | ⟨before, call, after, rfl, hbatch, hdeletions⟩)
      · obtain ⟨b, hb, rfl⟩ := Option.map_eq_some_iff.mp (Option.mem_toList.mp hi)
        exact ⟨[], first, later, rfl, hb, rfl⟩
      · exact ⟨first :: before, call, after, rfl, hbatch, hdeletions⟩
    · rintro ⟨_ | ⟨_, before⟩, call, after, hcalls, hbatch, hdeletions⟩
      · cases hcalls
        refine .inl (Option.mem_toList.mpr (Option.map_eq_some_iff.mpr ⟨_, hbatch, ?_⟩))
        rw [← hdeletions]
      · cases hcalls
        exact .inr ⟨before, call, after, rfl, hbatch, hdeletions⟩

/-! ## What is left -/

theorem left_past (u : UnitId) (call : StoreCall) (i : Insertion) :
    (i.past u call).left = i.left.bind (call.keep? u) := by
  obtain ⟨b, deletions⟩ := i
  cases hdeleted : call.deleted? u with
  | none =>
    rw [Insertion.past, hdeleted, Option.toList_none, List.append_nil, keep?_of_none hdeleted]
    exact (Option.bind_fun_some _).symm
  | some patterns =>
    rw [Insertion.past, hdeleted, Option.toList_some, keep?_of_some hdeleted]
    cases deletions with
    | nil => simp [Insertion.left]
    | cons first more => simp [Insertion.left, stripped?_bind]

/-- Only the first operator of a call counts for the batches of a unit. -/
theorem batches_execute_first? {s : Store} (hs : s.Ordered) (call : StoreCall) (u : UnitId) :
    (s.execute call.task call.stamp call.operators).1.batches u =
      written (call.first? u).toList (s.batches u) := by
  rw [batches_execute hs]
  by_cases hon : call.stamp = some u
  · have hfirst : call.first? u = call.operators.head? := if_pos (beq_iff_eq.mpr hon)
    rw [if_pos hon, hfirst]
    cases call.operators with
    | nil => rfl
    | cons op rest => exact written_cons op rest _
  · have hfirst : call.first? u = none := if_neg fun h => hon (eq_of_beq h)
    rw [if_neg hon, hfirst]
    rfl

/-- A call leaves of the batches of a unit what its deletion leaves, and puts its insertion behind
them. -/
theorem batches_execute_eq {s : Store} (hs : s.Ordered) (call : StoreCall) (u : UnitId) :
    (s.execute call.task call.stamp call.operators).1.batches u =
      (s.batches u).filterMap (call.keep? u) ++ (call.inserted? u).toList := by
  rw [batches_execute_first? hs]
  have hkept : call.deleted? u = none → (s.batches u).filterMap (call.keep? u) = s.batches u :=
    fun hdeleted => by rw [keep?_of_none hdeleted, List.filterMap_some]
  cases hfirst : call.first? u with
  | none =>
    rw [hkept (by rw [StoreCall.deleted?, hfirst]), StoreCall.inserted?, hfirst]
    exact (List.append_nil _).symm
  | some op =>
    cases op with
    | insert b =>
      rw [hkept (by rw [StoreCall.deleted?, hfirst]), StoreCall.inserted?, hfirst]
      cases hb : hasKey b <;> simp [written, hb]
    | delete patterns =>
      rw [StoreCall.inserted?, hfirst, Option.toList_some, Option.toList_none, List.append_nil]
      cases hpatterns : (Wildcard.rejection? patterns).isSome with
      | true =>
        rw [hkept (by simp [StoreCall.deleted?, hfirst, hpatterns]), written, if_pos hpatterns]
      | false =>
        have hdeleted : call.deleted? u = some patterns := by
          simp [StoreCall.deleted?, hfirst, hpatterns]
        rw [keep?_of_some hdeleted, written, hpatterns, if_neg Bool.false_ne_true, stripAll_eq]
    | _ =>
      rw [hkept (by rw [StoreCall.deleted?, hfirst]), StoreCall.inserted?, hfirst]
      exact (List.append_nil _).symm

/-- A unit has what is left of its insertions, in their order. -/
theorem batches_of_calls (calls : List StoreCall) (u : UnitId) :
    (empty.replay calls).1.batches u = (insertions u calls).filterMap Insertion.left := by
  induction calls using List.reverseRecOn with
  | nil => rfl
  | append_singleton calls call ih =>
    have hpast : ((insertions u calls).map (Insertion.past u call)).filterMap Insertion.left =
        ((insertions u calls).filterMap Insertion.left).filterMap (call.keep? u) := by
      rw [List.filterMap_map, List.filterMap_filterMap]
      exact congrArg (List.filterMap · (insertions u calls)) (funext (left_past u call))
    have hnew : ((call.inserted? u).map fun b => (⟨b, []⟩ : Insertion)).toList.filterMap
        Insertion.left = (call.inserted? u).toList := by
      cases call.inserted? u <;> rfl
    calc (empty.replay (calls ++ [call])).1.batches u
        = ((empty.replay calls).1.execute call.task call.stamp call.operators).1.batches u := by
          rw [replay_snoc, serve]
      _ = ((insertions u calls).filterMap Insertion.left).filterMap (call.keep? u) ++
            (call.inserted? u).toList := by
          rw [batches_execute_eq (ordered_replay ordered_empty calls), ih]
      _ = (insertions u (calls ++ [call])).filterMap Insertion.left := by
          rw [insertions_snoc, List.filterMap_append, hpast, hnew]

end

/-- A series is left of an insertion unless a deletion since has a pattern for it. -/
theorem mem_paths_left (i : Insertion) (p : String) :
    (∃ b, i.left = some b ∧ p ∈ paths b) ↔ p ∈ paths i.batch ∧ i.spares p := by
  obtain ⟨b, deletions⟩ := i
  cases deletions with
  | nil => simp [Insertion.left, Insertion.spares]
  | cons first more =>
    rw [spares_iff]
    exact mem_paths_stripped? _ b p

theorem eq_strip_of_left {i : Insertion} (h : i.left = some b) :
    b = strip i.deletions.flatten i.batch := by
  obtain ⟨b₀, deletions⟩ := i
  cases deletions with
  | nil =>
    cases h
    exact (strip_nil b₀).symm
  | cons first more =>
    change stripped? (first :: more).flatten b₀ = some b at h
    unfold stripped? at h
    split at h
    · cases h
      rfl
    · cases h

theorem exists_deletion_of_left {i : Insertion} (h : i.left = none) (hp : p ∈ paths i.batch) :
    ∃ patterns ∈ i.deletions, Wildcard.anyTest patterns p = true := by
  by_contra hspares
  push Not at hspares
  have hleft := (mem_paths_left i p).mpr ⟨hp, fun patterns hpatterns =>
    Bool.not_eq_true _ ▸ hspares patterns hpatterns⟩
  obtain ⟨b, hb, -⟩ := hleft
  rw [h] at hb
  cases hb

/-- A series is stored in a unit exactly if it was inserted there and no deletion there since has a
pattern for it. -/
theorem path_stored_iff [PatternLibrary] (calls : List StoreCall) (u : UnitId) (p : String) :
    (∃ b ∈ (empty.replay calls).1.batches u, p ∈ paths b) ↔
      ∃ before call after b, calls = before ++ call :: after ∧ call.inserted? u = some b ∧
        p ∈ paths b ∧ ∀ later ∈ after, ∀ patterns, later.deleted? u = some patterns →
          Wildcard.anyTest patterns p = false := by
  have hstored : (∃ b ∈ (empty.replay calls).1.batches u, p ∈ paths b) ↔
      ∃ i ∈ insertions u calls, p ∈ paths i.batch ∧ i.spares p := by
    simp only [batches_of_calls, List.mem_filterMap, ← mem_paths_left]
    constructor
    · rintro ⟨b, ⟨i, hi, hleft⟩, hp⟩
      exact ⟨i, hi, b, hleft, hp⟩
    · rintro ⟨i, hi, b, hleft, hp⟩
      exact ⟨b, ⟨i, hi, hleft⟩, hp⟩
  rw [hstored]
  constructor
  · rintro ⟨i, hi, hp, hspares⟩
    obtain ⟨before, call, after, hcalls, hbatch, hdeletions⟩ := mem_insertions.mp hi
    refine ⟨before, call, after, i.batch, hcalls, hbatch, hp, fun later hlater patterns h => ?_⟩
    refine hspares patterns ?_
    rw [hdeletions]
    exact List.mem_filterMap.mpr ⟨later, hlater, h⟩
  · rintro ⟨before, call, after, b, hcalls, hbatch, hp, hspares⟩
    refine ⟨⟨b, after.filterMap (StoreCall.deleted? u)⟩,
      mem_insertions.mpr ⟨before, call, after, hcalls, hbatch, rfl⟩, hp, fun patterns h => ?_⟩
    obtain ⟨later, hlater, hdeleted⟩ := List.mem_filterMap.mp h
    exact hspares later hlater patterns hdeleted

/-! ## All of it -/

theorem mem_paths {p : String} : p ∈ paths b ↔ ∃ col ∈ b.columns.drop 1, col.field.name = p :=
  List.mem_map

/-- An insertion on its own succeeds exactly if it puts its batch into the unit. -/
theorem answer_insert [PatternLibrary] (s : Store) (task : TaskId) (u : UnitId) (b : Batch) :
    s.answer ⟨task, some u, [.insert b]⟩ = .ok .done ↔
      StoreCall.inserted? u ⟨task, some u, [.insert b]⟩ = some b := by
  have hinserted : StoreCall.inserted? u ⟨task, some u, [.insert b]⟩ =
      if hasKey b then some b else none := by
    simp [StoreCall.inserted?, StoreCall.first?, StoreCall.isOn]
  rw [hinserted, answer_eq_ok_iff, execute, executeOn]
  cases hb : hasKey b with
  | true =>
    rw [insert_of_hasKey hb]
    simp [afterWrite]
  | false =>
    rw [insert_of_not_hasKey hb]
    simp

theorem deleted?_delete [PatternLibrary] (task : TaskId) (u : UnitId) (ps : List String) :
    StoreCall.deleted? u ⟨task, some u, [.delete ps]⟩ =
      if (Wildcard.rejection? ps).isSome then none else some ps := by
  simp [StoreCall.deleted?, StoreCall.first?, StoreCall.isOn]

/-- A deletion on its own succeeds exactly if it removes series by its patterns, and it does so
unless one of them is refused. -/
theorem answer_delete [PatternLibrary] (s : Store) (task : TaskId) (u : UnitId) (ps : List String) :
    (s.answer ⟨task, some u, [.delete ps]⟩ = .ok .done ↔
      StoreCall.deleted? u ⟨task, some u, [.delete ps]⟩ = some ps) ∧
    (StoreCall.deleted? u ⟨task, some u, [.delete ps]⟩ = some ps ↔
      ∀ p ∈ ps, PatternLibrary.refusal? p = none) := by
  rw [deleted?_delete, answer_eq_ok_iff, execute, ← Wildcard.rejection?_eq_none_iff]
  cases hps : Wildcard.rejection? ps with
  | some e =>
    rw [executeOn_delete_of_some hps]
    simp
  | none =>
    rw [executeOn_delete_of_none hps]
    simp [afterWrite]

/-- What a store has after calls for tasks, one after another:

* each unit has what is left of the batches that were inserted into it, in the order of their
  insertion;
* what is left of a batch has the rows of the batch, and its columns with their fields and values,
  but for the series that a deletion since has a pattern for; a batch is gone only if there is such
  a deletion for each of its series;
* so a series is stored in a unit exactly if some insertion there had it and no deletion there since
  has a pattern for it; an insertion counts exactly if it succeeds, and so does a deletion, which
  fails if one of its patterns is refused;
* a call for one unit leaves all others as they are;
* the listing shows the physical paths of the columns behind the first that are stored in some unit,
  in strictly ascending order, and each with the path, the type and the tags of such a column. -/
theorem visible_of_calls [PatternLibrary] (calls : List StoreCall) :
    (∀ u, (empty.replay calls).1.batches u = (insertions u calls).filterMap Insertion.left ∧
      (insertions u calls).map Insertion.batch = calls.filterMap (StoreCall.inserted? u)) ∧
    (∀ u, ∀ i ∈ insertions u calls,
      (∀ b, i.left = some b → b.rows = i.batch.rows ∧
        b.columns = i.batch.columns.take 1 ++ (i.batch.columns.drop 1).filter fun c =>
          !Wildcard.anyTest i.deletions.flatten c.field.name) ∧
      (i.left = none → ∀ col ∈ i.batch.columns.drop 1, ∃ patterns ∈ i.deletions,
        Wildcard.anyTest patterns col.field.name = true)) ∧
    (∀ u p, (∃ b ∈ (empty.replay calls).1.batches u, ∃ col ∈ b.columns.drop 1,
        col.field.name = p) ↔
      ∃ before call after b, calls = before ++ call :: after ∧ call.inserted? u = some b ∧
        (∃ col ∈ b.columns.drop 1, col.field.name = p) ∧
        ∀ later ∈ after, ∀ patterns, later.deleted? u = some patterns →
          Wildcard.anyTest patterns p = false) ∧
    (∀ task u b, (empty.replay calls).1.answer ⟨task, some u, [.insert b]⟩ = .ok .done ↔
      StoreCall.inserted? u ⟨task, some u, [.insert b]⟩ = some b) ∧
    (∀ task u ps, ((empty.replay calls).1.answer ⟨task, some u, [.delete ps]⟩ = .ok .done ↔
        StoreCall.deleted? u ⟨task, some u, [.delete ps]⟩ = some ps) ∧
      (StoreCall.deleted? u ⟨task, some u, [.delete ps]⟩ = some ps ↔
        ∀ p ∈ ps, PatternLibrary.refusal? p = none)) ∧
    (∀ (call : StoreCall) u, call.stamp ≠ some u →
      (empty.replay (calls ++ [call])).1.batches u = (empty.replay calls).1.batches u) ∧
    ((empty.replay calls).1.listSeries.map Series.physicalPath).Pairwise (· < ·) ∧
    (∀ p, p ∈ (empty.replay calls).1.listSeries.map Series.physicalPath ↔
      ∃ u, ∃ b ∈ (empty.replay calls).1.batches u, ∃ col ∈ b.columns.drop 1,
        (if col.field.metadata.entries = [] then col.field.name
          else col.field.name ++ ("\x7b" ++ ",".intercalate
            (col.field.metadata.entries.map fun e => e.1 ++ "=" ++ e.2) ++ "\x7d")) = p) ∧
    (∀ x ∈ (empty.replay calls).1.listSeries,
      ∃ u, ∃ b ∈ (empty.replay calls).1.batches u, ∃ col ∈ b.columns.drop 1,
        x.path = col.field.name ∧ x.type = col.field.type ∧ x.tags = col.field.metadata) := by
  have hs : (empty.replay calls).1.Ordered := ordered_replay ordered_empty calls
  refine ⟨fun u => ⟨batches_of_calls calls u, batch_insertions u calls⟩, fun u i _ => ⟨?_, ?_⟩,
    fun u p => ?_, answer_insert _, answer_delete _, fun call u hother => ?_,
    sorted_bySeriesPath _, fun p => ?_, fun x hx => ?_⟩
  · intro b hleft
    obtain rfl := eq_strip_of_left hleft
    exact ⟨rfl, rfl⟩
  · exact fun hleft col hcol => exists_deletion_of_left hleft (List.mem_map_of_mem hcol)
  · simpa only [mem_paths] using path_stored_iff calls u p
  · rw [replay_snoc, serve, batches_execute hs, if_neg hother]
  · rw [mem_physicalPaths_listSeries hs]
    simp only [mem_seriesOfBatch, exists_exists_and_eq_and, Series.physicalPath_eq, seriesOf]
  · obtain ⟨u, b, hb, hmem⟩ := stored_of_mem_listSeries hs hx
    obtain ⟨col, hcol, rfl⟩ := mem_seriesOfBatch.mp hmem
    exact ⟨u, b, hb, col, hcol, rfl, rfl, rfl⟩

/-- One row of a series. -/
def loadedBatch : Batch :=
  ⟨[⟨⟨keyName, .int64, false, Tags.empty⟩, [some (.int 1)]⟩,
    ⟨⟨"load", .int64, true, Tags.empty⟩, [some (.int 1)]⟩], 1, by simp⟩

/-- The batch is inserted, and then its series is to be removed, and others by a pattern that is too
large. -/
def largeDeletion : List StoreCall :=
  [⟨0, some "unit", [.insert loadedBatch]⟩,
    ⟨1, some "unit", [.delete ["load", PatternLibrary.stars 100000]]⟩]

theorem deleted?_largeDeletion :
    ∀ call ∈ largeDeletion, StoreCall.deleted? "unit" call = none := by
  obtain ⟨reason, hreason⟩ := PatternLibrary.refusal?_stars (n := 100000) (by decide)
  have hrefused : (Wildcard.rejection? ["load", PatternLibrary.stars 100000]).isSome = true := by
    refine Option.isSome_iff_ne_none.mpr fun hnone => ?_
    have hmem : PatternLibrary.stars 100000 ∈ ["load", PatternLibrary.stars 100000] :=
      List.mem_cons_of_mem _ (List.mem_singleton_self _)
    have htaken := Wildcard.rejection?_eq_none_iff.mp hnone _ hmem
    exact Option.some_ne_none reason (hreason.symm.trans htaken)
  refine List.forall_mem_cons.mpr ⟨rfl, List.forall_mem_singleton.mpr ?_⟩
  rw [deleted?_delete, if_pos hrefused]

/-- A series stays if the deletion that has a pattern for it has another one that is too large. -/
theorem stays_for_other_pattern :
    ¬∀ (calls : List StoreCall) (u : UnitId) (p : String),
      (∃ b ∈ (empty.replay calls).1.batches u, ∃ col ∈ b.columns.drop 1, col.field.name = p) ↔
        ∃ before call after b, calls = before ++ call :: after ∧ call.inserted? u = some b ∧
          (∃ col ∈ b.columns.drop 1, col.field.name = p) ∧
          ∀ later ∈ after, later.stamp = some u →
            ∀ patterns rest, later.operators = .delete patterns :: rest →
              Wildcard.anyTest patterns p = false := by
  intro h
  have hload : "load" ∈ paths loadedBatch := List.mem_singleton.mpr rfl
  have hstored : ∃ b ∈ (empty.replay largeDeletion).1.batches "unit", "load" ∈ paths b :=
    (path_stored_iff largeDeletion "unit" "load").mpr
      ⟨[], _, _, loadedBatch, rfl, rfl, hload, fun later hlater patterns hdeleted => by
        rw [deleted?_largeDeletion later (List.mem_cons_of_mem _ hlater)] at hdeleted
        cases hdeleted⟩
  obtain ⟨before, call, after, b, hcalls, hinserted, -, hspares⟩ :=
    (h largeDeletion "unit" "load").mp (by simpa only [mem_paths] using hstored)
  -- The insertion is the first call, so the deletion comes after it.
  rcases before with _ | ⟨first, _ | ⟨second, before⟩⟩
  · obtain ⟨rfl, rfl⟩ := List.cons.inj hcalls
    have hspared := hspares _ List.mem_cons_self rfl _ _ rfl
    rw [Wildcard.anyTest, List.any_cons, Bool.or_eq_false_iff] at hspared
    exact absurd hspared.1 (by decide)
  · obtain ⟨rfl, hrest⟩ := List.cons.inj hcalls
    obtain ⟨rfl, -⟩ := List.cons.inj hrest
    cases hinserted
  · have hlength := congrArg List.length hcalls
    simp [largeDeletion] at hlength

end Store
end SeriesExec
