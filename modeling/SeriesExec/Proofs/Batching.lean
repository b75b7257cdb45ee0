import SeriesExec.Proofs.Excerpts
import SeriesExec.Proofs.Pipelines

/-!
# Batching — what a pipeline makes of rows, however they are cut

A pipeline works batch by batch, and starts from several streams or from one.  This file defines:

* `RowStream.SameRows` — two streams of one schema with the same rows, cut in any way;
* `Operator.Compiles` — the patterns of an operator can be used;
* `Pipeline.Startable` — the inputs that a pipeline can start from;
* `Pipeline.Meets` — an operator that a pipeline comes to and that does not work in memory;
* `Pipeline.Alike` — two pipelines end with the same rows, or fail for the same reason.

Main statements: which pipelines succeed (`exists_run_iff`), why the others fail (`run_of_meets`,
`inner_of_run`), and that batches make no difference (`alike_run`), all in one in
`outcome_by_rows`.
-/

namespace SeriesExec

/-! ## Streams with the same rows -/

/-- The values of a row in the columns whose field passes the test. -/
def picked (keep : Field → Bool) (schema : List Field) (record : List Cell) : List Cell :=
  ((schema.zip record).filter fun p => keep p.1).map Prod.snd

theorem Batch.records_select (keep : Field → Bool) (b : Batch) :
    (b.select keep).records = b.records.map (picked keep b.schema) := by
  rw [Batch.records, Batch.records, List.map_map]
  refine List.map_congr_left fun i _ => ?_
  simp only [Function.comp_apply, record, select, schema, picked, List.zip_map', List.filter_map,
    List.map_map]
  rfl

namespace RowStream

variable {s s' t t' : RowStream}

theorem records_append (h : t.schema = s.schema) :
    (s.append t h).records = s.records ++ t.records :=
  List.flatMap_append

theorem records_select (keep : Field → Bool) (s : RowStream) :
    (s.select keep).records = s.records.map (picked keep s.schema) := by
  rw [records, records, select, List.flatMap_map, List.map_flatMap]
  refine List.flatMap_congr fun b hb => ?_
  rw [Batch.records_select, s.coherent b hb]

/-- The streams have one schema and the same rows in the same order. -/
structure SameRows (s t : RowStream) : Prop where
  schema : s.schema = t.schema
  records : s.records = t.records

theorem SameRows.refl (s : RowStream) : s.SameRows s := ⟨rfl, rfl⟩

theorem SameRows.limit (h : s.SameRows t) (count skip : Nat) :
    (s.limit count skip).SameRows (t.limit count skip) where
  schema := h.schema
  records := by
    refine (records_limitBatches skip count s.batches).trans ?_
    refine Eq.trans ?_ (records_limitBatches skip count t.batches).symm
    exact congrArg (fun rows => (rows.drop skip).take count) h.records

theorem SameRows.select (h : s.SameRows t) (keep : Field → Bool) :
    (s.select keep).SameRows (t.select keep) where
  schema := congrArg (List.filter keep) h.schema
  records := by rw [records_select, records_select, h.schema, h.records]

theorem SameRows.append (h : s.SameRows s') (h' : t.SameRows t') (hst : t.schema = s.schema)
    (hst' : t'.schema = s'.schema) : (s.append t hst).SameRows (s'.append t' hst') where
  schema := h.schema
  records := by rw [records_append, records_append, h.records, h'.records]

end RowStream

/-- The library takes all patterns of the operator, if it has any to be compiled. -/
def Operator.Compiles [PatternLibrary] : Operator → Prop
  | .project patterns => ∀ p ∈ patterns, PatternLibrary.refusal? p = none
  | _ => True

namespace Pipeline

open RowStream

section

variable {inputs inputs' : List RowStream} {s s' : RowStream} {op : Operator}
  {ops xs : List Operator} {patterns : List String} {e : Error}

/-! ## Success -/

theorem exists_single_iff : (∃ t, single inputs = .ok t) ↔ inputs.length = 1 := by
  rw [List.length_eq_one_iff]
  constructor
  · rintro ⟨t, h⟩
    unfold single at h
    split at h
    · exact ⟨_, rfl⟩
    · cases h
  · rintro ⟨s, rfl⟩
    exact ⟨s, rfl⟩

theorem exists_uniteFrom_iff :
    (∃ t, uniteFrom s inputs = .ok t) ↔ ∀ t ∈ inputs, t.schema = s.schema := by
  induction inputs generalizing s with
  | nil => exact iff_of_true ⟨s, rfl⟩ (List.forall_mem_nil _)
  | cons t rest ih =>
    rw [uniteFrom, List.forall_mem_cons]
    split
    · rename_i hschema
      rw [ih]
      exact (and_iff_right hschema).symm
    · rename_i hschema
      exact iff_of_false nofun fun h => hschema h.1

/-- All streams are put behind one another if there is one and their schemas are equal. -/
theorem exists_unite_iff :
    (∃ t, unite inputs = .ok t) ↔
      inputs ≠ [] ∧ ∀ s ∈ inputs, ∀ t ∈ inputs, s.schema = t.schema := by
  cases inputs with
  | nil => exact iff_of_false nofun fun h => h.1 rfl
  | cons a rest =>
    refine exists_uniteFrom_iff.trans ⟨fun h => ⟨List.cons_ne_nil a rest, ?_⟩, fun h t ht => ?_⟩
    · have hall : ∀ t ∈ a :: rest, t.schema = a.schema := List.forall_mem_cons.mpr ⟨rfl, h⟩
      exact fun s hs t ht => (hall s hs).trans (hall t ht).symm
    · exact h.2 t (List.mem_cons_of_mem a ht) a List.mem_cons_self

/-- The inputs that an operator can take. -/
def Takes (inputs : List RowStream) : Operator → Prop
  | .union => inputs ≠ [] ∧ ∀ s ∈ inputs, ∀ t ∈ inputs, s.schema = t.schema
  | _ => inputs.length = 1

theorem exists_project_iff [PatternLibrary] :
    (∃ t, project patterns s = .ok t) ↔ ∀ p ∈ patterns, PatternLibrary.refusal? p = none := by
  rw [← Wildcard.rejection?_eq_none_iff]
  cases hpatterns : Wildcard.rejection? patterns with
  | none => exact iff_of_true ⟨_, project_of_none hpatterns s⟩ rfl
  | some e =>
    refine iff_of_false ?_ nofun
    rintro ⟨t, ht⟩
    cases (project_of_some hpatterns s).symm.trans ht

/-- What is done with the only input succeeds exactly if there is one, and it succeeds on that. -/
theorem exists_bind_single_iff {g : RowStream → Except Error RowStream} {P : Prop}
    (hg : ∀ s, (∃ t, g s = .ok t) ↔ P) :
    (∃ t, (single inputs).bind g = .ok t) ↔ P ∧ inputs.length = 1 := by
  rw [← exists_single_iff]
  cases single inputs with
  | error e => exact iff_of_false nofun fun h => nomatch h.2
  | ok s => exact (hg s).trans (and_iff_left ⟨s, rfl⟩).symm

theorem exists_apply_iff [PatternLibrary] : (∃ t, apply inputs op = .ok t) ↔
    (op.worksOnRows = true ∧ op.Compiles) ∧ Takes inputs op := by
  cases op with
  | union => exact exists_unite_iff.trans (and_iff_right ⟨rfl, trivial⟩).symm
  | limit count offset =>
    refine (exists_bind_single_iff (g := fun s => .ok (s.limit count offset)) (P := True)
      fun s => iff_of_true ⟨_, rfl⟩ trivial).trans ?_
    exact and_congr_left fun _ => iff_of_true trivial ⟨rfl, trivial⟩
  | project patterns =>
    refine (exists_bind_single_iff fun _ => exists_project_iff).trans ?_
    exact and_congr_left fun _ => (and_iff_right rfl).symm
  | _ => exact iff_of_false nofun fun h => nomatch h.1.1

/-- One stream is what every operator can take. -/
theorem takes_singleton (s : RowStream) (op : Operator) : Takes [s] op := by
  cases op with
  | union => exact ⟨List.cons_ne_nil s [], by simp⟩
  | _ => rfl

/-- The inputs that a pipeline can start from: one stream, or several of one schema that its first
operator unites. -/
def Startable (ops : List Operator) (inputs : List RowStream) : Prop :=
  inputs.length = 1 ∨ ops.head? = some .union ∧ inputs ≠ [] ∧
    ∀ s ∈ inputs, ∀ t ∈ inputs, s.schema = t.schema

theorem startable_cons_iff (op : Operator) (rest : List Operator) :
    Startable (op :: rest) inputs ↔ Takes inputs op := by
  have hone : inputs.length = 1 → Takes inputs op := fun h => by
    obtain ⟨s, rfl⟩ := List.length_eq_one_iff.mp h
    exact takes_singleton s op
  refine ⟨fun h => ?_, fun h => ?_⟩
  · rcases h with h | ⟨hunion, h⟩
    · exact hone h
    · obtain rfl := Option.some.inj hunion
      exact h
  · cases op with
    | union => exact .inr ⟨rfl, h⟩
    | _ => exact .inl h

section

variable [PatternLibrary]

/-- A pipeline succeeds exactly if all its operators work on rows, with patterns that can be used,
and it can start. -/
theorem exists_run_iff : (∃ t, run ops inputs = .ok t) ↔
    (∀ op ∈ ops, op.worksOnRows = true ∧ op.Compiles) ∧ Startable ops inputs := by
  induction ops generalizing inputs with
  | nil =>
    refine exists_single_iff.trans ⟨fun h => ⟨List.forall_mem_nil _, .inl h⟩, fun h => ?_⟩
    exact h.2.resolve_right fun hunion => nomatch hunion.1
  | cons op rest ih =>
    rw [List.forall_mem_cons, startable_cons_iff, run]
    have happly : (∃ t, apply inputs op = .ok t) ↔ _ := exists_apply_iff
    cases hs : apply inputs op with
    | error e =>
      refine iff_of_false ?_ fun h => ?_
      · rintro ⟨t, ht⟩
        cases ht
      · obtain ⟨t, ht⟩ := happly.mpr ⟨h.1.1, h.2⟩
        cases hs.symm.trans ht
    | ok s =>
      -- From here on there is one stream.
      obtain ⟨hworks, htakes⟩ := happly.mp ⟨s, hs⟩
      refine ih.trans ⟨fun h => ⟨⟨hworks, h.1⟩, htakes⟩, fun h => ⟨h.1.2, .inl rfl⟩⟩

/-! ## Failure -/

/-- The pipeline comes to the operator, and that does not work on rows: it is the first such one,
and nothing is before it, or what is before it succeeds. -/
def Meets (ops : List Operator) (inputs : List RowStream) (op : Operator) : Prop :=
  ∃ xs ys, ops = xs ++ op :: ys ∧ (∀ x ∈ xs, x.worksOnRows = true) ∧ op.worksOnRows = false ∧
    (xs = [] ∨ ∃ s, run xs inputs = .ok s)

/-- Such an operator is what the pipeline fails with. -/
theorem run_of_meets (h : Meets ops inputs op) :
    run ops inputs = .error (.unexpectedOperator op.kind.name) := by
  obtain ⟨xs, ys, rfl, _, hop, hbefore⟩ := h
  have hfails : ∀ inputs, run (op :: ys) inputs = .error (.unexpectedOperator op.kind.name) :=
    fun inputs => by rw [run, apply_of_not_worksOnRows hop]
  rcases hbefore with rfl | ⟨s, hs⟩
  · exact hfails inputs
  · have hcut : xs ≠ [] ∨ inputs.length = 1 := by
      cases xs with
      | nil => exact .inr (exists_single_iff.mp ⟨s, hs⟩)
      | cons x rest => exact .inl (List.cons_ne_nil x rest)
    rw [run_append hcut, hs]
    exact hfails [s]

theorem Meets.cons {rest : List Operator} {x : Operator} (hx : x.worksOnRows = true)
    (happly : apply inputs x = .ok s) (h : Meets rest [s] op) : Meets (x :: rest) inputs op := by
  obtain ⟨xs, ys, rfl, hworks, hop, hbefore⟩ := h
  refine ⟨x :: xs, ys, rfl, List.forall_mem_cons.mpr ⟨hx, hworks⟩, hop, .inr ?_⟩
  rw [run, happly]
  rcases hbefore with rfl | hbefore
  · exact ⟨s, rfl⟩
  · exact hbefore

/-- Every other failure is about the streams that an operator, or the end, is given, or about
patterns. -/
theorem inner_of_run (hrun : run ops inputs = .error e) (hmeets : ∀ op, ¬Meets ops inputs op) :
    Inner e := by
  induction ops generalizing inputs with
  | nil => exact inner_of_single hrun
  | cons op rest ih =>
    have hworks : op.worksOnRows = true := by
      by_contra hworks
      exact hmeets op ⟨[], rest, rfl, List.forall_mem_nil _, eq_false_of_ne_true hworks, .inl rfl⟩
    rw [run] at hrun
    cases happly : apply inputs op with
    | error e' =>
      rw [happly] at hrun
      injection hrun with hrun
      exact inner_of_apply hworks (hrun ▸ happly)
    | ok s =>
      rw [happly] at hrun
      exact ih hrun fun op' h => hmeets op' (h.cons hworks happly)

end

/-! ## Cutting the rows in another way -/

/-- Both end with the same rows, or fail for the same reason. -/
inductive Alike : Except Error RowStream → Except Error RowStream → Prop
  | ok {s t : RowStream} (h : s.SameRows t) : Alike (.ok s) (.ok t)
  | error (e : Error) : Alike (.error e) (.error e)

theorem Alike.eq_error {y : Except Error RowStream} (h : Alike (.error e) y) : y = .error e := by
  cases h
  rfl

theorem Alike.exists_ok {y : Except Error RowStream} (h : Alike (.ok s) y) :
    ∃ t, y = .ok t ∧ s.SameRows t := by
  cases h with
  | ok h => exact ⟨_, rfl, h⟩

theorem Alike.bind {x y : Except Error RowStream} {g : RowStream → Except Error RowStream}
    (h : Alike x y) (hg : ∀ s t, s.SameRows t → Alike (g s) (g t)) :
    Alike (x.bind g) (y.bind g) := by
  cases h with
  | ok h => exact hg _ _ h
  | error e => exact .error e

theorem alike_project [PatternLibrary] (h : s.SameRows s') (patterns : List String) :
    Alike (project patterns s) (project patterns s') := by
  cases hpatterns : Wildcard.rejection? patterns with
  | none =>
    rw [project_of_none hpatterns, project_of_none hpatterns]
    exact .ok (h.select (keeps patterns))
  | some e =>
    rw [project_of_some hpatterns, project_of_some hpatterns]
    exact .error e

theorem alike_single (h : List.Forall₂ SameRows inputs inputs') :
    Alike (single inputs) (single inputs') := by
  cases h with
  | nil => exact .error _
  | cons hs hrest =>
    cases hrest with
    | nil => exact .ok hs
    | cons ht hrest =>
      rw [single, single, List.length_cons, List.length_cons, List.length_cons, List.length_cons,
        hrest.length_eq]
      · exact .error _
      · exact nofun
      · exact nofun

theorem alike_uniteFrom (hs : s.SameRows s') (h : List.Forall₂ SameRows inputs inputs') :
    Alike (uniteFrom s inputs) (uniteFrom s' inputs') := by
  induction h generalizing s s' with
  | nil => exact .ok hs
  | cons ht _ ih =>
    rename_i t t' _ _ _
    have hschema : t.schema = s.schema ↔ t'.schema = s'.schema := by rw [ht.schema, hs.schema]
    rw [uniteFrom, uniteFrom]
    split
    · rename_i hsame
      rw [dif_pos (hschema.mp hsame)]
      exact ih (hs.append ht hsame _)
    · rename_i hsame
      rw [dif_neg fun h => hsame (hschema.mpr h), ht.schema, hs.schema]
      exact .error _

variable [PatternLibrary]

theorem alike_apply (h : List.Forall₂ SameRows inputs inputs') (op : Operator) :
    Alike (apply inputs op) (apply inputs' op) := by
  cases op with
  | union =>
    cases h with
    | nil => exact .error _
    | cons hs hrest => exact alike_uniteFrom hs hrest
  | limit count offset =>
    exact (alike_single h).bind (g := fun s => .ok (s.limit count offset))
      fun _ _ h => .ok (h.limit count offset)
  | project patterns => exact (alike_single h).bind fun _ _ h => alike_project h patterns
  | _ => exact .error _

/-- How the rows of the inputs are cut makes no difference. -/
theorem alike_run (h : List.Forall₂ SameRows inputs inputs') (ops : List Operator) :
    Alike (run ops inputs) (run ops inputs') := by
  induction ops generalizing inputs inputs' with
  | nil => exact alike_single h
  | cons op rest ih =>
    rw [run, run]
    have halike := alike_apply h op
    cases happly : apply inputs op with
    | error e =>
      rw [happly] at halike
      rw [halike.eq_error]
      exact .error e
    | ok s =>
      rw [happly] at halike
      obtain ⟨t, ht, hsame⟩ := halike.exists_ok
      rw [ht]
      exact ih (.cons hsame .nil)

/-- A pipeline, for any operators and any inputs.  It succeeds exactly if all operators work on
rows, all patterns by which they select columns can be used, and there is one input, or its first
operator is a union and there are inputs, all of one schema.  It fails with an operator that does
not work on rows if it comes to one, which is then the first such one; every other failure is
internal.  And what it makes of the rows, or the error it fails with, is the same in whatever
batches the rows come, empty ones among them. -/
theorem outcome_by_rows (ops : List Operator) (inputs : List RowStream) :
    ((∃ t, run ops inputs = .ok t) ↔
      (∀ op ∈ ops, op.worksOnRows = true ∧ op.Compiles) ∧ Startable ops inputs) ∧
    (∀ op, Meets ops inputs op → run ops inputs = .error (.unexpectedOperator op.kind.name)) ∧
    (∀ e, run ops inputs = .error e → (∀ op, ¬Meets ops inputs op) → e.kind = .internal) ∧
    (∀ inputs', List.Forall₂ SameRows inputs inputs' → Alike (run ops inputs) (run ops inputs')) :=
  ⟨exists_run_iff, fun _ => run_of_meets, fun _ hrun hmeets => (inner_of_run hrun hmeets).kind_eq,
    fun _ h => alike_run h ops⟩

end

/-- Values of a series, in one batch. -/
def valuesBatch (cells : List Cell) : Batch :=
  ⟨[⟨⟨"load", .int64, true, Tags.empty⟩, cells⟩], cells.length, by simp⟩

/-- The values in one batch. -/
def wholeValues : RowStream :=
  .ofBatch (valuesBatch [some (.int 1), some (.int 2), none])

/-- The same values in three batches, of which one is empty. -/
def cutValues : RowStream where
  schema := wholeValues.schema
  batches := [valuesBatch [some (.int 1)], valuesBatch [], valuesBatch [some (.int 2), none]]
  coherent := by decide

theorem outcome_by_rows_sample :
    (∃ t t', run [.union, .project ["l*"], .limit 3 2] [wholeValues, wholeValues] = .ok t ∧
      run [.union, .project ["l*"], .limit 3 2] [wholeValues, cutValues] = .ok t' ∧
      t.SameRows t') ∧
    run [.limit 3 2, .delete []] [wholeValues] = .error (.unexpectedOperator "Delete") ∧
    ∃ e, run [.limit 3 2, .delete []] [wholeValues, cutValues] = .error e ∧
      e.kind = .internal := by
  refine ⟨?_, ?_, ?_⟩
  · obtain ⟨hsuccess, _, _, hcut⟩ :=
      outcome_by_rows [.union, .project ["l*"], .limit 3 2] [wholeValues, wholeValues]
    have hcompiles : (Operator.project ["l*"]).Compiles := by
      intro p hp
      rw [List.mem_singleton.mp hp]
      decide
    have hworks : ∀ op ∈ [Operator.union, .project ["l*"], .limit 3 2],
        op.worksOnRows = true ∧ op.Compiles :=
      List.forall_mem_cons.mpr ⟨⟨rfl, trivial⟩, List.forall_mem_cons.mpr ⟨⟨rfl, hcompiles⟩,
        List.forall_mem_singleton.mpr ⟨rfl, trivial⟩⟩⟩
    obtain ⟨t, ht⟩ := hsuccess.mpr ⟨hworks, .inr ⟨rfl, by decide, by decide⟩⟩
    have halike := hcut [wholeValues, cutValues] (.cons (.refl _) (.cons ⟨rfl, by decide⟩ .nil))
    rw [ht] at halike
    obtain ⟨t', ht', hsame⟩ := halike.exists_ok
    exact ⟨t, t', ht, ht', hsame⟩
  · exact (outcome_by_rows [.limit 3 2, .delete []] [wholeValues]).2.1 (.delete [])
      ⟨[.limit 3 2], [], rfl, by decide, rfl, .inr ⟨_, rfl⟩⟩
  · refine ⟨_, rfl, (outcome_by_rows [.limit 3 2, .delete []] [wholeValues, cutValues]).2.2.1 _ rfl
      fun op hmeets => ?_⟩
    cases run_of_meets hmeets

/-- A single projection of a single input fails if its pattern is too large. -/
theorem fails_for_pattern :
    ¬∀ (ops : List Operator) (inputs : List RowStream), (∃ t, run ops inputs = .ok t) ↔
      (∀ op ∈ ops, op.worksOnRows = true) ∧ Startable ops inputs := by
  intro h
  have hworks : ∀ op ∈ [Operator.project [PatternLibrary.stars 100000]], op.worksOnRows = true :=
    List.forall_mem_singleton.mpr rfl
  obtain ⟨hcompiles, -⟩ := exists_run_iff.mp ((h _ [wholeValues]).mpr ⟨hworks, .inl rfl⟩)
  obtain ⟨reason, hrefused⟩ := PatternLibrary.refusal?_stars (n := 100000) (by decide)
  have htaken := (hcompiles _ List.mem_cons_self).2 _ List.mem_cons_self
  cases hrefused.symm.trans htaken

end Pipeline
end SeriesExec
