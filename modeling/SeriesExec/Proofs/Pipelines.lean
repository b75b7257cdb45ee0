import SeriesExec.Pipeline
import SeriesExec.Proofs.Roster

/-!
# Pipelines — operators one after another, and what a memory task can fail with

A memory task fails because a parent has failed, or because its own operators do not fit what they
are given, or have patterns that cannot be used.  This file defines:

* `Operator.worksOnRows` — the operators that work in memory;
* `Pipeline.Inner` — the errors of these, about the streams that they are given or their patterns;
* `Pipeline.Raised` — the errors of all operators.

Main statements: a list of operators can be cut in two (`Pipeline.run_append`); a memory task fails
with the first failure of a parent if there is one, and with an error of its own operators otherwise
(`Task.fedResult_eq_error`).
-/

namespace SeriesExec

/-- Whether the operator works on rows in memory. -/
def Operator.worksOnRows : Operator → Bool
  | .union | .limit .. | .project _ => true
  | _ => false

namespace Pipeline

/-- The errors of operators that work on rows: about the streams that they are given, and about
their patterns. -/
inductive Inner : Error → Prop
  | inputCount (n : Nat) : Inner (.fault (.inputCount n))
  | unionWithoutInput : Inner (.fault .unionWithoutInput)
  | unionSchemas (expected actual : List Field) : Inner (.fault (.unionSchemas expected actual))
  | refused (pattern reason : String) : Inner (Wildcard.refused pattern reason)

/-- The errors of operators over rows in memory. -/
inductive Raised : Error → Prop
  | inner {e : Error} (h : Inner e) : Raised e
  | unexpectedOperator (operator : String) : Raised (.unexpectedOperator operator)

variable {inputs : List RowStream} {s : RowStream} {op : Operator} {patterns : List String}
  {e : Error}

theorem Inner.kind_eq (h : Inner e) : e.kind = .internal := by
  cases h <;> rfl

theorem inner_of_single (h : single inputs = .error e) : Inner e := by
  unfold single at h
  split at h
  · cases h
  · injection h with h
    exact h ▸ .inputCount _

/-- An error of what is done with the only input is an error of its own, unless there is not exactly
one input. -/
theorem inner_of_bind_single {g : RowStream → Except Error RowStream}
    (hg : ∀ s, g s = .error e → Inner e) (h : (single inputs).bind g = .error e) : Inner e := by
  cases hsingle : single inputs with
  | ok s =>
    rw [hsingle] at h
    exact hg s h
  | error e' =>
    rw [hsingle] at h
    injection h with h
    exact h ▸ inner_of_single hsingle

theorem inner_of_uniteFrom (h : uniteFrom s inputs = .error e) : Inner e := by
  induction inputs generalizing s with
  | nil => cases h
  | cons t rest ih =>
    unfold uniteFrom at h
    split at h
    · exact ih h
    · injection h with h
      exact h ▸ .unionSchemas _ _

variable [PatternLibrary]

theorem project_of_some (h : Wildcard.rejection? patterns = some e) (s : RowStream) :
    project patterns s = .error e := by
  rw [project, h]

theorem project_of_none (h : Wildcard.rejection? patterns = none) (s : RowStream) :
    project patterns s = .ok (s.select (keeps patterns)) := by
  rw [project, h]

theorem inner_of_project (h : project patterns s = .error e) : Inner e := by
  cases hpatterns : Wildcard.rejection? patterns with
  | none =>
    rw [project_of_none hpatterns] at h
    cases h
  | some e' =>
    rw [project_of_some hpatterns] at h
    injection h with h
    obtain ⟨_, p, _, reason, _, _, _, rfl⟩ := Wildcard.rejection?_eq_some_iff.mp hpatterns
    exact h ▸ .refused p reason

theorem inner_of_apply (hworks : op.worksOnRows = true) (h : apply inputs op = .error e) :
    Inner e := by
  cases op with
  | union =>
    cases inputs with
    | nil =>
      injection h with h
      exact h ▸ .unionWithoutInput
    | cons s rest => exact inner_of_uniteFrom h
  | limit count offset =>
    exact inner_of_bind_single (g := fun s => .ok (s.limit count offset)) (fun _ h => nomatch h) h
  | project patterns => exact inner_of_bind_single (fun _ => inner_of_project) h
  | _ => cases hworks

/-- Every other operator is turned down, whatever it is given. -/
theorem apply_of_not_worksOnRows (h : op.worksOnRows = false) (inputs : List RowStream) :
    apply inputs op = .error (.unexpectedOperator op.kind.name) := by
  cases op with
  | union => cases h
  | limit count offset => cases h
  | project patterns => cases h
  | _ => rfl

theorem raised_of_apply (h : apply inputs op = .error e) : Raised e := by
  cases hworks : op.worksOnRows with
  | true => exact .inner (inner_of_apply hworks h)
  | false =>
    rw [apply_of_not_worksOnRows hworks] at h
    injection h with h
    exact h ▸ .unexpectedOperator _

theorem raised_of_run {operators : List Operator} (h : run operators inputs = .error e) :
    Raised e := by
  induction operators generalizing inputs with
  | nil => exact .inner (inner_of_single h)
  | cons op rest ih =>
    unfold run at h
    split at h
    · rename_i e' happly
      injection h with h
      exact h ▸ raised_of_apply happly
    · exact ih h

/-- Operators can be cut in two, unless nothing is left to put several inputs, or none, into one. -/
theorem run_append {xs : List Operator} (h : xs ≠ [] ∨ inputs.length = 1) (ys : List Operator) :
    run (xs ++ ys) inputs = (run xs inputs).bind fun s => run ys [s] := by
  induction xs generalizing inputs with
  | nil =>
    obtain ⟨s, rfl⟩ := List.length_eq_one_iff.mp (h.resolve_left fun hne => hne rfl)
    rfl
  | cons op rest ih =>
    rw [List.cons_append, run, run]
    cases apply inputs op with
    | error e => rfl
    | ok s => exact ih (.inr rfl)

end Pipeline

namespace Task

variable {operators : List Operator} {source : Option RowStream} {rs : List TaskResult} {e : Error}

theorem mem_of_firstError? (h : firstError? rs = some e) : .error e ∈ rs := by
  obtain ⟨r, hr, hfound⟩ := List.exists_of_findSome?_eq_some h
  cases r with
  | error e' =>
    obtain rfl := Option.some.inj hfound
    exact hr
  | ok _ => cases hfound

theorem notMem_of_firstError? (h : firstError? rs = none) : .error e ∉ rs := by
  intro hmem
  exact absurd (List.findSome?_eq_none_iff.mp h _ hmem) (Option.some_ne_none e)

/-- A memory task fails with the first failure of a parent, or with an error of its operators. -/
theorem fedResult_eq_error [PatternLibrary] (h : fedResult operators source rs = .error e) :
    (∃ e', firstError? rs = some e' ∧ e = .parentFailed e') ∨
      firstError? rs = none ∧ Pipeline.Raised e := by
  unfold fedResult at h
  split at h
  · rename_i e' hfirst
    injection h with h
    exact .inl ⟨e', hfirst, h.symm⟩
  · rename_i hfirst
    refine .inr ⟨hfirst, ?_⟩
    cases hrun : Pipeline.run operators (source.toList ++ rowOutputs rs) with
    | ok s =>
      rw [hrun] at h
      cases h
    | error e' =>
      rw [hrun] at h
      injection h with h
      exact h ▸ Pipeline.raised_of_run hrun

end Task

end SeriesExec
