import Mathlib.Data.List.Induction
import SeriesExec.Cluster.Driver

/-!
# Stores — what a task does to the batches of a unit

A store looks at the batches of one unit when it executes a task, and it changes no other.  This
file defines:

* `Store.Ordered` — the units of a store are in the order of their names, each of them once;
* `Store.written` — the batches of a unit after operators have been executed on it;
* `Store.replay` — what a store makes of calls, one after another.

Main statements: after a task the batches of its unit are those that its first operator writes, and
all other units are as they were (`batches_executeOn`); the result depends on the batches of the
unit alone (`result_executeOn_congr`); what is left of a task that fails (`batches_of_failed`); and
in a row of calls those for one unit go as if there were no others (`batches_replay`,
`replay_isOn`).
-/

namespace SeriesExec
namespace Store

variable {s s' : Store} {u v : UnitId} {task : TaskId}

/-- The units are in the order of their names, so each is there once. -/
def Ordered (s : Store) : Prop :=
  KeyedList.Sorted s.units

theorem ordered_empty : empty.Ordered := List.Pairwise.nil

theorem batches_empty (u : UnitId) : empty.batches u = [] := rfl

/-! ## Writing -/

/-- The batches after operators: the first of them may write, and no other does.  Nothing is removed
by patterns of which one is refused. -/
def written [PatternLibrary] (ops : List Operator) (batches : List Batch) : List Batch :=
  match ops with
  | .insert b :: _ => if hasKey b then batches ++ [b] else batches
  | .delete patterns :: _ =>
    if (Wildcard.rejection? patterns).isSome then batches else stripAll patterns batches
  | _ => batches

theorem written_of_read [PatternLibrary] {ops : List Operator}
    (h : ops.head?.any Operator.isWrite = false)
    (batches : List Batch) : written ops batches = batches := by
  rcases ops with _ | ⟨_ | _ | _ | _ | _ | _, rest⟩ <;> first | rfl | cases h

/-- What stands behind a write does not count for what is written. -/
theorem written_cons [PatternLibrary] (op : Operator) (rest : List Operator)
    (batches : List Batch) : written (op :: rest) batches = written [op] batches := by
  cases op <;> rfl

theorem insert_of_hasKey {b : Batch} (hb : hasKey b = true) (s : Store) (u : UnitId) :
    s.insert u b = .ok ⟨KeyedList.update u (fun old => old.getD [] ++ [b]) s.units⟩ :=
  if_pos hb

theorem insert_of_not_hasKey {b : Batch} (hb : hasKey b = false) (s : Store) (u : UnitId) :
    s.insert u b = .error (.fault .keyNotFirst) :=
  if_neg (Bool.not_eq_true _ ▸ hb)

theorem executeOn_delete_of_some [PatternLibrary] {patterns : List String} {e : Error}
    (h : Wildcard.rejection? patterns = some e) (s : Store) (u : UnitId) (task : TaskId)
    (rest : List Operator) : s.executeOn u task (.delete patterns :: rest) = (s, .error e) := by
  rw [executeOn, h]

theorem executeOn_delete_of_none [PatternLibrary] {patterns : List String}
    (h : Wildcard.rejection? patterns = none) (s : Store) (u : UnitId) (task : TaskId)
    (rest : List Operator) : s.executeOn u task (.delete patterns :: rest) =
      (s.delete u patterns, afterWrite task rest) := by
  rw [executeOn, h]

theorem batches_update (hs : s.Ordered) (u : UnitId) (f : List Batch → List Batch) (v : UnitId) :
    (⟨KeyedList.update u (fun old => f (old.getD [])) s.units⟩ : Store).batches v =
      if v = u then f (s.batches u) else s.batches v := by
  rw [batches, KeyedList.find?_update u v _ hs]
  split <;> rfl

theorem find?_map_at (f : List Batch → List Batch) (l : List (UnitId × List Batch)) :
    KeyedList.find? v (l.map fun e => if e.1 = u then (e.1, f e.2) else e) =
      if v = u then (KeyedList.find? u l).map f else KeyedList.find? v l := by
  induction l with
  | nil => split <;> rfl
  | cons e rest ih =>
    have hiff : ∀ w : UnitId, compare w e.1 = .eq ↔ w = e.1 := fun w =>
      Std.LawfulEqCmp.compare_eq_iff_eq
    simp only [List.map_cons, KeyedList.find?_cons, ih, hiff]
    -- The entry is that of `u` or not, and `v` is looked for there or further on.
    by_cases he : e.1 = u
    · subst he
      by_cases hv : v = e.1 <;> simp [hv]
    · by_cases hv : v = u
      · subst hv
        simp [he, Ne.symm he]
      · simp [he, hv]

theorem batches_delete (s : Store) (u : UnitId) (patterns : List String) (v : UnitId) :
    (s.delete u patterns).batches v =
      if v = u then stripAll patterns (s.batches u) else s.batches v := by
  rw [batches, delete, find?_map_at]
  split
  · rw [batches]
    cases KeyedList.find? u s.units <;> rfl
  · rfl

theorem ordered_delete (hs : s.Ordered) (u : UnitId) (patterns : List String) :
    (s.delete u patterns).Ordered := by
  refine List.pairwise_map.mpr (List.Pairwise.imp ?_ hs)
  intro a b hab
  -- A unit keeps its name, whether it is the one or not.
  have hname : ∀ e : UnitId × List Batch,
      (if e.1 = u then (e.1, stripAll patterns e.2) else e).1 = e.1 := fun e => by split <;> rfl
  rw [hname, hname]
  exact hab

/-! ## Executing -/

section

variable [PatternLibrary]

theorem ordered_executeOn (hs : s.Ordered) (u : UnitId) (task : TaskId) (ops : List Operator) :
    (s.executeOn u task ops).1.Ordered := by
  unfold executeOn
  split
  · exact hs
  · rename_i b rest
    cases hb : hasKey b with
    | true =>
      rw [insert_of_hasKey hb]
      exact KeyedList.sorted_update u _ hs
    | false =>
      rw [insert_of_not_hasKey hb]
      exact hs
  · split
    · exact hs
    · exact ordered_delete hs u _
  · split <;> exact hs
  · exact hs

/-- A task changes the batches of its unit as its first operator says, and no others. -/
theorem batches_executeOn (hs : s.Ordered) (u : UnitId) (task : TaskId) (ops : List Operator)
    (v : UnitId) : (s.executeOn u task ops).1.batches v =
      if v = u then written ops (s.batches u) else s.batches v := by
  have hsame : s.batches v = if v = u then s.batches u else s.batches v := by
    split
    · rename_i hv
      rw [hv]
    · rfl
  unfold executeOn
  split
  · exact hsame
  · rename_i b rest
    cases hb : hasKey b with
    | true =>
      rw [insert_of_hasKey hb, written, if_pos hb]
      exact batches_update hs u (fun old => old ++ [b]) v
    | false =>
      have hnothing : written (.insert b :: rest) (s.batches u) = s.batches u := by
        simp [written, hb]
      rw [insert_of_not_hasKey hb, hnothing]
      exact hsame
  · rename_i patterns rest
    cases hpatterns : Wildcard.rejection? patterns with
    | some e =>
      have hnothing : written (.delete patterns :: rest) (s.batches u) = s.batches u := by
        simp [written, hpatterns]
      rw [hnothing]
      exact hsame
    | none =>
      have hstripped : written (.delete patterns :: rest) (s.batches u) =
          stripAll patterns (s.batches u) := by
        simp [written, hpatterns]
      rw [hstripped]
      exact batches_delete s u patterns v
  · split <;> exact hsame
  · rename_i op rest hinsert hdelete hproject
    have hread : (op :: rest).head?.any Operator.isWrite = false := by
      cases op with
      | insert b => exact (hinsert b rfl).elim
      | delete patterns => exact (hdelete patterns rfl).elim
      | _ => rfl
    rw [written_of_read hread]
    exact hsame

/-- The result of a task depends on the batches of its unit and on nothing else in the store. -/
theorem result_executeOn_congr (h : s.batches u = s'.batches v) (task : TaskId)
    (ops : List Operator) : (s.executeOn u task ops).2 = (s'.executeOn v task ops).2 := by
  unfold executeOn
  split
  · rfl
  · rename_i b rest
    cases hb : hasKey b with
    | true => rw [insert_of_hasKey hb, insert_of_hasKey hb]
    | false => rw [insert_of_not_hasKey hb, insert_of_not_hasKey hb]
  · split <;> rfl
  · rw [h]
    split <;> rfl
  · rfl

/-! ## Failing -/

/-- A write that stands alone writes nothing if it fails. -/
theorem written_of_failed {op : Operator} {e : Error}
    (hfailed : (s.executeOn u task [op]).2 = .error e) (batches : List Batch) :
    written [op] batches = batches := by
  cases op with
  | insert b =>
    cases hb : hasKey b with
    | true =>
      rw [executeOn, insert_of_hasKey hb] at hfailed
      cases hfailed
    | false => simp [written, hb]
  | delete patterns =>
    cases hpatterns : Wildcard.rejection? patterns with
    | some e' => simp [written, hpatterns]
    | none =>
      rw [executeOn_delete_of_none hpatterns] at hfailed
      cases hfailed
  | _ => rfl

/-- A task that fails leaves the store as it was, unless operators stand behind a write. -/
theorem executeOn_of_failed {ops : List Operator} {e : Error}
    (hfailed : (s.executeOn u task ops).2 = .error e)
    (halone : ∀ op rest, ops = op :: rest → op.isWrite = true → rest = []) :
    (s.executeOn u task ops).1 = s := by
  rcases ops with _ | ⟨op, rest⟩
  · rfl
  · cases op with
    | insert b =>
      obtain rfl := halone _ rest rfl rfl
      cases hb : hasKey b with
      | true =>
        rw [executeOn, insert_of_hasKey hb] at hfailed
        cases hfailed
      | false => rw [executeOn, insert_of_not_hasKey hb]
    | delete patterns =>
      obtain rfl := halone _ rest rfl rfl
      cases hpatterns : Wildcard.rejection? patterns with
      | some e' => rw [executeOn_delete_of_some hpatterns]
      | none =>
        rw [executeOn_delete_of_none hpatterns] at hfailed
        cases hfailed
    | project patterns =>
      unfold executeOn
      dsimp only
      split <;> rfl
    | _ => rfl

/-- What is left of a task that fails:

* the store is as it was, unless operators stand behind a write;
* if they do, the unit of the task has taken the write, and no other unit has changed;
* so all units have the batches that they had exactly if no operators stand behind a write, or the
  write would change nothing. -/
theorem batches_of_failed (hs : s.Ordered) {stamp : Option UnitId} {ops : List Operator}
    {e : Error} (hfailed : (s.execute task stamp ops).2 = .error e) :
    ((∀ op rest, ops = op :: rest → op.isWrite = true → rest = []) →
      (s.execute task stamp ops).1 = s) ∧
    (∀ u op rest, stamp = some u → ops = op :: rest → op.isWrite = true → rest ≠ [] → ∀ v,
      (s.execute task stamp ops).1.batches v =
        if v = u then written [op] (s.batches u) else s.batches v) ∧
    ((∀ v, (s.execute task stamp ops).1.batches v = s.batches v) ↔
      ∀ u op rest, stamp = some u → ops = op :: rest → op.isWrite = true → rest ≠ [] →
        written [op] (s.batches u) = s.batches u) := by
  have hsame : (∀ op rest, ops = op :: rest → op.isWrite = true → rest = []) →
      (s.execute task stamp ops).1 = s := by
    intro halone
    cases stamp with
    | none => rfl
    | some u => exact executeOn_of_failed hfailed halone
  -- A write goes into the store before the operators behind it are looked at.
  have htaken : ∀ u op rest, stamp = some u → ops = op :: rest → ∀ v,
      (s.execute task stamp ops).1.batches v =
        if v = u then written [op] (s.batches u) else s.batches v := by
    rintro u op rest rfl rfl v
    rw [← written_cons op rest]
    exact batches_executeOn hs u task (op :: rest) v
  refine ⟨hsame, fun u op rest hu hops _ _ => htaken u op rest hu hops, ?_⟩
  constructor
  · intro h u op rest hu hops _ _
    have hleft := htaken u op rest hu hops u
    rw [if_pos rfl, h u] at hleft
    exact hleft.symm
  · intro h v
    -- Either operators stand behind a write, and it changes nothing, or the store was left alone.
    by_cases htail : ∃ op rest, ops = op :: rest ∧ op.isWrite = true ∧ rest ≠ []
    · obtain ⟨op, rest, hops, hwrite, hrest⟩ := htail
      cases stamp with
      | none => rfl
      | some u =>
        rw [htaken u op rest rfl hops v, h u op rest rfl hops hwrite hrest]
        split
        · rename_i hv
          rw [hv]
        · rfl
    · rw [hsame fun op rest hops hwrite => Classical.byContradiction fun hrest =>
        htail ⟨op, rest, hops, hwrite, hrest⟩]

end

/-- One row of the key column alone. -/
def sampleBatch : Batch :=
  ⟨[⟨⟨keyName, .int64, false, Tags.empty⟩, [some (.int 1)]⟩], 1, by simp⟩

theorem batches_of_failed_sample :
    ∃ e, (empty.execute 0 (some "unit") [.insert sampleBatch, .limit 1 0]).2 = .error e ∧
      ∀ v, (empty.execute 0 (some "unit") [.insert sampleBatch, .limit 1 0]).1.batches v =
        if v = "unit" then written [.insert sampleBatch] (empty.batches "unit")
        else empty.batches v := by
  refine ⟨.fault (.writeNotAlone 0), rfl, ?_⟩
  exact (batches_of_failed ordered_empty rfl).2.1 "unit" (.insert sampleBatch) [.limit 1 0] rfl rfl
    rfl (List.cons_ne_nil _ _)

/-- An insertion with an operator behind it fails, and its batch stays. -/
theorem batch_left_by_failed :
    ¬∀ (s : Store) (task : TaskId) (stamp : Option UnitId) (ops : List Operator) (e : Error),
      (s.execute task stamp ops).2 = .error e →
        ∀ v, (s.execute task stamp ops).1.batches v = s.batches v := by
  intro h
  have hleft : [sampleBatch] = [] :=
    h empty 0 (some "unit") [.insert sampleBatch, .limit 1 0] (.fault (.writeNotAlone 0)) rfl "unit"
  cases hleft

/-! ## One task after another -/

variable [PatternLibrary]

/-- What a call changes in the batches of a unit: those of the unit that the task is stamped with
are written, all others stay. -/
theorem batches_execute (hs : s.Ordered) (task : TaskId) (stamp : Option UnitId)
    (ops : List Operator) (u : UnitId) : (s.execute task stamp ops).1.batches u =
      if stamp = some u then written ops (s.batches u) else s.batches u := by
  cases stamp with
  | none => rfl
  | some w =>
    refine (batches_executeOn hs w task ops u).trans ?_
    by_cases hw : w = u
    · subst hw
      simp
    · simp [hw, Ne.symm hw]

theorem ordered_execute (hs : s.Ordered) (task : TaskId) (stamp : Option UnitId)
    (ops : List Operator) : (s.execute task stamp ops).1.Ordered := by
  cases stamp with
  | none => exact hs
  | some u => exact ordered_executeOn hs u task ops

/-- A task that a store is called for, with the unit it is stamped with and its operators. -/
structure StoreCall where
  task : TaskId
  stamp : Option UnitId
  operators : List Operator

/-- Whether the call is for a task that is stamped with the unit. -/
def StoreCall.isOn (u : UnitId) (call : StoreCall) : Bool :=
  call.stamp == some u

/-- The result of the task that the store is called for. -/
def answer (s : Store) (call : StoreCall) : TaskResult :=
  (Outcome.answer (s.execute call.task call.stamp call.operators).2).result

theorem answer_eq_ok_iff {call : StoreCall} {o : Output} :
    s.answer call = .ok o ↔ (s.execute call.task call.stamp call.operators).2 = .ok o :=
  Outcome.result_answer_eq_ok_iff

/-- What the store fails with is what the task fails with, if it is a failure of the execution, and
else the cause of that. -/
theorem answer_eq_error_iff {call : StoreCall} {e : Error} :
    s.answer call = .error e ↔
      (e.kind = .execution ∧ (s.execute call.task call.stamp call.operators).2 = .error e) ∨
        ∃ cause, cause.kind ≠ .execution ∧
          (s.execute call.task call.stamp call.operators).2 = .error cause ∧
          e = .execution cause :=
  Outcome.result_answer_eq_error_iff

/-- The store after one more call, with all calls and their results. -/
def serve (served : Store × List (StoreCall × TaskResult)) (call : StoreCall) :
    Store × List (StoreCall × TaskResult) :=
  ((served.1.execute call.task call.stamp call.operators).1,
    served.2 ++ [(call, served.1.answer call)])

/-- The store after calls, one after another, with the calls and their results. -/
def replay (s : Store) (calls : List StoreCall) : Store × List (StoreCall × TaskResult) :=
  calls.foldl serve (s, [])

theorem replay_snoc (s : Store) (calls : List StoreCall) (call : StoreCall) :
    s.replay (calls ++ [call]) = serve (s.replay calls) call := by
  rw [replay, List.foldl_append, List.foldl_cons, List.foldl_nil, replay]

theorem ordered_replay (hs : s.Ordered) (calls : List StoreCall) : (s.replay calls).1.Ordered := by
  induction calls using List.reverseRecOn with
  | nil => exact hs
  | append_singleton calls call ih =>
    rw [replay_snoc]
    exact ordered_execute ih call.task call.stamp call.operators

/-- Calls in two parts: the second finds the store as the first has left it. -/
theorem replay_append (s : Store) (calls more : List StoreCall) :
    s.replay (calls ++ more) = (((s.replay calls).1.replay more).1,
      (s.replay calls).2 ++ ((s.replay calls).1.replay more).2) := by
  induction more using List.reverseRecOn with
  | nil =>
    rw [List.append_nil]
    exact Prod.ext rfl (List.append_nil _).symm
  | append_singleton more call ih =>
    rw [← List.append_assoc, replay_snoc, replay_snoc, ih]
    exact Prod.ext rfl (List.append_assoc _ _ _)

theorem length_replay (s : Store) (calls : List StoreCall) :
    (s.replay calls).2.length = calls.length := by
  induction calls using List.reverseRecOn with
  | nil => rfl
  | append_singleton calls call ih =>
    rw [replay_snoc, List.length_append, ← ih]
    exact List.length_append

/-- Every result is the answer of the store at that time. -/
theorem exists_answer_of_mem_replay {calls : List StoreCall} {p : StoreCall × TaskResult}
    (hp : p ∈ (s.replay calls).2) : ∃ s' : Store, p.2 = s'.answer p.1 := by
  induction calls using List.reverseRecOn with
  | nil => cases hp
  | append_singleton calls call ih =>
    rw [replay_snoc] at hp
    rcases List.mem_append.mp hp with hp | hp
    · exact ih hp
    · rw [List.mem_singleton.mp hp]
      exact ⟨_, rfl⟩

/-- What calls leave of a unit is what those for the unit write, one after another. -/
theorem batches_replay (hs : s.Ordered) (u : UnitId) (calls : List StoreCall) :
    (s.replay calls).1.batches u = ((calls.filter (StoreCall.isOn u)).map StoreCall.operators).foldl
      (fun bs ops => written ops bs) (s.batches u) := by
  induction calls using List.reverseRecOn with
  | nil => rfl
  | append_singleton calls call ih =>
    rw [replay_snoc, serve, batches_execute (ordered_replay hs calls), ih, List.filter_append,
      List.map_append, List.foldl_append]
    by_cases hu : call.stamp = some u <;> simp [StoreCall.isOn, hu]

/-- The calls for a unit are answered as if there were no others. -/
theorem replay_isOn (hs : s.Ordered) (u : UnitId) (calls : List StoreCall) :
    ((s.replay calls).2.filter fun p => p.1.isOn u) =
      (s.replay (calls.filter (StoreCall.isOn u))).2 := by
  induction calls using List.reverseRecOn with
  | nil => rfl
  | append_singleton calls call ih =>
    rw [replay_snoc, serve, List.filter_append, ih, List.filter_append]
    cases hu : call.isOn u with
    | false => simp [hu]
    | true =>
      -- The unit has the same batches in both, and the answer depends on nothing else.
      have hbatches : (s.replay calls).1.batches u =
          (s.replay (calls.filter (StoreCall.isOn u))).1.batches u := by
        rw [batches_replay hs, batches_replay hs, List.filter_filter]
        simp only [Bool.and_self]
      have hanswer : (s.replay calls).1.answer call =
          (s.replay (calls.filter (StoreCall.isOn u))).1.answer call := by
        rw [answer, answer, show call.stamp = some u from eq_of_beq hu]
        exact congrArg (fun r => (Outcome.answer r).result)
          (result_executeOn_congr hbatches call.task call.operators)
      rw [List.filter_cons_of_pos hu, List.filter_nil, replay_snoc, serve, hanswer]
      simp [hu]

end Store
end SeriesExec
