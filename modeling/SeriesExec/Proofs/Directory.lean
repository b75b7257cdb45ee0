import Mathlib.Data.List.Sort
import Mathlib.Data.Nat.Find
import SeriesExec.Proofs.ByteOrder
import SeriesExec.Proofs.Excerpts
import SeriesExec.Proofs.Listings
import SeriesExec.Proofs.Results
import SeriesExec.Proofs.Routing

/-!
# Directory — the series of the whole cluster

A listing asks the engines that are ready, and of the series with one physical path it shows the
first that it meets.  This file defines:

* `SeriesQuery.Admits`, `SeriesQuery.shown` — what a query lets through, and what it shows of that;
* `SeriesQuery.RefusedFirst` — the error for its first pattern that is refused;
* `SeriesQuery.page`, `SeriesQuery.whole` — the same query for one page, and for all series;
* `Cluster.Offers`, `Cluster.Fails` — what the engines that are ready tell;
* `Cluster.IsDirectory` — the first series of each physical path, in the order of the bytes.

None of these speaks of the order in which engines were registered or are asked.  A listing is
cut into three: what is gathered from the engines (`gatherSeries_eq_error_iff`,
`gatherSeries_eq_ok`), that the directory comes out of it (`isDirectory_gathered`), and what a query
shows of a directory (`select_eq_ok`, `flatMap_shown_page`) unless its patterns are refused
(`select_eq_error_iff`).
-/

namespace SeriesExec

/-! ## Queries -/

namespace SeriesQuery

variable {q : SeriesQuery}

/-- One of the patterns matches the path, if there are patterns, and the filter lets the tags
through, if there is one. -/
def Admits (q : SeriesQuery) (x : Series) : Prop :=
  (q.paths = [] ∨ ∃ p ∈ q.paths, (Wildcard.mk p).test x.path = true) ∧
    ∀ f ∈ q.filter, f.test x.tags = true

instance (q : SeriesQuery) (x : Series) : Decidable (q.Admits x) :=
  inferInstanceAs (Decidable (_ ∧ _))

/-- What a query shows of a directory. -/
def shown (q : SeriesQuery) (directory : List Series) : List Series :=
  ((directory.filter fun x => q.Admits x).drop q.offset).take (q.limit.getD directory.length)

/-- The query for the page with number `k` of the pages of `n` series. -/
def page (q : SeriesQuery) (n k : Nat) : SeriesQuery :=
  { q with limit := some n, offset := k * n }

/-- The query for all series. -/
def whole (q : SeriesQuery) : SeriesQuery :=
  { q with limit := none, offset := 0 }

theorem admits_iff (x : Series) : q.Admits x ↔
    ((q.paths.isEmpty || Wildcard.anyTest q.paths x.path) && q.filter.all fun f => f.test x.tags) =
      true := by
  rw [Bool.and_eq_true, Bool.or_eq_true, List.isEmpty_iff, Wildcard.anyTest, List.any_eq_true,
    Option.all_eq_true]
  rfl

theorem extract_eq_shown (q : SeriesQuery) (l : List Series) : q.extract l = q.shown l := by
  have hfilter : (l.filter fun x => (q.paths.isEmpty || Wildcard.anyTest q.paths x.path) &&
      q.filter.all fun f => f.test x.tags) = l.filter fun x => q.Admits x :=
    List.filter_congr fun x _ => by rw [Bool.eq_iff_iff, decide_eq_true_iff, admits_iff]
  unfold extract shown
  rw [hfilter]
  cases q.limit with
  | some n => rfl
  | none =>
    -- Without a limit as many are taken as there can be.
    refine (List.take_of_length_le ?_).symm
    exact (List.drop_sublist _ _).length_le.trans (List.length_filter_le ..)

theorem mem_sortedPaths {p : String} : p ∈ q.sortedPaths ↔ p ∈ q.paths := by
  have hsorted : KeyedList.Sorted (KeyedList.ofList (q.paths.map fun p => (p, ()))) :=
    KeyedList.sorted_ofList _
  have hmem : p ∈ q.sortedPaths ↔
      KeyedList.find? p (KeyedList.ofList (q.paths.map fun p => (p, ()))) = some () := by
    constructor
    · intro hp
      obtain ⟨e, he, rfl⟩ := List.mem_map.mp hp
      exact KeyedList.find?_of_mem hsorted he
    · exact fun hp => List.mem_map.mpr ⟨(p, ()), KeyedList.mem_of_find? hp, rfl⟩
  rw [hmem, KeyedList.find?_ofList, Option.map_eq_some_iff]
  constructor
  · rintro ⟨e, hfound, -⟩
    have hkey := List.find?_some hfound
    have hmem := List.mem_reverse.mp (List.mem_of_find?_eq_some hfound)
    obtain ⟨p', hp', rfl⟩ := List.mem_map.mp hmem
    exact of_decide_eq_true hkey ▸ hp'
  · intro hp
    have hsome : ((q.paths.map fun p => (p, ())).reverse.find? fun e => decide (e.1 = p)).isSome :=
      List.find?_isSome.mpr ⟨(p, ()), List.mem_reverse.mpr (List.mem_map_of_mem hp),
        decide_eq_true rfl⟩
    obtain ⟨e, he⟩ := Option.isSome_iff_exists.mp hsome
    exact ⟨e, he, rfl⟩

theorem sorted_sortedPaths (q : SeriesQuery) :
    q.sortedPaths.Pairwise fun p p' => Text.bytes p < Text.bytes p' :=
  List.pairwise_map.mpr (List.Pairwise.imp
    (fun hlt => Text.bytes_lt_bytes (compareOfLessAndEq_eq_lt.mp hlt)) (KeyedList.sorted_ofList _))

theorem flatMap_windows {α : Type} (l : List α) (n m : Nat) :
    ((List.range m).flatMap fun k => (l.drop (k * n)).take n) = l.take (m * n) := by
  induction m with
  | zero => rw [Nat.zero_mul, List.take_zero, List.range_zero, List.flatMap_nil]
  | succ m ih =>
    rw [List.range_succ, List.flatMap_append, ih, List.flatMap_singleton, Nat.succ_mul,
      List.take_add]

/-- The pages of a query, one after another, are all that it lets through. -/
theorem flatMap_shown_page {l : List Series} {n m : Nat} (hm : l.length ≤ m * n) :
    ((List.range m).flatMap fun k => (q.page n k).shown l) = q.whole.shown l := by
  have hle : (l.filter fun x => q.Admits x).length ≤ l.length := List.length_filter_le ..
  calc ((List.range m).flatMap fun k => (q.page n k).shown l)
      = (l.filter fun x => q.Admits x).take (m * n) :=
          flatMap_windows (l.filter fun x => q.Admits x) n m
    _ = l.filter fun x => q.Admits x := List.take_of_length_le (hle.trans hm)
    _ = q.whole.shown l := (List.take_of_length_le hle).symm

section

variable [PatternLibrary] {err : Error} {l : List Series}

/-- The error for a pattern that is refused; no other one that is comes before it by its bytes. -/
def RefusedFirst (q : SeriesQuery) (err : Error) : Prop :=
  ∃ p ∈ q.paths, ∃ reason, PatternLibrary.refusal? p = some reason ∧
    err = .context ("invalid wildcard pattern:" ++ p) (.fault (.text reason)) ∧
    ∀ p' ∈ q.paths, PatternLibrary.refusal? p' ≠ none → p' ≠ p → Text.bytes p < Text.bytes p'

theorem rejection?_sortedPaths_eq_some_iff :
    Wildcard.rejection? q.sortedPaths = some err ↔ q.RefusedFirst err := by
  rw [Wildcard.rejection?_eq_some_iff]
  have hsorted := q.sorted_sortedPaths
  constructor
  · rintro ⟨before, p, after, reason, hsplit, hbefore, hreason, rfl⟩
    refine ⟨p, mem_sortedPaths.mp (hsplit ▸ List.mem_append_right _ List.mem_cons_self), reason,
      hreason, rfl, fun p' hp' hrefused hne => ?_⟩
    rw [hsplit, List.pairwise_append, List.pairwise_cons] at hsorted
    have hmem := mem_sortedPaths.mpr hp'
    rw [hsplit] at hmem
    rcases List.mem_append.mp hmem with hmem | hmem
    · exact absurd (hbefore p' hmem) hrefused
    · exact hsorted.2.1.1 p' ((List.mem_cons.mp hmem).resolve_left hne)
  · rintro ⟨p, hp, reason, hreason, rfl, hfirst⟩
    obtain ⟨before, after, hsplit⟩ := List.append_of_mem (mem_sortedPaths.mpr hp)
    refine ⟨before, p, after, reason, hsplit, fun p' hp' => ?_, hreason, rfl⟩
    rw [hsplit] at hsorted
    have hlt : Text.bytes p' < Text.bytes p :=
      (List.pairwise_append.mp hsorted).2.2 p' hp' p List.mem_cons_self
    by_contra hrefused
    have hmem := mem_sortedPaths.mp (hsplit ▸ List.mem_append_left _ hp')
    exact List.lt_asymm hlt (hfirst p' hmem hrefused fun heq => List.lt_irrefl _ (heq ▸ hlt))

theorem select_eq_error_iff : q.select l = .error err ↔ q.RefusedFirst err := by
  rw [← rejection?_sortedPaths_eq_some_iff, select]
  cases Wildcard.rejection? q.sortedPaths <;> simp

theorem select_eq_ok (hpatterns : ∀ p ∈ q.paths, PatternLibrary.refusal? p = none) :
    q.select l = .ok (q.shown l) := by
  have hnone : Wildcard.rejection? q.sortedPaths = none :=
    Wildcard.rejection?_eq_none_iff.mpr fun p hp => hpatterns p (mem_sortedPaths.mp hp)
  rw [select, hnone, extract_eq_shown]

end

end SeriesQuery

/-! ## What the engines tell -/

namespace Cluster

variable {c c' : Cluster} {e : StorageEngine} {es : List StorageEngine} {err : Error}
  {l : List Series} {x : Series} {q : SeriesQuery}

/-- The driver serves the engine, which is registered and ready. -/
def Serves (c : Cluster) (e : StorageEngine) (d : Driver) : Prop :=
  e ∈ c.catalog.engineList ∧ ∃ site, c.engine? e.id = some site ∧ site.driver = d

/-- The engine is ready, and these are the series that its driver tells, with the head of the engine
in front of their paths if it has one. -/
def Offers (c : Cluster) (e : StorageEngine) (l : List Series) : Prop :=
  ∃ d told, c.Serves e d ∧ c.driverSeries d = .ok told ∧ l = told.map (withHead e.schemaHead)

/-- The engine is ready, and its driver fails to tell its series. -/
def Fails (c : Cluster) (e : StorageEngine) (err : Error) : Prop :=
  ∃ d, c.Serves e d ∧ c.driverSeries d = .error err

/-- The error of the engine with the lowest number of those that fail. -/
def FailsFirst (c : Cluster) (err : Error) : Prop :=
  ∃ e, c.Fails e err ∧ ∀ e' err', c.Fails e' err' → e.id ≤ e'.id

/-- Of all offered series with its physical path this one is met first: no engine with a lower
number offers one, and its own engine offers none before it. -/
def ComesFirst (c : Cluster) (x : Series) : Prop :=
  ∃ e before after, c.Offers e (before ++ x :: after) ∧
    (∀ y ∈ before, y.physicalPath ≠ x.physicalPath) ∧
    ∀ e' l, c.Offers e' l → e'.id < e.id → ∀ y ∈ l, y.physicalPath ≠ x.physicalPath

/-- The first series of each physical path, strictly ascending by the bytes of that path. -/
structure IsDirectory (c : Cluster) (l : List Series) : Prop where
  ascending : l.Pairwise fun x y => Text.bytes x.physicalPath < Text.bytes y.physicalPath
  shows : ∀ x, x ∈ l ↔ c.ComesFirst x

/-- There is one directory at most. -/
theorem IsDirectory.eq {l l' : List Series} (h : c.IsDirectory l) (h' : c.IsDirectory l') :
    l = l' := by
  have hirrefl : Std.Irrefl fun x y : Series =>
      Text.bytes x.physicalPath < Text.bytes y.physicalPath := ⟨fun _ => List.lt_irrefl _⟩
  have hantisymm : Std.Antisymm fun x y : Series =>
      Text.bytes x.physicalPath < Text.bytes y.physicalPath :=
    ⟨fun _ _ hlt hgt => absurd hgt (List.lt_asymm hlt)⟩
  exact h.ascending.eq_of_mem_iff h'.ascending fun x => (h.shows x).trans (h'.shows x).symm

theorem IsDirectory.congr (h : c.IsDirectory l) (hoffers : ∀ e l, c'.Offers e l ↔ c.Offers e l) :
    c'.IsDirectory l where
  ascending := h.ascending
  shows x := by
    rw [h.shows, ComesFirst, ComesFirst]
    simp only [hoffers]

/-- What is gathered from an engine. -/
def told (c : Cluster) (e : StorageEngine) : List Series :=
  match c.seriesOfEngine e with
  | .ok l => l
  | .error _ => []

theorem seriesOfEngine_eq_error_iff (he : e ∈ c.catalog.engineList) :
    c.seriesOfEngine e = .error err ↔ c.Fails e err := by
  unfold seriesOfEngine
  constructor
  · intro h
    split at h
    · cases h
    · rename_i site hsite
      cases hdriver : c.driverSeries site.driver with
      | ok told => simp [hdriver, Except.map] at h
      | error err' =>
        simp only [hdriver, Except.map, Except.error.injEq] at h
        exact ⟨site.driver, ⟨he, site, hsite, rfl⟩, h ▸ hdriver⟩
  · rintro ⟨d, ⟨_, site, hsite, rfl⟩, hdriver⟩
    rw [hsite]
    simp [hdriver, Except.map]

theorem seriesOfEngine_of_offers (h : c.Offers e l) : c.seriesOfEngine e = .ok l := by
  obtain ⟨d, told, ⟨_, site, hsite, rfl⟩, hdriver, rfl⟩ := h
  simp [seriesOfEngine, hsite, hdriver, Except.map]

theorem told_of_offers (h : c.Offers e l) : c.told e = l := by
  rw [told, seriesOfEngine_of_offers h]

/-- What is gathered from an engine is what it offers. -/
theorem offers_of_mem_told (he : e ∈ c.catalog.engineList) (hx : x ∈ c.told e) :
    c.Offers e (c.told e) := by
  unfold told seriesOfEngine at hx
  cases hsite : c.engine? e.id with
  | none =>
    rw [hsite] at hx
    cases hx
  | some site =>
    rw [hsite] at hx
    cases hdriver : c.driverSeries site.driver with
    | error err =>
      simp only [hdriver, Except.map] at hx
      cases hx
    | ok l =>
      refine ⟨site.driver, l, ⟨he, site, hsite, rfl⟩, hdriver, ?_⟩
      simp [told, seriesOfEngine, hsite, hdriver, Except.map]

/-! ## Gathering -/

/-- Gathering ends with the error of the first engine that has one. -/
theorem gatherSeries_eq_error_iff :
    c.gatherSeries es = .error err ↔ ∃ before e after, es = before ++ e :: after ∧
      (∀ b ∈ before, ∃ l, c.seriesOfEngine b = .ok l) ∧ c.seriesOfEngine e = .error err := by
  induction es with
  | nil => simp [gatherSeries]
  | cons a rest ih =>
    unfold gatherSeries
    cases ha : c.seriesOfEngine a with
    | error err' =>
      constructor
      · intro h
        injection h with h
        exact ⟨[], a, rest, rfl, List.forall_mem_nil _, h ▸ ha⟩
      · rintro ⟨_ | ⟨b, before⟩, e, after, hsplit, hbefore, he⟩
        · obtain ⟨rfl, _⟩ := List.cons.inj hsplit
          exact congrArg Except.error (Except.error.inj (ha.symm.trans he))
        · obtain ⟨rfl, _⟩ := List.cons.inj hsplit
          obtain ⟨l, hl⟩ := hbefore a List.mem_cons_self
          cases ha.symm.trans hl
    | ok l =>
      have hrest : (c.gatherSeries rest).map (l ++ ·) = .error err ↔
          c.gatherSeries rest = .error err := by
        cases c.gatherSeries rest <;> simp [Except.map]
      rw [hrest, ih]
      constructor
      · rintro ⟨before, e, after, rfl, hbefore, he⟩
        exact ⟨a :: before, e, after, rfl, List.forall_mem_cons.mpr ⟨⟨l, ha⟩, hbefore⟩, he⟩
      · rintro ⟨_ | ⟨b, before⟩, e, after, hsplit, hbefore, he⟩
        · obtain ⟨rfl, _⟩ := List.cons.inj hsplit
          cases ha.symm.trans he
        · obtain ⟨_, rfl⟩ := List.cons.inj hsplit
          exact ⟨before, e, after, rfl, (List.forall_mem_cons.mp hbefore).2, he⟩

/-- Without an error everything that engines tell is gathered. -/
theorem gatherSeries_eq_ok (h : ∀ e ∈ es, ∃ l, c.seriesOfEngine e = .ok l) :
    c.gatherSeries es = .ok (es.flatMap c.told) := by
  induction es with
  | nil => rfl
  | cons a rest ih =>
    obtain ⟨⟨l, ha⟩, hrest⟩ := List.forall_mem_cons.mp h
    have htold : c.told a = l := by rw [told, ha]
    rw [gatherSeries, ha, ih hrest, List.flatMap_cons, htold]
    rfl

theorem exists_seriesOfEngine (hok : ∀ e err, ¬ c.Fails e err) (he : e ∈ c.catalog.engineList) :
    ∃ l, c.seriesOfEngine e = .ok l := by
  cases hseries : c.seriesOfEngine e with
  | ok l => exact ⟨l, rfl⟩
  | error err => exact absurd ((seriesOfEngine_eq_error_iff he).mp hseries) (hok e err)

/-! ## Engines by their numbers -/

theorem pairwise_engineList (ho : c.signposts.Ordered) :
    c.catalog.engineList.Pairwise fun a b => a.id < b.id := by
  refine List.pairwise_map.mpr (ho.sorted.imp_of_mem fun {a b} ha hb hlt => ?_)
  rw [← ho.keyed a ha, ← ho.keyed b hb]
  exact Nat.compare_eq_lt.mp hlt

/-- The engines with lower numbers are those that come before. -/
theorem mem_before_iff (ho : c.signposts.Ordered) {before after : List StorageEngine}
    (hsplit : c.catalog.engineList = before ++ e :: after) (e' : StorageEngine) :
    e' ∈ before ↔ e' ∈ c.catalog.engineList ∧ e'.id < e.id := by
  have hpairwise := pairwise_engineList ho
  rw [hsplit] at hpairwise ⊢
  obtain ⟨_, hafter, hbefore⟩ := List.pairwise_append.mp hpairwise
  constructor
  · intro he'
    exact ⟨List.mem_append_left _ he', hbefore e' he' e List.mem_cons_self⟩
  · rintro ⟨hmem, hlt⟩
    rcases List.mem_append.mp hmem with hmem | hmem
    · exact hmem
    · rcases List.mem_cons.mp hmem with rfl | hmem
      · exact absurd hlt (Nat.lt_irrefl _)
      · exact absurd hlt (Nat.lt_asymm ((List.pairwise_cons.mp hafter).1 e' hmem))

theorem gatherSeries_eq_error_iff_failsFirst (ho : c.signposts.Ordered) :
    c.gatherSeries c.catalog.engineList = .error err ↔ c.FailsFirst err := by
  rw [gatherSeries_eq_error_iff]
  constructor
  · rintro ⟨before, e, after, hsplit, hbefore, he⟩
    have hmem : e ∈ c.catalog.engineList := hsplit ▸ List.mem_append_right _ List.mem_cons_self
    refine ⟨e, (seriesOfEngine_eq_error_iff hmem).mp he, fun e' err' hfails => ?_⟩
    by_contra hlt
    obtain ⟨d, hserves, _⟩ := id hfails
    have he' : e' ∈ before :=
      (mem_before_iff ho hsplit e').mpr ⟨hserves.1, Nat.lt_of_not_le hlt⟩
    obtain ⟨l, hl⟩ := hbefore e' he'
    cases ((seriesOfEngine_eq_error_iff hserves.1).mpr hfails).symm.trans hl
  · rintro ⟨e, hfails, hleast⟩
    obtain ⟨d, hserves, _⟩ := id hfails
    obtain ⟨before, after, hsplit⟩ := List.append_of_mem hserves.1
    refine ⟨before, e, after, hsplit, fun b hb => ?_,
      (seriesOfEngine_eq_error_iff hserves.1).mpr hfails⟩
    obtain ⟨hmem, hlt⟩ := (mem_before_iff ho hsplit b).mp hb
    cases hseries : c.seriesOfEngine b with
    | ok l => exact ⟨l, rfl⟩
    | error err' =>
      exact absurd (hleast b err' ((seriesOfEngine_eq_error_iff hmem).mp hseries))
        (Nat.not_le_of_lt hlt)

/-- What is found first under a physical path is the first series that is met. -/
theorem find?_gathered_iff (ho : c.signposts.Ordered) :
    ((c.catalog.engineList.flatMap c.told).find? fun y => y.physicalPath == x.physicalPath) =
      some x ↔ c.ComesFirst x := by
  rw [List.find?_flatMap, List.findSome?_eq_some_iff]
  constructor
  · rintro ⟨before, e, after, hsplit, hfound, hbefore⟩
    obtain ⟨_, front, back, htold, hfront⟩ := List.find?_eq_some_iff_append.mp hfound
    have hmem : e ∈ c.catalog.engineList := hsplit ▸ List.mem_append_right _ List.mem_cons_self
    have hx : x ∈ c.told e := htold ▸ List.mem_append_right _ List.mem_cons_self
    refine ⟨e, front, back, htold ▸ offers_of_mem_told hmem hx, fun y hy => ?_, ?_⟩
    · exact bne_iff_ne.mp (hfront y hy)
    · intro e' l hoffers hlt y hy hpath
      obtain ⟨d, told, hserves, _⟩ := id hoffers
      have he' : e' ∈ before := (mem_before_iff ho hsplit e').mpr ⟨hserves.1, hlt⟩
      exact List.find?_eq_none.mp (hbefore e' he') y (told_of_offers hoffers ▸ hy)
        (beq_iff_eq.mpr hpath)
  · rintro ⟨e, front, back, hoffers, hfront, hlower⟩
    obtain ⟨d, told, hserves, _⟩ := id hoffers
    obtain ⟨before, after, hsplit⟩ := List.append_of_mem hserves.1
    refine ⟨before, e, after, hsplit, ?_, fun b hb => ?_⟩
    · rw [told_of_offers hoffers]
      exact List.find?_eq_some_iff_append.mpr
        ⟨beq_self_eq_true _, front, back, rfl, fun y hy => bne_iff_ne.mpr (hfront y hy)⟩
    · obtain ⟨hmem, hlt⟩ := (mem_before_iff ho hsplit b).mp hb
      refine List.find?_eq_none.mpr fun y hy hpath => ?_
      exact hlower b (c.told b) (offers_of_mem_told hmem hy) hlt y hy (beq_iff_eq.mp hpath)

/-- The directory is what comes out of everything that is gathered. -/
theorem isDirectory_gathered (ho : c.signposts.Ordered) :
    c.IsDirectory (Store.bySeriesPath (c.catalog.engineList.flatMap c.told)) where
  ascending := (List.pairwise_map.mp (Store.sorted_bySeriesPath _)).imp Text.bytes_lt_bytes
  shows _ := Store.mem_bySeriesPath.trans (find?_gathered_iff ho)

/-! ## The answer -/

/-- If no engine fails, the query is put to the directory. -/
theorem listSeries_eq_select [PatternLibrary] (ho : c.signposts.Ordered)
    (hok : ∀ e err, ¬ c.Fails e err) (hl : c.IsDirectory l) : c.listSeries q = q.select l := by
  rw [listSeries, gatherSeries_eq_ok fun e he => exists_seriesOfEngine hok he, hl.eq
    (isDirectory_gathered ho)]
  rfl

theorem listSeries_of_failsFirst [PatternLibrary] (ho : c.signposts.Ordered)
    (h : c.FailsFirst err) : c.listSeries q = .error err := by
  rw [listSeries, (gatherSeries_eq_error_iff_failsFirst ho).mpr h]
  rfl

/-- If some engine fails, there is a first one. -/
theorem exists_failsFirst (h : c.Fails e err) : ∃ err', c.FailsFirst err' := by
  classical
  have hsome : ∃ n, ∃ e err, c.Fails e err ∧ e.id = n := ⟨e.id, e, err, h, rfl⟩
  obtain ⟨e', err', hfails, hid⟩ := Nat.find_spec hsome
  exact ⟨err', e', hfails, fun e'' err'' h' =>
    hid.symm ▸ Nat.find_min' hsome ⟨e'', err'', h', rfl⟩⟩

theorem FailsFirst.eq (ho : c.signposts.Ordered) (h : c.FailsFirst err) {err' : Error}
    (h' : c.FailsFirst err') : err = err' := by
  have hsame := (gatherSeries_eq_error_iff_failsFirst ho).mpr h
  exact Except.error.inj (hsame.symm.trans ((gatherSeries_eq_error_iff_failsFirst ho).mpr h'))

/-- A listing fails because an engine does, or else because of a pattern. -/
theorem listSeries_eq_error_iff [PatternLibrary] (ho : c.signposts.Ordered) :
    c.listSeries q = .error err ↔
    c.FailsFirst err ∨ (∀ e err, ¬ c.Fails e err) ∧ q.RefusedFirst err := by
  by_cases hok : ∀ e err, ¬ c.Fails e err
  · have hnone : ¬ c.FailsFirst err := fun ⟨e, he, _⟩ => hok e err he
    rw [listSeries_eq_select ho hok (isDirectory_gathered ho), SeriesQuery.select_eq_error_iff,
      or_iff_right hnone, and_iff_right hok]
  · rw [or_iff_left fun h => hok h.1]
    push Not at hok
    obtain ⟨e, err₀, h⟩ := hok
    obtain ⟨err', hleast⟩ := exists_failsFirst h
    rw [listSeries_of_failsFirst ho hleast, Except.error.injEq]
    exact ⟨fun heq => heq ▸ hleast, fun h' => hleast.eq ho h'⟩

/-- Clusters whose engines tell the same answer the same, in whatever order the engines were
registered. -/
theorem listSeries_congr [PatternLibrary] (ho : c.signposts.Ordered) (ho' : c'.signposts.Ordered)
    (hoffers : ∀ e l, c'.Offers e l ↔ c.Offers e l)
    (hfails : ∀ e err, c'.Fails e err ↔ c.Fails e err)
    (q : SeriesQuery) : c'.listSeries q = c.listSeries q := by
  have hfirst : ∀ err, c'.FailsFirst err ↔ c.FailsFirst err := fun err => by
    simp only [FailsFirst, hfails]
  by_cases hok : ∀ e err, ¬ c.Fails e err
  · have hdirectory := isDirectory_gathered ho
    have hdirectory' := hdirectory.congr hoffers
    rw [listSeries_eq_select ho hok hdirectory,
      listSeries_eq_select ho' (fun e err h => hok e err ((hfails e err).mp h)) hdirectory']
  · push Not at hok
    obtain ⟨e, err, h⟩ := hok
    obtain ⟨err', hleast⟩ := exists_failsFirst h
    rw [listSeries_of_failsFirst ho hleast,
      listSeries_of_failsFirst ho' ((hfirst err').mpr hleast)]

/-- The task is one over the whole cluster and asks for a listing. -/
def Asks (c : Cluster) (t : TaskId) (q : SeriesQuery) : Prop :=
  ∃ x, c.task? t = some x ∧ x.isGlobal = true ∧ x.operators.head? = some (.listSeries q)

/-- What asking does and answers. -/
theorem handle_executeGlobal [PatternLibrary] {t : TaskId} (h : c.Asks t q) :
    c.handle (.executeGlobal t) =
      (c.modifyTask t fun x => (x.setSpan Duration.zero).setResult (c.globalResult (.listSeries q)),
        .result (c.globalResult (.listSeries q))) := by
  obtain ⟨x, hx, hglobal, hoperator⟩ := h
  have hfits : c.fits (.executeGlobal t) = true := by
    rw [fits, hx]
    exact hglobal
  rw [handle, if_pos hfits, obey, hx, Option.bind_some, hoperator]

/-- A listing has a row for each series, with its path, its tags if it has any, and its type. -/
theorem records_stream (l : List Series) : (Series.stream l).records = l.map fun x =>
    [some (.text x.path), x.tagsCell, some (.text x.type.name)] := by
  rw [RowStream.records, Series.batches_stream, List.flatMap_singleton, Batch.records,
    Series.rows_batch]
  refine List.ext_getElem (by simp) fun i hi _ => ?_
  have hi' : i < l.length := by simpa using hi
  simp [Batch.record, Series.batch, hi']

/-- What a listing of the series of the whole cluster answers, after any history:

* there is exactly one directory of what the engines offer that are ready;
* a listing fails exactly if an engine that is ready fails, with the error of the one of those with
  the lowest number, or, if no engine does, a pattern for paths is refused, with the error for the
  first of those; otherwise it shows what the query lets through of the directory, without the
  first `offset` series and up to the `limit`, in rows of path, tags and type;
* the answer is the result of the task that asks, unless it has one already, and asking changes
  nothing of what the engines tell;
* the pages of any size, one after another, show all that the query lets through, and no physical
  path twice;
* nothing but what the engines tell that are ready decides about the answer, so it does not depend
  on the order in which they were registered. -/
theorem series_listed [PatternLibrary] (s : Setup) {events : List Event} {c : Cluster}
    (hrun : (build s).run? events = some c) :
    ∃ directory, c.IsDirectory directory ∧ (∀ l, c.IsDirectory l → l = directory) ∧
      (∀ t q, c.Asks t q → ∃ r c', c.handle (.executeGlobal t) = (c', .result r) ∧
        c'.result? t = (c.result? t).or (some r) ∧
        (∀ err, r = .error err ↔
          c.FailsFirst err ∨ (∀ e err, ¬ c.Fails e err) ∧ q.RefusedFirst err) ∧
        ((∀ e err, ¬ c.Fails e err) → (∀ p ∈ q.paths, PatternLibrary.refusal? p = none) →
          ∃ rows, r = .ok (.rows rows) ∧
            rows.schema = [⟨"path", .utf8, false, .empty⟩, ⟨"tags", .utf8, true, .empty⟩,
              ⟨"type", .utf8, false, .empty⟩] ∧
            rows.records = (q.shown directory).map fun x =>
              [some (.text x.path),
                if x.tags.entries = [] then none
                else some (.text ("\x7b" ++
                  ",".intercalate (x.tags.entries.map fun e => e.1 ++ "=" ++ e.2) ++ "\x7d")),
                some (.text x.type.name)]) ∧
        (∀ e l, c'.Offers e l ↔ c.Offers e l) ∧ ∀ e err, c'.Fails e err ↔ c.Fails e err) ∧
      (∀ (q : SeriesQuery) n m, 0 < n → directory.length ≤ m * n →
        ((List.range m).flatMap fun k => (q.page n k).shown directory) =
          q.whole.shown directory) ∧
      (∀ q : SeriesQuery, ((q.whole.shown directory).map Series.physicalPath).Nodup) ∧
      ∀ s' events' c', (build s').run? events' = some c' →
        (∀ e l, c'.Offers e l ↔ c.Offers e l) → (∀ e err, c'.Fails e err ↔ c.Fails e err) →
          ∀ t t' q, c.Asks t q → c'.Asks t' q →
            (c'.handle (.executeGlobal t')).2 = (c.handle (.executeGlobal t)).2 := by
  -- What is shown is gathered in the order of the engine numbers, so it is fixed by what they tell.
  have ho := ordered_of_run? hrun
  have hdirectory := isDirectory_gathered ho
  refine ⟨_, hdirectory, fun l hl => hl.eq hdirectory, ?_, ?_, ?_, ?_⟩
  · intro t q hasks
    refine ⟨_, _, handle_executeGlobal hasks, ?_, fun err => ?_, fun hok hpatterns => ?_,
      fun _ _ => Iff.rfl, fun _ _ => Iff.rfl⟩
    · obtain ⟨x, hx, _⟩ := hasks
      rw [result?, task?_modifyTask, if_pos rfl, hx, result?, hx]
      rfl
    · rw [← listSeries_eq_error_iff (q := q) ho, globalResult]
      cases c.listSeries q <;> simp [Except.map]
    · rw [globalResult, listSeries_eq_select ho hok hdirectory, SeriesQuery.select_eq_ok hpatterns]
      refine ⟨_, rfl, Series.schema_stream _, ?_⟩
      simp only [records_stream, Series.tagsCell_eq]
  · exact fun q n m _ hm => SeriesQuery.flatMap_shown_page hm
  · intro q
    refine List.Nodup.sublist (List.Sublist.map _ ?_)
      ((Store.sorted_bySeriesPath (c.catalog.engineList.flatMap c.told)).imp ne_of_lt)
    exact (List.take_sublist _ _).trans ((List.drop_sublist _ _).trans List.filter_sublist)
  · intro s' events' c' hrun' hoffers hfails t t' q hasks hasks'
    rw [handle_executeGlobal hasks, handle_executeGlobal hasks', globalResult, globalResult,
      listSeries_congr ho (ordered_of_run? hrun') hoffers hfails]

/-- A node with three engines.  One is not ready, the other two tell a series of one physical
path. -/
def threeEngines : Setup where
  config := ExecutorConfig.default
  node := 0
  factories :=
    [("plain", .scripted (Script.new [] [⟨"b.x", .int64, Tags.empty⟩, ⟨"a", .int64, Tags.empty⟩]
      none)),
      ("headed", .scripted (Script.new [] [⟨"x", .boolean, Tags.empty⟩] none))]
  engines := [(StorageEngine.plain 2 "plain", true),
    ({ StorageEngine.plain 1 "headed" with schemaHead := some "b" }, true),
    (StorageEngine.plain 3 "plain", false)]
  memoryStarted := true
  router := .master
  monitors := []

/-- The first page of one series, without the series that comes first. -/
def secondSeries : SeriesQuery :=
  { paths := ["a", "b.*"], filter := none, limit := some 1, offset := 1 }

/-- If some query is answered, no engine fails. -/
theorem not_fails_of_isOk [PatternLibrary] (ho : c.signposts.Ordered)
    (h : (c.listSeries q).isOk = true) : ∀ e err, ¬ c.Fails e err := by
  intro e err hfails
  obtain ⟨err', hfirst⟩ := exists_failsFirst hfails
  rw [listSeries_of_failsFirst ho hfirst] at h
  cases h

theorem asks_of_newGlobal [PatternLibrary] {s : Setup} (hnone : (build s).tasks = [])
    (h : (build s).run? [.asked (.newGlobal (.listSeries q))] = some c) : c.Asks 0 q := by
  injection h with h
  subst h
  refine ⟨Task.newGlobal (.listSeries q), ?_, rfl, rfl⟩
  change ((build s).tasks ++ [Task.newGlobal (.listSeries q)])[0]? = _
  rw [hnone]
  rfl

/-- Of the two series of one physical path the one of the engine with the lower number is shown. -/
theorem series_listed_sample : ∃ c directory r c' rows,
    (build threeEngines).run? [.asked (.newGlobal (.listSeries secondSeries))] = some c ∧
      c.IsDirectory directory ∧ c.handle (.executeGlobal 0) = (c', .result r) ∧
      r = .ok (.rows rows) ∧
      rows.records = [[some (.text "b.x"), none, some (.text "Boolean")]] := by
  obtain ⟨c, hrun, hanswered, hlist⟩ : ∃ c ∈ (build threeEngines).run?
      [.asked (.newGlobal (.listSeries secondSeries))],
        (c.listSeries secondSeries).isOk = true ∧
        (c.listSeries secondSeries).toOption = some [⟨"b.x", .boolean, Tags.empty⟩] := by
    decide
  have ho := ordered_of_run? hrun
  have hok := not_fails_of_isOk ho hanswered
  have hpatterns : ∀ p ∈ secondSeries.paths, PatternLibrary.refusal? p = none := by decide
  obtain ⟨directory, hdirectory, _, hanswer, _⟩ := series_listed threeEngines hrun
  obtain ⟨r, c', hhandle, _, _, hshows, _⟩ := hanswer 0 secondSeries (asks_of_newGlobal rfl hrun)
  obtain ⟨rows, hr, _, hrecords⟩ := hshows hok hpatterns
  rw [listSeries_eq_select ho hok hdirectory, SeriesQuery.select_eq_ok hpatterns] at hlist
  rw [Option.some.inj hlist] at hrecords
  exact ⟨c, directory, r, c', rows, hrun, hdirectory, hhandle, hr, hrecords⟩

/-- The same query with a pattern that is too large. -/
def largeQuery : SeriesQuery :=
  { secondSeries with paths := [PatternLibrary.stars 100000] }

/-- A listing that no engine lets fail still shows nothing if a pattern is refused. -/
theorem fails_for_path_pattern :
    ¬∀ (s : Setup) (events : List Event) (c : Cluster), (build s).run? events = some c →
      ∀ t q, c.Asks t q → (∀ e err, ¬ c.Fails e err) →
        ∃ rows, (c.handle (.executeGlobal t)).2 = .result (.ok (.rows rows)) := by
  intro h
  obtain ⟨c, hrun, hlist⟩ : ∃ c ∈ (build threeEngines).run?
      [.asked (.newGlobal (.listSeries largeQuery))],
        (c.listSeries secondSeries).isOk = true := by
    decide
  have ho := ordered_of_run? hrun
  have hok := not_fails_of_isOk ho hlist
  have hasks := asks_of_newGlobal rfl hrun
  obtain ⟨rows, hrows⟩ := h _ _ c hrun 0 largeQuery hasks hok
  obtain ⟨reason, hreason⟩ := PatternLibrary.refusal?_stars (n := 100000) (by decide)
  have hrefused : largeQuery.RefusedFirst _ :=
    ⟨_, List.mem_cons_self, reason, hreason, rfl, fun p' hp' _ hne =>
      absurd (List.mem_singleton.mp hp') hne⟩
  rw [handle_executeGlobal hasks, globalResult,
    (listSeries_eq_error_iff ho).mpr (.inr ⟨hok, hrefused⟩)] at hrows
  cases hrows

end Cluster
end SeriesExec
