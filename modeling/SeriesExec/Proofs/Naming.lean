import SeriesExec.Proofs.Agreement
import SeriesExec.Proofs.Directory

/-!
# Naming — which series a physical path is the name of

A physical path is put together from a path, keys and values without marking where one ends, so two
series can have the same one, and then a listing shows one of them.  This file defines:

* `Series.SameName` — two series with one path and the same tags;
* `Text.cutAt` — a text cut at the first place of a character;
* `Series.readAs` — the series that a physical path is read as, with the shortest path and as many
  tags as possible;
* `Series.IsRead` — the series that its own physical path is read as;
* `Series.Plain` — a series whose texts have none of the characters that could be misread;
* `Apart` and `Shown` — series with one physical path have one name, and a listing has a series of
  each name.

Main statements: every text is the physical path of what it is read as (`physicalPath_readAs`), so
series that are read as themselves have different names under different physical paths
(`IsRead.sameName`), plain ones among them (`Plain.isRead`); a listing hides nothing exactly if the
series are apart (`shown_bySeriesPath_iff`), which is said of a store and of the whole cluster in
`distinct_series_shown_iff`.  In general it does hide series (`distinct_series_merged`).
-/

namespace SeriesExec

/-! ## Cutting a text -/

namespace Text

variable {sep : Char} {text front back : List Char}

/-- What stands before the first `sep` of a text, and what stands behind it. -/
def cutAt (sep : Char) : List Char → Option (List Char × List Char)
  | [] => none
  | c :: rest => if c = sep then some ([], rest) else (cutAt sep rest).map fun p => (c :: p.1, p.2)

theorem cutAt_append (h : sep ∉ front) (back : List Char) :
    cutAt sep (front ++ sep :: back) = some (front, back) := by
  induction front with
  | nil => exact if_pos rfl
  | cons c rest ih =>
    obtain ⟨hc, hrest⟩ := List.ne_and_not_mem_of_not_mem_cons h
    rw [List.cons_append, cutAt, if_neg hc.symm, ih hrest, Option.map_some]

theorem eq_of_cutAt (h : cutAt sep text = some (front, back)) : text = front ++ sep :: back := by
  induction text generalizing front with
  | nil => cases h
  | cons c rest ih =>
    rw [cutAt] at h
    split at h
    · rename_i hc
      cases h
      exact hc ▸ rfl
    · obtain ⟨p, hp, hfront⟩ := Option.map_eq_some_iff.mp h
      cases hfront
      exact congrArg (c :: ·) (ih hp)

theorem cutAt_eq_none (h : sep ∉ text) : cutAt sep text = none := by
  cases hcut : cutAt sep text with
  | none => rfl
  | some p => exact absurd (eq_of_cutAt hcut ▸ List.mem_append_right _ List.mem_cons_self) h

end Text

/-! ## Reading tags -/

namespace Tags

variable {key k : String} {value v piece body : List Char} {pieces : List (List Char)}

/-- The text of an entry. -/
def entryText (e : String × String) : List Char :=
  e.1.toList ++ '=' :: e.2.toList

theorem render_eq (t : Tags) :
    t.render = '\x7b' :: ([','].intercalate (t.entries.map entryText) ++ ['\x7d']) :=
  rfl

/-- The key and the value of a piece of text that can be an entry of its own behind one with the
key `key`: it has an equals sign, and what is before it is a greater key. -/
def nextPair? (key : String) (piece : List Char) : Option (String × List Char) :=
  (Text.cutAt '=' piece).bind fun p =>
    if compare key (String.ofList p.1) = .lt then some (String.ofList p.1, p.2) else none

theorem nextPair?_eq_some (h : nextPair? key piece = some (k, v)) :
    piece = entryText (k, String.ofList v) ∧ compare key k = .lt := by
  obtain ⟨p, hcut, hentry⟩ := Option.bind_eq_some_iff.mp h
  split at hentry
  · rename_i hlt
    cases hentry
    refine ⟨(Text.eq_of_cutAt hcut).trans ?_, hlt⟩
    rw [entryText, String.toList_ofList, String.toList_ofList]
  · cases hentry

theorem nextPair?_entryText {e : String × String} (hkey : '=' ∉ e.1.toList)
    (hlt : compare key e.1 = .lt) : nextPair? key (entryText e) = some (e.1, e.2.toList) := by
  rw [nextPair?, entryText, Text.cutAt_append hkey, Option.bind_some]
  simp only [String.ofList_toList, if_pos hlt]

/-- The entries of which the first has this key and a value that begins like this.  A piece that
cannot be an entry of its own belongs to the value of the one before it. -/
def readEntries (key : String) (value : List Char) : List (List Char) → List (String × String)
  | [] => [(key, String.ofList value)]
  | piece :: rest =>
    match nextPair? key piece with
    | some (k, v) => (key, String.ofList value) :: readEntries k v rest
    | none => readEntries key (value ++ ',' :: piece) rest

/-- The first entry has the given key, and the keys ascend. -/
theorem sorted_readEntries (key : String) (value : List Char) (pieces : List (List Char)) :
    KeyedList.Sorted (readEntries key value pieces) ∧
      ∀ e ∈ readEntries key value pieces, e.1 = key ∨ compare key e.1 = .lt := by
  induction pieces generalizing key value with
  | nil => exact ⟨List.pairwise_singleton _ _, fun e he => .inl (List.mem_singleton.mp he ▸ rfl)⟩
  | cons piece rest ih =>
    rw [readEntries]
    split
    · rename_i k v hnext
      have hlt := (nextPair?_eq_some hnext).2
      obtain ⟨hsorted, hkeys⟩ := ih k v
      have hgreater : ∀ e ∈ readEntries k v rest, compare key e.1 = .lt := fun e he => by
        rcases hkeys e he with hk | hk
        · exact hk ▸ hlt
        · exact Std.TransCmp.lt_trans hlt hk
      refine ⟨List.pairwise_cons.mpr ⟨hgreater, hsorted⟩, fun e he => ?_⟩
      rcases List.mem_cons.mp he with rfl | he
      · exact .inl rfl
      · exact .inr (hgreater e he)
    · exact ih key _

theorem readEntries_ne_nil (key : String) (value : List Char) (pieces : List (List Char)) :
    readEntries key value pieces ≠ [] := by
  induction pieces generalizing key value with
  | nil => exact List.cons_ne_nil _ _
  | cons piece rest ih =>
    rw [readEntries]
    split
    · exact List.cons_ne_nil _ _
    · exact ih key _

theorem intercalate_cons {front : List Char} (h : pieces ≠ []) :
    [','].intercalate (front :: pieces) = front ++ ',' :: [','].intercalate pieces := by
  obtain ⟨piece, rest, rfl⟩ := List.exists_cons_of_ne_nil h
  rw [List.intercalate_cons_cons, List.append_assoc]
  rfl

/-- The text of the entries that are read is the text that they are read from. -/
theorem intercalate_readEntries (key : String) (value : List Char) (pieces : List (List Char)) :
    [','].intercalate ((readEntries key value pieces).map entryText) =
      key.toList ++ '=' :: [','].intercalate (value :: pieces) := by
  induction pieces generalizing key value with
  | nil => simp [readEntries, entryText]
  | cons piece rest ih =>
    rw [readEntries]
    split
    · rename_i k v hnext
      have hmap : (readEntries k v rest).map entryText ≠ [] := by
        simpa using readEntries_ne_nil k v rest
      rw [List.map_cons, intercalate_cons hmap, ih, intercalate_cons (List.cons_ne_nil piece rest),
        (nextPair?_eq_some hnext).1]
      cases rest <;> simp [entryText, List.intercalate_cons_cons]
    · rw [ih, intercalate_cons (List.cons_ne_nil piece rest)]
      cases rest <;> simp [List.intercalate_cons_cons]

/-- Entries whose texts have no comma, and no equals sign in the keys, are read as they are. -/
theorem readEntries_map_entryText {e : String × String} {entries : List (String × String)}
    (hsorted : KeyedList.Sorted (e :: entries)) (hkeys : ∀ e ∈ entries, '=' ∉ e.1.toList) :
    readEntries e.1 e.2.toList (entries.map entryText) = e :: entries := by
  induction entries generalizing e with
  | nil => rw [List.map_nil, readEntries, String.ofList_toList]
  | cons e' rest ih =>
    have hlt : compare e.1 e'.1 = .lt := (List.pairwise_cons.mp hsorted).1 e' List.mem_cons_self
    have hkey := hkeys e' List.mem_cons_self
    rw [List.map_cons, readEntries, nextPair?_entryText hkey hlt]
    simp only [String.ofList_toList]
    rw [ih hsorted.of_cons fun e he => hkeys e (List.mem_cons_of_mem _ he)]

/-- The tags whose text, without the braces around it, this is. -/
def ofBody? (body : List Char) : Option Tags :=
  (Text.cutAt '=' body).map fun p =>
    let pieces := p.2.splitOn ','
    ⟨readEntries (String.ofList p.1) (pieces.headD []) pieces.tail, (sorted_readEntries _ _ _).1⟩

theorem comma_notMem_entryText {e : String × String} (hkey : ',' ∉ e.1.toList)
    (hvalue : ',' ∉ e.2.toList) : ',' ∉ entryText e := by
  simp [entryText, hkey, hvalue]

/-- Tags without commas in them, and without equals signs in their keys, are read as they are. -/
theorem ofBody?_intercalate {t : Tags} (hsome : t.isEmpty = false)
    (h : ∀ e ∈ t.entries, ',' ∉ e.1.toList ∧ '=' ∉ e.1.toList ∧ ',' ∉ e.2.toList) :
    ofBody? ([','].intercalate (t.entries.map entryText)) = some t := by
  obtain ⟨entries, hsorted⟩ := t
  obtain ⟨e, rest, rfl⟩ := List.exists_cons_of_ne_nil (List.isEmpty_eq_false_iff.mp hsome)
  obtain ⟨⟨-, hkey, hvalue⟩, hrest⟩ := List.forall_mem_cons.mp h
  have hbody : [','].intercalate ((e :: rest).map entryText) =
      e.1.toList ++ '=' :: [','].intercalate (e.2.toList :: rest.map entryText) := by
    cases rest <;> simp [entryText, List.intercalate_cons_cons]
  have hpieces : ([','].intercalate (e.2.toList :: rest.map entryText)).splitOn ',' =
      e.2.toList :: rest.map entryText := by
    refine List.splitOn_intercalate ',' (List.forall_mem_cons.mpr ⟨hvalue, fun l hl => ?_⟩)
      (List.cons_ne_nil _ _)
    obtain ⟨e', he', rfl⟩ := List.mem_map.mp hl
    exact comma_notMem_entryText (hrest e' he').1 (hrest e' he').2.2
  have hread := readEntries_map_entryText hsorted fun e he => (hrest e he).2.1
  rw [ofBody?, hbody, Text.cutAt_append hkey, Option.map_some]
  simp only [hpieces, List.headD_cons, List.tail_cons, String.ofList_toList, hread]

theorem render_ofBody? {t : Tags} (h : ofBody? body = some t) :
    t.isEmpty = false ∧ t.render = '\x7b' :: (body ++ ['\x7d']) := by
  obtain ⟨p, hcut, rfl⟩ := Option.map_eq_some_iff.mp h
  have hpieces : (p.2.splitOn ',').headD [] :: (p.2.splitOn ',').tail = p.2.splitOn ',' := by
    obtain ⟨piece, rest, hsplit⟩ := List.exists_cons_of_ne_nil (List.splitOn_ne_nil ',' p.2)
    rw [hsplit]
    rfl
  refine ⟨List.isEmpty_eq_false_iff.mpr (readEntries_ne_nil _ _ _), ?_⟩
  rw [render_eq, intercalate_readEntries, hpieces, List.intercalate_splitOn, String.toList_ofList,
    ← Text.eq_of_cutAt hcut]

end Tags

/-! ## Reading a physical path -/

namespace Series

variable {x y : Series} {text : List Char} {type : ColumnType}

/-- The series have one path and the same tags. -/
def SameName (x y : Series) : Prop :=
  x.path = y.path ∧ x.tags = y.tags

instance (x y : Series) : Decidable (x.SameName y) :=
  inferInstanceAs (Decidable (_ ∧ _))

theorem SameName.physicalPath (h : x.SameName y) : x.physicalPath = y.physicalPath := by
  rw [Series.physicalPath, Series.physicalPath, h.1, h.2]

/-- The path and the tags of a text that ends with tags.  The path is what stands before the first
brace. -/
def tagged? (text : List Char) : Option (List Char × Tags) :=
  (Text.cutAt '\x7b' text).bind fun p =>
    if p.2.getLast? = some '\x7d' then (Tags.ofBody? p.2.dropLast).map (p.1, ·) else none

/-- The series of a type that a physical path is read as. -/
def readAs (type : ColumnType) (text : String) : Series :=
  match tagged? text.toList with
  | some (path, tags) => ⟨String.ofList path, type, tags⟩
  | none => ⟨text, type, Tags.empty⟩

theorem type_readAs (type : ColumnType) (text : String) : (readAs type text).type = type := by
  unfold readAs
  split <;> rfl

theorem sameName_readAs (type type' : ColumnType) (text : String) :
    (readAs type text).SameName (readAs type' text) := by
  unfold readAs
  split <;> exact ⟨rfl, rfl⟩

/-- Every text is the physical path of what it is read as. -/
theorem physicalPath_readAs (type : ColumnType) (text : String) :
    (readAs type text).physicalPath = text := by
  unfold readAs
  split
  · rename_i path tags htagged
    obtain ⟨p, hcut, hbody⟩ := Option.bind_eq_some_iff.mp htagged
    split at hbody
    · rename_i hlast
      obtain ⟨t, ht, hpair⟩ := Option.map_eq_some_iff.mp hbody
      cases hpair
      obtain ⟨hsome, hrender⟩ := Tags.render_ofBody? ht
      rw [List.dropLast_append_getLast? _ hlast] at hrender
      rw [physicalPath, if_neg (Bool.eq_false_iff.mp hsome), hrender, ← String.ofList_append,
        ← Text.eq_of_cutAt hcut, String.ofList_toList]
    · cases hbody
  · rfl

/-- The series is what its physical path is read as. -/
def IsRead (x : Series) : Prop :=
  readAs x.type x.physicalPath = x

instance (x : Series) : Decidable x.IsRead :=
  inferInstanceAs (Decidable (_ = _))

theorem isRead_readAs (type : ColumnType) (text : String) : (readAs type text).IsRead := by
  rw [IsRead, physicalPath_readAs, type_readAs]

/-- Of series that are read as themselves, those with one physical path have one name. -/
theorem IsRead.sameName (hx : x.IsRead) (hy : y.IsRead)
    (hpath : x.physicalPath = y.physicalPath) : x.SameName y := by
  have hsame := sameName_readAs x.type y.type x.physicalPath
  rw [hx, hpath, hy] at hsame
  exact hsame

/-- Every series has the physical path of one that is read as itself, and the name of that one only
if it is read as itself too. -/
theorem exists_isRead (x : Series) :
    ∃ y : Series, y.IsRead ∧ y.physicalPath = x.physicalPath ∧ (y.SameName x ↔ x.IsRead) := by
  refine ⟨readAs x.type x.physicalPath, isRead_readAs _ _, physicalPath_readAs _ _, ?_, ?_⟩
  · rintro ⟨hpath, htags⟩
    have htype := type_readAs x.type x.physicalPath
    calc readAs x.type x.physicalPath
        = ⟨(readAs x.type x.physicalPath).path, (readAs x.type x.physicalPath).type,
            (readAs x.type x.physicalPath).tags⟩ := rfl
      _ = x := by rw [hpath, htype, htags]
  · intro h
    rw [h]
    exact ⟨rfl, rfl⟩

/-- The path has no brace that opens, no key has a comma or an equals sign, and no value has a
comma. -/
structure Plain (x : Series) : Prop where
  path : '\x7b' ∉ x.path.toList
  tags : ∀ e ∈ x.tags.entries, ',' ∉ e.1.toList ∧ '=' ∉ e.1.toList ∧ ',' ∉ e.2.toList

instance (x : Series) : Decidable x.Plain :=
  decidable_of_iff (_ ∧ _) ⟨fun h => ⟨h.1, h.2⟩, fun h => ⟨h.path, h.tags⟩⟩

theorem Plain.isRead (h : x.Plain) : x.IsRead := by
  rw [IsRead, physicalPath]
  cases hempty : x.tags.isEmpty with
  | true =>
    have htagged : tagged? x.path.toList = none := by
      rw [tagged?, Text.cutAt_eq_none h.path, Option.bind_none]
    have htags : x.tags = Tags.empty := by
      obtain ⟨path, type, entries, hsorted⟩ := x
      obtain rfl : entries = [] := List.isEmpty_iff.mp hempty
      rfl
    rw [if_pos rfl, readAs, htagged, ← htags]
  | false =>
    have htagged : tagged? (x.path.toList ++ x.tags.render) = some (x.path.toList, x.tags) := by
      rw [Tags.render_eq, tagged?, Text.cutAt_append h.path, Option.bind_some]
      simp only [List.getLast?_concat, if_pos, List.dropLast_concat,
        Tags.ofBody?_intercalate hempty h.tags, Option.map_some]
    rw [if_neg Bool.false_ne_true, readAs, String.toList_append, String.toList_ofList, htagged]
    simp only [String.ofList_toList]

/-- Series with one physical path have one name. -/
def Apart (P : Series → Prop) : Prop :=
  ∀ x y, P x → P y → x.physicalPath = y.physicalPath → x.SameName y

/-- The listing has a series of the name of each. -/
def Shown (P : Series → Prop) (listing : List Series) : Prop :=
  ∀ x, P x → ∃ y ∈ listing, y.SameName x

end Series

/-! ## Listings -/

open Series

/-- A listing shows a series of each name exactly if no two names have one physical path. -/
theorem Store.shown_bySeriesPath_iff (told : List Series) :
    Shown (· ∈ told) (bySeriesPath told) ↔ Apart (· ∈ told) := by
  constructor
  · intro h x y hx hy hpath
    obtain ⟨x', hx', hsame⟩ := h x hx
    obtain ⟨y', hy', hsame'⟩ := h y hy
    -- Both are the first series of the physical path.
    have hfirst := mem_bySeriesPath.mp hx'
    have hfirst' := mem_bySeriesPath.mp hy'
    rw [hsame'.physicalPath, ← hpath, ← hsame.physicalPath, hfirst] at hfirst'
    obtain rfl := Option.some.inj hfirst'
    exact ⟨hsame.1.symm.trans hsame'.1, hsame.2.symm.trans hsame'.2⟩
  · intro h x hx
    obtain ⟨y, hy, hpath⟩ := exists_mem_bySeriesPath hx
    exact ⟨y, hy, h y x (mem_of_mem_bySeriesPath hy) hx hpath⟩

/-- The series is stored in some unit. -/
def Store.Has (s : Store) (x : Series) : Prop :=
  ∃ u, ∃ b ∈ s.batches u, x ∈ seriesOfBatch b

theorem Store.shown_listSeries_iff {s : Store} (hs : s.Ordered) :
    Shown s.Has s.listSeries ↔ Apart s.Has := by
  have hhas : s.Has = (· ∈ s.units.flatMap fun e => e.2.flatMap seriesOfBatch) :=
    funext fun _ => propext (mem_series_units hs).symm
  rw [hhas]
  exact shown_bySeriesPath_iff _

namespace Cluster

variable {c : Cluster} {x : Series}

/-- An engine that is ready tells the series. -/
def Tells (c : Cluster) (x : Series) : Prop :=
  ∃ e l, c.Offers e l ∧ x ∈ l

theorem mem_gathered_iff : x ∈ c.catalog.engineList.flatMap c.told ↔ c.Tells x := by
  rw [List.mem_flatMap]
  constructor
  · rintro ⟨e, he, hx⟩
    exact ⟨e, c.told e, offers_of_mem_told he hx, hx⟩
  · rintro ⟨e, l, hoffers, hx⟩
    obtain ⟨d, told, hserves, _⟩ := id hoffers
    exact ⟨e, hserves.1, (told_of_offers hoffers).symm ▸ hx⟩

theorem shown_directory_iff {directory : List Series} (ho : c.signposts.Ordered)
    (h : c.IsDirectory directory) : Shown c.Tells directory ↔ Apart c.Tells := by
  have htells : c.Tells = (· ∈ c.catalog.engineList.flatMap c.told) :=
    funext fun _ => propext mem_gathered_iff.symm
  rw [h.eq (isDirectory_gathered ho), htells]
  exact Store.shown_bySeriesPath_iff _

end Cluster

/-- When a listing hides a series.  Every physical path is that of a series which is read as itself;
all such series that have this physical path have one path and the same tags, and those that are not
read as themselves have others.  Plain series are read as themselves.  What a store lists, and the
directory of a cluster after any history, have a series of the path and the tags of each that is
stored, or told by an engine that is ready, exactly if no two with different ones have one physical
path; so they do if all of them are plain. -/
theorem Series.distinct_series_shown_iff [PatternLibrary] {st : Store} (hst : st.Ordered)
    {s : Cluster.Setup} {events : List Cluster.Event} {c : Cluster} {directory : List Series}
    (hrun : (Cluster.build s).run? events = some c) (hdirectory : c.IsDirectory directory) :
    (Shown st.Has st.listSeries ↔ Apart st.Has) ∧ (Shown c.Tells directory ↔ Apart c.Tells) ∧
      (∀ x y : Series, x.IsRead → y.IsRead → x.physicalPath = y.physicalPath → x.SameName y) ∧
      (∀ x : Series, ∃ y : Series, y.IsRead ∧ y.physicalPath = x.physicalPath ∧
        (y.SameName x ↔ x.IsRead)) ∧
      ∀ x : Series, x.Plain → x.IsRead :=
  ⟨Store.shown_listSeries_iff hst,
    Cluster.shown_directory_iff (Cluster.ordered_of_run? hrun) hdirectory,
    fun _ _ hx hy => hx.sameName hy, exists_isRead, fun _ h => h.isRead⟩

/-- A batch with a series of this path and these tags. -/
def namedBatch (path : String) (tags : List (String × String)) : Batch :=
  ⟨[⟨⟨keyName, .int64, false, Tags.empty⟩, [some (.int 1)]⟩,
    ⟨⟨path, .int64, true, Tags.ofList tags⟩, [some (.int 7)]⟩], 1, by simp⟩

/-- An engine that has two series of one path. -/
def taggedSetup : Cluster.Setup where
  config := ExecutorConfig.default
  node := 0
  factories := [("tagged", .scripted (Script.new []
    [⟨"cpu", .int64, Tags.empty⟩, ⟨"cpu", .int64, Tags.ofList [("host", "a"), ("region", "eu")]⟩]
    none))]
  engines := [(StorageEngine.plain 1 "tagged", true)]
  memoryStarted := true
  router := .master
  monitors := []

theorem Series.distinct_series_shown_iff_sample : ∃ st c directory,
    Store.insertAll "unit" [namedBatch "cpu" [], namedBatch "cpu" [("host", "a")]] = .ok st ∧
      st.listSeries.length = 2 ∧ Shown st.Has st.listSeries ∧
      (Cluster.build taggedSetup).run? [] = some c ∧ c.IsDirectory directory ∧
      directory.length = 2 ∧ Shown c.Tells directory := by
  obtain ⟨st, hinserts, hstored, hlength⟩ : ∃ st,
      Store.insertAll "unit" [namedBatch "cpu" [], namedBatch "cpu" [("host", "a")]] = .ok st ∧
      (∀ x ∈ st.units.flatMap fun e => e.2.flatMap Store.seriesOfBatch, x.Plain) ∧
        st.listSeries.length = 2 :=
    ⟨_, rfl, by decide, by decide⟩
  obtain ⟨c, hrun, htold, hcount⟩ : ∃ c ∈ (Cluster.build taggedSetup).run? [],
      (∀ x ∈ c.catalog.engineList.flatMap c.told, x.Plain) ∧
        (Store.bySeriesPath (c.catalog.engineList.flatMap c.told)).length = 2 := by
    decide
  have hst := (Store.batches_insertAll hinserts).1
  have hdirectory := Cluster.isDirectory_gathered (Cluster.ordered_of_run? hrun)
  obtain ⟨hstore, hcluster, hsame, -, hplain⟩ :=
    Series.distinct_series_shown_iff hst hrun hdirectory
  have hapart : ∀ {P : Series → Prop}, (∀ x, P x → x.Plain) → Apart P := fun h x y hx hy =>
    hsame x y (hplain x (h x hx)) (hplain y (h y hy))
  refine ⟨st, c, _, hinserts, hlength, hstore.mpr (hapart fun x hx => ?_), hrun, hdirectory, hcount,
    hcluster.mpr (hapart fun x hx => ?_)⟩
  · exact hstored x ((Store.mem_series_units hst).mpr hx)
  · exact htold x (Cluster.mem_gathered_iff.mpr hx)

/-- Two series of one path can have one physical path: one with two tags, and one with a single tag
whose value reads like the second.  Then a listing hides one of them. -/
theorem Series.distinct_series_merged :
    (¬∀ x y : Series, x.physicalPath = y.physicalPath → x.SameName y) ∧
    ¬∀ (u : UnitId) (bs : List Batch) (s : Store), Store.insertAll u bs = .ok s →
      Shown s.Has s.listSeries := by
  constructor
  · intro h
    have hsame := h ⟨"cpu", .int64, Tags.ofList [("host", "a,region=eu")]⟩
      ⟨"cpu", .int64, Tags.ofList [("host", "a"), ("region", "eu")]⟩ (by decide)
    exact absurd hsame (by decide)
  · intro h
    obtain ⟨y, hy, hsame⟩ := h "unit" [namedBatch "cpu" [("host", "a,region=eu")],
        namedBatch "cpu" [("host", "a"), ("region", "eu")]] _ rfl
      ⟨"cpu", .int64, Tags.ofList [("host", "a"), ("region", "eu")]⟩
      ⟨"unit", _, List.mem_cons_of_mem _ List.mem_cons_self, List.mem_cons_self⟩
    -- The listing shows the other series, and nothing else.
    obtain rfl := List.mem_singleton.mp hy
    exact absurd hsame (by decide)

end SeriesExec
