/-
# Changes that are made again

An update or a deletion that succeeded succeeds again.  The second time it finds the table
settled, with empty texts where rows lacked columns, and from then on nothing changes any more
(`Database.execute_repeated`).  The second time itself changes nothing either, unless the first
time neglected a row, which only a row that lacks columns can come to.
-/
import FlatQuery.Proofs.Csv.Header
import FlatQuery.Proofs.Rewrite
import FlatQuery.Proofs.Table.Revision

namespace FlatQuery

/-- A list is left as it is when each of its elements is. -/
lemma filterMap_eq_self_iff {α : Type} {f : α → Option α} {l : List α} :
    l.filterMap f = l ↔ ∀ a ∈ l, f a = some a := by
  constructor
  · intro h
    induction l with
    | nil => simp
    | cons a l ih =>
      cases hfirst : f a with
      | none =>
        -- the list would have become shorter
        rw [List.filterMap_cons_none hfirst] at h
        have hlength := List.length_filterMap_le f l
        rw [h, List.length_cons] at hlength
        omega
      | some b =>
        rw [List.filterMap_cons_some hfirst] at h
        obtain ⟨rfl, hrest⟩ := List.cons.inj h
        exact List.forall_mem_cons.2 ⟨hfirst, ih hrest⟩
  · intro h
    rw [List.filterMap_congr h, List.filterMap_some]

/-- Two tables are written as the same file when they hold the same after being settled. -/
lemma Csv.encode_eq_encode_iff {a b : Table} (ha : ¬LosesMark a.columns)
    (hb : ¬LosesMark b.columns) : encode a = encode b ↔ a.sheet.settled = b.sheet.settled := by
  constructor
  · intro h
    have hdecode := congrArg decode h
    rw [decode_encode ha, decode_encode hb] at hdecode
    have hsheet := congrArg Table.sheet (Except.ok.inj hdecode)
    rwa [Sheet.sheet_table, Sheet.sheet_table] at hsheet
  · intro h
    rw [← encode_settled a, h, encode_settled]

lemma Sheet.exists_settle_of_mem_settled {sheet : Sheet} {row : Row}
    (h : row ∈ sheet.settled.table.rows) : ∃ fields, row.fields = settle sheet.columns fields := by
  have hfields : row.fields ∈ sheet.settled.table.sheet.rows := List.mem_map_of_mem h
  rw [sheet_table, settled] at hfields
  split at hfields
  · cases hfields
  · obtain ⟨fields, -, hsettle⟩ := List.mem_map.1 hfields
    exact ⟨fields, hsettle.symm⟩

namespace Query

variable {query : Query} {sheet : Sheet}

/-- No row that is dropped was neglected. -/
lemma not_neglects_of_revise_eq_none {columns : List String} {fields : Fields}
    (h : query.revise fields = none) : ¬query.Neglects columns fields := by
  rintro ⟨hmatch, -⟩
  exact hmatch (revise_eq_none_iff.1 h).2

/-- Once more, after it was settled, a row that was not neglected is revised without a change. -/
lemma forall_revise_settle_iff {columns : List String} {fields : Fields}
    (hkind : query.kind = .update ∨ query.kind = .delete) (hassigns : query.AssignsTo columns) :
    (∀ revised, query.revise fields = some revised →
      (query.revise (settle columns revised)).map (settle columns) =
        some (settle columns revised)) ↔ ¬query.Neglects columns fields := by
  cases h : query.revise fields with
  | none => simp [not_neglects_of_revise_eq_none h]
  | some revised =>
    rw [← revise_settle_iff hkind hassigns h]
    simp only [Option.some.injEq, forall_eq']

lemma not_neglects_settle {columns : List String} {fields : Fields} :
    ¬query.Neglects columns (settle columns fields) := by
  rintro ⟨hmatch, hsettled, -⟩
  rw [settle_settle] at hsettled
  exact hmatch hsettled

lemma settled_reviseSheet (hcolumns : sheet.columns ≠ []) :
    (query.reviseSheet sheet).settled =
      ⟨sheet.columns, sheet.rows.filterMap fun fields =>
        (query.revise fields).map (settle sheet.columns)⟩ := by
  have hrevised : (query.reviseSheet sheet).columns ≠ [] := hcolumns
  rw [Sheet.settled_of_columns hrevised, reviseSheet, List.map_filterMap]

/-- Revising a sheet once more, after it was settled, changes nothing about it exactly when no
row was neglected. -/
lemma settled_reviseSheet_settled_iff (hkind : query.kind = .update ∨ query.kind = .delete)
    (hassigns : query.AssignsTo sheet.columns) (hrows : sheet.columns = [] → sheet.rows = []) :
    (query.reviseSheet (query.reviseSheet sheet).settled).settled =
        (query.reviseSheet sheet).settled ↔
      ∀ fields ∈ sheet.rows, ¬query.Neglects sheet.columns fields := by
  by_cases hcolumns : sheet.columns = []
  · have hsettled : (query.reviseSheet sheet).settled = ⟨[], []⟩ :=
      Sheet.settled_of_no_columns hcolumns
    rw [hsettled, hrows hcolumns]
    simp [reviseSheet, Sheet.settled]
  have hagain : (query.reviseSheet sheet).settled.columns ≠ [] := hcolumns
  rw [settled_reviseSheet hagain, settled_reviseSheet hcolumns, Sheet.mk.injEq,
    filterMap_eq_self_iff]
  simp only [true_and, List.forall_mem_filterMap, ← forall_revise_settle_iff hkind hassigns]
  -- a row that is there the second time is what the first time made of a row
  constructor
  · intro h fields hfields revised hrevised
    exact h fields hfields _ (Option.map_eq_some_iff.2 ⟨revised, hrevised, rfl⟩)
  · intro h fields hfields settled hsettled
    obtain ⟨revised, hrevised, rfl⟩ := Option.map_eq_some_iff.1 hsettled
    exact h fields hfields revised hrevised

end Query

namespace Database

variable {db : Database} {query : Query}

/-- An update or a deletion can be made again on what it has written.  This writes the same file
exactly when no row was neglected. -/
lemma Rewrite.exists_again (r : db.Rewrite query)
    (hkind : query.kind = .update ∨ query.kind = .delete)
    (hmark : ¬Csv.LosesMark r.table.columns) :
    ∃ again : r.after.Rewrite query, again.table = r.changed.sheet.settled.table ∧
      (again.after = r.after ↔ ∀ row ∈ r.table.rows,
        ¬query.Neglects r.table.columns row.fields) := by
  have hassigns : query.AssignsTo r.table.columns :=
    (Query.exists_effect_iff hkind).1 ⟨_, r.effect⟩
  have hsettled : r.changed.sheet.settled.table.columns = r.table.columns := r.columns_changed
  obtain ⟨changed, heffect⟩ := (Query.exists_effect_iff hkind).2 (hsettled.symm ▸ hassigns)
  let again : r.after.Rewrite query :=
    { location := r.location
      old := Csv.encode r.changed
      table := r.changed.sheet.settled.table
      changed
      no_joins := r.no_joins
      locate := (Disk.locate_putFile_of_file r.file _).trans r.locate
      file := r.node?_after
      decode := Csv.decode_encode (r.columns_changed.symm ▸ hmark)
      effect := heffect }
  have hcolumns : changed.columns = r.table.columns := again.columns_changed.trans hsettled
  have hafter : again.after = r.after ↔ Csv.encode changed = Csv.encode r.changed := by
    constructor
    · intro h
      have hfile : again.after.disk.node? r.location = some (.file (Csv.encode r.changed)) := by
        rw [h]
        exact r.node?_after
      exact Node.file.inj (Option.some.inj (again.node?_after.symm.trans hfile))
    · intro h
      have htwice : (r.after.disk.putFile r.location (Csv.encode changed)) = r.after.disk := by
        rw [h]
        exact Disk.putFile_putFile _
      rw [Rewrite.after, htwice]
  refine ⟨again, rfl, ?_⟩
  rw [hafter, Csv.encode_eq_encode_iff (hcolumns.symm ▸ hmark) (r.columns_changed.symm ▸ hmark),
    Query.sheet_of_effect hkind heffect, Sheet.sheet_table, Query.sheet_of_effect hkind r.effect,
    Query.settled_reviseSheet_settled_iff hkind hassigns]
  · exact List.forall_mem_map
  · intro hnone
    rw [Table.sheet, Csv.rows_eq_nil_of_decode r.decode hnone]
    rfl

/-- An update or a deletion that succeeded succeeds again, and changes nothing more unless it had
neglected a row.  After that it never changes anything. -/
theorem execute_repeated {rows : List (List String)}
    (hkind : query.kind = .update ∨ query.kind = .delete) (hjoins : query.joins = [])
    (h : (db.execute query).1 = .ok rows) :
    let once := (db.execute query).2
    let twice := (once.execute query).2
    ∃ table, Table.load db.disk.read (db.config.path query.table) = .ok table ∧
      (¬Csv.LosesMark table.columns →
        (once.execute query).1 = .ok [] ∧
        (twice = once ↔ ∀ row ∈ table.rows, ¬query.Neglects table.columns row.fields) ∧
        twice.execute query = (.ok [], twice)) := by
  obtain ⟨r⟩ := nonempty_rewrite (Query.kind_ne_select hkind) hjoins h
  intro once twice
  refine ⟨r.table, r.load, fun hmark => ?_⟩
  obtain ⟨again, htable, hagain⟩ := r.exists_again hkind hmark
  have honce : once = r.after := by simp only [once, r.execute]
  have hsecond : once.execute query = (.ok [], again.after) := by rw [honce, again.execute]
  have htwice : twice = again.after := by simp only [twice, hsecond]
  refine ⟨by rw [hsecond], by rw [htwice, honce, hagain], ?_⟩
  -- the rows were settled when the query was made again, so that none was neglected then
  have hcolumns : again.table.columns = r.table.columns := htable ▸ r.columns_changed
  obtain ⟨third, -, hthird⟩ := again.exists_again hkind (hcolumns.symm ▸ hmark)
  have hsteady : third.after = again.after := by
    refine hthird.2 fun row hrow => ?_
    rw [htable] at hrow ⊢
    obtain ⟨fields, hfields⟩ := Sheet.exists_settle_of_mem_settled hrow
    rw [hfields]
    exact Query.not_neglects_settle
  rw [htwice, third.execute, hsteady]

/-- An update gives a text to a row that lacks the column, and has then nothing left to do. -/
theorem execute_repeated_of_short_record :
    let db : Database := ⟨{}, (Disk.empty [['h']]).addFile "t.csv" (encodeText "a,b\n1\n")⟩
    let query : Query :=
      { kind := .update, table := "t.csv", conditions := [⟨"a", .equals "1"⟩], columns := .only []
        assignments? := some [⟨"b", "x"⟩] }
    let once := (db.execute query).2
    (db.execute query).1 = .ok [] ∧ once.execute query = (.ok [], once) := by
  intro db query once
  have hrun : (db.execute query).1 = .ok [] := by decide +kernel
  obtain ⟨table, hload, hagain⟩ := execute_repeated (Or.inl rfl) rfl hrun
  have htable : Table.load db.disk.read (db.config.path query.table) =
      .ok (.numbered ["a", "b"] [fieldsOf ["a", "b"] ["1"]]) := by decide +kernel
  obtain rfl := Except.ok.inj (htable.symm.trans hload)
  obtain ⟨hanswer, hsame, -⟩ := hagain (by decide)
  exact ⟨hrun, Prod.ext hanswer (hsame.2 (by decide +kernel))⟩

/-- A deletion that is made again can delete more: it neglects a row that lacks a column, and
finds it with an empty text the second time.  With joins, which only selections should have, the
rows of a table can multiply every time. -/
theorem repeated_deletion_deletes_more :
    let db : Database := ⟨{}, (Disk.empty [['h']]).addFile "t.csv" (encodeText "a,b\n1\n")⟩
    let query : Query :=
      { kind := .delete, table := "t.csv", conditions := [⟨"b", .equals ""⟩], columns := .only [] }
    let pairs : Database := ⟨{}, (Disk.empty [['h']]).addFile "t.csv" (encodeText "a\n1\n1\n")⟩
    let joined : Query :=
      { query with conditions := [⟨"a", .equals "2"⟩], joins := [⟨"a", "t.csv", "a"⟩] }
    ((db.execute query).1 = .ok [] ∧
      (db.execute query).2.disk.read "t.csv" = .ok (encodeText "a,b\n1,\n") ∧
      ((db.execute query).2.execute query).2.disk.read "t.csv" = .ok (encodeText "a,b\n")) ∧
    (pairs.execute joined).1 = .ok [] ∧
      (pairs.execute joined).2.disk.read "t.csv" = .ok (encodeText "a\n1\n1\n1\n1\n") ∧
      ((pairs.execute joined).2.execute joined).2.disk.read "t.csv" ≠
        (pairs.execute joined).2.disk.read "t.csv" := by
  decide +kernel

end Database

end FlatQuery
