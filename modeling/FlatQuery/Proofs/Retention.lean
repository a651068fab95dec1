/-
# Records that are kept

An update or a deletion that succeeds rewrites the whole file of its table, and all records go
through rows and back.  The records that it has no business with come out of this one by one
and in their order (`Database.execute_keeps_records`).  Their texts stand at the positions at
which they stood, as far as the header reaches and as no two columns have the same name.
-/
import FlatQuery.Proofs.Csv.Header
import FlatQuery.Proofs.Rewrite
import FlatQuery.Proofs.Table.Position
import FlatQuery.Proofs.Table.Revision
import Mathlib.Data.List.Forall2

namespace FlatQuery

namespace Query

variable {query : Query} {header record : List String} {fields : Fields}

/-- A record is selected when the row that it becomes under the header meets the conditions. -/
def selects (query : Query) (header record : List String) : Bool :=
  fieldsMatch query.conditions (fieldsOf header record)

/-- All records are kept but the ones that a deletion selects. -/
def keeps (query : Query) (header record : List String) : Bool :=
  query.kind = .update || !query.selects header record

/-- The names under which a kept record may be changed, which are those of the assigned columns
if it is selected. -/
def assignedIn (query : Query) (header record : List String) : List String :=
  if query.selects header record then (query.assignments?.getD []).map (·.column) else []

/-- What becomes of the records of a file: those that are kept are passed on one by one, in
their order.  A file without a header has no records at all. -/
def PassesOn (query : Query) : List (List String) → List (List String) → Prop
  | [], after => after = []
  | header :: records, after => ∃ header' records', after = header' :: records' ∧
    List.Forall₂ (fun record => PassedOn header (query.assignedIn header record) record)
      (records.filter (query.keeps header)) records'

lemma keeps_eq_false_of_revise (h : query.revise (fieldsOf header record) = none) :
    query.keeps header record = false := by
  obtain ⟨hkind, hmatch⟩ := revise_eq_none_iff.1 h
  simp [keeps, selects, hkind, hmatch]

/-- A row that is not dropped keeps its texts, except under assigned names. -/
lemma passedOn_of_revise (hkind : query.kind = .update ∨ query.kind = .delete)
    (h : query.revise (fieldsOf header record) = some fields) :
    query.keeps header record ∧
      PassedOn header (query.assignedIn header record) record (fieldValues header fields) := by
  rcases hkind with hkind | hkind
  · refine ⟨by simp [keeps, hkind], passedOn_fieldValues fun name hname => ?_⟩
    simp only [revise, hkind, Option.some.injEq] at h
    subst h
    by_cases hmatch : fieldsMatch query.conditions (fieldsOf header record)
    · rw [assignedIn, selects, if_pos hmatch] at hname
      rw [if_pos hmatch, getElem?_assign, assigned?_eq_none_iff.2 hname, Option.none_or]
    · rw [if_neg hmatch]
  · simp only [revise, hkind] at h
    split at h
    · cases h
    · next hmatch =>
      obtain ⟨⟩ := h
      exact ⟨by simp [keeps, selects, hmatch], passedOn_fieldValues fun _ _ => rfl⟩

lemma forall₂_passedOn (hkind : query.kind = .update ∨ query.kind = .delete)
    (header : List String) (records : List (List String)) :
    List.Forall₂ (fun record => PassedOn header (query.assignedIn header record) record)
      (records.filter (query.keeps header))
      (((records.map (fieldsOf header)).filterMap query.revise).map (fieldValues header)) := by
  induction records with
  | nil => exact .nil
  | cons record records ih =>
    rw [List.map_cons]
    cases hrevise : query.revise (fieldsOf header record) with
    | none =>
      have hdropped := keeps_eq_false_of_revise hrevise
      rw [List.filterMap_cons_none hrevise, List.filter_cons_of_neg (by simp [hdropped])]
      exact ih
    | some fields =>
      obtain ⟨hkept, hpassed⟩ := passedOn_of_revise hkind hrevise
      rw [List.filterMap_cons_some hrevise, List.filter_cons_of_pos hkept, List.map_cons]
      exact .cons hpassed ih

end Query

namespace Database

variable {db : Database} {query : Query}

/-- The records of a file, before and after it is rewritten by an update or a deletion. -/
lemma Rewrite.exists_passesOn (r : db.Rewrite query)
    (hkind : query.kind = .update ∨ query.kind = .delete) {before : List (List String)}
    (hbefore : Csv.texts r.old = .ok before) (hheader : before.head? ≠ some ["\uFEFF"]) :
    ∃ after, Csv.texts (Csv.encode r.changed) = .ok after ∧ query.PassesOn before after := by
  have htable : Csv.tableOf before = r.table := by
    obtain ⟨found, hfound, htable⟩ := Csv.decode_eq_ok_iff.1 r.decode
    rwa [Except.ok.inj (hfound.symm.trans hbefore)] at htable
  have hcolumns := r.columns_changed
  rw [← htable] at hcolumns
  cases before with
  | nil =>
    have hempty : Csv.texts [] = .ok [] := by decide +kernel
    rw [Csv.encode_of_no_columns hcolumns]
    exact ⟨[], hempty, rfl⟩
  | cons header records =>
    change r.changed.columns = header at hcolumns
    have hne : header ≠ [] := Csv.ne_nil_of_mem_texts hbefore header List.mem_cons_self
    have hname : header ≠ ["\uFEFF"] := by simpa using hheader
    obtain ⟨header', htexts, -⟩ :=
      Csv.texts_encode (hcolumns.symm ▸ hne) (hcolumns.symm ▸ hname)
    refine ⟨_, htexts, header', _, rfl, ?_⟩
    have hsheet : r.table.sheet = ⟨header, records.map (fieldsOf header)⟩ := by
      rw [← htable]
      exact Sheet.sheet_table ⟨header, _⟩
    rw [Table.map_values, Query.sheet_of_effect hkind r.effect, hsheet, hcolumns]
    exact Query.forall₂_passedOn hkind header records

/-- An update or a deletion that succeeds passes on all records of the file that it does not
delete.  The header must not be a byte order mark alone, because it would get lost. -/
theorem execute_keeps_records {rows : List (List String)}
    (hkind : query.kind = .update ∨ query.kind = .delete) (hjoins : query.joins = [])
    (h : (db.execute query).1 = .ok rows) :
    ∃ location old new before,
      db.disk.locate (db.config.path query.table) = .ok location ∧
      db.disk.node? location = some (.file old) ∧
      (db.execute query).2.disk.node? location = some (.file new) ∧
      Csv.texts old = .ok before ∧
      (before.head? ≠ some ["\uFEFF"] →
        ∃ after, Csv.texts new = .ok after ∧ query.PassesOn before after) := by
  obtain ⟨r⟩ := nonempty_rewrite (Query.kind_ne_select hkind) hjoins h
  obtain ⟨before, hbefore, -⟩ := Csv.decode_eq_ok_iff.1 r.decode
  refine ⟨r.location, r.old, Csv.encode r.changed, before, r.locate, r.file, ?_, hbefore, ?_⟩
  · rw [r.execute]
    exact r.node?_after
  · exact r.exists_passesOn hkind hbefore

/-- A record that is too short and one that is changed are passed on. -/
theorem execute_keeps_records_of_short_record :
    let db : Database :=
      ⟨{}, (Disk.empty [['h']]).addFile "t.csv" (encodeText "a,b,c\n1\n2,x,y\n")⟩
    let query : Query :=
      { kind := .update, table := "t.csv", conditions := [⟨"a", .equals "2"⟩], columns := .only []
        assignments? := some [⟨"b", "z"⟩] }
    (db.execute query).1 = .ok [] ∧
      ∃ after, Csv.texts (encodeText "a,b,c\n1,,\n2,z,y\n") = .ok after ∧
        query.PassesOn [["a", "b", "c"], ["1"], ["2", "x", "y"]] after := by
  intro db query
  have hrun : (db.execute query).1 = .ok [] := by decide +kernel
  obtain ⟨location, old, new, before, hlocate, hold, hnew, hbefore, hpasses⟩ :=
    execute_keeps_records (Or.inl rfl) rfl hrun
  have hplace : db.disk.locate (db.config.path query.table) = .ok [['h'], "t.csv".toList] := by
    decide +kernel
  obtain rfl := Except.ok.inj (hplace.symm.trans hlocate)
  have hfile : db.disk.node? [['h'], "t.csv".toList] =
      some (.file (encodeText "a,b,c\n1\n2,x,y\n")) := by decide +kernel
  obtain rfl := Node.file.inj (Option.some.inj (hfile.symm.trans hold))
  have hwritten : (db.execute query).2.disk.node? [['h'], "t.csv".toList] =
      some (.file (encodeText "a,b,c\n1,,\n2,z,y\n")) := by decide +kernel
  obtain rfl := Node.file.inj (Option.some.inj (hwritten.symm.trans hnew))
  have hrecords : Csv.texts (encodeText "a,b,c\n1\n2,x,y\n") =
      .ok [["a", "b", "c"], ["1"], ["2", "x", "y"]] := by decide +kernel
  obtain rfl := Except.ok.inj (hrecords.symm.trans hbefore)
  exact ⟨hrun, hpasses (by decide)⟩

/-- A deletion that selects no record can still take texts from a file.  What a record has beyond
the header is cut off, and of two texts under one name the last one is kept.  With joins, which
only selections should have, records without a partner are lost. -/
theorem deletion_of_nothing_loses_texts :
    let db (text : String) : Database :=
      ⟨{}, (Disk.empty [['h']]).addFile "t.csv" (encodeText text)⟩
    let query : Query :=
      { kind := .delete, table := "t.csv", conditions := [⟨"a", .equals "9"⟩], columns := .only [] }
    let joined : Query := { query with joins := [⟨"a", "t.csv", "b"⟩] }
    (((db "a\n1,2\n").execute query).1 = .ok [] ∧
      ((db "a\n1,2\n").execute query).2.disk.read "t.csv" = .ok (encodeText "a\n1\n")) ∧
    (((db "a,a\n1,2\n").execute query).1 = .ok [] ∧
      ((db "a,a\n1,2\n").execute query).2.disk.read "t.csv" = .ok (encodeText "a,a\n2,2\n")) ∧
    ((db "a,b\n1,2\n").execute joined).1 = .ok [] ∧
      ((db "a,b\n1,2\n").execute joined).2.disk.read "t.csv" = .ok (encodeText "a,b\n") := by
  decide +kernel

end Database

end FlatQuery
