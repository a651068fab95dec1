/-
# The columns of joined tables

A join has the columns of the left table, followed by those of the right one that are new, each at
its first occurrence (`Table.joinColumns_eq`).  So the names along a chain of joins stand in the
columns of the result in their order and once each, but for those that the first table repeats by
itself: they stay repeated (`Table.join_repeats_column`), and only without them no column is named
twice in the end (`Table.columns_joinAll_eq_iff`).
-/
import FlatQuery.Proofs.Simulation
import Mathlib.Data.List.Nodup

namespace FlatQuery

/-! ## Names at their first occurrence -/

lemma removeAll_concat (names removed : List String) (name : String) :
    names.removeAll (removed ++ [name]) =
      (names.removeAll removed).filter (fun other => !other == name) := by
  rw [List.removeAll, List.removeAll, List.filter_filter]
  refine List.filter_congr fun other _ => ?_
  rw [List.elem_eq_contains, List.elem_eq_contains, List.contains_append, Bool.not_or,
    Bool.and_comm, List.contains_cons, List.contains_nil, Bool.or_false]

lemma nodup_eraseDups (names : List String) : names.eraseDups.Nodup := by
  induction names using List.reverseRecOn with
  | nil => exact List.nodup_nil
  | append_singleton names name ih =>
    rw [List.eraseDups_append]
    by_cases hname : name ∈ names
    · simpa [List.removeAll, hname] using ih
    · have hnew : ∀ earlier ∈ names, earlier ≠ name := fun earlier h heq => hname (heq ▸ h)
      simpa [List.removeAll, hname, List.eraseDups_cons, List.nodup_append] using ⟨ih, hnew⟩

/-- Nothing is left out of names exactly when none of them is repeated. -/
lemma eraseDups_eq_self_iff {names : List String} : names.eraseDups = names ↔ names.Nodup := by
  constructor
  · intro h
    rw [← h]
    exact nodup_eraseDups names
  · intro h
    induction names with
    | nil => rfl
    | cons name names ih =>
      obtain ⟨hname, hnodup⟩ := List.nodup_cons.1 h
      have hkeep : names.filter (fun other => !other == name) = names := by
        refine List.filter_eq_self.2 fun other hother => ?_
        have hne : other ≠ name := fun heq => hname (heq ▸ hother)
        simp [hne]
      rw [List.eraseDups_cons, hkeep, ih hnodup]

namespace Table

/-! ## One join -/

/-- The columns of the right table that are new come behind the others, each at its first
occurrence. -/
lemma joinColumns_eq (left right : List String) :
    joinColumns left right = left ++ (right.removeAll left).eraseDups := by
  induction right generalizing left with
  | nil => exact (List.append_nil left).symm
  | cons column right ih =>
    rw [joinColumns, List.foldl_cons, ← joinColumns, ih]
    by_cases hcolumn : column ∈ left
    · simp [List.removeAll, hcolumn]
    · have hnew : (column :: right).removeAll left = column :: right.removeAll left := by
        simp [List.removeAll, hcolumn]
      rw [if_neg (by simpa using hcolumn), hnew, List.eraseDups_cons, removeAll_concat,
        List.append_assoc, List.singleton_append]

/-- The names of both tables are there at their first occurrence exactly when the left table
repeats none of its own. -/
lemma joinColumns_eq_eraseDups_iff {left right : List String} :
    joinColumns left right = (left ++ right).eraseDups ↔ left.Nodup := by
  rw [joinColumns_eq, List.eraseDups_append, List.append_cancel_right_eq, eq_comm]
  exact eraseDups_eq_self_iff

lemma nodup_joinColumns_iff {left right : List String} :
    (joinColumns left right).Nodup ↔ left.Nodup := by
  constructor
  · intro h
    rw [joinColumns_eq] at h
    exact h.of_append_left
  · intro h
    rw [joinColumns_eq_eraseDups_iff.2 h]
    exact nodup_eraseDups _

/-! ## Chains of joins -/

/-- The table joined with others, one after the other. -/
def joinAll (table : Table) (others : List (Join × Table)) : Table :=
  others.foldl (fun left (join, right) => left.join right join) table

lemma columns_joinAll (table : Table) (others : List (Join × Table)) :
    (table.joinAll others).columns =
      joinColumns table.columns (others.flatMap (·.2.columns)) := by
  induction others generalizing table with
  | nil => rfl
  | cons other others ih =>
    obtain ⟨join, right⟩ := other
    have hrest : ((table.join right join).joinAll others).columns =
        joinColumns (joinColumns table.columns right.columns) (others.flatMap (·.2.columns)) :=
      ih (table.join right join)
    rw [List.flatMap_cons, joinColumns, List.foldl_append]
    exact hrest

/-- The table of a query is a chain of joins, as far as its tables can be loaded. -/
lemma joined_eq_joinAll {query : Query} {config : Config} {read : Reader} {table : Table}
    {rights : List Table} (htable : Table.load read (config.path query.table) = .ok table)
    (hrights : query.joins.mapM (fun join => Table.load read (config.path join.table)) =
      .ok rights) :
    query.joined config read = .ok (table.joinAll (query.joins.zip rights)) := by
  rw [Query.joined, htable, bind_ok, Disk.foldlM_join, hrights, bind_ok]
  rfl

/-- The columns at the end of a chain of joins are those of the first table, followed by all others
that are new, each at its first occurrence.  These are all names of the chain at their first
occurrence exactly when the first table repeats no column, and only then no column is named twice.
The joins of a query are such a chain. -/
theorem columns_joinAll_eq_iff (table : Table) (others : List (Join × Table)) :
    let behind := others.flatMap (·.2.columns)
    (table.joinAll others).columns =
        table.columns ++ (behind.removeAll table.columns).eraseDups ∧
      ((table.joinAll others).columns = (table.columns ++ behind).eraseDups ↔
        table.columns.Nodup) ∧
      ((table.joinAll others).columns.Nodup ↔ table.columns.Nodup) ∧
      ∀ (query : Query) (config : Config) (read : Reader) (rights : List Table),
        Table.load read (config.path query.table) = .ok table →
        query.joins.mapM (fun join => Table.load read (config.path join.table)) = .ok rights →
        query.joined config read = .ok (table.joinAll (query.joins.zip rights)) := by
  intro behind
  rw [columns_joinAll]
  exact ⟨joinColumns_eq _ _, joinColumns_eq_eraseDups_iff, nodup_joinColumns_iff,
    fun query config read rights => joined_eq_joinAll⟩

/-- Two joins of tables that have columns in common, one of which repeats a column. -/
theorem columns_joinAll_eq_iff_of_two_joins :
    let read : Reader := fun path =>
      if path = "./t.csv" then .ok (encodeText "k,a\n1,x\n")
      else if path = "./u.csv" then .ok (encodeText "k,b,b\n1,y,z\n")
      else .ok (encodeText "a,c\nx,w\n")
    let query : Query :=
      { kind := .select, table := "t.csv", joins := [⟨"k", "u.csv", "k"⟩, ⟨"a", "v.csv", "a"⟩] }
    let first : Table :=
      { columns := ["k", "a"], rows := [⟨1, fieldsOf ["k", "a"] ["1", "x"]⟩] }
    let second : Table :=
      { columns := ["k", "b", "b"], rows := [⟨1, fieldsOf ["k", "b", "b"] ["1", "y", "z"]⟩] }
    let third : Table :=
      { columns := ["a", "c"], rows := [⟨1, fieldsOf ["a", "c"] ["x", "w"]⟩] }
    let joined := first.joinAll (query.joins.zip [second, third])
    query.joined {} read = .ok joined ∧ joined.columns = ["k", "a", "b", "c"] := by
  intro read query first second third joined
  obtain ⟨hcolumns, -, -, hjoined⟩ :=
    columns_joinAll_eq_iff first (query.joins.zip [second, third])
  refine ⟨hjoined query {} read [second, third] ?_ ?_, hcolumns.trans ?_⟩
  · decide +kernel
  · decide +kernel
  · decide +kernel

/-- A left table with a repeated column, which stays repeated in the join and is shown twice. -/
theorem join_repeats_column :
    let left : Table :=
      { columns := ["a", "a"], rows := [⟨1, fieldsOf ["a", "a"] ["1", "2"]⟩] }
    let right : Table := { columns := ["b"], rows := [⟨1, fieldsOf ["b"] ["2"]⟩] }
    let joined := left.join right ⟨"a", "u.csv", "b"⟩
    joined.columns = ["a", "a", "b"] ∧ (left.columns ++ right.columns).eraseDups = ["a", "b"] ∧
      ¬joined.columns.Nodup ∧ joined.select .all [] [] = [["2", "2", "2"]] := by
  decide +kernel

end Table

end FlatQuery
