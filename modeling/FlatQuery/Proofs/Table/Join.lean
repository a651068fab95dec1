/-
# The rows of a join

A join has one row for each pair of rows that have the same text in the columns in question.  The
pairs are described apart from the join: each stands once in their list, in the order of the left
ids and then of the right ones, and there is only one such list (`MatchingPairs.unique`).  That the
rows of a join are numbered from 1 is what comes of pushing them onto a table one after the other,
each with the id that is next at that time (`Table.numbered_eq_foldl_push`).
-/
import FlatQuery.Table.Join
import FlatQuery.Proofs.Table.History
import FlatQuery.Proofs.Table.Sheet

namespace FlatQuery

variable {left right : Table} {join : Join} {row other : Row} {pairs others : List (Row × Row)}

/-! ## Pairs of rows -/

/-- Two rows are a pair when both have the column in question, with the same text. -/
def Join.Pairs (join : Join) (row other : Row) : Prop :=
  ∃ text, row.value? join.leftColumn = some text ∧ other.value? join.rightColumn = some text

/-- The first of two pairs of rows has the lesser left id, or the same one and the lesser right
id. -/
def PairBefore (first second : Row × Row) : Prop :=
  first.1.id < second.1.id ∨ first.1.id = second.1.id ∧ first.2.id < second.2.id

/-- A list of the pairs that the rows of two tables make, in the order of their ids. -/
structure MatchingPairs (left right : Table) (join : Join) (pairs : List (Row × Row)) : Prop where
  mem_iff : ∀ row other,
    (row, other) ∈ pairs ↔ row ∈ left.rows ∧ other ∈ right.rows ∧ join.Pairs row other
  ordered : pairs.Pairwise PairBefore

/-- No pair is listed twice. -/
lemma MatchingPairs.nodup (h : MatchingPairs left right join pairs) : pairs.Nodup := by
  refine h.ordered.imp ?_
  rintro pair _ hbefore rfl
  rcases hbefore with hlt | ⟨-, hlt⟩ <;> exact Nat.lt_irrefl _ hlt

/-- Two tables have only one list of pairs. -/
lemma MatchingPairs.unique (h : MatchingPairs left right join pairs)
    (hothers : MatchingPairs left right join others) : others = pairs := by
  have hperm : others.Perm pairs :=
    (List.perm_ext_iff_of_nodup hothers.nodup h.nodup).2 fun (row, other) => by
      rw [hothers.mem_iff, h.mem_iff]
  refine hperm.eq_of_pairwise (fun pair other _ _ hbefore hbehind => ?_) hothers.ordered h.ordered
  rw [PairBefore] at hbefore hbehind
  omega

/-! ## The pairs of a join -/

/-- The rows of the right table that make a pair with a row of the left one. -/
def Join.partners (join : Join) (right : List Row) (row : Row) : List Row :=
  match row.value? join.leftColumn with
  | none => []
  | some key => right.filter (·.value? join.rightColumn == some key)

lemma Join.mem_partners_iff {right : List Row} :
    other ∈ join.partners right row ↔ other ∈ right ∧ join.Pairs row other := by
  rw [Join.partners, Join.Pairs]
  cases row.value? join.leftColumn <;> simp

lemma Join.partners_sublist (join : Join) (right : List Row) (row : Row) :
    (join.partners right row).Sublist right := by
  rw [Join.partners]
  cases row.value? join.leftColumn with
  | none => exact List.nil_sublist right
  | some key => exact List.filter_sublist

/-- The pairs of two tables, for each left row those with its partners. -/
def Join.pairsOf (join : Join) (left right : Table) : List (Row × Row) :=
  left.rows.flatMap fun row => (join.partners right.rows row).map (row, ·)

lemma matchingPairs_pairsOf (left right : Table) (join : Join) :
    MatchingPairs left right join (join.pairsOf left right) where
  mem_iff row other := by
    simp only [Join.pairsOf, List.mem_flatMap, List.mem_map, Join.mem_partners_iff]
    constructor
    · rintro ⟨_, hrow, _, ⟨hother, hpairs⟩, ⟨⟩⟩
      exact ⟨hrow, hother, hpairs⟩
    · rintro ⟨hrow, hother, hpairs⟩
      exact ⟨row, hrow, other, ⟨hother, hpairs⟩, rfl⟩
  ordered := by
    refine List.pairwise_flatMap.2 ⟨fun row _ => ?_, left.ascending.imp ?_⟩
    · -- the partners of one row stand in the order of the right table
      have hpartners := right.ascending.sublist (join.partners_sublist right.rows row)
      exact List.pairwise_map.2 (hpartners.imp fun hlt => .inr ⟨rfl, hlt⟩)
    · rintro row row' hlt pair hpair pair' hpair'
      obtain ⟨_, -, rfl⟩ := List.mem_map.1 hpair
      obtain ⟨_, -, rfl⟩ := List.mem_map.1 hpair'
      exact .inl hlt

namespace Table

/-- The fields that a pair of rows has in a join. -/
def pairFields (pair : Row × Row) : Fields :=
  pair.1.fields ∪ pair.2.fields

lemma joinRow_eq (right : List Row) (join : Join) (row : Row) :
    joinRow right join row = ((join.partners right row).map (row, ·)).map pairFields := by
  rw [joinRow, Join.partners, List.map_map]
  cases row.value? join.leftColumn <;> rfl

lemma rows_join (left right : Table) (join : Join) :
    (left.join right join).rows = numberRows 1 ((join.pairsOf left right).map pairFields) := by
  have hfields : left.rows.flatMap (joinRow right.rows join) =
      (join.pairsOf left right).map pairFields := by
    rw [Join.pairsOf, List.map_flatMap]
    exact congrArg (left.rows.flatMap ·) (funext (joinRow_eq right.rows join))
  rw [← hfields]
  rfl

lemma fields_join (left right : Table) (join : Join) :
    (left.join right join).rows.map Row.fields = (join.pairsOf left right).map pairFields := by
  rw [rows_join, map_fields_numberRows]

/-- Where both rows of a pair have a column, the text of the right one counts. -/
lemma getElem?_pairFields (row other : Row) (column : String) :
    (pairFields (row, other))[column]? = (other.value? column).or (row.value? column) :=
  Std.ExtTreeMap.getElem?_union

/-! ## Rows that are pushed -/

lemma columns_foldl_push (table : Table) (fieldss : List Fields) :
    (fieldss.foldl push table).columns = table.columns := by
  induction fieldss generalizing table with
  | nil => rfl
  | cons fields rest ih => exact ih (table.push fields)

/-- Rows that are pushed one after the other are numbered from the next id on. -/
lemma rows_foldl_push (table : Table) (fieldss : List Fields) :
    (fieldss.foldl push table).rows = table.rows ++ numberRows table.nextId fieldss := by
  induction fieldss generalizing table with
  | nil => exact (List.append_nil _).symm
  | cons fields rest ih =>
    rw [List.foldl_cons, ih, nextId_push, numberRows, List.append_cons]
    rfl

/-- A table is known by its columns and its rows. -/
lemma eq_of_rows {table table' : Table} (hcolumns : table.columns = table'.columns)
    (hrows : table.rows = table'.rows) : table = table' := by
  cases table
  cases table'
  cases hcolumns
  cases hrows
  rfl

/-- Numbered rows are those that are pushed onto a table without rows. -/
lemma numbered_eq_foldl_push (columns : List String) (fieldss : List Fields) :
    numbered columns fieldss = fieldss.foldl push { columns, rows := [] } := by
  apply eq_of_rows
  · rw [columns_foldl_push]
    rfl
  · rw [rows_foldl_push]
    rfl

lemma map_id_numberRows (first : ℕ) (fieldss : List Fields) :
    (numberRows first fieldss).map Row.id = List.range' first fieldss.length := by
  induction fieldss generalizing first with
  | nil => rfl
  | cons fields rest ih => rw [numberRows, List.map_cons, ih, List.length_cons, List.range'_succ]

/-! ## The rows -/

/-- The rows of a join belong to the pairs of rows that have the same text in the columns in
question, one to each pair and in the order of the left and then of the right ids.  They are
numbered from 1, as they are when they are pushed one after the other, and each has the values of
its pair, of which the right one counts in a column that both rows have. -/
theorem join_matchingPairs (left right : Table) (join : Join) :
    ∃ pairs, MatchingPairs left right join pairs ∧
      (∀ others, MatchingPairs left right join others → others = pairs) ∧
      left.join right join =
        pairs.foldl (fun table (row, other) => table.push (row.fields ∪ other.fields))
          { columns := joinColumns left.columns right.columns, rows := [] } ∧
      (left.join right join).rows.map Row.id = List.range' 1 pairs.length ∧
      List.Forall₂ (fun joined (row, other) => ∀ column,
          joined.value? column = (other.value? column).or (row.value? column))
        (left.join right join).rows pairs := by
  have hpairs := matchingPairs_pairsOf left right join
  have hrows := rows_join left right join
  refine ⟨join.pairsOf left right, hpairs, fun others => hpairs.unique, ?_, ?_, ?_⟩
  · have hpushed : left.join right join =
        ((join.pairsOf left right).map pairFields).foldl push
          { columns := joinColumns left.columns right.columns, rows := [] } := by
      rw [← numbered_eq_foldl_push]
      exact eq_of_rows rfl hrows
    rw [hpushed, List.foldl_map]
    rfl
  · rw [hrows, map_id_numberRows, List.length_map]
  · have hfields : (left.join right join).rows.map Row.fields =
        (join.pairsOf left right).map pairFields := by
      rw [hrows, map_fields_numberRows]
    rw [← List.forall₂_eq_eq_eq, List.forall₂_map_left_iff, List.forall₂_map_right_iff] at hfields
    refine hfields.imp fun joined pair hjoined column => ?_
    rw [Row.value?, hjoined, pairFields, Std.ExtTreeMap.getElem?_union]
    rfl

end Table

end FlatQuery
