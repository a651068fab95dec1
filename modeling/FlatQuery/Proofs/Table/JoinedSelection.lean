/-
# Selecting before joining

Conditions on the rows of a join may be asked before the join is made.  A condition on a column
that no right row has is one on the left row of each pair, and a condition on a column that every
right row has is one on the right row.  In both cases the rows that fail may be dropped from the
table they belong to, because the pairs of what is left of it are the pairs whose row was not
dropped (`MatchingPairs.filter_left`, `MatchingPairs.filter_right`).
-/
import FlatQuery.Proofs.Memory
import FlatQuery.Proofs.Table.Join

namespace FlatQuery

variable {left right : Table} {join : Join} {row other : Row} {pairs : List (Row × Row)}
  {conditions : List Condition}

/-! ## Pairs of what is left of a table -/

lemma MatchingPairs.filter_left (h : MatchingPairs left right join pairs) (test : Row → Bool) :
    MatchingPairs (left.filter test) right join (pairs.filter fun pair => test pair.1) where
  mem_iff row other := by
    rw [List.mem_filter, h.mem_iff, Table.filter, List.mem_filter]
    tauto
  ordered := h.ordered.filter _

lemma MatchingPairs.filter_right (h : MatchingPairs left right join pairs) (test : Row → Bool) :
    MatchingPairs left (right.filter test) join (pairs.filter fun pair => test pair.2) where
  mem_iff row other := by
    rw [List.mem_filter, h.mem_iff, Table.filter, List.mem_filter]
    tauto
  ordered := h.ordered.filter _

lemma pairsOf_filter_left (left right : Table) (join : Join) (test : Row → Bool) :
    join.pairsOf (left.filter test) right =
      (join.pairsOf left right).filter fun pair => test pair.1 :=
  ((matchingPairs_pairsOf left right join).filter_left test).unique
    (matchingPairs_pairsOf (left.filter test) right join)

lemma pairsOf_filter_right (left right : Table) (join : Join) (test : Row → Bool) :
    join.pairsOf left (right.filter test) =
      (join.pairsOf left right).filter fun pair => test pair.2 :=
  ((matchingPairs_pairsOf left right join).filter_right test).unique
    (matchingPairs_pairsOf left (right.filter test) join)

/-! ## Conditions on pairs -/

/-- Whether fields match depends on the columns of the conditions only. -/
lemma fieldsMatch_congr {fields : Fields}
    (h : ∀ condition ∈ conditions, fields[condition.column]? = row.value? condition.column) :
    fieldsMatch conditions fields = row.matches conditions := by
  rw [Bool.eq_iff_iff, fieldsMatch, Row.matches, List.all_eq_true, List.all_eq_true]
  refine forall₂_congr fun condition hcondition => ?_
  rw [h condition hcondition, Condition.accepts]

namespace Table

/-- Columns that the right row of a pair does not have are those of the left row. -/
lemma fieldsMatch_pairFields_left
    (h : ∀ condition ∈ conditions, other.value? condition.column = none) :
    fieldsMatch conditions (pairFields (row, other)) = row.matches conditions :=
  fieldsMatch_congr fun condition hcondition => by
    rw [getElem?_pairFields, h condition hcondition, Option.none_or]

/-- Columns that the right row of a pair has are its own. -/
lemma fieldsMatch_pairFields_right
    (h : ∀ condition ∈ conditions, other.value? condition.column ≠ none) :
    fieldsMatch conditions (pairFields (row, other)) = other.matches conditions :=
  fieldsMatch_congr fun condition hcondition => by
    obtain ⟨value, hvalue⟩ := Option.ne_none_iff_exists'.1 (h condition hcondition)
    rw [getElem?_pairFields, hvalue, Option.some_or]

/-- The rows of a join that match are those of the pairs that pass a test, when the test tells
whether the fields of a pair match. -/
lemma fields_matching_join {test : Row × Row → Bool}
    (h : ∀ row, ∀ other ∈ right.rows,
      fieldsMatch conditions (pairFields (row, other)) = test (row, other)) :
    ((left.join right join).matching conditions).map Row.fields =
      ((join.pairsOf left right).filter test).map pairFields := by
  have hmatching : ((left.join right join).matching conditions).map Row.fields =
      ((left.join right join).rows.map Row.fields).filter (fieldsMatch conditions) := by
    rw [List.filter_map]
    rfl
  have hpairs := matchingPairs_pairsOf left right join
  rw [hmatching, fields_join, List.filter_map]
  congr 1
  refine List.filter_congr fun (row, other) hpair => ?_
  exact h row other ((hpairs.mem_iff row other).1 hpair).2.1

/-! ## Selecting -/

/-- The rows of a join that match are those of the join with the left rows that match, when no
right row has a column of the conditions, and those of the join with the right rows that match,
when every right row has all of these columns. -/
theorem fields_matching_join_eq (left right : Table) (join : Join) (conditions : List Condition) :
    ((∀ other ∈ right.rows, ∀ condition ∈ conditions, other.value? condition.column = none) →
      ((left.join right join).matching conditions).map Row.fields =
        ((left.filter (·.matches conditions)).join right join).rows.map Row.fields) ∧
    ((∀ other ∈ right.rows, ∀ condition ∈ conditions, other.value? condition.column ≠ none) →
      ((left.join right join).matching conditions).map Row.fields =
        (left.join (right.filter (·.matches conditions)) join).rows.map Row.fields) := by
  constructor
  · intro habsent
    rw [fields_join, pairsOf_filter_left]
    exact fields_matching_join fun row other hother =>
      fieldsMatch_pairFields_left (habsent other hother)
  · intro hpresent
    rw [fields_join, pairsOf_filter_right]
    exact fields_matching_join fun row other hother =>
      fieldsMatch_pairFields_right (hpresent other hother)

/-- A condition on a column of the left table that one of its rows lacks, and one on a column that
both tables have with different texts. -/
theorem fields_matching_join_eq_of_shared_column :
    let left : Table :=
      { columns := ["k", "a", "b"]
        rows := [⟨2, fieldsOf ["k", "a", "b"] ["1", "x", "u"]⟩, ⟨5, fieldsOf ["k"] ["1"]⟩,
          ⟨9, fieldsOf ["k", "a", "b"] ["2", "x", "v"]⟩]
        ascending := by decide }
    let right : Table :=
      { columns := ["id", "b"]
        rows := [⟨1, fieldsOf ["id", "b"] ["1", "v"]⟩, ⟨3, fieldsOf ["id", "b"] ["1", "w"]⟩,
          ⟨4, fieldsOf ["b"] ["v"]⟩, ⟨7, fieldsOf ["id", "b"] ["2", "u"]⟩]
        ascending := by decide }
    let join : Join := ⟨"k", "u.csv", "id"⟩
    let onLeft : List Condition := [⟨"a", .equals "x"⟩]
    let onBoth : List Condition := [⟨"b", .oneOf (.ofList ["u", "v"])⟩]
    ((left.join right join).matching onLeft).map Row.fields =
        ((left.filter (·.matches onLeft)).join right join).rows.map Row.fields ∧
      ((left.join right join).matching onBoth).map Row.fields =
        (left.join (right.filter (·.matches onBoth)) join).rows.map Row.fields ∧
      ((left.join right join).matching onLeft).map (·.id) = [1, 2, 5] ∧
      ((left.join right join).matching onBoth).map (·.id) = [1, 3, 5] := by
  intro left right join onLeft onBoth
  have habsent : ∀ other ∈ right.rows, ∀ condition ∈ onLeft,
      other.value? condition.column = none := by decide +kernel
  have hpresent : ∀ other ∈ right.rows, ∀ condition ∈ onBoth,
      other.value? condition.column ≠ none := by decide +kernel
  exact ⟨(fields_matching_join_eq left right join onLeft).1 habsent,
    (fields_matching_join_eq left right join onBoth).2 hpresent,
    by decide +kernel, by decide +kernel⟩

end Table

end FlatQuery
