/-
# Selecting in steps

To select rows, those that match are picked out and then sorted.  Rows may as well be sorted
before any are dropped, because dropping rows leaves a stable order of the others
(`sortRows_filter`), and conditions may be applied one list after the other.  All that counts of
conditions is which ones there are (`Table.sortRows_matching`).
-/
import FlatQuery.Proofs.Table.Sorting

namespace FlatQuery

/-- Rows that are dropped before the sort or after it leave the same sorted rows. -/
lemma sortRows_filter (keys : List SortKey) (test : Row → Bool) (rows : List Row) :
    sortRows keys (rows.filter test) = (sortRows keys rows).filter test := by
  have hsorted : StablySorted keys rows (sortRows keys rows) := stablySorted_sortRows keys rows
  have hfiltered : StablySorted keys (rows.filter test) ((sortRows keys rows).filter test) :=
    { perm := hsorted.perm.filter test
      ordered := hsorted.ordered.filter test
      stable := fun row => by
        rw [List.filter_comm, hsorted.stable, List.filter_comm] }
  exact hfiltered.eq_sortRows.symm

namespace Row

variable {row : Row} {conditions others : List Condition}

/-- A row matches unless it fails some condition. -/
lemma matches_eq_not_any (row : Row) (conditions : List Condition) :
    row.matches conditions = !conditions.any fun condition => !condition.accepts row := by
  rw [Row.matches, List.not_any_eq_all_not]
  simp only [Bool.not_not]

lemma matches_append (row : Row) (conditions more : List Condition) :
    row.matches (conditions ++ more) = (row.matches conditions && row.matches more) :=
  List.all_append

/-- Neither the order of conditions nor their repetition counts. -/
lemma matches_congr (h : ∀ condition, condition ∈ others ↔ condition ∈ conditions) :
    row.matches others = row.matches conditions := by
  rw [Bool.eq_iff_iff, Row.matches, Row.matches, List.all_eq_true, List.all_eq_true]
  exact forall_congr' fun condition => by rw [h condition]

end Row

namespace Table

/-- The sorted rows that match two lists of conditions are those of the table that fail no
condition, stably sorted; they are what is left of all rows, sorted, when those are dropped that
fail some condition; they are the rows that are left by the first list and then by the second,
sorted; and they stay the same with the conditions in any other order or repeated. -/
theorem sortRows_matching (table : Table) (conditions more : List Condition)
    (order : List SortKey) :
    let sorted := sortRows order (table.matching (conditions ++ more))
    let fails (row : Row) : Bool :=
      (conditions ++ more).any fun condition => !condition.accepts row
    StablySorted order (table.rows.filter fun row => !fails row) sorted ∧
      sorted = (sortRows order table.rows).filter (fun row => !fails row) ∧
      sorted = sortRows order ((table.matching conditions).filter (·.matches more)) ∧
      ∀ others, (∀ condition, condition ∈ others ↔ condition ∈ conditions ++ more) →
        sortRows order (table.matching others) = sorted := by
  intro sorted fails
  have hmatching : table.matching (conditions ++ more) = table.rows.filter fun row => !fails row :=
    List.filter_congr fun row _ => row.matches_eq_not_any (conditions ++ more)
  have hsorted : sorted = sortRows order (table.rows.filter fun row => !fails row) :=
    congrArg (sortRows order) hmatching
  refine ⟨?_, ?_, ?_, fun others hothers => ?_⟩
  · rw [hsorted]
    exact stablySorted_sortRows order _
  · rw [hsorted, sortRows_filter]
  · have hsteps : table.matching (conditions ++ more) =
        (table.matching conditions).filter (·.matches more) := by
      rw [matching, matching, List.filter_filter]
      exact List.filter_congr fun row _ => by rw [row.matches_append, Bool.and_comm]
    exact congrArg (sortRows order) hsteps
  · have hsame : table.matching others = table.matching (conditions ++ more) :=
      List.filter_congr fun row _ => Row.matches_congr hothers
    exact congrArg (sortRows order) hsame

/-- Two conditions in the other order, one of them twice, on rows of which some lack a column. -/
theorem sortRows_matching_of_repeated_condition :
    let table : Table :=
      { columns := ["a", "b"]
        rows := [⟨1, fieldsOf ["a"] ["x"]⟩, ⟨2, fieldsOf ["a", "b"] ["x", "1"]⟩,
          ⟨4, fieldsOf ["a", "b"] ["y", "1"]⟩, ⟨7, fieldsOf ["a", "b"] ["x", "2"]⟩]
        ascending := by decide }
    let first : Condition := ⟨"a", .equals "x"⟩
    let second : Condition := ⟨"b", .oneOf (.ofList ["1", "2"])⟩
    let order : List SortKey := [⟨"b", .descending⟩]
    sortRows order (table.matching [second, first, second]) =
        sortRows order (table.matching ([first] ++ [second])) ∧
      (table.matching [second, first, second]).map (·.id) = [2, 7] := by
  intro table first second order
  obtain ⟨-, -, -, hothers⟩ := sortRows_matching table [first] [second] order
  refine ⟨hothers [second, first, second] ?_, by decide +kernel⟩
  intro condition
  simp only [List.cons_append, List.nil_append, List.mem_cons, List.not_mem_nil, or_false]
  grind

end Table

end FlatQuery
