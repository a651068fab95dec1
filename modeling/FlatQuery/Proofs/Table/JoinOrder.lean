/-
# Joins in another order

A table is joined with two others, one after the other.  A row at the end stands for three rows,
one of each table, and where the second join asks for a column that the first one does not bring
in, it picks its rows for the row of the left table alone (`Table.fields_join_join`).  When this is
so in both orders, and the two other tables have no column in common, it makes no difference which
of them comes first, but for the order of the rows (`Table.perm_join_join`).
-/
import FlatQuery.Proofs.Table.Join
import Mathlib.Data.Multiset.Bind

namespace FlatQuery

variable {left right right' : Table} {join join' : Join} {row other other' : Row}

/-- The joins with two tables are independent when neither table has the column in which the other
one is joined, and no row of the one has a column that a row of the other has. -/
structure Join.Independent (join join' : Join) (right right' : Table) : Prop where
  lacks : ∀ other ∈ right.rows, other.value? join'.leftColumn = none
  lacks' : ∀ other' ∈ right'.rows, other'.value? join.leftColumn = none
  apart : ∀ other ∈ right.rows, ∀ other' ∈ right'.rows, ∀ column,
    other.value? column = none ∨ other'.value? column = none

/-- Two rows have no column in common when the second has none of those of the first. -/
lemma Row.apart_iff : (∀ column, row.value? column = none ∨ other.value? column = none) ↔
    ∀ column ∈ row.fields.keys, other.value? column = none := by
  refine forall_congr' fun column => ?_
  rw [Std.ExtTreeMap.mem_keys, or_iff_not_imp_left, Std.ExtTreeMap.mem_iff_isSome_getElem?,
    ← Row.value?, Option.isSome_iff_ne_none]

instance (join join' : Join) (right right' : Table) :
    Decidable (join.Independent join' right right') :=
  decidable_of_iff
    ((∀ other ∈ right.rows, other.value? join'.leftColumn = none) ∧
      (∀ other' ∈ right'.rows, other'.value? join.leftColumn = none) ∧
      ∀ other ∈ right.rows, ∀ other' ∈ right'.rows, ∀ column ∈ other.fields.keys,
        other'.value? column = none)
    ⟨fun ⟨hlacks, hlacks', hkeys⟩ => ⟨hlacks, hlacks', fun other hother other' hother' =>
      Row.apart_iff.2 (hkeys other hother other' hother')⟩,
    fun ⟨hlacks, hlacks', hapart⟩ => ⟨hlacks, hlacks', fun other hother other' hother' =>
      Row.apart_iff.1 (hapart other hother other' hother')⟩⟩

/-- The partners of a row depend on its value in the column in question only. -/
lemma Join.partners_congr {rows : List Row}
    (h : row.value? join.leftColumn = other.value? join.leftColumn) :
    join.partners rows row = join.partners rows other := by
  rw [Join.partners, Join.partners, h]

/-- Two lists are combined in the one or the other order. -/
lemma flatMap_map_perm {α β γ : Type} (xs : List α) (ys : List β) (combine : α → β → γ) :
    (xs.flatMap fun x => ys.map fun y => combine x y).Perm
      (ys.flatMap fun y => xs.map fun x => combine x y) := by
  have h := Multiset.bind_map_comm (xs : Multiset α) (ys : Multiset β) (f := combine)
  simp only [Multiset.map_coe, Multiset.coe_bind] at h
  exact Multiset.coe_eq_coe.1 h

namespace Table

/-! ## Two joins -/

/-- What is made of the rows of a join, apart from their ids, is made of the pairs. -/
lemma flatMap_rows_join {α : Type} (left right : Table) (join : Join) (make : Fields → List α) :
    (left.join right join).rows.flatMap (fun row => make row.fields) =
      left.rows.flatMap fun row => (join.partners right.rows row).flatMap fun other =>
        make (pairFields (row, other)) := by
  rw [← List.flatMap_map Row.fields make, fields_join, List.flatMap_map, Join.pairsOf,
    List.flatMap_assoc]
  simp only [List.flatMap_map]

/-- A second join that asks for a column of the left table joins each of its rows with the rows
that both joins attach to it. -/
lemma fields_join_join (h : ∀ other ∈ right.rows, other.value? join'.leftColumn = none) :
    ((left.join right join).join right' join').rows.map Row.fields =
      left.rows.flatMap fun row => (join.partners right.rows row).flatMap fun other =>
        (join'.partners right'.rows row).map fun other' =>
          row.fields ∪ other.fields ∪ other'.fields := by
  -- the id of a row plays no part in the second join
  let attach (fields : Fields) : List Fields :=
    (join'.partners right'.rows ⟨0, fields⟩).map fun other' => fields ∪ other'.fields
  have hattach : ((left.join right join).join right' join').rows.map Row.fields =
      (left.join right join).rows.flatMap fun row => attach row.fields := by
    rw [fields_join, Join.pairsOf, List.map_flatMap]
    refine List.flatMap_congr fun row _ => ?_
    rw [List.map_map]
    rfl
  rw [hattach, flatMap_rows_join]
  refine List.flatMap_congr fun row _ => List.flatMap_congr fun other hother => ?_
  have hlacks : other.value? join'.leftColumn = none := h other (Join.mem_partners_iff.1 hother).1
  have hcolumn : (Row.mk 0 (pairFields (row, other))).value? join'.leftColumn =
      row.value? join'.leftColumn := by
    rw [Row.value?, getElem?_pairFields, hlacks, Option.none_or]
  change (join'.partners right'.rows ⟨0, pairFields (row, other)⟩).map _ = _
  rw [Join.partners_congr hcolumn]
  rfl

/-- Fields without a common column may be attached in either order. -/
lemma union_union_comm (row : Row)
    (h : ∀ column, other.value? column = none ∨ other'.value? column = none) :
    row.fields ∪ other.fields ∪ other'.fields = row.fields ∪ other'.fields ∪ other.fields := by
  apply Std.ExtTreeMap.ext_getElem?
  intro column
  simp only [Std.ExtTreeMap.getElem?_union]
  change (other'.value? column).or ((other.value? column).or (row.value? column)) =
    (other.value? column).or ((other'.value? column).or (row.value? column))
  rcases h column with hnone | hnone <;> simp [hnone]

/-! ## Either order -/

/-- Independent joins attach the same rows in either order, though not in the same places. -/
theorem perm_join_join (left : Table) (h : join.Independent join' right right') :
    (((left.join right join).join right' join').rows.map Row.fields).Perm
      (((left.join right' join').join right join).rows.map Row.fields) := by
  rw [fields_join_join h.lacks, fields_join_join h.lacks']
  refine List.Perm.flatMap_left _ fun row _ => ?_
  have hunion : ((join.partners right.rows row).flatMap fun other =>
        (join'.partners right'.rows row).map fun other' =>
          row.fields ∪ other.fields ∪ other'.fields) =
      (join.partners right.rows row).flatMap fun other =>
        (join'.partners right'.rows row).map fun other' =>
          row.fields ∪ other'.fields ∪ other.fields := by
    refine List.flatMap_congr fun other hother => List.map_congr_left fun other' hother' => ?_
    exact union_union_comm row (h.apart other (Join.mem_partners_iff.1 hother).1 other'
      (Join.mem_partners_iff.1 hother').1)
  rw [hunion]
  exact flatMap_map_perm _ _ _

/-- Two joins of a table in which a row lacks a column and another one has two partners. -/
theorem perm_join_join_of_ragged_rows :
    let left : Table :=
      { columns := ["k", "m", "b"]
        rows := [⟨2, fieldsOf ["k", "m", "b"] ["1", "x", "u"]⟩, ⟨3, fieldsOf ["k"] ["1"]⟩,
          ⟨8, fieldsOf ["k", "m"] ["2", "x"]⟩]
        ascending := by decide }
    let right : Table :=
      { columns := ["id", "b"]
        rows := [⟨1, fieldsOf ["id", "b"] ["1", "v"]⟩, ⟨4, fieldsOf ["id"] ["1"]⟩,
          ⟨5, fieldsOf ["id", "b"] ["2", "w"]⟩]
        ascending := by decide }
    let right' : Table :=
      { columns := ["name", "c"]
        rows := [⟨1, fieldsOf ["name", "c"] ["x", "1"]⟩, ⟨2, fieldsOf ["name", "c"] ["x", "2"]⟩]
        ascending := by decide }
    let join : Join := ⟨"k", "u.csv", "id"⟩
    let join' : Join := ⟨"m", "v.csv", "name"⟩
    join.Independent join' right right' ∧
      (((left.join right join).join right' join').rows.map Row.fields).Perm
        (((left.join right' join').join right join).rows.map Row.fields) ∧
      ((left.join right join).join right' join').rows ≠
        ((left.join right' join').join right join).rows := by
  intro left right right' join join'
  have hindependent : join.Independent join' right right' := by decide +kernel
  exact ⟨hindependent, perm_join_join left hindependent, by decide +kernel⟩

end Table

end FlatQuery
