/-
# What changes do to a table

A change that is not refused is known completely: an insertion adds one row at the end, an
update assigns in the rows that match, and a deletion drops the rows that match.  None of them
touches the columns.
-/
import FlatQuery.Query.Answer
import Mathlib.Tactic.Lemma

namespace FlatQuery

variable {table changed : Table}

namespace Table

lemma insert_eq_ok_iff {values : List String} :
    table.insert values = .ok changed ↔
      values.length = table.columns.length ∧
        table.push (fieldsOf table.columns values) = changed := by
  rw [insert]
  split
  · next h => simp [h]
  · next h => simp [h]

/-- The fields of a row after an update. -/
def updateRow (conditions : List Condition) (assignments : List Assignment) (row : Row) : Fields :=
  if row.matches conditions then assign assignments row.fields else row.fields

lemma update_eq_ok_iff {conditions : List Condition} {assignments : List Assignment} :
    table.update conditions assignments = .ok changed ↔
      (∀ a ∈ assignments, a.column ∈ table.columns) ∧
        table.mapRows (updateRow conditions assignments) = changed := by
  have hknown : (assignments.find? fun a => !table.columns.contains a.column) = none ↔
      ∀ a ∈ assignments, a.column ∈ table.columns := by simp
  rw [update, ← hknown]
  cases assignments.find? fun a => !table.columns.contains a.column with
  | some a => simp
  | none =>
    rw [Except.ok.injEq]
    exact (and_iff_right rfl).symm

end Table

namespace Query

variable {query : Query}

/-- All that a change can be. -/
lemma effect_eq_change (h : query.effect table = .ok (.change changed)) :
    (query.kind = .insert ∧ table.insert (query.values?.getD []) = .ok changed) ∨
    (query.kind = .update ∧
      table.update query.conditions (query.assignments?.getD []) = .ok changed) ∨
    (query.kind = .delete ∧ table.delete query.conditions = changed) := by
  unfold effect at h
  split at h
  · cases h
  · next hkind =>
    obtain ⟨_, hinsert, ⟨⟩⟩ := map_eq_ok_iff.1 h
    exact Or.inl ⟨hkind, hinsert⟩
  · next hkind =>
    obtain ⟨_, hupdate, ⟨⟩⟩ := map_eq_ok_iff.1 h
    exact Or.inr (Or.inl ⟨hkind, hupdate⟩)
  · next hkind =>
    obtain ⟨⟩ := h
    exact Or.inr (Or.inr ⟨hkind, rfl⟩)

/-- Only a selection has rows for its answer. -/
lemma kind_of_effect_eq_rows {rows : List (List String)}
    (h : query.effect table = .ok (.rows rows)) : query.kind = .select := by
  unfold effect at h
  split at h
  · assumption
  · obtain ⟨_, -, ⟨⟩⟩ := map_eq_ok_iff.1 h
  · obtain ⟨_, -, ⟨⟩⟩ := map_eq_ok_iff.1 h
  · cases h

/-- No selection is a change. -/
lemma kind_of_effect_eq_change (h : query.effect table = .ok (.change changed)) :
    query.kind ≠ .select := by
  rcases effect_eq_change h with ⟨hkind, -⟩ | ⟨hkind, -⟩ | ⟨hkind, -⟩ <;> simp [hkind]

/-- No change touches the columns. -/
lemma columns_of_effect (h : query.effect table = .ok (.change changed)) :
    changed.columns = table.columns := by
  rcases effect_eq_change h with ⟨-, hinsert⟩ | ⟨-, hupdate⟩ | ⟨-, rfl⟩
  · obtain ⟨-, rfl⟩ := Table.insert_eq_ok_iff.1 hinsert
    rfl
  · obtain ⟨-, rfl⟩ := Table.update_eq_ok_iff.1 hupdate
    rfl
  · rfl

end Query

end FlatQuery
