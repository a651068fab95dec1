/-
# Ids that are handed out

Rows are pushed onto a table and removed from it, one after the other, and each pushed row gets
the next id.  This id is greater than the ids of the rows that are present, and nothing else is
known of the past.  So it is greater than all ids that were ever handed out as long as the row
with the greatest one stays, and no longer (`History.fresh_iff_keeps_last`): a row that is
removed right after it was pushed leaves no trace (`Table.remove_push`).

Ids are counted in words of 64 bits (`Table.nextWord`), where the greatest id has no next one.
What is said about histories is said of those in which it is not handed out (`History.Fits`), and
there the words are the ids.
-/
import FlatQuery.Table.Basic
import Mathlib.Data.List.DropRight
import Mathlib.Data.List.Nodup
import Mathlib.Tactic.Lemma

namespace FlatQuery

/-! ## The next id -/

namespace Table

variable {table : Table} {fields : Fields} {id : Nat}

/-- The id of the last row, which is the greatest of all. -/
def lastId? (table : Table) : Option Nat :=
  table.rows.getLast?.map (·.id)

lemma nextId_eq (table : Table) : table.nextId = table.lastId?.elim 1 (· + 1) := by
  rw [nextId, lastId?]
  cases table.rows.getLast? <;> rfl

lemma lastId?_push (table : Table) (fields : Fields) :
    (table.push fields).lastId? = some table.nextId := by
  simp [lastId?, push]

lemma nextId_push (table : Table) (fields : Fields) :
    (table.push fields).nextId = table.nextId + 1 := by
  rw [nextId_eq, lastId?_push]
  rfl

lemma exists_mem_of_lastId? (h : table.lastId? = some id) : ∃ row ∈ table.rows, row.id = id := by
  obtain ⟨row, hrow, hid⟩ := Option.map_eq_some_iff.1 h
  exact ⟨row, List.mem_of_getLast? hrow, hid⟩

/-- The next id, counted in words.  After the greatest word it is 0 again. -/
def nextWord (table : Table) : UInt64 :=
  table.lastId?.elim 1 (.ofNat · + 1)

/-- The next id is a word as long as there is a word above the ids of all rows. -/
lemma toNat_nextWord (h : ∀ row ∈ table.rows, row.id + 1 < UInt64.size) :
    table.nextWord.toNat = table.nextId := by
  rw [nextId_eq, nextWord]
  cases hlast : table.lastId? with
  | none => rfl
  | some id =>
    obtain ⟨row, hrow, rfl⟩ := exists_mem_of_lastId? hlast
    have hid : (UInt64.ofNat row.id).toNat = row.id :=
      UInt64.toNat_ofNat_of_lt' (Nat.lt_of_succ_lt (h row hrow))
    rw [Option.elim_some, Option.elim_some, UInt64.toNat_add, hid]
    exact Nat.mod_eq_of_lt (h row hrow)

/-- A row that is removed right after it was pushed leaves no trace. -/
lemma remove_push (table : Table) (fields : Fields) :
    (table.push fields).remove table.nextId = table := by
  have hkeep : ∀ row ∈ table.rows, (row.id != table.nextId) = true := fun row hrow =>
    bne_iff_ne.2 (Nat.ne_of_lt (id_lt_nextId hrow))
  have hrows : (table.rows ++ [Row.mk table.nextId fields]).filter (·.id != table.nextId) =
      table.rows := by
    rw [List.filter_append, List.filter_eq_self.2 hkeep]
    simp
  simp only [remove, filter, push, hrows]

lemma mem_rows_remove {row : Row} :
    row ∈ (table.remove id).rows ↔ row ∈ table.rows ∧ row.id ≠ id := by
  rw [remove, filter, List.mem_filter, bne_iff_ne]

lemma lastId?_remove_of_ne (h : table.lastId? ≠ some id) :
    (table.remove id).lastId? = table.lastId? := by
  have hrows : (table.remove id).rows = table.rows.filter (·.id != id) := rfl
  rw [lastId?, lastId?, hrows]
  rcases List.eq_nil_or_concat' table.rows with hnil | ⟨before, last, hlast⟩
  · rw [hnil, List.filter_nil]
  · have hne : (last.id != id) = true := by
      rw [lastId?, hlast, List.getLast?_concat] at h
      exact bne_iff_ne.2 fun hid => h (congrArg some hid)
    rw [hlast, List.filter_append, List.filter_singleton, hne]
    simp

/-- The ids that are left when the last row is removed are less than its own. -/
lemma lt_of_lastId?_remove {last : Nat} (h : table.lastId? = some id)
    (hlast : (table.remove id).lastId? = some last) : last < id := by
  obtain ⟨row, hrow, rfl⟩ := exists_mem_of_lastId? hlast
  obtain ⟨hmem, hne⟩ := mem_rows_remove.1 hrow
  have hlt : row.id < table.nextId := id_lt_nextId hmem
  rw [nextId_eq, h, Option.elim_some] at hlt
  omega

/-- The next id stays the same with a removal that spares the last row. -/
lemma nextId_remove (h : table.lastId? = some id → id = 0) :
    (table.remove id).nextId = table.nextId := by
  by_cases hlast : table.lastId? = some id
  · -- the greatest id is 0, so no row is left
    obtain rfl := h hlast
    have hnone : (table.remove 0).lastId? = none := by
      by_contra hsome
      obtain ⟨last, hsome⟩ := Option.ne_none_iff_exists'.1 hsome
      exact Nat.not_lt_zero _ (lt_of_lastId?_remove hlast hsome)
    rw [nextId_eq, nextId_eq, hnone, hlast]
    rfl
  · rw [nextId_eq, nextId_eq, lastId?_remove_of_ne hlast]

/-- When the last row is removed, the next id is no longer greater than its own. -/
lemma nextId_remove_le (h : table.lastId? = some id) (hid : id ≠ 0) :
    (table.remove id).nextId ≤ id := by
  rw [nextId_eq]
  cases hlast : (table.remove id).lastId? with
  | none => exact Nat.one_le_iff_ne_zero.2 hid
  | some last => exact lt_of_lastId?_remove h hlast

end Table

/-! ## Steps and histories -/

/-- A step in the life of a table: a row is pushed, or the row of an id is removed. -/
inductive RowStep where
  | push (fields : Fields)
  | remove (id : Nat)

/-- A table with its past. -/
structure History where
  table : Table
  /-- The ids handed out so far, those of the rows at the start first. -/
  ids : List Nat

namespace History

variable {history : History} {steps : List RowStep}

/-- The history of a table at its start. -/
def start (table : Table) : History :=
  ⟨table, table.rows.map (·.id)⟩

/-- The history after one more step.  A push hands out the next id. -/
def step (history : History) : RowStep → History
  | .push fields => ⟨history.table.push fields, history.ids ++ [history.table.nextId]⟩
  | .remove id => ⟨history.table.remove id, history.ids⟩

/-- The history after steps, one after the other. -/
def run (history : History) (steps : List RowStep) : History :=
  steps.foldl step history

/-- No id was handed out twice, and the next one is greater than all that were. -/
structure Fresh (history : History) : Prop where
  nodup : history.ids.Nodup
  lt_nextId : ∀ id ∈ history.ids, id < history.table.nextId

/-- A step spares the last row when it does not remove it.  A row with id 0 may be removed. -/
def Spares (history : History) : RowStep → Prop
  | .push _ => True
  | .remove id => history.table.lastId? = some id → id = 0

/-- All ids are words, and so is the one after each of them. -/
def Fits (history : History) : Prop :=
  ∀ id ∈ history.ids, id + 1 < UInt64.size

instance (history : History) : Decidable history.Fits :=
  inferInstanceAs (Decidable (∀ id ∈ _, _))

lemma run_append (history : History) (steps more : List RowStep) :
    history.run (steps ++ more) = (history.run steps).run more :=
  List.foldl_append

lemma fresh_start (table : Table) : (start table).Fresh where
  nodup := List.pairwise_map.2 (table.ascending.imp Nat.ne_of_lt)
  lt_nextId id hid := by
    obtain ⟨row, hrow, rfl⟩ := List.mem_map.1 hid
    exact Table.id_lt_nextId hrow

/-- One step leaves ids fresh when it spares the last row. -/
lemma Fresh.step (h : history.Fresh) {s : RowStep} (hspares : history.Spares s) :
    (history.step s).Fresh := by
  cases s with
  | push fields =>
    have hnew : history.table.nextId ∉ history.ids := fun hmem =>
      Nat.lt_irrefl _ (h.lt_nextId _ hmem)
    refine ⟨List.nodup_append.2 ⟨h.nodup, List.nodup_singleton _, ?_⟩, fun id hid => ?_⟩
    · rintro id hid _ hnext rfl
      exact hnew (List.mem_singleton.1 hnext ▸ hid)
    · change id < (history.table.push fields).nextId
      rw [Table.nextId_push]
      rcases List.mem_append.1 hid with hid | hid
      · exact Nat.lt_succ_of_lt (h.lt_nextId id hid)
      · exact List.mem_singleton.1 hid ▸ Nat.lt_succ_self _
  | remove id =>
    refine ⟨h.nodup, fun other hother => ?_⟩
    change other < (history.table.remove id).nextId
    rw [Table.nextId_remove hspares]
    exact h.lt_nextId other hother

/-- The rows that are present have ids that were handed out. -/
lemma id_mem_ids_run (hpresent : ∀ row ∈ history.table.rows, row.id ∈ history.ids) :
    ∀ row ∈ (history.run steps).table.rows, row.id ∈ (history.run steps).ids := by
  induction steps generalizing history with
  | nil => exact hpresent
  | cons s steps ih =>
    refine ih fun row hrow => ?_
    cases s with
    | push fields =>
      rcases List.mem_append.1 hrow with hrow | hrow
      · exact List.mem_append_left _ (hpresent row hrow)
      · rw [List.mem_singleton.1 hrow]
        exact List.mem_append_right _ (List.mem_singleton_self _)
    | remove id => exact hpresent row (Table.mem_rows_remove.1 hrow).1

/-- An id that was handed out stays so. -/
lemma ids_subset_run (history : History) (steps : List RowStep) :
    history.ids ⊆ (history.run steps).ids := by
  induction steps generalizing history with
  | nil => exact List.Subset.refl _
  | cons s steps ih =>
    refine List.Subset.trans ?_ (ih (history.step s))
    cases s with
    | push fields => exact List.subset_append_left _ _
    | remove id => exact List.Subset.refl _

/-- As long as ids fit into words, the next one is what is counted in words. -/
lemma toNat_nextWord_run (hpresent : ∀ row ∈ history.table.rows, row.id ∈ history.ids)
    (hfits : (history.run steps).Fits) {done : List RowStep} (hdone : done <+: steps) :
    (history.run done).table.nextWord.toNat = (history.run done).table.nextId := by
  obtain ⟨rest, rfl⟩ := hdone
  rw [run_append] at hfits
  exact Table.toNat_nextWord fun row hrow =>
    hfits row.id (ids_subset_run _ rest (id_mem_ids_run hpresent row hrow))

/-- A step that does not spare the last row leaves a next id that is not greater than all that
were handed out. -/
lemma spares_of_fresh (hpresent : ∀ row ∈ history.table.rows, row.id ∈ history.ids) {s : RowStep}
    (h : (history.step s).Fresh) : history.Spares s := by
  cases s with
  | push fields => trivial
  | remove id =>
    intro hlast
    by_contra hid
    obtain ⟨row, hrow, rfl⟩ := Table.exists_mem_of_lastId? hlast
    have hlt : row.id < (history.table.remove row.id).nextId :=
      h.lt_nextId row.id (hpresent row hrow)
    exact Nat.not_lt.2 (Table.nextId_remove_le hlast hid) hlt

/-- From the start of a table on, and while ids fit into words, the next id is always the one that
is counted in words.  No id is handed out twice and the next one is always greater than all that
were, exactly as long as every step spares the last row. -/
theorem fresh_iff_keeps_last (table : Table) (steps : List RowStep)
    (hfits : ((start table).run steps).Fits) :
    (∀ done, done <+: steps →
      ((start table).run done).table.nextWord.toNat = ((start table).run done).table.nextId) ∧
    ((∀ done, done <+: steps → ((start table).run done).Fresh) ↔
      ∀ done s, done ++ [s] <+: steps → ((start table).run done).Spares s) := by
  have hpresent : ∀ row ∈ (start table).table.rows, row.id ∈ (start table).ids :=
    fun row hrow => List.mem_map_of_mem hrow
  refine ⟨fun done hdone => toNat_nextWord_run hpresent hfits hdone, ?_⟩
  constructor
  · intro h done s hdone
    refine spares_of_fresh (id_mem_ids_run hpresent) ?_
    have hnext := h _ hdone
    rwa [run_append] at hnext
  · intro h done
    induction done using List.reverseRecOn with
    | nil => exact fun _ => fresh_start table
    | append_singleton done s ih =>
      intro hdone
      have hbefore : done <+: steps := (List.prefix_append done [s]).trans hdone
      rw [run_append]
      exact (ih hbefore).step (h done s hdone)

/-- Two rows are pushed onto a table with one row, which is removed in between. -/
theorem fresh_iff_keeps_last_of_removed_first :
    let table : Table := { columns := ["a"], rows := [⟨7, ∅⟩] }
    let steps : List RowStep := [.push ∅, .remove 7, .push ∅]
    ((start table).run steps).Fits ∧ ((start table).run steps).ids = [7, 8, 9] ∧
      ∀ done, done <+: steps → ((start table).run done).Fresh := by
  intro table steps
  have hfits : ((start table).run steps).Fits := by decide
  refine ⟨hfits, by decide, (fresh_iff_keeps_last table steps hfits).2.2 ?_⟩
  intro done s hdone
  rcases done with _ | ⟨first, _ | ⟨second, _ | ⟨third, more⟩⟩⟩
  · obtain rfl : s = .push ∅ := by simpa [steps] using hdone
    trivial
  · obtain ⟨rfl, rfl⟩ : first = .push ∅ ∧ s = .remove 7 := by simpa [steps] using hdone
    -- the last row has id 8 by then
    intro hlast
    exact absurd hlast (by decide)
  · obtain ⟨-, -, rfl⟩ : first = .push ∅ ∧ second = .remove 7 ∧ s = .push ∅ := by
      simpa [steps] using hdone
    trivial
  · simp [steps] at hdone

/-- A row is pushed onto an empty table and removed, and the next row gets its id. -/
theorem removal_frees_id :
    let done : List RowStep := [.push ∅, .remove 1]
    let history := (start { columns := ["a"], rows := [] }).run done
    history.ids = [1] ∧ history.table.nextId = 1 ∧ (history.step (.push ∅)).ids = [1, 1] := by
  decide

end History

end FlatQuery
