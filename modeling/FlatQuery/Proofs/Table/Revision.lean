/-
# Rows that are revised

An update and a deletion treat every row by itself: it is changed, left as it is or dropped
(`Query.revise`).  Revising rows once more, after they were settled, changes nothing about rows
that were changed before, because assignments that were made are there already.  Of the rows
that were left as they are it changes those that were neglected, which meet the conditions as
soon as they have a text for every column (`Query.revise_settle_iff`).
-/
import FlatQuery.Proofs.Memory
import FlatQuery.Proofs.Table.Change

namespace FlatQuery

variable {columns : List String} {assignments : List Assignment} {fields revised : Fields}
  {name : String}

/-! ## Assignments -/

/-- The text that assignments give to a column, which is the one of the last assignment. -/
def assigned? (assignments : List Assignment) (name : String) : Option String :=
  (assignments.reverse.find? (·.column == name)).map (·.value)

lemma assigned?_eq_none_iff :
    assigned? assignments name = none ↔ name ∉ assignments.map (·.column) := by
  simp [assigned?]

lemma assigned?_cons (a : Assignment) (name : String) :
    assigned? (a :: assignments) name =
      (assigned? assignments name).or (if a.column = name then some a.value else none) := by
  rw [assigned?, assigned?, List.reverse_cons, List.find?_append, Option.map_or]
  by_cases h : a.column = name <;> simp [h]

/-- After assignments a column has the text that they give to it, or else what it had before. -/
lemma getElem?_assign (fields : Fields) (name : String) :
    (Table.assign assignments fields)[name]? =
      (assigned? assignments name).or fields[name]? := by
  induction assignments generalizing fields with
  | nil => rfl
  | cons a assignments ih =>
    have hassign : Table.assign (a :: assignments) fields =
        Table.assign assignments (fields.insert a.column a.value) := rfl
    rw [hassign, ih, assigned?_cons, Option.or_assoc, Std.ExtTreeMap.getElem?_insert]
    by_cases h : a.column = name <;> simp [h]

/-- Only columns of the table are given texts. -/
lemma mem_of_assigned? (hknown : ∀ a ∈ assignments, a.column ∈ columns) {text : String}
    (h : assigned? assignments name = some text) : name ∈ columns := by
  have hassigned : name ∈ assignments.map (·.column) := by
    by_contra hnot
    rw [assigned?_eq_none_iff.2 hnot] at h
    cases h
  obtain ⟨a, ha, rfl⟩ := List.mem_map.1 hassigned
  exact hknown a ha

lemma settle_settle (columns : List String) (fields : Fields) :
    settle columns (settle columns fields) = settle columns fields := by
  rw [settle, fieldValues_settle]
  rfl

/-- Assignments to a settled row leave it settled. -/
lemma settle_assign_settle (hknown : ∀ a ∈ assignments, a.column ∈ columns) (fields : Fields) :
    settle columns (Table.assign assignments (settle columns fields)) =
      Table.assign assignments (settle columns fields) := by
  apply Std.ExtTreeMap.ext_getElem?
  intro name
  rw [getElem?_settle, getElem?_assign, getElem?_settle]
  cases htext : assigned? assignments name with
  | none => by_cases hname : name ∈ columns <;> simp [hname]
  | some text => simp [mem_of_assigned? hknown htext]

/-- Assignments that were made are there, also after the row is settled. -/
lemma assign_settle_assign (hknown : ∀ a ∈ assignments, a.column ∈ columns) (fields : Fields) :
    Table.assign assignments (settle columns (Table.assign assignments fields)) =
      settle columns (Table.assign assignments fields) := by
  apply Std.ExtTreeMap.ext_getElem?
  intro name
  rw [getElem?_assign, getElem?_settle, getElem?_assign]
  cases htext : assigned? assignments name with
  | none => simp
  | some text => simp [mem_of_assigned? hknown htext]

/-! ## Updates and deletions -/

namespace Query

variable {query : Query} {table changed : Table}

lemma kind_ne_select (hkind : query.kind = .update ∨ query.kind = .delete) :
    query.kind ≠ .select := by
  rcases hkind with hkind | hkind <;> simp [hkind]

/-- What an update or a deletion makes of the fields of a row, if it does not drop them. -/
def revise (query : Query) (fields : Fields) : Option Fields :=
  match query.kind with
  | .update =>
    some (if fieldsMatch query.conditions fields
      then Table.assign (query.assignments?.getD []) fields else fields)
  | .delete => if fieldsMatch query.conditions fields then none else some fields
  | .select | .insert => some fields

lemma revise_eq_none_iff :
    query.revise fields = none ↔ query.kind = .delete ∧ fieldsMatch query.conditions fields := by
  unfold revise
  cases query.kind <;> simp

/-- The sheet with every row revised. -/
def reviseSheet (query : Query) (sheet : Sheet) : Sheet :=
  ⟨sheet.columns, sheet.rows.filterMap query.revise⟩

/-- The assignments of a query are to columns, if it is an update. -/
def AssignsTo (query : Query) (columns : List String) : Prop :=
  query.kind = .update → ∀ a ∈ query.assignments?.getD [], a.column ∈ columns

/-- An update or a deletion takes effect exactly when it assigns to columns of the table. -/
lemma exists_effect_iff (hkind : query.kind = .update ∨ query.kind = .delete) :
    (∃ changed, query.effect table = .ok (.change changed)) ↔ query.AssignsTo table.columns := by
  rcases hkind with hkind | hkind
  · have heffect : ∀ changed, query.effect table = .ok (.change changed) ↔
        table.update query.conditions (query.assignments?.getD []) = .ok changed := by
      intro changed
      simp [effect, hkind, map_eq_ok_iff]
    simp [heffect, Table.update_eq_ok_iff, AssignsTo, hkind]
  · simp [effect, AssignsTo, hkind]

/-- It revises every row, and leaves the columns alone. -/
lemma sheet_of_effect (hkind : query.kind = .update ∨ query.kind = .delete)
    (h : query.effect table = .ok (.change changed)) :
    changed.sheet = query.reviseSheet table.sheet := by
  rcases effect_eq_change h with ⟨hinsert, -⟩ | ⟨hupdate, hchanged⟩ | ⟨hdelete, rfl⟩
  · simp [hinsert] at hkind
  · obtain ⟨-, rfl⟩ := Table.update_eq_ok_iff.1 hchanged
    have hrevise : query.revise = fun fields => some (if fieldsMatch query.conditions fields
        then Table.assign (query.assignments?.getD []) fields else fields) := by
      funext fields
      rw [revise, hupdate]
    rw [reviseSheet, hrevise, List.filterMap_eq_map']
    simp only [Table.sheet, Table.mapRows, List.map_map]
    rfl
  · have hrevise : query.revise =
        Option.guard fun fields => !fieldsMatch query.conditions fields := by
      funext fields
      rw [revise, hdelete, Option.guard]
      cases fieldsMatch query.conditions fields <;> rfl
    rw [reviseSheet, hrevise, List.filterMap_eq_filter]
    simp only [Table.sheet, Table.delete, Table.filter, List.filter_map]
    rfl

/-! ## Revising twice -/

/-- A row is neglected when the conditions pass it over only because it lacks columns, and with
empty texts in these there would be something left to do: it would be deleted, or get a text
that it does not have. -/
def Neglects (query : Query) (columns : List String) (fields : Fields) : Prop :=
  ¬fieldsMatch query.conditions fields ∧ fieldsMatch query.conditions (settle columns fields) ∧
    (query.kind = .update →
      Table.assign (query.assignments?.getD []) (settle columns fields) ≠ settle columns fields)

instance (query : Query) (columns : List String) : DecidablePred (query.Neglects columns) :=
  fun _ => inferInstanceAs (Decidable (_ ∧ _ ∧ (_ → _)))

/-- A row that was revised and settled is revised once more without a change, unless it was
neglected before. -/
lemma revise_settle_iff (hkind : query.kind = .update ∨ query.kind = .delete)
    (hassigns : query.AssignsTo columns) (h : query.revise fields = some revised) :
    (query.revise (settle columns revised)).map (settle columns) = some (settle columns revised) ↔
      ¬query.Neglects columns fields := by
  rcases hkind with hkind | hkind
  · have hknown := hassigns hkind
    simp only [revise, hkind] at h
    by_cases hmatch : fieldsMatch query.conditions fields
    · -- the assignments were made
      rw [if_pos hmatch, Option.some.injEq] at h
      subst h
      simp [revise, hkind, assign_settle_assign hknown, settle_settle, Neglects, hmatch]
    · rw [if_neg hmatch, Option.some.injEq] at h
      subst h
      simp only [revise, hkind, Option.map_some, Option.some.injEq, Neglects]
      by_cases hsettled : fieldsMatch query.conditions (settle columns fields)
      · simp [hsettled, hmatch, settle_assign_settle hknown]
      · simp [hsettled, settle_settle]
  · simp only [revise, hkind] at h
    by_cases hmatch : fieldsMatch query.conditions fields
    · rw [if_pos hmatch] at h
      cases h
    · rw [if_neg hmatch, Option.some.injEq] at h
      subst h
      by_cases hsettled : fieldsMatch query.conditions (settle columns fields)
      · simp [revise, hkind, Neglects, hsettled, hmatch]
      · simp [revise, hkind, Neglects, hsettled, settle_settle]

end Query

end FlatQuery
