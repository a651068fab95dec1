/-
# What a draft gathers

A draft is given clauses one after the other, and a clause that it refuses does not stop the
ones after it.  Whatever the clauses are, the draft holds what they say, part by part: the joins,
the conditions and the sort keys of all clauses, and the other parts of the accepted ones
(`Draft.addEach_eq`).  All follows from what a single clause does to a draft
(`Draft.takesUpOrRefuses`).
-/
import FlatQuery.Query.Draft
import Mathlib.Tactic.Lemma
import Mathlib.Tactic.MkIffOfInductiveProp

namespace FlatQuery

/-! ## The parts of a clause -/

namespace Clause

/-- The kind of query that a clause settles. -/
@[simp] def kind? : Clause → Option Kind
  | select _ => some .select
  | insert _ => some .insert
  | update _ => some .update
  | delete => some .delete
  | _ => none

/-- The table to be changed that a clause names. -/
@[simp] def target? : Clause → Option String
  | insert table | update table => some table
  | _ => none

/-- The table that a clause names for the query. -/
@[simp] def table? : Clause → Option String
  | insert table | update table | source table => some table
  | _ => none

/-- The columns that a clause selects. -/
@[simp] def columns : Clause → List String
  | select names => names
  | _ => []

/-- The join that a clause is. -/
@[simp] def join? : Clause → Option Join
  | join j => some j
  | _ => none

/-- The condition that a clause is. -/
@[simp] def condition? : Clause → Option Condition
  | condition c => some c
  | _ => none

/-- The sort key that a clause is. -/
@[simp] def key? : Clause → Option SortKey
  | order key => some key
  | _ => none

/-- The values that a clause gives. -/
@[simp] def values? : Clause → Option (List String)
  | values given => some given
  | _ => none

/-- The assignments that a clause gives. -/
@[simp] def assignments? : Clause → Option (List Assignment)
  | assignments given => some given
  | _ => none

end Clause

variable {draft : Draft} {clause : Clause} {clauses : List Clause} {query : Query}

namespace Draft

/-! ## One clause -/

/-- A draft admits a clause that does not ask for another kind, does not name a second table,
and does not give values or assignments beside others. -/
@[mk_iff]
structure Admits (draft : Draft) (clause : Clause) : Prop where
  kind : ∀ kind ∈ draft.kind?, ∀ kind' ∈ clause.kind?, kind = kind'
  table : draft.table? = none ∨ clause.table? = none
  change : draft.values? = none ∧ draft.assignments? = none ∨
    clause.values? = none ∧ clause.assignments? = none

/-- A draft together with all that a clause says.  What is settled already stays. -/
def plus (draft : Draft) (clause : Clause) : Draft where
  kind? := draft.kind?.or clause.kind?
  table? := draft.table?.or clause.table?
  columns := draft.columns ++ clause.columns
  joins := draft.joins ++ clause.join?.toList
  conditions := draft.conditions ++ clause.condition?.toList
  order := draft.order ++ clause.key?.toList
  values? := draft.values?.or clause.values?
  assignments? := draft.assignments?.or clause.assignments?

/-- What one clause does to a draft: it is admitted and taken up, or it is refused, and then it
settles nothing but, where none was named before, the table of a change of another kind. -/
def TakesUpOrRefuses (draft : Draft) (clause : Clause) : Prop :=
  draft.Admits clause ∧ draft.add clause = (draft.plus clause, none) ∨
    ¬draft.Admits clause ∧ ∃ e,
      draft.add clause = ({ draft with table? := draft.table?.or clause.target? }, some e) ∧
      (draft.table? = none → clause.target? ≠ none → e = .mixedKinds)

/-- A clause is taken up or refused when it attempts a single change, which succeeds exactly
when the clause is admitted. -/
lemma takesUpOrRefuses_of_attempt {p : Prop} {attempted : Except SemanticError Draft}
    (hadd : draft.add clause = draft.attempt attempted) (htarget : clause.target? = none)
    (hadmits : draft.Admits clause ↔ p)
    (hattempted : p ∧ attempted = .ok (draft.plus clause) ∨ ¬p ∧ ∃ e, attempted = .error e) :
    draft.TakesUpOrRefuses clause := by
  rcases hattempted with ⟨hp, rfl⟩ | ⟨hp, e, rfl⟩
  · exact .inl ⟨hadmits.2 hp, hadd⟩
  · refine .inr ⟨fun h => hp (hadmits.1 h), e, ?_, fun _ h => absurd htarget h⟩
    rw [hadd, htarget, Option.or_none]
    rfl

lemma setKind_eq_or_refused (draft : Draft) (kind : Kind) :
    (∀ k ∈ draft.kind?, k = kind) ∧
        draft.setKind kind = .ok { draft with kind? := draft.kind?.or (some kind) } ∨
      ¬(∀ k ∈ draft.kind?, k = kind) ∧ draft.setKind kind = .error .mixedKinds := by
  rcases hkind : draft.kind? with _ | k
  · simp [setKind, hkind]
  · by_cases heq : k = kind <;> simp [setKind, hkind, heq]

lemma setTable_eq_or_refused (draft : Draft) (table : String) :
    draft.table? = none ∧ draft.setTable table = .ok { draft with table? := some table } ∨
      draft.table? ≠ none ∧ draft.setTable table = .error .secondTable := by
  rcases htable : draft.table? with _ | t <;> simp [setTable, htable]

lemma takesUpOrRefuses_select (draft : Draft) (names : List String) :
    draft.TakesUpOrRefuses (.select names) := by
  refine takesUpOrRefuses_of_attempt rfl rfl (p := ∀ k ∈ draft.kind?, k = .select)
    (by simp [admits_iff]) ?_
  rcases draft.setKind_eq_or_refused .select with ⟨hkind, hset⟩ | ⟨hkind, hset⟩
  · exact .inl ⟨hkind, by simp [hset, Except.map, plus]⟩
  · exact .inr ⟨hkind, .mixedKinds, by rw [hset]; rfl⟩

lemma takesUpOrRefuses_delete (draft : Draft) : draft.TakesUpOrRefuses .delete := by
  refine takesUpOrRefuses_of_attempt rfl rfl (p := ∀ k ∈ draft.kind?, k = .delete)
    (by simp [admits_iff]) ?_
  rcases draft.setKind_eq_or_refused .delete with ⟨hkind, hset⟩ | ⟨hkind, hset⟩
  · exact .inl ⟨hkind, by simp [hset, plus]⟩
  · exact .inr ⟨hkind, .mixedKinds, hset⟩

lemma takesUpOrRefuses_source (draft : Draft) (table : String) :
    draft.TakesUpOrRefuses (.source table) := by
  refine takesUpOrRefuses_of_attempt rfl rfl (p := draft.table? = none) (by simp [admits_iff]) ?_
  rcases draft.setTable_eq_or_refused table with ⟨htable, hset⟩ | ⟨htable, hset⟩
  · exact .inl ⟨htable, by simp [hset, plus, htable]⟩
  · exact .inr ⟨htable, .secondTable, hset⟩

lemma takesUpOrRefuses_values (draft : Draft) (given : List String) :
    draft.TakesUpOrRefuses (.values given) := by
  refine takesUpOrRefuses_of_attempt rfl rfl
    (p := draft.values? = none ∧ draft.assignments? = none) (by simp [admits_iff]) ?_
  rcases hvalues : draft.values? with _ | v <;>
    rcases hassignments : draft.assignments? with _ | a <;>
    simp [setValues, plus, hvalues, hassignments]

lemma takesUpOrRefuses_assignments (draft : Draft) (given : List Assignment) :
    draft.TakesUpOrRefuses (.assignments given) := by
  refine takesUpOrRefuses_of_attempt rfl rfl
    (p := draft.values? = none ∧ draft.assignments? = none) (by simp [admits_iff]) ?_
  rcases hvalues : draft.values? with _ | v <;>
    rcases hassignments : draft.assignments? with _ | a <;>
    simp [setAssignments, plus, hvalues, hassignments]

/-- The clause of a change settles its table first and then its kind, and the table stays when
only the kind is refused. -/
lemma takesUpOrRefuses_of_target {table : String} {kind : Kind}
    (htarget : clause.target? = some table) (hkind : clause.kind? = some kind) :
    draft.TakesUpOrRefuses clause := by
  have hadmits : draft.Admits clause ↔
      (∀ k ∈ draft.kind?, k = kind) ∧ draft.table? = none := by
    cases clause <;> cases htarget <;> cases hkind <;> simp [admits_iff]
  have hplus : draft.plus clause = { draft with
      kind? := draft.kind?.or (some kind)
      table? := draft.table?.or (some table) } := by
    cases clause <;> cases htarget <;> cases hkind <;> simp [plus]
  have hnamed : ∀ named, draft.setTable table = .ok named →
      draft.add clause = named.attempt (named.setKind kind) := by
    cases clause <;> cases htarget <;> cases hkind <;> simp +contextual [add]
  have hrefused : ∀ e, draft.setTable table = .error e → draft.add clause = (draft, some e) := by
    cases clause <;> cases htarget <;> cases hkind <;> simp +contextual [add]
  rw [TakesUpOrRefuses, hadmits, hplus, htarget]
  rcases draft.setTable_eq_or_refused table with ⟨htable, hset⟩ | ⟨htable, hset⟩
  · rcases ({ draft with table? := some table } : Draft).setKind_eq_or_refused kind with
      ⟨hsame, hsettled⟩ | ⟨hother, hsettled⟩
    · exact .inl ⟨⟨hsame, htable⟩, by simp [hnamed _ hset, hsettled, attempt, htable]⟩
    · refine .inr ⟨fun h => hother h.1, .mixedKinds, ?_, fun _ _ => rfl⟩
      simp [hnamed _ hset, hsettled, attempt, htable]
  · refine .inr ⟨fun h => htable h.2, .secondTable, ?_, fun h => absurd h htable⟩
    obtain ⟨settled, hsettled⟩ := Option.ne_none_iff_exists'.1 htable
    rw [hrefused _ hset, hsettled, Option.some_or, ← hsettled]

/-- All that one clause can do to a draft. -/
lemma takesUpOrRefuses (draft : Draft) (clause : Clause) : draft.TakesUpOrRefuses clause := by
  cases clause with
  | select names => exact draft.takesUpOrRefuses_select names
  | insert table => exact takesUpOrRefuses_of_target rfl rfl
  | update table => exact takesUpOrRefuses_of_target rfl rfl
  | delete => exact draft.takesUpOrRefuses_delete
  | source table => exact draft.takesUpOrRefuses_source table
  | join j => exact .inl ⟨by simp [admits_iff], by simp [add, plus]⟩
  | condition c => exact .inl ⟨by simp [admits_iff], by simp [add, plus]⟩
  | order key => exact .inl ⟨by simp [admits_iff], by simp [add, plus]⟩
  | values given => exact draft.takesUpOrRefuses_values given
  | assignments given => exact draft.takesUpOrRefuses_assignments given

/-- A clause is refused exactly when the draft does not admit it. -/
lemma add_snd_eq_none_iff (draft : Draft) (clause : Clause) :
    (draft.add clause).2 = none ↔ draft.Admits clause := by
  rcases draft.takesUpOrRefuses clause with ⟨hadmits, hadd⟩ | ⟨hrefused, e, hadd, -⟩
  · simp [hadd, hadmits]
  · simp [hadd, hrefused]

/-- A refused clause settles nothing, unless it names the first table for a change of another
kind than the settled one. -/
lemma add_of_refused {e : SemanticError} (h : (draft.add clause).2 = some e) :
    (draft.table? = none ∧ clause.target? ≠ none →
      e = .mixedKinds ∧ (draft.add clause).1 = { draft with table? := clause.target? }) ∧
    (¬(draft.table? = none ∧ clause.target? ≠ none) → (draft.add clause).1 = draft) := by
  rcases draft.takesUpOrRefuses clause with ⟨-, hadd⟩ | ⟨-, e', hadd, hkind⟩
  · rw [hadd] at h
    cases h
  · rw [hadd] at h ⊢
    cases h
    constructor
    · rintro ⟨htable, htarget⟩
      exact ⟨hkind htable htarget, by rw [htable, Option.none_or]⟩
    · intro hsettled
      have hsame : draft.table?.or clause.target? = draft.table? := by
        rcases htable : draft.table? with _ | table
        · rw [Option.none_or]
          exact Decidable.byContradiction fun htarget => hsettled ⟨htable, htarget⟩
        · rw [Option.some_or]
      simp only [hsame]

/-- A refused clause is none of those that only add to a list, and if it names a table, there
is one to be changed in it or another is named already. -/
lemma parts_of_not_admits (h : ¬draft.Admits clause) :
    clause.join? = none ∧ clause.condition? = none ∧ clause.key? = none ∧
      draft.table?.or clause.target? = draft.table?.or clause.table? := by
  cases clause with
  | join | condition | order => exact absurd ⟨by simp, .inr rfl, .inr ⟨rfl, rfl⟩⟩ h
  | source table =>
    refine ⟨rfl, rfl, rfl, ?_⟩
    rcases htable : draft.table? with _ | named
    · exact absurd ⟨by simp, .inl htable, .inr ⟨rfl, rfl⟩⟩ h
    · rfl
  | _ => exact ⟨rfl, rfl, rfl, rfl⟩

/-! ## Clauses one after the other -/

/-- The draft after clauses of which the refused ones do not stop the others. -/
def addEach (draft : Draft) (clauses : List Clause) : Draft :=
  clauses.foldl (fun draft clause => (draft.add clause).1) draft

/-- The clauses that are not refused when they are given one after the other. -/
def accepted (draft : Draft) : List Clause → List Clause
  | [] => []
  | clause :: clauses =>
    match draft.add clause with
    | (changed, none) => clause :: changed.accepted clauses
    | (changed, some _) => changed.accepted clauses

lemma addEach_cons (draft : Draft) (clause : Clause) (clauses : List Clause) :
    draft.addEach (clause :: clauses) = (draft.add clause).1.addEach clauses :=
  rfl

/-- What a row of clauses says about a part that is settled once is what the first of them says
about it. -/
lemma findSome?_cons_eq_or {α : Type} (part? : Clause → Option α) (clause : Clause)
    (clauses : List Clause) :
    (clause :: clauses).findSome? part? = (part? clause).or (clauses.findSome? part?) := by
  rw [List.findSome?_cons]
  cases part? clause <;> rfl

lemma filterMap_cons_eq_append {α : Type} (part? : Clause → Option α) (clause : Clause)
    (clauses : List Clause) :
    (clause :: clauses).filterMap part? = (part? clause).toList ++ clauses.filterMap part? := by
  rw [List.filterMap_cons]
  cases part? clause <;> rfl

/-- A draft holds what the clauses say that it was given. -/
lemma addEach_eq (draft : Draft) (clauses : List Clause) :
    draft.addEach clauses = {
      kind? := draft.kind?.or ((draft.accepted clauses).findSome? Clause.kind?)
      table? := draft.table?.or (clauses.findSome? Clause.table?)
      columns := draft.columns ++ (draft.accepted clauses).flatMap Clause.columns
      joins := draft.joins ++ clauses.filterMap Clause.join?
      conditions := draft.conditions ++ clauses.filterMap Clause.condition?
      order := draft.order ++ clauses.filterMap Clause.key?
      values? := draft.values?.or ((draft.accepted clauses).findSome? Clause.values?)
      assignments? :=
        draft.assignments?.or ((draft.accepted clauses).findSome? Clause.assignments?) } := by
  induction clauses generalizing draft with
  | nil => simp [addEach, accepted]
  | cons clause clauses ih =>
    rcases draft.takesUpOrRefuses clause with ⟨-, hadd⟩ | ⟨hrefused, e, hadd, -⟩
    · rw [addEach_cons, ih, accepted, hadd]
      simp only [plus, findSome?_cons_eq_or, filterMap_cons_eq_append, List.flatMap_cons,
        Option.or_assoc, List.append_assoc]
    · obtain ⟨hjoin, hcondition, hkey, htable⟩ := parts_of_not_admits hrefused
      rw [addEach_cons, ih, accepted, hadd]
      simp only [htable]
      simp only [findSome?_cons_eq_or, filterMap_cons_eq_append, hjoin, hcondition, hkey,
        Option.or_assoc, Option.toList_none, List.nil_append]

/-! ## What stays settled -/

lemma kind?_addEach {kind : Kind} (h : draft.kind? = some kind) (clauses : List Clause) :
    (draft.addEach clauses).kind? = some kind := by
  rw [addEach_eq, h, Option.some_or]

lemma table?_addEach {table : String} (h : draft.table? = some table) (clauses : List Clause) :
    (draft.addEach clauses).table? = some table := by
  rw [addEach_eq, h, Option.some_or]

/-- All accepted clauses agree on the kind. -/
lemma kind?_of_mem_accepted {kind : Kind} (h : clause ∈ draft.accepted clauses)
    (hkind : clause.kind? = some kind) : (draft.addEach clauses).kind? = some kind := by
  induction clauses generalizing draft with
  | nil => cases h
  | cons first clauses ih =>
    rcases draft.takesUpOrRefuses first with ⟨hadmits, hadd⟩ | ⟨-, e, hadd, -⟩
    · rw [accepted, hadd] at h
      rw [addEach_cons, hadd]
      rcases List.mem_cons.1 h with rfl | h
      · refine kind?_addEach ?_ clauses
        rcases hdraft : draft.kind? with _ | kind'
        · rw [plus, hdraft, hkind, Option.none_or]
        · rw [plus, hdraft, Option.some_or, hadmits.kind kind' hdraft kind hkind]
      · exact ih h
    · rw [accepted, hadd] at h
      rw [addEach_cons, hadd]
      exact ih h

/-- Values and assignments do not stand beside each other. -/
def Exclusive (draft : Draft) : Prop :=
  draft.values? = none ∨ draft.assignments? = none

lemma Exclusive.add (h : draft.Exclusive) (clause : Clause) : (draft.add clause).1.Exclusive := by
  rcases draft.takesUpOrRefuses clause with ⟨hadmits, hadd⟩ | ⟨-, e, hadd, -⟩
  · rw [hadd]
    rcases hadmits.change with ⟨hvalues, hassignments⟩ | ⟨hvalues, hassignments⟩
    · cases clause <;> simp [Exclusive, plus, hvalues, hassignments]
    · simpa only [Exclusive, plus, hvalues, hassignments, Option.or_none] using h
  · rw [hadd]
    exact h

lemma Exclusive.addEach (h : draft.Exclusive) (clauses : List Clause) :
    (draft.addEach clauses).Exclusive := by
  induction clauses generalizing draft with
  | nil => exact h
  | cons clause clauses ih => exact ih (h.add clause)

end Draft

/-! ## The query that is made up -/

namespace Query

/-- A query has the parts of a draft, whatever rules it breaks. -/
structure PartsOf (query : Query) (draft : Draft) : Prop where
  kind : draft.kind? = some query.kind
  table : draft.table? = some query.table
  columns : query.columns = draft.selection
  joins : query.joins = draft.joins
  conditions : query.conditions = draft.conditions
  order : query.order = draft.order
  values : query.values? = draft.values?
  assignments : query.assignments? = draft.assignments?

/-- The rules among the parts of a query: only a selection joins and sorts, an insertion has
values and no conditions, an update has assignments, and no part is there that changes rows in
another way. -/
@[mk_iff]
structure Lawful (query : Query) : Prop where
  selection : query.kind ≠ .select → query.joins = [] ∧ query.order = []
  insertion : query.kind = .insert →
    query.values?.isSome ∧ query.assignments? = none ∧ query.conditions = []
  update : query.kind = .update → query.assignments?.isSome ∧ query.values? = none
  unchanging : query.kind = .select ∨ query.kind = .delete →
    query.values? = none ∧ query.assignments? = none

/-- A query gathers clauses when it has the kind, the columns, the values and the assignments of
the accepted ones, the first table that is named, and every join, condition and sort key. -/
structure Gathers (query : Query) (clauses : List Clause) : Prop where
  kind : (Draft.empty.accepted clauses).findSome? Clause.kind? = some query.kind
  table : clauses.findSome? Clause.table? = some query.table
  all : query.columns = .all ↔
    ∃ names, Clause.select names ∈ Draft.empty.accepted clauses ∧ "*" ∈ names
  only : query.columns ≠ .all →
    query.columns = .only ((Draft.empty.accepted clauses).flatMap Clause.columns)
  joins : query.joins = clauses.filterMap Clause.join?
  conditions : query.conditions = clauses.filterMap Clause.condition?
  order : query.order = clauses.filterMap Clause.key?
  values : query.values? = (Draft.empty.accepted clauses).findSome? Clause.values?
  assignments : query.assignments? = (Draft.empty.accepted clauses).findSome? Clause.assignments?

end Query

namespace Draft

lemma query_eq_ok_iff :
    draft.query = .ok query ↔ query.PartsOf draft ∧ draft.conflict? query.kind = none := by
  obtain ⟨kind, table, columns, joins, conditions, order, values?, assignments?⟩ := query
  constructor
  · intro h
    unfold Draft.query at h
    split at h
    · cases h
    · cases h
    · next named kind' htable hkind =>
      split at h
      · cases h
      · next hconflict =>
        cases h
        exact ⟨⟨hkind, htable, rfl, rfl, rfl, rfl, rfl, rfl⟩, hconflict⟩
  · rintro ⟨⟨hkind, htable, hcolumns, hjoins, hconditions, horder, hvalues, hassignments⟩,
      hconflict⟩
    simp only at hkind htable hcolumns hjoins hconditions horder hvalues hassignments hconflict
    simp only [Draft.query, hkind, htable, hconflict, hcolumns, hjoins, hconditions, horder,
      hvalues, hassignments]

lemma ite_some_eq_none_iff {α : Type} {p : Prop} [Decidable p] {a : α} {rest : Option α} :
    (if p then some a else rest) = none ↔ ¬p ∧ rest = none := by
  split <;> simp [*]

/-- Nothing conflicts in a draft whose parts keep the rules.  That an insertion has no
assignments is not checked, because they do not stand beside values. -/
lemma conflict?_eq_none_iff (hexclusive : draft.Exclusive) (hparts : query.PartsOf draft) :
    draft.conflict? query.kind = none ↔ query.Lawful := by
  rw [Exclusive, ← hparts.values, ← hparts.assignments] at hexclusive
  rw [Query.lawful_iff]
  unfold conflict?
  rw [← hparts.joins, ← hparts.conditions, ← hparts.order, ← hparts.values, ← hparts.assignments,
    ite_some_eq_none_iff]
  refine and_congr (by simp [and_comm]) ?_
  cases query.kind with
  | select => simp
  | insert =>
    rcases hgiven : query.values? with _ | values
    · simp
    · obtain hassigned : query.assignments? = none := by simpa [hgiven] using hexclusive
      simp [hassigned]
  | update => simp [ite_some_eq_none_iff, Option.isSome_iff_ne_none]
  | delete => simp

lemma query_eq_selection_iff (h : draft.columns = (empty.accepted clauses).flatMap Clause.columns) :
    query.columns = draft.selection ↔
      (query.columns = .all ↔
        ∃ names, Clause.select names ∈ empty.accepted clauses ∧ "*" ∈ names) ∧
      (query.columns ≠ .all →
        query.columns = .only ((empty.accepted clauses).flatMap Clause.columns)) := by
  have hstar : (∃ names, Clause.select names ∈ empty.accepted clauses ∧ "*" ∈ names) ↔
      "*" ∈ draft.columns := by
    rw [h, List.mem_flatMap]
    constructor
    · rintro ⟨names, hmem, hstar⟩
      exact ⟨_, hmem, hstar⟩
    · rintro ⟨clause, hmem, hstar⟩
      cases clause with
      | select names => exact ⟨names, hmem, hstar⟩
      | _ => cases hstar
  rw [hstar, ← h, Draft.selection]
  by_cases hmem : "*" ∈ draft.columns
  · simpa [hmem] using fun hall hne => absurd hall hne
  · cases query.columns with
    | all => simp [hmem]
    | only names => simp [hmem]

/-- The parts of the draft after clauses are those that the clauses give. -/
lemma partsOf_addEach_iff : query.PartsOf (empty.addEach clauses) ↔ query.Gathers clauses := by
  have hcolumns : (empty.addEach clauses).columns =
      (empty.accepted clauses).flatMap Clause.columns := by
    rw [addEach_eq]
    rfl
  have hselection : query.columns = (empty.addEach clauses).selection ↔ _ :=
    query_eq_selection_iff hcolumns
  constructor
  · rintro ⟨hkind, htable, hcolumns, hjoins, hconditions, horder, hvalues, hassignments⟩
    obtain ⟨hall, honly⟩ := hselection.1 hcolumns
    rw [addEach_eq] at hkind htable hjoins hconditions horder hvalues hassignments
    exact ⟨hkind, htable, hall, honly, hjoins, hconditions, horder, hvalues, hassignments⟩
  · rintro ⟨hkind, htable, hall, honly, hjoins, hconditions, horder, hvalues, hassignments⟩
    have hcolumns := hselection.2 ⟨hall, honly⟩
    rw [addEach_eq] at hcolumns ⊢
    exact ⟨hkind, htable, hcolumns, hjoins, hconditions, horder, hvalues, hassignments⟩

/-- The draft after clauses makes up the query that gathers the clauses and keeps the rules. -/
lemma query_addEach_eq_ok_iff :
    (empty.addEach clauses).query = .ok query ↔ query.Gathers clauses ∧ query.Lawful := by
  have hexclusive : (empty.addEach clauses).Exclusive := .addEach (.inl rfl) clauses
  rw [query_eq_ok_iff, ← partsOf_addEach_iff]
  exact and_congr_right fun hparts => conflict?_eq_none_iff hexclusive hparts

lemma exists_partsOf {kind : Kind} {table : String} (hkind : draft.kind? = some kind)
    (htable : draft.table? = some table) : ∃ query : Query, query.PartsOf draft :=
  ⟨{ kind, table, columns := draft.selection, joins := draft.joins,
     conditions := draft.conditions, order := draft.order, values? := draft.values?,
     assignments? := draft.assignments? }, hkind, htable, rfl, rfl, rfl, rfl, rfl, rfl⟩

/-- A query that does not select has no columns, because the clauses that select any have no
other kind. -/
lemma columns_of_query_addEach (h : (empty.addEach clauses).query = .ok query)
    (hkind : query.kind ≠ .select) : query.columns = .only [] := by
  obtain ⟨hgathers, -⟩ := query_addEach_eq_ok_iff.1 h
  have hparts := partsOf_addEach_iff.2 hgathers
  have hnone : ∀ names, Clause.select names ∉ empty.accepted clauses := by
    intro names hmem
    have := kind?_of_mem_accepted hmem rfl
    rw [hparts.kind, Option.some.injEq] at this
    exact hkind this
  have hall : query.columns ≠ .all := fun h => by
    obtain ⟨names, hmem, -⟩ := hgathers.all.1 h
    exact hnone names hmem
  rw [hgathers.only hall, List.flatMap_eq_nil_iff.2]
  intro clause hclause
  cases clause with
  | select names => exact absurd hclause (hnone names)
  | _ => rfl

/-- Whatever clauses a draft is given, and whichever of them it refuses: the kind and the table
stay once they are settled, values and assignments do not come together, and a clause is refused
only when it does not fit.  A refused clause changes nothing, unless it names the first table for
a change of another kind than the settled one.  A query is made up exactly when it gathers the
clauses and keeps the rules, and so it fails only when no clause names a table, no accepted one
settles a kind or a rule is broken. -/
theorem addEach_settles_and_gathers (clauses : List Clause) :
    let draft := empty.addEach clauses
    (∀ more, (∀ kind, draft.kind? = some kind → (draft.addEach more).kind? = some kind) ∧
      ∀ table, draft.table? = some table → (draft.addEach more).table? = some table) ∧
    ¬(draft.values?.isSome ∧ draft.assignments?.isSome) ∧
    (∀ clause, (draft.add clause).2 = none ↔ draft.Admits clause) ∧
    (∀ clause e, (draft.add clause).2 = some e →
      (draft.table? = none ∧ clause.target? ≠ none →
        e = .mixedKinds ∧ (draft.add clause).1 = { draft with table? := clause.target? }) ∧
      (¬(draft.table? = none ∧ clause.target? ≠ none) → (draft.add clause).1 = draft)) ∧
    (∀ query, draft.query = .ok query ↔ query.Gathers clauses ∧ query.Lawful) ∧
    (∀ query, draft.query = .ok query → query.kind ≠ .select → query.columns = .only []) ∧
    ∀ e, draft.query = .error e → clauses.findSome? Clause.table? = none ∨
      (empty.accepted clauses).findSome? Clause.kind? = none ∨
      ∃ query : Query, query.Gathers clauses ∧ ¬query.Lawful := by
  intro draft
  refine ⟨fun more => ⟨fun kind h => kind?_addEach h more, fun table h => table?_addEach h more⟩,
    ?_, draft.add_snd_eq_none_iff, fun clause e => add_of_refused,
    fun query => query_addEach_eq_ok_iff, fun query => columns_of_query_addEach, ?_⟩
  · rintro ⟨hvalues, hassignments⟩
    have hexclusive : draft.Exclusive := .addEach (.inl rfl) clauses
    rcases hexclusive with h | h
    · exact absurd h (Option.isSome_iff_ne_none.1 hvalues)
    · exact absurd h (Option.isSome_iff_ne_none.1 hassignments)
  · intro e he
    have hdraft : draft = _ := addEach_eq empty clauses
    rcases htable : clauses.findSome? Clause.table? with _ | table
    · exact .inl rfl
    · rcases hkind : (empty.accepted clauses).findSome? Clause.kind? with _ | kind
      · exact .inr (.inl rfl)
      · have hkind' : draft.kind? = some kind := by rw [hdraft, ← hkind]; rfl
        have htable' : draft.table? = some table := by rw [hdraft, ← htable]; rfl
        obtain ⟨query, hparts⟩ := exists_partsOf hkind' htable'
        have hgathers := partsOf_addEach_iff.1 hparts
        refine .inr (.inr ⟨query, hgathers, fun hlawful => ?_⟩)
        rw [query_addEach_eq_ok_iff.2 ⟨hgathers, hlawful⟩] at he
        cases he

end Draft

end FlatQuery
