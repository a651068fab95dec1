/-
# Written queries are read back

A query that keeps the rules among its parts is written as a line from which it is read back
(`Query.ofLine_line`).  The line is the sequence of the query's clauses, so three things have
to fit together: the line is cut into the tokens that were written, the tokens are read as the
clauses, and the clauses make up the query.
-/
import FlatQuery.Proofs.Query.Clause
import FlatQuery.Proofs.Query.Writing
import FlatQuery.Query.Reading

namespace FlatQuery

/-- The names that are written after `SELECT`. -/
def Selection.names : Selection → List String
  | all => ["*"]
  | only columns => columns

namespace Query

/-- The rules among the parts of a query.  A part that the query's kind has no use for is
empty, and the parts that it needs are there. -/
structure Coherent (query : Query) : Prop where
  selection : query.kind = .select → query.columns = .all ∨
    ∃ columns, query.columns = .only columns ∧ columns ≠ [] ∧ "*" ∉ columns
  no_selection : query.kind ≠ .select →
    query.columns = .only [] ∧ query.joins = [] ∧ query.order = []
  values : query.values?.isSome ↔ query.kind = .insert
  assignments : query.assignments?.isSome ↔ query.kind = .update
  assigns : query.assignments? ≠ some []
  no_conditions : query.kind = .insert → query.conditions = []

/-! ## The clauses of a query -/

/-- The clauses that say what a query does, and with which table. -/
def headClauses (query : Query) : List Clause :=
  match query.kind with
  | .select => [.select query.columns.names, .source query.table]
  | .insert => [.insert query.table, .values (query.values?.getD [])]
  | .update => [.update query.table, .assignments (query.assignments?.getD [])]
  | .delete => [.delete, .source query.table]

/-- The clauses of a query, in the order in which they are written. -/
def clauses (query : Query) : List Clause :=
  query.headClauses ++ query.joins.map .join ++ query.conditions.map .condition ++
    query.order.map .order

lemma readAll_headTokens_append {query : Query} (hcoherent : query.Coherent)
    (hwritable : query.Writable) (rest : List Token) :
    Clause.readAll (query.headTokens ++ rest) =
      (query.headClauses ++ (Clause.readAll rest).1, (Clause.readAll rest).2) := by
  obtain ⟨kind, table, columns, joins, conditions, order, values?, assignments?⟩ := query
  have htable := (readsAs_source table).readAll_append rest
  cases kind with
  | select =>
    rcases hcoherent.selection rfl with rfl | ⟨names, rfl, hne, -⟩
    · change Clause.readAll (["SELECT".toList, ['*']] ++ (["FROM".toList, quote table] ++ rest)) = _
      rw [readsAs_all.readAll_append, htable]
      rfl
    · have hnames : ∀ text ∈ names, Quotable text := hwritable.columns
      change Clause.readAll (("SELECT".toList :: listTokens (names.map quote) ++
        ["FROM".toList, quote table]) ++ rest) = _
      rw [List.append_assoc, (readsAs_select hne hnames).readAll_append, htable]
      rfl
  | insert =>
    have hvalues : ∀ text ∈ values?.getD [], Quotable text := hwritable.values
    change Clause.readAll (["INSERT".toList, "INTO".toList, quote table] ++
      (("VALUES".toList :: parenthesized (values?.getD [])) ++ rest)) = _
    rw [(readsAs_insert table).readAll_append, (readsAs_values hvalues).readAll_append]
    rfl
  | update =>
    have hne : assignments?.getD [] ≠ [] := by
      obtain ⟨assignments, rfl⟩ := Option.isSome_iff_exists.1 (hcoherent.assignments.2 rfl)
      simpa using hcoherent.assigns
    have hassigned : ∀ a ∈ assignments?.getD [], Quotable a.value :=
      fun a ha => (hwritable.assignments a ha).2
    change Clause.readAll (["UPDATE".toList, quote table] ++
      (("SET".toList :: assignmentTokens (assignments?.getD [])) ++ rest)) = _
    rw [(readsAs_update table).readAll_append, (readsAs_assignments hne hassigned).readAll_append]
    rfl
  | delete =>
    change Clause.readAll (["DELETE".toList] ++ (["FROM".toList, quote table] ++ rest)) = _
    rw [readsAs_delete.readAll_append, htable]
    rfl

/-- The tokens of a query are read as its clauses. -/
lemma readAll_tokens {query : Query} (hcoherent : query.Coherent) (hwritable : query.Writable) :
    Clause.readAll query.tokens = (query.clauses, none) := by
  have hconditions : ∀ condition ∈ query.conditions,
      ReadsAs condition.tokens (.condition condition) := by
    refine fun condition hcondition => readsAs_condition condition fun texts heq text htext => ?_
    refine (hwritable.conditions condition hcondition).2 text ?_
    simpa [heq, Criterion.texts] using htext
  rw [tokens, List.append_assoc, List.append_assoc, readAll_headTokens_append hcoherent hwritable,
    readAll_flatMap_append fun join _ => readsAs_join join, readAll_flatMap_append hconditions,
    ← List.append_nil (query.order.flatMap SortKey.tokens),
    readAll_flatMap_append fun key _ => readsAs_order key]
  simp [clauses, Clause.readAll]

end Query

/-! ## From clauses to the query -/

namespace Draft

lemma addAll_append (draft : Draft) (clauses more : List Clause) :
    draft.addAll (clauses ++ more) = draft.addAll clauses >>= fun d => d.addAll more := by
  induction clauses generalizing draft with
  | nil => rfl
  | cons clause clauses ih =>
    rw [List.cons_append, addAll, addAll]
    split
    · rfl
    · exact ih _

lemma addAll_joins (draft : Draft) (joins : List Join) :
    draft.addAll (joins.map .join) = .ok { draft with joins := draft.joins ++ joins } := by
  induction joins generalizing draft with
  | nil => simp [addAll]
  | cons join joins ih =>
    rw [List.map_cons, addAll]
    simp [add, ih]

lemma addAll_conditions (draft : Draft) (conditions : List Condition) :
    draft.addAll (conditions.map .condition) =
      .ok { draft with conditions := draft.conditions ++ conditions } := by
  induction conditions generalizing draft with
  | nil => simp [addAll]
  | cons condition conditions ih =>
    rw [List.map_cons, addAll]
    simp [add, ih]

lemma addAll_order (draft : Draft) (keys : List SortKey) :
    draft.addAll (keys.map .order) = .ok { draft with order := draft.order ++ keys } := by
  induction keys generalizing draft with
  | nil => simp [addAll]
  | cons key keys ih =>
    rw [List.map_cons, addAll]
    simp [add, ih]

end Draft

namespace Query

/-- The draft in which all parts of a query are settled. -/
def draft (query : Query) : Draft where
  kind? := some query.kind
  table? := some query.table
  columns := query.columns.names
  joins := query.joins
  conditions := query.conditions
  order := query.order
  values? := query.values?
  assignments? := query.assignments?

lemma Coherent.values?_eq_none {query : Query} (h : query.Coherent) (hkind : query.kind ≠ .insert) :
    query.values? = none :=
  Option.not_isSome_iff_eq_none.1 fun hsome => hkind (h.values.1 hsome)

lemma Coherent.assignments?_eq_none {query : Query} (h : query.Coherent)
    (hkind : query.kind ≠ .update) : query.assignments? = none :=
  Option.not_isSome_iff_eq_none.1 fun hsome => hkind (h.assignments.1 hsome)

lemma addAll_headClauses {query : Query} (h : query.Coherent) :
    Draft.empty.addAll query.headClauses =
      .ok { query.draft with joins := [], conditions := [], order := [] } := by
  have hvalues := h.values?_eq_none
  have hassignments := h.assignments?_eq_none
  obtain ⟨kind, table, columns, joins, conditions, order, values?, assignments?⟩ := query
  cases kind with
  | select =>
    obtain rfl := hvalues (by simp)
    obtain rfl := hassignments (by simp)
    rfl
  | insert =>
    obtain ⟨rfl, -, -⟩ := h.no_selection (by simp)
    obtain rfl := hassignments (by simp)
    obtain ⟨values, rfl⟩ := Option.isSome_iff_exists.1 (h.values.2 rfl)
    rfl
  | update =>
    obtain ⟨rfl, -, -⟩ := h.no_selection (by simp)
    obtain rfl := hvalues (by simp)
    obtain ⟨assignments, rfl⟩ := Option.isSome_iff_exists.1 (h.assignments.2 rfl)
    rfl
  | delete =>
    obtain ⟨rfl, -, -⟩ := h.no_selection (by simp)
    obtain rfl := hvalues (by simp)
    obtain rfl := hassignments (by simp)
    rfl

/-- The clauses of a query settle all its parts. -/
lemma addAll_clauses {query : Query} (h : query.Coherent) :
    Draft.empty.addAll query.clauses = .ok query.draft := by
  rw [clauses, Draft.addAll_append, Draft.addAll_append, Draft.addAll_append,
    addAll_headClauses h, bind_ok, Draft.addAll_joins, bind_ok, Draft.addAll_conditions, bind_ok,
    Draft.addAll_order]
  rfl

/-- The parts of a query that keeps the rules make it up. -/
lemma query_draft {query : Query} (h : query.Coherent) : query.draft.query = .ok query := by
  have hvalues := h.values?_eq_none
  have hassignments := h.assignments?_eq_none
  obtain ⟨kind, table, columns, joins, conditions, order, values?, assignments?⟩ := query
  cases kind with
  | select =>
    obtain rfl := hvalues (by simp)
    obtain rfl := hassignments (by simp)
    rcases h.selection rfl with rfl | ⟨names, rfl, -, hstar⟩
    · rfl
    · simp [Draft.query, draft, Draft.conflict?, Draft.selection, Selection.names, hstar]
  | insert =>
    obtain ⟨rfl, rfl, rfl⟩ := h.no_selection (by simp)
    obtain rfl := h.no_conditions rfl
    obtain rfl := hassignments (by simp)
    obtain ⟨values, rfl⟩ := Option.isSome_iff_exists.1 (h.values.2 rfl)
    rfl
  | update =>
    obtain ⟨rfl, rfl, rfl⟩ := h.no_selection (by simp)
    obtain rfl := hvalues (by simp)
    obtain ⟨assignments, rfl⟩ := Option.isSome_iff_exists.1 (h.assignments.2 rfl)
    rfl
  | delete =>
    obtain ⟨rfl, rfl, rfl⟩ := h.no_selection (by simp)
    obtain rfl := hvalues (by simp)
    obtain rfl := hassignments (by simp)
    rfl

/-- Clauses whose tables are named in full already are not changed by naming them in full. -/
lemma map_mapTable_clauses {query : Query} {f : String → String}
    (h : ∀ table ∈ query.tables, f table = table) :
    query.clauses.map (·.mapTable f) = query.clauses := by
  have htable : f query.table = query.table := h _ List.mem_cons_self
  have hjoins : ∀ join ∈ query.joins, f join.table = join.table := fun join hjoin =>
    h _ (List.mem_cons_of_mem _ (List.mem_map_of_mem hjoin))
  have hhead : query.headClauses.map (·.mapTable f) = query.headClauses := by
    unfold headClauses
    split <;> simp [Clause.mapTable, htable]
  have hrest : (query.joins.map Clause.join).map (·.mapTable f) = query.joins.map .join := by
    rw [List.map_map]
    refine List.map_congr_left fun join hjoin => ?_
    simp [Clause.mapTable, hjoins join hjoin]
  have hconditions : (query.conditions.map Clause.condition).map (·.mapTable f) =
      query.conditions.map .condition := by
    rw [List.map_map]
    rfl
  have horder : (query.order.map Clause.order).map (·.mapTable f) = query.order.map .order := by
    rw [List.map_map]
    rfl
  rw [clauses, List.map_append, List.map_append, List.map_append, hhead, hrest, hconditions,
    horder]

/-- A query that keeps the rules among its parts, names its tables in full and has no text with
quotes of both kinds is read back from the line on which it is written. -/
theorem ofLine_line (config : Config) (query : Query) (hcoherent : query.Coherent)
    (hnamed : ∀ table ∈ query.tables, config.fullName table = table)
    (hwritable : query.Writable) : Query.ofLine config query.line = .ok query := by
  have hdraft : Draft.empty.addAll (query.clauses.map (·.mapTable config.fullName)) =
      .ok query.draft := by
    rw [map_mapTable_clauses hnamed, addAll_clauses hcoherent]
  have hparsed : Query.ofTokens config query.tokens = .ok query := by
    rw [ofTokens, readAll_tokens hcoherent hwritable]
    change (Except.mapError QueryError.inconsistent (Draft.empty.addAll _) >>=
      fun draft => draft.query.mapError QueryError.inconsistent) = _
    rw [hdraft, mapError_ok, bind_ok, query_draft hcoherent]
    rfl
  rw [ofLine, tokenize_line hwritable, mapError_ok, bind_ok, hparsed]

/-- A selection whose texts are empty, are keywords or contain signs that end lists. -/
theorem ofLine_line_of_signs_in_texts :
    let query : Query :=
      { kind := .select, table := "it's.csv", columns := .only ["a,", "FROM"]
        joins := [⟨"", "u).csv", "(b"⟩]
        conditions := [⟨"c", .equals ""⟩, ⟨"d", .oneOf (.ofList ["\"),", "'("])⟩]
        order := [⟨"e;", .descending⟩] }
    Query.ofLine {} query.line = .ok query := by
  intro query
  refine ofLine_line {} query ?_ ?_ ?_
  · exact {
      selection := by simp [query]
      no_selection := by simp [query]
      values := by simp [query]
      assignments := by simp [query]
      assigns := by simp [query]
      no_conditions := by simp [query] }
  · decide
  · exact {
      tables := by decide
      columns := by decide
      joins := by decide
      conditions := by decide
      order := by decide
      values := by decide
      assignments := by decide }

end Query

end FlatQuery
