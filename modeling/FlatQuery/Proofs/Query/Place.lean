/-
# Queries with another list

A query is a row of clauses, of which one has a list.  When another list is put in its place, the
query stays the same but for that clause: if the clause cannot be read any more, the query is
malformed (`Query.exists_malformed`), and if it has other assignments, the query has them
(`Query.ofTokens_of_assignments`).
-/
import FlatQuery.Proofs.Query.Rearrangement
import FlatQuery.Proofs.Query.RoundTrip

namespace FlatQuery

/-- A place for a list in a query: the segments of the other clauses, and the tokens before the
list in its own clause. -/
structure Place where
  before : List (List Token)
  head : List Token
  after : List (List Token)

/-- The segments of a query with a list at the given place. -/
def Place.segments (place : Place) (list : List Token) : List (List Token) :=
  place.before ++ (place.head ++ list) :: place.after

/-! ## Drafts with other assignments -/

namespace Draft

variable {draft changed : Draft} {clause : Clause} {clauses : List Clause}
  {given : List Assignment}

lemma addAll_cons_eq_ok_iff : draft.addAll (clause :: clauses) = .ok changed ↔
    draft.Admits clause ∧ (draft.plus clause).addAll clauses = .ok changed := by
  rw [addAll]
  rcases draft.takesUpOrRefuses clause with ⟨hadmits, hadd⟩ | ⟨hrefused, e, hadd, -⟩
  · rw [hadd]
    exact (and_iff_right hadmits).symm
  · simp only [hadd, hrefused, false_and, reduceCtorEq]

/-- Which assignments a draft has does not matter to the clauses that come after them. -/
lemma addAll_of_assignments (h : draft.addAll clauses = .ok changed)
    (hgiven : draft.assignments? = some given) (others : List Assignment) :
    changed.assignments? = some given ∧
      ({ draft with assignments? := some others } : Draft).addAll clauses =
        .ok { changed with assignments? := some others } := by
  induction clauses generalizing draft with
  | nil =>
    cases h
    exact ⟨hgiven, rfl⟩
  | cons clause clauses ih =>
    obtain ⟨hadmits, h⟩ := addAll_cons_eq_ok_iff.1 h
    have hgiven' : (draft.plus clause).assignments? = some given := by
      rw [plus, hgiven, Option.some_or]
    obtain ⟨hchanged, hothers⟩ := ih h hgiven'
    refine ⟨hchanged, addAll_cons_eq_ok_iff.2 ⟨⟨hadmits.kind, hadmits.table, .inr ?_⟩, hothers⟩⟩
    rcases hadmits.change with ⟨-, hnone⟩ | hchange
    · rw [hgiven] at hnone
      cases hnone
    · exact hchange

lemma addAll_cons_assignments (h : draft.addAll (.assignments given :: clauses) = .ok changed)
    (others : List Assignment) :
    changed.assignments? = some given ∧
      draft.addAll (.assignments others :: clauses) =
        .ok { changed with assignments? := some others } := by
  obtain ⟨hadmits, h⟩ := addAll_cons_eq_ok_iff.1 h
  have hnone : draft.values? = none ∧ draft.assignments? = none := by simpa using hadmits.change
  have hplus (list : List Assignment) :
      draft.plus (.assignments list) = { draft with assignments? := some list } := by
    simp [plus, hnone.2]
  rw [hplus] at h
  obtain ⟨hchanged, hothers⟩ := addAll_of_assignments h rfl others
  refine ⟨hchanged, addAll_cons_eq_ok_iff.2 ⟨⟨hadmits.kind, hadmits.table, .inl hnone⟩, ?_⟩⟩
  rw [hplus]
  exact hothers

/-- Nor does it matter to the query that is made up, apart from its assignments. -/
lemma query_of_assignments {query : Query} (h : draft.query = .ok query)
    (hgiven : draft.assignments? = some given) (others : List Assignment) :
    ({ draft with assignments? := some others } : Draft).query =
      .ok { query with assignments? := some others } := by
  obtain ⟨hparts, hconflict⟩ := query_eq_ok_iff.1 h
  refine query_eq_ok_iff.2 ⟨⟨hparts.kind, hparts.table, hparts.columns, hparts.joins,
    hparts.conditions, hparts.order, hparts.values, rfl⟩, ?_⟩
  rw [← hconflict]
  simp only [conflict?, hgiven]
  rfl

end Draft

/-! ## Queries with other lists -/

namespace Clause

lemma ofSegment?_cons_eq_some_iff {keyword : Token} {tokens : List Token} {clause : Clause} :
    ofSegment? (keyword :: tokens) = some clause ↔ read keyword tokens = .ok (clause, []) := by
  rw [ofSegment?]
  constructor
  · intro h
    split at h
    · next hread =>
      cases h
      exact hread
    · cases h
  · intro h
    rw [h]

lemma readAll_of_error {keyword : Token} {tokens : List Token} {e : SyntaxError}
    (h : read keyword tokens = .error e) :
    readAll (keyword :: tokens) = ([], some e) := by
  rw [readAll]
  split
  · next e' h' =>
    rw [h] at h'
    cases h'
    rfl
  · next h' =>
    rw [h] at h'
    cases h'

lemma readAll_congr {keyword : Token} {tokens others : List Token}
    (h : read keyword tokens = read keyword others) :
    readAll (keyword :: tokens) = readAll (keyword :: others) := by
  rcases hread : read keyword others with e | ⟨clause, rest⟩
  · rw [readAll_of_error (h.trans hread), readAll_of_error hread]
  · rw [readAll_cons (h.trans hread), readAll_cons hread]

end Clause

namespace Query

open Clause

variable {config : Config} {place : Place} {query : Query} {list tokens : List Token}

/-- The clauses of a query are taken up by a draft first before a place and then from it on. -/
lemma exists_draft (hclauses : ∀ segment ∈ place.segments list, (ofSegment? segment).isSome)
    (hquery : ofTokens config (place.segments list).flatten = .ok query) :
    ∃ drafted draft,
      Draft.empty.addAll ((place.before.filterMap ofSegment?).map (·.mapTable config.fullName)) =
        .ok drafted ∧
      drafted.addAll ((((place.head ++ list) :: place.after).filterMap ofSegment?).map
        (·.mapTable config.fullName)) = .ok draft ∧ draft.query = .ok query := by
  rw [ofTokens_eq_ok_iff_readAll, readAll_flatten hclauses] at hquery
  obtain ⟨clauses, draft, hread, hdraft, hquery⟩ := hquery
  cases hread
  rw [Place.segments, List.filterMap_append, List.map_append, Draft.addAll_append,
    bind_eq_ok_iff] at hdraft
  obtain ⟨drafted, hdrafted, hdraft⟩ := hdraft
  exact ⟨drafted, draft, hdrafted, hdraft, hquery⟩

lemma flatten_segments {keyword : Token} {words : List Token}
    (hhead : place.head = keyword :: words) (list : List Token) :
    (place.segments list).flatten =
      place.before.flatten ++ keyword :: (words ++ (list ++ place.after.flatten)) := by
  simp [Place.segments, hhead]

/-- Lists that are read in the same way in front of the other clauses make up the same query, if
any. -/
lemma ofTokens_congr (hbefore : ∀ segment ∈ place.before, (ofSegment? segment).isSome)
    {keyword : Token} {words : List Token} (hhead : place.head = keyword :: words)
    (hkeyword : keyword.IsKeyword)
    (h : read keyword (words ++ (list ++ place.after.flatten)) =
      read keyword (words ++ (tokens ++ place.after.flatten))) :
    ofTokens config (place.segments list).flatten =
      ofTokens config (place.segments tokens).flatten := by
  have hnext (behind : List Token) :
      ∀ next ∈ (keyword :: behind).head?, next.IsKeyword := by simpa using hkeyword
  rw [flatten_segments hhead, flatten_segments hhead, ofTokens, ofTokens,
    readAll_flatten_append hbefore (hnext _), readAll_flatten_append hbefore (hnext _),
    readAll_congr h]

/-- A query in which one clause cannot be read is malformed, if the clauses before it are those of
a query. -/
lemma exists_malformed (hclauses : ∀ segment ∈ place.segments list, (ofSegment? segment).isSome)
    (hquery : ofTokens config (place.segments list).flatten = .ok query)
    {keyword : Token} {words : List Token} (hhead : place.head = keyword :: words)
    (hkeyword : keyword.IsKeyword)
    (hrefused : ∀ clause rest,
      read keyword (words ++ (tokens ++ place.after.flatten)) ≠ .ok (clause, rest)) :
    ∃ e, ofTokens config (place.segments tokens).flatten = .error (.malformed e) := by
  have hbefore : ∀ segment ∈ place.before, (ofSegment? segment).isSome := fun segment hsegment =>
    hclauses segment (List.mem_append_left _ hsegment)
  obtain ⟨drafted, -, hdrafted, -⟩ := exists_draft hclauses hquery
  rw [flatten_segments hhead]
  generalize words ++ (tokens ++ place.after.flatten) = behind at hrefused ⊢
  rcases hread : read keyword behind with e | ⟨clause, rest⟩
  · have hnext : ∀ next ∈ (keyword :: behind).head?, next.IsKeyword := by simpa using hkeyword
    have hall := readAll_flatten_append hbefore hnext
    rw [readAll_of_error hread, List.append_nil] at hall
    refine ⟨e, ?_⟩
    rw [ofTokens, hall]
    change (Except.mapError QueryError.inconsistent (Draft.empty.addAll _) >>= fun _ => _) = _
    rw [hdrafted]
    rfl
  · exact absurd hread (hrefused clause rest)

/-- A query in which the assignments of a clause are replaced by others is the query with the
other assignments. -/
lemma ofTokens_of_assignments {given others : List Assignment}
    (hclauses : ∀ segment ∈ place.segments list, (ofSegment? segment).isSome)
    (hquery : ofTokens config (place.segments list).flatten = .ok query)
    (hgiven : ofSegment? (place.head ++ list) = some (.assignments given))
    (hothers : ofSegment? (place.head ++ tokens) = some (.assignments others)) :
    query.assignments? = some given ∧ ofTokens config (place.segments tokens).flatten =
      .ok { query with assignments? := some others } := by
  have hclauses' : ∀ segment ∈ place.segments tokens, (ofSegment? segment).isSome := by
    rw [Place.segments, List.forall_mem_append, List.forall_mem_cons] at hclauses ⊢
    exact ⟨hclauses.1, by rw [hothers]; rfl, hclauses.2.2⟩
  obtain ⟨drafted, draft, hdrafted, hdraft, hquery⟩ := exists_draft hclauses hquery
  rw [List.filterMap_cons_some hgiven] at hdraft
  obtain ⟨hassigned, hreplaced⟩ := Draft.addAll_cons_assignments hdraft others
  have hparts := (Draft.query_eq_ok_iff.1 hquery).1
  refine ⟨hparts.assignments.trans hassigned, ?_⟩
  rw [ofTokens_eq_ok_iff_readAll, readAll_flatten hclauses']
  refine ⟨_, _, rfl, ?_, Draft.query_of_assignments hquery hassigned others⟩
  rw [Place.segments, List.filterMap_append, List.map_append, Draft.addAll_append, hdrafted,
    bind_ok, List.filterMap_cons_some hothers]
  exact hreplaced

end Query

end FlatQuery
