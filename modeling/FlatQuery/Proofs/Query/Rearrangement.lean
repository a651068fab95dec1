/-
# The order of clauses

The clauses of a query may stand in another order, as long as those that add to the same list
keep theirs: the query is the same (`Query.ofTokens_of_rearranges`).  The tokens are cut in the
same way, because only a keyword follows a clause (`Clause.readAll_flatten`).  Whether a draft
takes up clauses is a matter of every two of them (`Draft.addAll_empty_eq_ok_iff`), and a part
that is settled once is the same whichever clause settles it first
(`Draft.findSome?_eq_of_perm`).
-/
import FlatQuery.Proofs.Query.Acceptance
import FlatQuery.Proofs.Query.Draft

namespace FlatQuery

/-! ## Segments -/

namespace Clause

/-- The clause that a segment of tokens is: reading from the keyword at its front uses it up. -/
def ofSegment? : List Token → Option Clause
  | [] => none
  | keyword :: tail =>
    match read keyword tail with
    | .ok (clause, []) => some clause
    | _ => none

/-- A segment begins with one of the given words, in any case. -/
def beginsWith (words : List String) (segment : List Token) : Bool :=
  segment.head?.any fun keyword => words.contains keyword.word

/-- Segments are a rearrangement of others when they are the same ones in another order, in
which the segments that add to the same list of a query keep theirs. -/
structure Rearranges (rearranged segments : List (List Token)) : Prop where
  perm : rearranged.Perm segments
  columns : rearranged.filter (beginsWith ["SELECT"]) = segments.filter (beginsWith ["SELECT"])
  joins : rearranged.filter (beginsWith ["JOIN"]) = segments.filter (beginsWith ["JOIN"])
  conditions : rearranged.filter (beginsWith ["WHERE", "AND"]) =
    segments.filter (beginsWith ["WHERE", "AND"])
  order : rearranged.filter (beginsWith ["ORDER"]) = segments.filter (beginsWith ["ORDER"])

variable {segment following : List Token} {segments rearranged : List (List Token)}
  {clause : Clause}

lemma form_of_ofSegment? (h : ofSegment? segment = some clause) : clause.Form segment [] := by
  cases segment with
  | nil => cases h
  | cons keyword tail =>
    rw [ofSegment?] at h
    split at h
    · next read hread =>
      cases h
      obtain ⟨segment, hsegment, hform⟩ := form_of_read hread
      rw [List.append_nil] at hsegment
      rwa [hsegment]
    · cases h

/-- What stands behind a segment is nothing or another keyword. -/
lemma isKeyword_of_mem_head?_flatten (hclauses : ∀ segment ∈ segments, (ofSegment? segment).isSome)
    {next : Token} (h : next ∈ segments.flatten.head?) : next.IsKeyword := by
  cases segments with
  | nil => cases h
  | cons segment segments =>
    obtain ⟨clause, hclause⟩ := Option.isSome_iff_exists.1 (hclauses segment List.mem_cons_self)
    obtain ⟨keyword, tail, rfl, hkeyword⟩ := (form_of_ofSegment? hclause).exists_keyword
    cases h
    exact hkeyword

/-- Segments that are clauses are read one after the other before a keyword. -/
lemma readAll_flatten_append (hclauses : ∀ segment ∈ segments, (ofSegment? segment).isSome)
    {rest : List Token} (hrest : ∀ next ∈ rest.head?, next.IsKeyword) :
    readAll (segments.flatten ++ rest) =
      (segments.filterMap ofSegment? ++ (readAll rest).1, (readAll rest).2) := by
  induction segments with
  | nil => rfl
  | cons segment segments ih =>
    obtain ⟨hclause, hbehind⟩ := List.forall_mem_cons.1 hclauses
    obtain ⟨clause, hclause⟩ := Option.isSome_iff_exists.1 hclause
    have hform : clause.Form segment (segments.flatten ++ rest) := by
      refine (form_of_ofSegment? hclause).before_keyword fun next hnext => ?_
      rw [List.head?_append, Option.mem_def, Option.or_eq_some_iff] at hnext
      rcases hnext with hnext | ⟨-, hnext⟩
      · exact isKeyword_of_mem_head?_flatten hbehind hnext
      · exact hrest next hnext
    obtain ⟨keyword, tail, rfl, hread⟩ := hform.read_append
    rw [List.flatten_cons, List.append_assoc, List.cons_append, readAll_cons hread, ih hbehind,
      List.filterMap_cons_some hclause]
    rfl

/-- Segments that are clauses are read one after the other. -/
lemma readAll_flatten (hclauses : ∀ segment ∈ segments, (ofSegment? segment).isSome) :
    readAll segments.flatten = (segments.filterMap ofSegment?, none) := by
  have hread := readAll_flatten_append hclauses (show ∀ next ∈ [].head?, _ by simp)
  rwa [List.append_nil, readAll, List.append_nil] at hread

/-- What segments add to a list depends on those of them only that add anything. -/
lemma flatMap_filterMap_ofSegment? {α : Type} {part : Clause → List α} {words : List String}
    (hwords : ∀ segment clause, ofSegment? segment = some clause → part clause ≠ [] →
      beginsWith words segment) (segments : List (List Token)) :
    (segments.filterMap ofSegment?).flatMap part =
      ((segments.filter (beginsWith words)).filterMap ofSegment?).flatMap part := by
  induction segments with
  | nil => rfl
  | cons segment segments ih =>
    cases hbegins : beginsWith words segment with
    | true =>
      rw [List.filter_cons_of_pos hbegins]
      rcases hclause : ofSegment? segment with _ | clause
      · rw [List.filterMap_cons_none hclause, List.filterMap_cons_none hclause, ih]
      · rw [List.filterMap_cons_some hclause, List.filterMap_cons_some hclause,
          List.flatMap_cons, List.flatMap_cons, ih]
    | false =>
      rw [List.filter_cons_of_neg (by simp [hbegins])]
      rcases hclause : ofSegment? segment with _ | clause
      · rw [List.filterMap_cons_none hclause, ih]
      · have hpart : part clause = [] := by
          rcases hpart : part clause with _ | ⟨item, items⟩
          · rfl
          · have := hwords segment clause hclause (by rw [hpart]; exact List.cons_ne_nil _ _)
            rw [hbegins] at this
            cases this
        rw [List.filterMap_cons_some hclause, List.flatMap_cons, hpart, List.nil_append, ih]

/-- The clauses that add to a list of a query begin with a keyword of that list. -/
lemma Form.beginsWith_of_part (h : clause.Form segment following) (f : String → String) :
    ((clause.mapTable f).columns ≠ [] → beginsWith ["SELECT"] segment) ∧
    ((clause.mapTable f).join?.toList ≠ [] → beginsWith ["JOIN"] segment) ∧
    ((clause.mapTable f).condition?.toList ≠ [] → beginsWith ["WHERE", "AND"] segment) ∧
    ((clause.mapTable f).key?.toList ≠ [] → beginsWith ["ORDER"] segment) := by
  cases h with
  | select h | join h | order h | orderTowards h => simp [mapTable, beginsWith, h.word_eq]
  | equals h | oneOf h =>
    rcases h with h | h
    · simp [mapTable, beginsWith, h.word_eq]
    · simp [mapTable, beginsWith, h.word_eq]
  | insert | update | delete | source | values | assignments => simp [mapTable]

/-- A rearrangement adds to a list of a query what the segments add to it, when only segments
that begin with the given words add to it. -/
lemma flatMap_eq_of_filter_eq {α : Type} {f : String → String} {part : Clause → List α}
    {words : List String} (hwords : ∀ (segment : List Token) (clause : Clause),
      clause.Form segment [] → part (clause.mapTable f) ≠ [] → beginsWith words segment)
    (hfilter : rearranged.filter (beginsWith words) = segments.filter (beginsWith words)) :
    ((rearranged.filterMap ofSegment?).map (·.mapTable f)).flatMap part =
      ((segments.filterMap ofSegment?).map (·.mapTable f)).flatMap part := by
  have hparts := fun segment clause h => hwords segment clause (form_of_ofSegment? h)
  rw [List.flatMap_map, List.flatMap_map, flatMap_filterMap_ofSegment? hparts, hfilter,
    ← flatMap_filterMap_ofSegment? hparts]

lemma filterMap_eq_of_filter_eq {α : Type} {f : String → String} {part? : Clause → Option α}
    {words : List String} (hwords : ∀ (segment : List Token) (clause : Clause),
      clause.Form segment [] → (part? (clause.mapTable f)).toList ≠ [] → beginsWith words segment)
    (hfilter : rearranged.filter (beginsWith words) = segments.filter (beginsWith words)) :
    ((rearranged.filterMap ofSegment?).map (·.mapTable f)).filterMap part? =
      ((segments.filterMap ofSegment?).map (·.mapTable f)).filterMap part? := by
  rw [List.filterMap_eq_flatMap_toList part?, List.filterMap_eq_flatMap_toList part?]
  exact flatMap_eq_of_filter_eq hwords hfilter

end Clause

/-! ## Clauses two by two -/

namespace Clause

/-- Two clauses are compatible when they do not ask for different kinds, do not both name a
table, and do not both give values or assignments. -/
structure Compatible (first second : Clause) : Prop where
  kind : ∀ kind ∈ first.kind?, ∀ kind' ∈ second.kind?, kind = kind'
  table : first.table? = none ∨ second.table? = none
  change : first.values? = none ∧ first.assignments? = none ∨
    second.values? = none ∧ second.assignments? = none

lemma Compatible.symm {first second : Clause} (h : first.Compatible second) :
    second.Compatible first where
  kind := fun kind hkind kind' hkind' => (h.kind kind' hkind' kind hkind).symm
  table := h.table.symm
  change := h.change.symm

end Clause

namespace Draft

variable {draft changed : Draft} {clause other : Clause} {clauses others : List Clause}

/-- What is admitted after a clause is admitted before it and compatible with it. -/
lemma admits_plus_iff (h : draft.Admits clause) :
    (draft.plus clause).Admits other ↔ draft.Admits other ∧ clause.Compatible other := by
  constructor
  · rintro ⟨hkind, htable, hchange⟩
    simp only [plus, Option.or_eq_none_iff] at hkind htable hchange
    refine ⟨⟨fun kind hsettled => hkind kind ?_, htable.imp_left And.left,
      hchange.imp_left fun h => ⟨h.1.1, h.2.1⟩⟩,
      ⟨fun kind hasked => hkind kind ?_, htable.imp_left And.right,
      hchange.imp_left fun h => ⟨h.1.2, h.2.2⟩⟩⟩
    · rw [Option.mem_def.1 hsettled, Option.some_or]
      rfl
    · rcases hsettled : draft.kind? with _ | settled
      · rwa [Option.none_or]
      · rw [Option.some_or, h.kind settled hsettled kind hasked]
        rfl
  · rintro ⟨⟨hkind, htable, hchange⟩, ⟨hkind', htable', hchange'⟩⟩
    constructor
    · intro kind hsettled
      rcases Option.or_eq_some_iff.1 hsettled with hsettled | ⟨-, hasked⟩
      · exact hkind kind hsettled
      · exact hkind' kind hasked
    · rcases htable with htable | htable
      · rcases htable' with htable' | htable'
        · exact .inl (Option.or_eq_none_iff.2 ⟨htable, htable'⟩)
        · exact .inr htable'
      · exact .inr htable
    · rcases hchange with hchange | hchange
      · rcases hchange' with hchange' | hchange'
        · exact .inl ⟨Option.or_eq_none_iff.2 ⟨hchange.1, hchange'.1⟩,
            Option.or_eq_none_iff.2 ⟨hchange.2, hchange'.2⟩⟩
        · exact .inr hchange'
      · exact .inr hchange

/-- A draft takes up clauses when it admits each of them and every two of them are
compatible. -/
lemma addAll_eq_ok_iff : draft.addAll clauses = .ok changed ↔
    (∀ clause ∈ clauses, draft.Admits clause) ∧ clauses.Pairwise Clause.Compatible ∧
      changed = draft.addEach clauses := by
  induction clauses generalizing draft with
  | nil => simp [addAll, addEach, eq_comm]
  | cons clause clauses ih =>
    rw [List.forall_mem_cons, List.pairwise_cons, addEach_cons]
    rcases draft.takesUpOrRefuses clause with ⟨hadmits, hadd⟩ | ⟨hrefused, e, hadd, -⟩
    · simp only [addAll, hadd, ih, admits_plus_iff hadmits]
      constructor
      · rintro ⟨hall, hpairs, rfl⟩
        exact ⟨⟨hadmits, fun other hother => (hall other hother).1⟩,
          ⟨fun other hother => (hall other hother).2, hpairs⟩, rfl⟩
      · rintro ⟨⟨-, hall⟩, ⟨hcompatible, hpairs⟩, rfl⟩
        exact ⟨fun other hother => ⟨hall other hother, hcompatible other hother⟩, hpairs, rfl⟩
    · simp only [addAll, hadd, hrefused, false_and, reduceCtorEq]

lemma addAll_empty_eq_ok_iff : empty.addAll clauses = .ok changed ↔
    clauses.Pairwise Clause.Compatible ∧ changed = empty.addEach clauses := by
  have hempty : ∀ clause ∈ clauses, empty.Admits clause := fun clause _ =>
    ⟨by simp [empty], .inl rfl, .inl ⟨rfl, rfl⟩⟩
  rw [addAll_eq_ok_iff]
  exact and_iff_right hempty

lemma accepted_of_addAll (h : draft.addAll clauses = .ok changed) :
    draft.accepted clauses = clauses := by
  induction clauses generalizing draft with
  | nil => rfl
  | cons clause clauses ih =>
    rcases hadd : draft.add clause with ⟨next, _ | e⟩
    · rw [addAll, hadd] at h
      rw [accepted, hadd]
      exact congrArg _ (ih h)
    · rw [addAll, hadd] at h
      cases h

/-- In any order, clauses that agree on a part settle it in the same way. -/
lemma findSome?_eq_of_perm {α : Type} {part? : Clause → Option α}
    (hagree : clauses.Pairwise fun first second =>
      ∀ p, part? first = some p → ∀ q, part? second = some q → p = q)
    (hperm : others.Perm clauses) : others.findSome? part? = clauses.findSome? part? := by
  have hagree' := hagree.perm hperm.symm fun h p hp q hq => (h q hq p hp).symm
  have hsame : others.filterMap part? = clauses.filterMap part? :=
    (hperm.filterMap part?).eq_of_pairwise (fun _ _ _ _ h _ => h)
      (List.pairwise_filterMap.2 hagree') (List.pairwise_filterMap.2 hagree)
  rw [← List.head?_filterMap, ← List.head?_filterMap, hsame]

lemma eq_of_none_or_none {α : Type} {first? second? : Option α}
    (h : first? = none ∨ second? = none) :
    ∀ p, first? = some p → ∀ q, second? = some q → p = q := by
  rintro p rfl q rfl
  rcases h with h | h <;> cases h

/-- Clauses in another order settle the same draft when those that add to the same list keep
theirs. -/
lemma addAll_of_perm (h : empty.addAll clauses = .ok draft) (hperm : others.Perm clauses)
    (hcolumns : others.flatMap Clause.columns = clauses.flatMap Clause.columns)
    (hjoins : others.filterMap Clause.join? = clauses.filterMap Clause.join?)
    (hconditions : others.filterMap Clause.condition? = clauses.filterMap Clause.condition?)
    (horder : others.filterMap Clause.key? = clauses.filterMap Clause.key?) :
    empty.addAll others = .ok draft := by
  -- none of the clauses is refused in either order, so the drafts hold what all of them say
  have haccepted := accepted_of_addAll h
  obtain ⟨hpairs, rfl⟩ := addAll_empty_eq_ok_iff.1 h
  have hpairs' : others.Pairwise Clause.Compatible :=
    hpairs.perm hperm.symm fun h => h.symm
  have haccepted' : empty.accepted others = others :=
    accepted_of_addAll (addAll_empty_eq_ok_iff.2 ⟨hpairs', rfl⟩)
  have hkind : others.findSome? Clause.kind? = clauses.findSome? Clause.kind? :=
    findSome?_eq_of_perm (hpairs.imp fun h => h.kind) hperm
  have htable : others.findSome? Clause.table? = clauses.findSome? Clause.table? :=
    findSome?_eq_of_perm (hpairs.imp fun h => eq_of_none_or_none h.table) hperm
  have hvalues : others.findSome? Clause.values? = clauses.findSome? Clause.values? :=
    findSome?_eq_of_perm
      (hpairs.imp fun h => eq_of_none_or_none (h.change.imp And.left And.left)) hperm
  have hassignments :
      others.findSome? Clause.assignments? = clauses.findSome? Clause.assignments? :=
    findSome?_eq_of_perm
      (hpairs.imp fun h => eq_of_none_or_none (h.change.imp And.right And.right)) hperm
  refine addAll_empty_eq_ok_iff.2 ⟨hpairs', ?_⟩
  rw [addEach_eq, addEach_eq, haccepted, haccepted', hkind, htable, hcolumns, hjoins, hconditions,
    horder, hvalues, hassignments]

end Draft

/-! ## The query that is made up -/

namespace Query

open Clause

/-- When segments of tokens that are clauses make up a query, a rearrangement of them makes up
the same query. -/
theorem ofTokens_of_rearranges (config : Config) {segments rearranged : List (List Token)}
    (hclauses : ∀ segment ∈ segments, (ofSegment? segment).isSome)
    (hrearranges : Rearranges rearranged segments) {query : Query}
    (hquery : Query.ofTokens config segments.flatten = .ok query) :
    Query.ofTokens config rearranged.flatten = .ok query := by
  have hclauses' : ∀ segment ∈ rearranged, (ofSegment? segment).isSome := fun segment h =>
    hclauses segment (hrearranges.perm.mem_iff.1 h)
  rw [ofTokens_eq_ok_iff_readAll, readAll_flatten hclauses] at hquery
  obtain ⟨clauses, draft, hread, hdraft, hquery⟩ := hquery
  cases hread
  rw [ofTokens_eq_ok_iff_readAll, readAll_flatten hclauses']
  have hbegins (segment : List Token) (clause : Clause) (h : clause.Form segment []) :=
    h.beginsWith_of_part config.fullName
  refine ⟨_, draft, rfl, Draft.addAll_of_perm hdraft ?_ ?_ ?_ ?_ ?_, hquery⟩
  · exact (hrearranges.perm.filterMap _).map _
  · refine flatMap_eq_of_filter_eq ?_ hrearranges.columns
    exact fun segment clause h => (hbegins segment clause h).1
  · refine filterMap_eq_of_filter_eq ?_ hrearranges.joins
    exact fun segment clause h => (hbegins segment clause h).2.1
  · refine filterMap_eq_of_filter_eq ?_ hrearranges.conditions
    exact fun segment clause h => (hbegins segment clause h).2.2.1
  · refine filterMap_eq_of_filter_eq ?_ hrearranges.order
    exact fun segment clause h => (hbegins segment clause h).2.2.2

/-- A selection whose sort key without a direction comes to stand before a keyword, and whose
column is last. -/
theorem ofTokens_of_rearranges_of_sort_key :
    let select := ["SELECT".toList, "a".toList]
    let source := ["FROM".toList, "t".toList]
    let condition := ["and".toList, "b".toList, "=".toList, "'x'".toList]
    let order := ["ORDER".toList, "BY".toList, "c".toList]
    let query : Query :=
      { kind := .select, table := "t.csv", columns := .only ["a"]
        conditions := [⟨"b", .equals "x"⟩], order := [⟨"c", .ascending⟩] }
    Query.ofTokens {} [select, source, condition, order].flatten = .ok query ∧
      Query.ofTokens {} [order, source, condition, select].flatten = .ok query := by
  intro select source condition order query
  have hquery : Query.ofTokens {} [select, source, condition, order].flatten = .ok query := by
    decide +kernel
  refine ⟨hquery, ofTokens_of_rearranges {} ?_ ?_ hquery⟩
  · decide +kernel
  · exact ⟨by decide, by decide, by decide, by decide, by decide⟩

end Query

end FlatQuery
