/-
# Sorting by one key after the other

A list of keys sorts rows in one go, and the rows could as well be sorted by its keys one by one,
from the last to the first: each sort leaves the rows that it does not tell apart in the order of
the sort before it (`stablySorted_append`).  A key counts only for rows that the keys before it do
not tell apart, so it can be left out when its column was a key before.  In a query every `ORDER BY`
clause gives one key, and so these clauses are nested sorts (`sortRows_nests`).
-/
import FlatQuery.Proofs.Query.Rearrangement
import FlatQuery.Proofs.Table.Sorting

namespace FlatQuery

/-! ## Keys behind other keys -/

namespace SortKey

variable {keys more : List SortKey} {a b : Row}

/-- Keys count where those before them do not tell the rows apart. -/
lemma compareAll_append (keys more : List SortKey) (a b : Row) :
    compareAll (keys ++ more) a b = (compareAll keys a b).then (compareAll more a b) := by
  induction keys with
  | nil => rfl
  | cons key keys ih =>
    rw [List.cons_append, compareAll_cons, compareAll_cons, ih, Ordering.then_assoc]

lemma tied_append : Tied (keys ++ more) a b ↔ Tied keys a b ∧ Tied more a b :=
  List.forall_mem_append

lemma atMost_append :
    AtMost (keys ++ more) a b ↔ AtMost keys a b ∧ (Tied keys a b → AtMost more a b) := by
  rw [← isLE_compareAll_iff, ← isLE_compareAll_iff, ← isLE_compareAll_iff,
    ← compareAll_eq_eq_iff, compareAll_append]
  cases compareAll keys a b <;> simp

/-- A key tells nothing apart that the keys before it do not, if its column is that of one of
them. -/
lemma compareAll_append_of_mem {key earlier : SortKey} (hearlier : earlier ∈ keys)
    (hcolumn : key.column = earlier.column) :
    compareAll (keys ++ key :: more) = compareAll (keys ++ more) := by
  funext a b
  rw [compareAll_append, compareAll_append, compareAll_cons]
  cases hkeys : compareAll keys a b with
  | lt | gt => rfl
  | eq =>
    have htied : a.value? key.column = b.value? key.column :=
      hcolumn ▸ compareAll_eq_eq_iff.1 hkeys earlier hearlier
    rw [compare_eq_eq_iff.2 htied, Ordering.eq_then]

end SortKey

/-! ## Sorts of sorted rows -/

variable {keys more : List SortKey} {rows : List Row}

lemma filter_tied_append (row : Row) (rows : List Row) :
    rows.filter (SortKey.Tied (keys ++ more) row ·) =
      (rows.filter (SortKey.Tied more row ·)).filter (SortKey.Tied keys row ·) := by
  rw [List.filter_filter]
  refine List.filter_congr fun other _ => ?_
  rw [← Bool.decide_and]
  exact decide_eq_decide.2 SortKey.tied_append

/-- A sort by further keys and then by the first ones is a stable sort by all of them. -/
lemma stablySorted_append (keys more : List SortKey) (rows : List Row) :
    StablySorted (keys ++ more) rows (sortRows keys (sortRows more rows)) := by
  have hinner : StablySorted more rows (sortRows more rows) := stablySorted_sortRows more rows
  have houter : StablySorted keys (sortRows more rows) (sortRows keys (sortRows more rows)) :=
    stablySorted_sortRows keys (sortRows more rows)
  refine ⟨houter.perm.trans hinner.perm, ?_, fun row => ?_⟩
  · refine List.pairwise_iff_forall_sublist.2 fun {a b} hpair => SortKey.atMost_append.2
      ⟨List.pairwise_iff_forall_sublist.1 houter.ordered hpair, fun htied => ?_⟩
    -- tied rows are still in the order in which the inner sort left them
    have hself : SortKey.Tied keys a a := fun _ _ => rfl
    have htogether : [a, b].Sublist
        ((sortRows keys (sortRows more rows)).filter (SortKey.Tied keys a ·)) := by
      simpa [hself, htied] using hpair.filter (SortKey.Tied keys a ·)
    rw [houter.stable] at htogether
    exact List.pairwise_iff_forall_sublist.1 hinner.ordered
      (htogether.trans List.filter_sublist)
  · rw [filter_tied_append, List.filter_comm, houter.stable, List.filter_comm, hinner.stable,
      ← filter_tied_append]

lemma sortRows_append (keys more : List SortKey) (rows : List Row) :
    sortRows (keys ++ more) rows = sortRows keys (sortRows more rows) :=
  (stablySorted_append keys more rows).eq_sortRows.symm

lemma sortRows_nil (rows : List Row) : sortRows [] rows = rows := by
  have hsorted : StablySorted [] rows rows :=
    ⟨.refl rows, List.pairwise_of_forall fun _ _ => SortKey.Tied.atMost nofun, fun _ => rfl⟩
  exact hsorted.eq_sortRows.symm

/-- Rows are sorted by a list of keys when they are sorted by each key, the last one first. -/
lemma sortRows_eq_foldr (keys : List SortKey) (rows : List Row) :
    sortRows keys rows = keys.foldr (fun key sorted => sortRows [key] sorted) rows := by
  induction keys with
  | nil => exact sortRows_nil rows
  | cons key keys ih => rw [List.foldr_cons, ← ih, ← sortRows_append, List.singleton_append]

/-- A key can be left out when its column is that of a key before it. -/
lemma sortRows_append_of_mem {key earlier : SortKey} (hearlier : earlier ∈ keys)
    (hcolumn : key.column = earlier.column) (rows : List Row) :
    sortRows (keys ++ key :: more) rows = sortRows (keys ++ more) rows := by
  rw [sortRows, sortRows, SortKey.compareAll_append_of_mem hearlier hcolumn]

/-! ## The keys of a query -/

lemma Clause.key?_mapTable (clause : Clause) (f : String → String) :
    (clause.mapTable f).key? = clause.key? := by
  cases clause <;> rfl

/-- A query sorts by the keys of its clauses, in their order. -/
lemma Query.order_of_ofTokens {config : Config} {tokens : List Token} {query : Query}
    (h : Query.ofTokens config tokens = .ok query) :
    query.order = (Clause.readAll tokens).1.filterMap Clause.key? := by
  obtain ⟨clauses, draft, hread, hdraft, hquery⟩ := ofTokens_eq_ok_iff_readAll.1 h
  obtain ⟨-, rfl⟩ := Draft.addAll_empty_eq_ok_iff.1 hdraft
  obtain ⟨hgathers, -⟩ := Draft.query_addEach_eq_ok_iff.1 hquery
  have hkeys : Clause.key? ∘ (·.mapTable config.fullName) = Clause.key? :=
    funext fun clause => clause.key?_mapTable _
  rw [hgathers.order, List.filterMap_map, hkeys, hread]

/-- Sorting by a list of keys, in a stable way, is sorting by its end first and then by its
beginning; a key is of no effect when its column, in either direction, is that of a key before it;
and a query sorts by the keys of its clauses one by one, the last one first. -/
theorem sortRows_nests (rows : List Row) :
    (∀ keys more, StablySorted (keys ++ more) rows (sortRows keys (sortRows more rows)) ∧
      sortRows (keys ++ more) rows = sortRows keys (sortRows more rows)) ∧
    (∀ column direction direction' before between after,
      sortRows (before ++ ⟨column, direction⟩ :: between ++ ⟨column, direction'⟩ :: after) rows =
        sortRows (before ++ ⟨column, direction⟩ :: between ++ after) rows) ∧
    ∀ config tokens query, Query.ofTokens config tokens = .ok query →
      sortRows query.order rows = ((Clause.readAll tokens).1.filterMap Clause.key?).foldr
        (fun key sorted => sortRows [key] sorted) rows := by
  refine ⟨fun keys more => ⟨stablySorted_append keys more rows, sortRows_append keys more rows⟩,
    ?_, ?_⟩
  · intro column direction direction' before between after
    have hearlier : (⟨column, direction⟩ : SortKey) ∈ before ++ ⟨column, direction⟩ :: between :=
      List.mem_append_right before List.mem_cons_self
    refine sortRows_append_of_mem hearlier ?_ rows
    rfl
  · intro config tokens query hquery
    rw [← Query.order_of_ofTokens hquery]
    exact sortRows_eq_foldr query.order rows

/-- Two sort keys and three rows, of which one lacks a column and two have the same text under the
first key. -/
theorem sortRows_nests_of_two_clauses :
    let tokens := ["SELECT", "*", "FROM", "t", "ORDER", "BY", "a", "DESC", "ORDER", "BY", "b"].map
      String.toList
    let query : Query :=
      { kind := .select, table := "t.csv", order := [⟨"a", .descending⟩, ⟨"b", .ascending⟩] }
    let rows : List Row := [⟨1, fieldsOf ["b"] ["0"]⟩, ⟨2, fieldsOf ["a", "b"] ["x", "2"]⟩,
      ⟨3, fieldsOf ["a", "b"] ["x", "1"]⟩]
    Query.ofTokens {} tokens = .ok query ∧
      sortRows query.order rows =
        sortRows [⟨"a", .descending⟩] (sortRows [⟨"b", .ascending⟩] rows) := by
  intro tokens query rows
  have hquery : Query.ofTokens {} tokens = .ok query := by decide +kernel
  have hkeys : (Clause.readAll tokens).1.filterMap Clause.key? = query.order := by decide +kernel
  refine ⟨hquery, ?_⟩
  rw [(sortRows_nests rows).2.2 {} tokens query hquery, hkeys]
  rfl

end FlatQuery
