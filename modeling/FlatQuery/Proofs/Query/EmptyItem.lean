/-
# Empty items

A list in a query has an empty item where a comma has no item before it or behind it.  Wherever an
empty item is put into the list of a query, reading the query fails, except in two places of a
list of assignments (`Query.ofTokens_of_putsEmptyItem`): a lone comma between two assignments is
passed over, and a comma at the front of an assignment with spaces around its sign becomes part of
the name of the column (`Query.empty_assignments_are_read`).
-/
import FlatQuery.Proofs.Query.Elements
import FlatQuery.Proofs.Query.Place

namespace FlatQuery

/-! ## Lists in a query -/

/-- The lists of which a query can have any. -/
inductive ListKind where
  /-- The columns after `SELECT`. -/
  | columns
  /-- The texts in parentheses after `VALUES` or `IN`. -/
  | texts
  /-- The assignments after `SET`. -/
  | assignments
deriving DecidableEq, Repr

namespace ListKind

/-- What is written behind the last element of a list. -/
def ending : ListKind → List Char
  | columns | assignments => []
  | texts => [')']

/-- The tokens of a clause that come before its list. -/
inductive Head : ListKind → List Token → Prop
  | select {keyword : Token} (hkeyword : keyword.word = "SELECT") : Head columns [keyword]
  | values {keyword : Token} (hkeyword : keyword.word = "VALUES") : Head texts [keyword, ['(']]
  | oneOf {keyword column operator : Token}
      (hkeyword : keyword.word = "WHERE" ∨ keyword.word = "AND") (hoperator : operator.word = "IN") :
      Head texts [keyword, column, operator, ['(']]
  | set {keyword : Token} (hkeyword : keyword.word = "SET") : Head assignments [keyword]

/-- The elements that a list can have: only an assignment may have more than one token. -/
def Fits : ListKind → ListElement → Prop
  | columns, element | texts, element => element.lead = []
  | assignments, element => element.IsAssignment

/-- A list is read at the front of tokens, and some of them are left over. -/
def Reads : ListKind → List Token → List Token → Prop
  | columns, tokens, rest => ∃ names, Clause.readColumns tokens = .ok (names, rest)
  | texts, tokens, rest => ∃ values, Clause.readValues true tokens = .ok (values, rest)
  | assignments, tokens, rest => ∃ given, Clause.readAssignments tokens = .ok (given, rest)

end ListKind

/-- A list of the given elements with an empty item put into it has the given tokens. -/
inductive PutsEmptyItem : ListKind → List ListElement → List Token → Prop
  /-- A lone comma where an element of a list of texts is expected. -/
  | lone {kind : ListKind} {front back : List ListElement} (hkind : kind ≠ .assignments) :
      PutsEmptyItem kind (front ++ back)
        (layOut [','] front ++ [','] :: layOut kind.ending back)
  /-- A lone closing parenthesis where an element is expected. -/
  | closed {elements : List ListElement} :
      PutsEmptyItem .texts elements (layOut [','] elements ++ [[')']])
  /-- A comma in an element, with no item before it or behind it.  Where it is at the end of the
  list, a closing parenthesis has to follow. -/
  | within {kind : ListKind} {front back : List ListElement} {lead : List Token}
      {before behind : List Char} (hclosed : Closed before) (hno : NoItemBetween before behind)
      (hend : kind = .texts ∨ back ≠ [] ∨ behind ≠ []) :
      PutsEmptyItem kind (front ++ ⟨lead, before ++ behind⟩ :: back)
        (layOut kind.ending (front ++ ⟨lead, before ++ ',' :: behind⟩ :: back))

variable {kind : ListKind} {elements : List ListElement} {head tokens following rest : List Token}

namespace ListKind

/-- A clause with a list can be read only if its list can. -/
lemma Head.exists_reads (h : kind.Head head) :
    ∃ keyword words, head = keyword :: words ∧ keyword.IsKeyword ∧
      ∀ (tokens rest : List Token) (clause : Clause),
        Clause.read keyword (words ++ tokens) = .ok (clause, rest) → kind.Reads tokens rest := by
  cases h with
  | @select keyword hkeyword =>
    refine ⟨keyword, [], rfl, by simp [Token.IsKeyword, keywords, hkeyword], ?_⟩
    intro tokens rest clause h
    simp only [Clause.read, hkeyword, map_read_eq_ok_iff] at h
    exact h.imp fun _ => And.left
  | @values keyword hkeyword =>
    refine ⟨keyword, [['(']], rfl, by simp [Token.IsKeyword, keywords, hkeyword], ?_⟩
    intro tokens rest clause h
    simp only [Clause.read, hkeyword, map_read_eq_ok_iff] at h
    exact h.imp fun _ => And.left
  | @oneOf keyword column operator hkeyword hoperator =>
    refine ⟨keyword, [column, operator, ['(']], rfl, ?_, ?_⟩
    · rcases hkeyword with hkeyword | hkeyword <;> simp [Token.IsKeyword, keywords, hkeyword]
    · intro tokens rest clause h
      have hcondition : ∃ condition,
          Clause.readCondition (column :: operator :: ['('] :: tokens) = .ok (condition, rest) := by
        rcases hkeyword with hkeyword | hkeyword <;>
        · simp only [Clause.read, hkeyword, map_read_eq_ok_iff] at h
          exact h.imp fun _ => And.left
      obtain ⟨condition, h⟩ := hcondition
      rw [readCondition_in hoperator] at h
      obtain ⟨⟨values, rest'⟩, hvalues, h⟩ := bind_eq_ok_iff.1 h
      cases h
      exact ⟨values, hvalues⟩
  | @set keyword hkeyword =>
    refine ⟨keyword, [], rfl, by simp [Token.IsKeyword, keywords, hkeyword], ?_⟩
    intro tokens rest clause h
    simp only [Clause.read, hkeyword, map_read_eq_ok_iff] at h
    exact h.imp fun _ => And.left

/-- Every list that is read to its end consists of elements that fit. -/
lemma Reads.exists_elements (h : kind.Reads tokens []) :
    ∃ elements, tokens = layOut kind.ending elements ∧ ∀ element ∈ elements, kind.Fits element := by
  cases kind with
  | columns =>
    obtain ⟨names, h⟩ := h
    obtain ⟨segment, rfl, hspells⟩ := readColumns_eq_ok_iff.1 h
    obtain ⟨elements, -, rfl, hfits⟩ := hspells.exists_elements
    exact ⟨elements, List.append_nil _, hfits⟩
  | texts =>
    obtain ⟨values, h⟩ := h
    obtain ⟨segment, rfl, hspells | ⟨-, rfl, -⟩⟩ := readValues_eq_ok_iff.1 h
    · obtain ⟨elements, -, rfl, hfits⟩ := hspells.exists_elements
      exact ⟨elements, List.append_nil _, hfits⟩
    · exact ⟨[⟨[], []⟩], rfl, List.forall_mem_singleton.2 rfl⟩
  | assignments =>
    obtain ⟨given, h⟩ := h
    obtain ⟨segment, rfl, hspells⟩ := spellsAssignments_of_readAssignments h
    obtain ⟨elements, -, rfl, hfits⟩ := hspells.exists_elements
    exact ⟨elements, List.append_nil _, hfits⟩

end ListKind

/-! ## Lists of texts -/

variable {front back : List ListElement} {before behind : List Char} {fragment : Token}

/-- Unless it is put at the end, a comma does not change how a text ends. -/
lemma getLast?_append_cons (hne : behind ≠ []) (c : Char) :
    (before ++ c :: behind).getLast? = (before ++ behind).getLast? := by
  rw [List.getLast?_append_of_ne_nil _ (List.cons_ne_nil c behind),
    List.getLast?_append_of_ne_nil _ hne, List.getLast?_cons_of_ne_nil hne]

/-- A list of texts cannot be read if one of its elements has an empty item. -/
lemma ReadsOn.refuses {read : List Token → Except SyntaxError (WithRest (List String))}
    (hread : ReadsOn read) (hfront : ∀ element ∈ front, element.lead = [])
    (hempty : fragment.HasEmptyItem) {token : Token} {tail : List Token}
    {goOn : List String → Except SyntaxError (WithRest (List String))}
    (htoken : read (token :: tail) = fragment.itemTexts false >>= goOn) :
    ¬∃ texts, read (layOut [','] front ++ token :: tail) = .ok (texts, rest) := by
  intro h
  obtain ⟨texts, h⟩ := hread.exists_of_append hfront h
  rw [htoken] at h
  obtain ⟨given, hgiven, -⟩ := bind_eq_ok_iff.1 h
  exact hempty.itemTexts given hgiven

lemma readColumns_last {token : Token} (h : token.getLast? ≠ some ',') (tail : List Token) :
    Clause.readColumns (token :: tail) = do return (← token.itemTexts false, tail) := by
  rw [Clause.readColumns, stripLast?_eq_none_iff.2 h]

/-- A list of columns that is read to its end does not end in a comma. -/
lemma getLast?_ne_of_readColumns {token : Token} {names : List String}
    (h : Clause.readColumns [token] = .ok (names, rest)) : token.getLast? ≠ some ',' := by
  intro hlast
  obtain ⟨fragment, rfl⟩ := List.getLast?_eq_some_iff.1 hlast
  rw [readsOn_readColumns] at h
  obtain ⟨given, -, h⟩ := bind_eq_ok_iff.1 h
  cases h

/-- A list of columns with an empty item is not read, whatever follows it. -/
lemma not_reads_columns (hfits : ∀ element ∈ elements, element.lead = [])
    (hwhole : ListKind.columns.Reads (layOut [] elements) [])
    (hputs : PutsEmptyItem .columns elements tokens) :
    ¬ListKind.columns.Reads (tokens ++ following) rest := by
  cases hputs with
  | @lone _ front back =>
    have hfront := (List.forall_mem_append.1 hfits).1
    rw [List.append_assoc, List.cons_append]
    exact readsOn_readColumns.refuses hfront hasEmptyItem_nil (readsOn_readColumns [] _)
  | @within _ front back lead before behind hclosed hno hend =>
    obtain ⟨hfront, hback⟩ := List.forall_mem_append.1 hfits
    obtain rfl : lead = [] := hback _ List.mem_cons_self
    have hempty := hclosed.hasEmptyItem hno
    rw [layOut_append (List.cons_ne_nil _ _)] at hwhole ⊢
    rw [List.append_assoc]
    cases back with
    | cons next back =>
      rw [layOut_cons (List.cons_ne_nil _ _)]
      exact readsOn_readColumns.refuses hfront hempty (readsOn_readColumns _ _)
    | nil =>
      obtain ⟨names, hnames⟩ := readsOn_readColumns.exists_of_append hfront hwhole
      have hbehind : behind ≠ [] := by simpa using hend
      have hlast : (before ++ ',' :: behind).getLast? ≠ some ',' := by
        rw [getLast?_append_cons hbehind]
        rw [layOut, List.nil_append, List.append_nil] at hnames
        exact getLast?_ne_of_readColumns hnames
      rw [layOut, List.nil_append, ListKind.ending, List.append_nil]
      exact readsOn_readColumns.refuses hfront hempty (readColumns_last hlast following)

lemma readValues_last (fragment : Token) (tail : List Token) :
    Clause.readValues false ((fragment ++ [')']) :: tail) =
      (do return (← fragment.itemTexts false, tail)) := by
  rw [Clause.readValues, stripLast?_eq_some_iff.2 rfl]

/-- A list in parentheses is read as if it were not at its start, unless it closes there. -/
lemma readValues_true_append {token : Token} (hfront : ∀ element ∈ front, element.lead = [])
    (h : front = [] → token ≠ [')']) (tail : List Token) :
    Clause.readValues true (layOut [','] front ++ token :: tail) =
      Clause.readValues false (layOut [','] front ++ token :: tail) := by
  cases front with
  | nil => exact readValues_true (h rfl) tail
  | cons element front =>
    obtain ⟨hlead, -⟩ := List.forall_mem_cons.1 hfront
    rw [layOut_comma_cons, hlead]
    exact readValues_true (ne_of_comma_mem (by simp) (by decide)) _

/-- A list in parentheses with an empty item is not read, whatever follows it. -/
lemma not_reads_texts (hfits : ∀ element ∈ elements, element.lead = [])
    (hwhole : ListKind.texts.Reads (layOut [')'] elements) [])
    (hputs : PutsEmptyItem .texts elements tokens) :
    ¬ListKind.texts.Reads (tokens ++ following) rest := by
  cases hputs with
  | @lone _ front back =>
    have hfront := (List.forall_mem_append.1 hfits).1
    rw [ListKind.Reads, List.append_assoc, List.cons_append,
      readValues_true_append hfront (by simp)]
    exact readsOn_readValues.refuses hfront hasEmptyItem_nil (readsOn_readValues [] _)
  | closed =>
    have hne : elements ≠ [] := by
      rintro rfl
      obtain ⟨values, hvalues⟩ := hwhole
      cases hvalues
    rw [ListKind.Reads, List.append_assoc, List.singleton_append,
      readValues_true_append hfits (fun hnil => absurd hnil hne)]
    exact readsOn_readValues.refuses hfits hasEmptyItem_nil (readValues_last [] following)
  | @within _ front back lead before behind hclosed hno hend =>
    obtain ⟨hfront, hback⟩ := List.forall_mem_append.1 hfits
    obtain rfl : lead = [] := hback _ List.mem_cons_self
    have hempty := hclosed.hasEmptyItem hno
    rw [ListKind.Reads, layOut_append (List.cons_ne_nil _ _), List.append_assoc]
    cases back with
    | cons next back =>
      rw [layOut_cons (List.cons_ne_nil _ _), List.nil_append, List.cons_append,
        readValues_true_append hfront fun _ => ne_of_comma_mem (by simp) (by decide)]
      exact readsOn_readValues.refuses hfront hempty (readsOn_readValues _ _)
    | nil =>
      rw [layOut, List.nil_append, ListKind.ending, List.singleton_append,
        readValues_true_append hfront fun _ => ne_of_comma_mem (by simp) (by decide)]
      exact readsOn_readValues.refuses hfront hempty (readValues_last _ following)

/-! ## Lists of assignments -/

/-- No assignment is read from an element with an empty item. -/
lemma assignments_of_hasEmptyItem {element : ListElement} (h : element.fragment.HasEmptyItem)
    (hne : element.fragment ≠ []) (given : List Assignment) : element.assignments ≠ .ok given := by
  obtain ⟨lead, fragment⟩ := element
  have hitems := h.items hne
  intro hgiven
  unfold ListElement.assignments at hgiven
  split at hgiven
  · rw [Clause.spacedAssignment, hitems] at hgiven
    cases hgiven
  · rw [hitems] at hgiven
    cases hgiven

/-- A list of assignments is not read if its first element has an empty item. -/
lemma refuses_assignments {lead : List Token}
    (helement : ListElement.IsAssignment ⟨lead, fragment⟩) (hempty : fragment.HasEmptyItem)
    (hne : fragment ≠ []) (hlast : back = [] → fragment.getLast? ≠ some ',')
    (hnext : lead = [] → (layOut [] back ++ following).head? ≠ some ['='])
    (given : List Assignment) :
    Clause.readAssignments (layOut [] (⟨lead, fragment⟩ :: back) ++ following) ≠
      .ok (given, rest) := by
  intro h
  obtain ⟨token, hdrop, -, htoken⟩ := exists_layOut_cons hlast
  rw [htoken, List.append_assoc, List.cons_append,
    readAssignments_append (by rwa [hdrop]) hnext, hdrop] at h
  obtain ⟨first, hfirst, -⟩ := bind_eq_ok_iff.1 h
  exact assignments_of_hasEmptyItem hempty hne first hfirst

/-- A list of assignments with an empty item in one of its elements is not read, when no lone sign
follows it. -/
lemma not_reads_assignments (hfits : ∀ element ∈ elements, element.IsAssignment)
    (hwhole : ListKind.assignments.Reads (layOut [] elements) [])
    (hputs : PutsEmptyItem .assignments elements tokens)
    (hfollowing : following.head? ≠ some ['=']) :
    ¬ListKind.assignments.Reads (tokens ++ following) rest := by
  obtain ⟨given, hgiven⟩ := hwhole
  rintro ⟨given', hread⟩
  cases hputs with
  | lone hkind => exact hkind rfl
  | @within _ front back lead before behind hclosed hno hend =>
    obtain ⟨helement, hback⟩ := List.forall_mem_cons.1 (List.forall_mem_append.1 hfits).2
    obtain ⟨first, hbehind, hfirst⟩ := exists_readAssignments_append hfits hgiven
    obtain ⟨more, -, hmore⟩ := hbehind (List.cons_ne_nil _ _)
    obtain ⟨hlast, hnext, -⟩ := readAssignments_layOut_cons helement hback hmore
    have hlast' : back = [] → (before ++ ',' :: behind).getLast? ≠ some ',' := by
      rintro rfl
      rw [getLast?_append_cons (by simpa using hend)]
      exact hlast rfl
    have hnext' : lead = [] → (layOut [] back ++ following).head? ≠ some ['='] := by
      intro hlead hhead
      rw [List.head?_append, Option.or_eq_some_iff] at hhead
      rcases hhead with hhead | ⟨-, hhead⟩
      · exact hnext hlead hhead
      · exact hfollowing hhead
    have hempty := hclosed.hasEmptyItem hno
    have helement' : ListElement.IsAssignment ⟨lead, before ++ ',' :: behind⟩ := helement
    rw [ListKind.ending, layOut_append (List.cons_ne_nil _ _), List.append_assoc, hfirst] at hread
    · obtain ⟨⟨more', rest'⟩, hmore', -⟩ := bind_eq_ok_iff.1 hread
      exact refuses_assignments helement' hempty (by simp) hlast' hnext' more' hmore'
    · -- the element begins as it did, or with a token that has a comma
      rw [List.head?_append]
      obtain rfl | ⟨column, rfl⟩ := helement
      · obtain ⟨token, -, hsubset, htoken⟩ := exists_layOut_cons hlast'
        rw [htoken]
        intro hhead
        exact absurd (Option.some.inj hhead) (ne_of_comma_mem (hsubset (by simp)) (by decide))
      · rw [head?_layOut_spaced, head?_layOut_spaced]
        exact id

/-- A list in which an empty item was put is not read, when no lone sign follows it. -/
lemma PutsEmptyItem.not_reads (hputs : PutsEmptyItem kind elements tokens)
    (hfits : ∀ element ∈ elements, kind.Fits element)
    (hwhole : kind.Reads (layOut kind.ending elements) [])
    (hfollowing : following.head? ≠ some ['=']) : ¬kind.Reads (tokens ++ following) rest := by
  cases kind with
  | columns => exact not_reads_columns hfits hwhole hputs
  | texts => exact not_reads_texts hfits hwhole hputs
  | assignments => exact not_reads_assignments hfits hwhole hputs hfollowing

/-! ## What is not taken for an empty item -/

/-- A lone comma before an assignment is passed over. -/
lemma readAssignments_lone {tail : List Token} (h : tail.head? ≠ some ['=']) :
    Clause.readAssignments ([','] :: tail) = Clause.readAssignments tail := by
  rw [readAssignments_of_head? h]
  change (Clause.readAssignments tail >>= fun read => Except.ok ([] ++ read.1, read.2)) = _
  exact bind_pure (Clause.readAssignments tail)

/-- The column of an assignment with spaces around its sign is not looked at. -/
lemma exists_readAssignments_column {column value : Token} {given : List Assignment}
    (hback : ∀ element ∈ back, element.IsAssignment)
    (h : Clause.readAssignments (layOut [] (⟨[column, ['=']], value⟩ :: back)) = .ok (given, [])) :
    ∃ text more, given = ⟨column.unquote, text⟩ :: more ∧ ∀ named : Token,
      Clause.readAssignments (layOut [] (⟨[named, ['=']], value⟩ :: back)) =
        .ok (⟨named.unquote, text⟩ :: more, []) := by
  obtain ⟨hlast, -, first, more, hfirst, rfl, hend, hmore⟩ :=
    readAssignments_layOut_cons (.inr ⟨column, rfl⟩) hback h
  obtain ⟨assignment, hassignment, hfirst⟩ := bind_eq_ok_iff.1 hfirst
  obtain ⟨item, hitem, rfl⟩ := spacedAssignment_eq_ok_iff.1 hassignment
  cases hfirst
  refine ⟨item.unquote, more, rfl, fun named => ?_⟩
  have hnamed : ListElement.assignments ⟨[named, ['=']], value⟩ =
      .ok [⟨named.unquote, item.unquote⟩] :=
    bind_eq_ok_iff.2 ⟨_, spacedAssignment_eq_ok_iff.2 ⟨item, hitem, rfl⟩, rfl⟩
  obtain ⟨token, hdrop, -, htoken⟩ := exists_layOut_cons hlast
  rw [htoken, readAssignments_append (.inr ⟨named, rfl⟩) (fun hnil => by cases hnil), hdrop, hnamed,
    bind_ok]
  cases back with
  | nil =>
    rw [hend rfl]
    rfl
  | cons next back =>
    have hopen : (!(next :: back).isEmpty) = true := rfl
    rw [if_pos hopen, hmore (List.cons_ne_nil _ _)]
    rfl

/-! ## Queries with an empty item -/

namespace Query

open Clause

variable {config : Config} {place : Place} {query : Query} {list : List Token}

/-- The list of a query is read to its end. -/
lemma reads_list (hhead : kind.Head place.head)
    (hclauses : ∀ segment ∈ place.segments list, (ofSegment? segment).isSome) :
    kind.Reads list [] := by
  obtain ⟨keyword, words, hwords, -, hreads⟩ := hhead.exists_reads
  obtain ⟨clause, hclause⟩ := Option.isSome_iff_exists.1
    (hclauses (place.head ++ list) (List.mem_append_right _ List.mem_cons_self))
  rw [hwords, List.cons_append, ofSegment?_cons_eq_some_iff] at hclause
  exact hreads list [] clause hclause

/-- No lone sign stands behind the clause with the list. -/
lemma ne_equals_after (hclauses : ∀ segment ∈ place.segments list, (ofSegment? segment).isSome) :
    place.after.flatten.head? ≠ some ['='] := by
  intro hsign
  have hafter : ∀ segment ∈ place.after, (ofSegment? segment).isSome := fun segment hsegment =>
    hclauses segment (List.mem_append_right _ (List.mem_cons_of_mem _ hsegment))
  exact (isKeyword_of_mem_head?_flatten hafter hsign).ne_equals rfl

lemma exists_malformed_of_putsEmptyItem (hhead : kind.Head place.head)
    (hfits : ∀ element ∈ elements, kind.Fits element)
    (hclauses : ∀ segment ∈ place.segments (layOut kind.ending elements),
      (ofSegment? segment).isSome)
    (hquery : ofTokens config (place.segments (layOut kind.ending elements)).flatten = .ok query)
    (hputs : PutsEmptyItem kind elements tokens) :
    ∃ e, ofTokens config (place.segments tokens).flatten = .error (.malformed e) := by
  obtain ⟨keyword, words, hwords, hkeyword, hreads⟩ := hhead.exists_reads
  refine exists_malformed hclauses hquery hwords hkeyword fun clause rest hread => ?_
  exact hputs.not_reads hfits (reads_list hhead hclauses) (ne_equals_after hclauses)
    (hreads _ _ _ hread)

lemma read_set {keyword : Token} (hkeyword : keyword.word = "SET") (tokens : List Token) :
    read keyword tokens = do return (← readAssignments tokens).map Clause.assignments id := by
  simp only [Clause.read, hkeyword]

/-- Among assignments a lone comma is passed over. -/
lemma ofTokens_lone (hhead : ListKind.Head .assignments place.head)
    (hfits : ∀ element ∈ front ++ back, element.IsAssignment)
    (hclauses : ∀ segment ∈ place.segments (layOut [] (front ++ back)), (ofSegment? segment).isSome)
    (hsign : (layOut [] back).head? ≠ some ['=']) :
    ofTokens config (place.segments (layOut [','] front ++ [','] :: layOut [] back)).flatten =
      ofTokens config (place.segments (layOut [','] front ++ layOut [] back)).flatten := by
  obtain ⟨given, hgiven⟩ := reads_list hhead hclauses
  obtain ⟨first, -, hfirst⟩ := exists_readAssignments_append hfits hgiven
  have hsign' : (layOut [] back ++ place.after.flatten).head? ≠ some ['='] := by
    rw [List.head?_append, Ne, Option.or_eq_some_iff]
    rintro (h | ⟨-, h⟩)
    · exact hsign h
    · exact ne_equals_after hclauses h
  have hread : readAssignments
      ((layOut [','] front ++ [','] :: layOut [] back) ++ place.after.flatten) =
        readAssignments ((layOut [','] front ++ layOut [] back) ++ place.after.flatten) := by
    rw [List.append_assoc, List.append_assoc, List.cons_append, hfirst _ (by simp),
      readAssignments_lone hsign', hfirst _ fun h => absurd h hsign']
  generalize hset : place.head = head at hhead
  cases hhead with
  | @set keyword hkeyword =>
    refine ofTokens_congr (fun segment h => hclauses segment (List.mem_append_left _ h)) hset
      (by simp [Token.IsKeyword, keywords, hkeyword]) ?_
    rw [List.nil_append, List.nil_append, read_set hkeyword, read_set hkeyword, hread]

/-- Among assignments, other tokens that are read to their end make up the query with the
assignments that are read from them. -/
lemma ofTokens_of_readAssignments {given others : List Assignment}
    (hhead : ListKind.Head .assignments place.head)
    (hclauses : ∀ segment ∈ place.segments list, (ofSegment? segment).isSome)
    (hquery : ofTokens config (place.segments list).flatten = .ok query)
    (hgiven : readAssignments list = .ok (given, []))
    (hothers : readAssignments tokens = .ok (others, [])) :
    query.assignments? = some given ∧ ofTokens config (place.segments tokens).flatten =
      .ok { query with assignments? := some others } := by
  have hsegment {list : List Token} {given : List Assignment}
      (h : readAssignments list = .ok (given, [])) :
      ofSegment? (place.head ++ list) = some (.assignments given) := by
    generalize place.head = head at hhead
    cases hhead with
    | set hkeyword =>
      rw [List.singleton_append, ofSegment?_cons_eq_some_iff, read_set hkeyword, h]
      rfl
  exact ofTokens_of_assignments hclauses hquery (hsegment hgiven) (hsegment hothers)

/-- Among assignments a comma in the token of a column that stands before a lone sign is part of
the name of the column. -/
lemma exists_ofTokens_column {column named value : Token}
    (hhead : ListKind.Head .assignments place.head)
    (hfits : ∀ element ∈ front ++ ⟨[column, ['=']], value⟩ :: back, element.IsAssignment)
    (hclauses : ∀ segment ∈ place.segments (layOut [] (front ++ ⟨[column, ['=']], value⟩ :: back)),
      (ofSegment? segment).isSome)
    (hquery : ofTokens config
      (place.segments (layOut [] (front ++ ⟨[column, ['=']], value⟩ :: back))).flatten = .ok query)
    (hcomma : ',' ∈ named) :
    ∃ first text more, query.assignments? = some (first ++ ⟨column.unquote, text⟩ :: more) ∧
      ofTokens config
        (place.segments (layOut [] (front ++ ⟨[named, ['=']], value⟩ :: back))).flatten =
          .ok { query with assignments? := some (first ++ ⟨named.unquote, text⟩ :: more) } := by
  obtain ⟨given, hgiven⟩ := reads_list hhead hclauses
  have hback := (List.forall_mem_cons.1 (List.forall_mem_append.1 hfits).2).2
  obtain ⟨first, hbehind, hfirst⟩ := exists_readAssignments_append hfits hgiven
  obtain ⟨more, rfl, hmore⟩ := hbehind (List.cons_ne_nil _ _)
  obtain ⟨text, more, rfl, hnamed⟩ := exists_readAssignments_column hback hmore
  have hsign : (layOut [] (⟨[named, ['=']], value⟩ :: back)).head? ≠ some ['='] := by
    rw [head?_layOut_spaced]
    exact fun h => ne_of_comma_mem hcomma (by decide) (Option.some.inj h)
  have hothers : readAssignments (layOut [] (front ++ ⟨[named, ['=']], value⟩ :: back)) =
      .ok (first ++ ⟨named.unquote, text⟩ :: more, []) := by
    rw [layOut_append (List.cons_ne_nil _ _), hfirst _ fun h => absurd h hsign, hnamed]
    rfl
  obtain ⟨hassigned, hother⟩ := ofTokens_of_readAssignments hhead hclauses hquery hgiven hothers
  exact ⟨first, text, more, hassigned, hother⟩

/-- An empty item that is put into the list of a query makes the query malformed, whatever list it
is (all lists that are read have elements that fit, by `ListKind.Reads.exists_elements`).  Two
things are not taken for empty items, both among assignments: a lone comma where an assignment is
expected, which is passed over, and a comma in the token of a column that stands before a lone sign,
which is part of the name of the column. -/
theorem ofTokens_of_putsEmptyItem (config : Config) {place : Place} {kind : ListKind}
    {elements : List ListElement} {query : Query} (hhead : kind.Head place.head)
    (hfits : ∀ element ∈ elements, kind.Fits element)
    (hclauses : ∀ segment ∈ place.segments (layOut kind.ending elements),
      (ofSegment? segment).isSome)
    (hquery : ofTokens config (place.segments (layOut kind.ending elements)).flatten = .ok query) :
    (∀ tokens, PutsEmptyItem kind elements tokens →
      ∃ e, ofTokens config (place.segments tokens).flatten = .error (.malformed e)) ∧
    (kind = .assignments →
      (∀ front back, elements = front ++ back → (layOut [] back).head? ≠ some ['='] →
        ofTokens config (place.segments (layOut [','] front ++ [','] :: layOut [] back)).flatten =
          ofTokens config (place.segments (layOut [','] front ++ layOut [] back)).flatten) ∧
      ∀ front (column named : Token) value back,
        elements = front ++ ⟨[column, ['=']], value⟩ :: back → ',' ∈ named →
        ∃ first text more, query.assignments? = some (first ++ ⟨column.unquote, text⟩ :: more) ∧
          ofTokens config
            (place.segments (layOut [] (front ++ ⟨[named, ['=']], value⟩ :: back))).flatten =
              .ok { query with
                assignments? := some (first ++ ⟨named.unquote, text⟩ :: more) }) := by
  refine ⟨fun tokens => exists_malformed_of_putsEmptyItem hhead hfits hclauses hquery, ?_⟩
  rintro rfl
  constructor
  · rintro front back rfl hsign
    exact ofTokens_lone hhead hfits hclauses hsign
  · rintro front column named value back rfl hcomma
    exact exists_ofTokens_column hhead hfits hclauses hquery hcomma

/-- An update with assignments of both spellings: two commas in a row make it malformed, but a lone
comma changes nothing. -/
theorem ofTokens_of_putsEmptyItem_of_assignments :
    let place : Place :=
      ⟨[["UPDATE".toList, "t".toList]], ["SET".toList],
        [["WHERE".toList, "c".toList, ['='], "'z'".toList]]⟩
    let elements : List ListElement :=
      [⟨["a".toList, ['=']], "'x'".toList⟩, ⟨[], "b='y'".toList⟩]
    let query : Query :=
      { kind := .update, table := "t.csv", columns := .only [], conditions := [⟨"c", .equals "z"⟩]
        assignments? := some [⟨"a", "x"⟩, ⟨"b", "y"⟩] }
    ofTokens {} (place.segments (layOut [] elements)).flatten = .ok query ∧
      (∃ e, ofTokens {} (place.segments
        ["a".toList, ['='], "'x',".toList, ",b='y'".toList]).flatten = .error (.malformed e)) ∧
      ofTokens {} (place.segments
        ["a".toList, ['='], "'x',".toList, [','], "b='y'".toList]).flatten = .ok query := by
  intro place elements query
  have hquery : ofTokens {} (place.segments (layOut [] elements)).flatten = .ok query := by
    decide +kernel
  have hhead : ListKind.assignments.Head place.head := .set rfl
  have hfits : ∀ element ∈ elements, ListKind.assignments.Fits element :=
    List.forall_mem_cons.2 ⟨.inr ⟨_, rfl⟩, List.forall_mem_singleton.2 (.inl rfl)⟩
  have hclauses : ∀ segment ∈ place.segments (layOut [] elements), (ofSegment? segment).isSome := by
    decide +kernel
  obtain ⟨hmalformed, hread⟩ := ofTokens_of_putsEmptyItem {} hhead hfits hclauses hquery
  have hputs : PutsEmptyItem .assignments
      ([⟨["a".toList, ['=']], "'x'".toList⟩] ++ ⟨[], [] ++ "b='y'".toList⟩ :: [])
      (layOut [] ([⟨["a".toList, ['=']], "'x'".toList⟩] ++ ⟨[], [] ++ ',' :: "b='y'".toList⟩ :: [])) :=
    .within .nil (.inl (.inl rfl)) (.inr (.inr (by decide)))
  have hlone := (hread rfl).1 [_] [_] rfl (by decide)
  exact ⟨hquery, hmalformed _ hputs, hlone.trans hquery⟩

/-- Two queries with an empty item among their assignments that are read: a lone comma stands
between two assignments, and a comma before the first one. -/
theorem empty_assignments_are_read :
    let read (tokens : List String) := ofTokens {} (tokens.map String.toList)
    let update (assignments : List Assignment) : Query :=
      { kind := .update, table := "t.csv", columns := .only []
        assignments? := some assignments }
    read ["UPDATE", "t", "SET", "a", "=", "'x',", ",", "b", "=", "'y'"] =
        .ok (update [⟨"a", "x"⟩, ⟨"b", "y"⟩]) ∧
      read ["UPDATE", "t", "SET", ",a", "=", "'x'"] = .ok (update [⟨",a", "x"⟩]) := by
  decide +kernel

end Query

end FlatQuery
