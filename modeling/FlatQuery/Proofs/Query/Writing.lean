/-
# The tokens of a written query

A query is written as keywords, quoted texts and a few signs.  Apart from the parentheses that
open lists, none of these tokens has an opening parenthesis outside quoted runs, whatever the
names and the values of the query are, so that its line is cut into the tokens that were
written (`Query.tokenize_line`).
-/
import FlatQuery.Proofs.Token

namespace FlatQuery

/-! ## The names and the values of a query -/

/-- The columns that a selection names. -/
def Selection.texts : Selection → List String
  | all => []
  | only columns => columns

/-- The texts in a criterion. -/
def Criterion.texts : Criterion → List String
  | equals text => [text]
  | oneOf texts => texts.toList

namespace Query

/-- The tables that a query names. -/
def tables (query : Query) : List String :=
  query.table :: query.joins.map (·.table)

/-- A query is writable when no name and no value in it contains quotes of both kinds. -/
structure Writable (query : Query) : Prop where
  tables : ∀ table ∈ query.tables, Quotable table
  columns : ∀ column ∈ query.columns.texts, Quotable column
  joins : ∀ join ∈ query.joins, Quotable join.leftColumn ∧ Quotable join.rightColumn
  conditions : ∀ condition ∈ query.conditions,
    Quotable condition.column ∧ ∀ text ∈ condition.criterion.texts, Quotable text
  order : ∀ key ∈ query.order, Quotable key.column
  values : ∀ value ∈ query.values?.getD [], Quotable value
  assignments : ∀ a ∈ query.assignments?.getD [], Quotable a.column ∧ Quotable a.value

end Query

/-! ## The line of a query -/

lemma noParen_comma : Token.NoParen [','] :=
  noParen_of_all

lemma noParen_closeParen : Token.NoParen [')'] :=
  noParen_of_all

lemma noParen_listTokens {items : List Token} (h : ∀ item ∈ items, item.NoParen) :
    ∀ token ∈ listTokens items, token.NoParen := by
  fun_induction listTokens items with
  | case1 => simp
  | case2 item => exact h
  | case3 item items _ ih =>
    obtain ⟨hitem, hitems⟩ := List.forall_mem_cons.1 h
    exact List.forall_mem_cons.2 ⟨hitem.append noParen_comma, ih hitems⟩

lemma noParen_closeList {tokens : List Token} (h : ∀ token ∈ tokens, token.NoParen) :
    ∀ token ∈ parenthesized.closeList tokens, token.NoParen := by
  fun_induction parenthesized.closeList tokens with
  | case1 => exact List.forall_mem_singleton.2 noParen_closeParen
  | case2 item =>
    exact List.forall_mem_singleton.2 ((h item List.mem_cons_self).append noParen_closeParen)
  | case3 item items _ ih =>
    obtain ⟨hitem, hitems⟩ := List.forall_mem_cons.1 h
    exact List.forall_mem_cons.2 ⟨hitem, ih hitems⟩

lemma noParen_map_quote {texts : List String} (h : ∀ text ∈ texts, Quotable text) :
    ∀ item ∈ texts.map quote, item.NoParen :=
  List.forall_mem_map.2 fun text htext => noParen_quote (h text htext)

lemma noParen_equals : Token.NoParen ['='] :=
  noParen_of_all

lemma noParen_assignmentTokens {assignments : List Assignment}
    (h : ∀ a ∈ assignments, Quotable a.column ∧ Quotable a.value) :
    ∀ token ∈ assignmentTokens assignments, token.NoParen := by
  fun_induction assignmentTokens assignments with
  | case1 => simp
  | case2 a =>
    obtain ⟨hcolumn, hvalue⟩ := h a List.mem_cons_self
    simp [noParen_quote hcolumn, noParen_equals, noParen_quote hvalue]
  | case3 a rest _ ih =>
    obtain ⟨⟨hcolumn, hvalue⟩, hrest⟩ := List.forall_mem_cons.1 h
    simpa [noParen_quote hcolumn, noParen_equals, (noParen_quote hvalue).append noParen_comma]
      using ih hrest

/-- The tokens that a written query is made of: single opening parentheses, and well-formed
tokens without parentheses. -/
def Printable (tokens : List Token) : Prop :=
  ∀ token ∈ tokens, token = ['('] ∨ token.NoParen

lemma printable_nil : Printable [] := by simp [Printable]

lemma printable_append {tokens more : List Token} :
    Printable (tokens ++ more) ↔ Printable tokens ∧ Printable more :=
  List.forall_mem_append

lemma printable_of_noParen {tokens : List Token} (h : ∀ token ∈ tokens, token.NoParen) :
    Printable tokens :=
  fun token htoken => Or.inr (h token htoken)

lemma Printable.cons {token : Token} {tokens : List Token} (htoken : token.NoParen)
    (h : Printable tokens) : Printable (token :: tokens) :=
  List.forall_mem_cons.2 ⟨Or.inr htoken, h⟩

lemma Printable.flatMap {α : Type} {parts : List α} {segment : α → List Token}
    (h : ∀ part ∈ parts, Printable (segment part)) : Printable (parts.flatMap segment) := by
  intro token htoken
  obtain ⟨part, hpart, htoken⟩ := List.mem_flatMap.1 htoken
  exact h part hpart token htoken

/-- The line on which printable tokens are written is cut into them. -/
lemma Printable.tokenize_eq {tokens : List Token} (h : Printable tokens) :
    tokenize (lineOf tokens) = .ok tokens := by
  refine tokenize_lineOf (fun token htoken => ?_) (parenApart_of_forall h)
  rcases h token htoken with rfl | hfree
  · exact wellFormed_openParen
  · exact hfree.toWellFormed

lemma printable_parenthesized {texts : List String} (h : ∀ text ∈ texts, Quotable text) :
    Printable (parenthesized texts) :=
  List.forall_mem_cons.2 ⟨Or.inl rfl,
    printable_of_noParen (noParen_closeList (noParen_listTokens (noParen_map_quote h)))⟩

lemma printable_join {join : Join} (htable : Quotable join.table)
    (hcolumns : Quotable join.leftColumn ∧ Quotable join.rightColumn) : Printable join.tokens :=
  .cons noParen_of_all <| .cons (noParen_quote htable) <|
    .cons noParen_of_all <| .cons (noParen_quote hcolumns.1) <|
    .cons noParen_equals <| .cons (noParen_quote hcolumns.2) printable_nil

lemma printable_condition {condition : Condition} (hcolumn : Quotable condition.column)
    (htexts : ∀ text ∈ condition.criterion.texts, Quotable text) : Printable condition.tokens := by
  obtain ⟨column, criterion⟩ := condition
  refine .cons noParen_of_all <| .cons (noParen_quote hcolumn) ?_
  cases criterion with
  | equals text =>
    exact .cons noParen_equals <| .cons (noParen_quote (htexts text (by simp [Criterion.texts])))
      printable_nil
  | oneOf texts =>
    exact .cons noParen_of_all (printable_parenthesized htexts)

lemma printable_key {key : SortKey} (hcolumn : Quotable key.column) : Printable key.tokens := by
  obtain ⟨column, direction⟩ := key
  have hdirection : Token.NoParen direction.token := by
    cases direction <;> exact noParen_of_all
  exact .cons noParen_of_all <| .cons noParen_of_all <| .cons (noParen_quote hcolumn) <|
    .cons hdirection printable_nil

namespace Query

lemma printable_headTokens {query : Query} (h : query.Writable) :
    Printable query.headTokens := by
  have htable : Token.NoParen (quote query.table) :=
    noParen_quote (h.tables _ List.mem_cons_self)
  have hselected : ∀ token ∈ query.columns.tokens, token.NoParen := by
    have hcolumns := h.columns
    cases hselection : query.columns with
    | all => exact List.forall_mem_singleton.2 noParen_of_all
    | only columns =>
      rw [hselection] at hcolumns
      exact noParen_listTokens (noParen_map_quote hcolumns)
  have hfrom : Printable ["FROM".toList, quote query.table] :=
    .cons noParen_of_all <| .cons htable printable_nil
  unfold headTokens
  split
  · exact .cons noParen_of_all
      (printable_append.2 ⟨printable_of_noParen hselected, hfrom⟩)
  · exact .cons noParen_of_all <|
      .cons noParen_of_all <| .cons htable <|
        .cons noParen_of_all (printable_parenthesized h.values)
  · exact .cons noParen_of_all <| .cons htable <|
      .cons noParen_of_all
        (printable_of_noParen (noParen_assignmentTokens h.assignments))
  · exact .cons noParen_of_all hfrom

lemma printable_tokens {query : Query} (h : query.Writable) : Printable query.tokens := by
  have hjoins : Printable (query.joins.flatMap Join.tokens) :=
    .flatMap fun join hjoin => printable_join
      (h.tables _ (List.mem_cons_of_mem _ (List.mem_map_of_mem hjoin))) (h.joins join hjoin)
  have hconditions : Printable (query.conditions.flatMap Condition.tokens) :=
    .flatMap fun condition hcondition =>
      have hquotable := h.conditions condition hcondition
      printable_condition hquotable.1 hquotable.2
  have horder : Printable (query.order.flatMap SortKey.tokens) :=
    .flatMap fun key hkey => printable_key (h.order key hkey)
  exact printable_append.2 ⟨printable_append.2 ⟨printable_append.2
    ⟨printable_headTokens h, hjoins⟩, hconditions⟩, horder⟩

/-- The line of a query is cut into its tokens. -/
lemma tokenize_line {query : Query} (h : query.Writable) :
    tokenize query.line = .ok query.tokens :=
  (printable_tokens h).tokenize_eq

end Query

end FlatQuery
