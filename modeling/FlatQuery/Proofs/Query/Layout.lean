/-
# The layout of a list over tokens

The items of a list may be packed into one token, or stand in tokens of their own, or anything
between: a token holds one or more items with commas between them, and has a comma behind it
unless it is the last one.  What the list stands for does not depend on how its items are spread
over tokens (`Query.ofTokens_layOut`), because a token of items in quotes is cut into just these
items and ends in a quote.
-/
import FlatQuery.Proofs.Query.Acceptance
import FlatQuery.Proofs.Token.Items

namespace FlatQuery

/-! ## Elements of a list -/

/-- An element of a list over tokens: its last token, without the comma or the parenthesis behind
it, and the tokens before that one, which only an assignment has. -/
structure ListElement where
  lead : List Token := []
  fragment : Token
deriving DecidableEq, Repr

/-- The tokens of a list: a comma stands behind every element but the last, and the given ending
behind the last one. -/
def layOut (ending : List Char) : List ListElement → List Token
  | [] => []
  | [element] => element.lead ++ [element.fragment ++ ending]
  | element :: elements => element.lead ++ (element.fragment ++ [',']) :: layOut ending elements

lemma layOut_cons {elements : List ListElement} (hne : elements ≠ []) (ending : List Char)
    (element : ListElement) :
    layOut ending (element :: elements) =
      element.lead ++ (element.fragment ++ [',']) :: layOut ending elements := by
  rw [layOut]
  exact hne

lemma layOut_comma_cons (element : ListElement) (elements : List ListElement) :
    layOut [','] (element :: elements) =
      element.lead ++ (element.fragment ++ [',']) :: layOut [','] elements := by
  cases elements with
  | nil => rfl
  | cons next elements => exact layOut_cons (List.cons_ne_nil _ _) [','] element

/-- A list is what stands before one of its elements, with a comma behind every element there,
and the list from that element on. -/
lemma layOut_append {back : List ListElement} (hne : back ≠ []) (ending : List Char)
    (front : List ListElement) :
    layOut ending (front ++ back) = layOut [','] front ++ layOut ending back := by
  induction front with
  | nil => rfl
  | cons element front ih =>
    rw [List.cons_append, layOut_cons (List.append_ne_nil_of_right_ne_nil front hne), ih,
      layOut_comma_cons, List.append_assoc, List.cons_append]

/-! ## Groups of items -/

/-- The element that holds a group of texts, each in quotes and with commas between them. -/
def groupElement (group : List String) : ListElement where
  fragment := [','].intercalate (group.map quote)

/-- A text in quotes can be an item, also when it is blank or contains commas. -/
lemma isItem_quote {text : String} (h : Quotable text) : Token.IsItem (quote text) where
  closed := closed_iff.2 (quoteAtEnd_quote h)
  solid := isSolid_quote h not_comma_of_isQuote
  not_blank := by
    obtain ⟨mark, hmark, -, heq⟩ := exists_quote_eq h
    simp [heq, not_isBlank_of_isQuote hmark]

variable {group : List String}

lemma items_groupElement (hne : group ≠ []) (h : ∀ text ∈ group, Quotable text) :
    (groupElement group).fragment.items = .ok (group.map quote) :=
  items_intercalate (by simpa using hne) (List.forall_mem_map.2 fun text htext =>
    isItem_quote (h text htext))

lemma holds_groupElement (hne : group ≠ []) (h : ∀ text ∈ group, Quotable text) :
    (groupElement group).fragment.Holds group := by
  have hitems := items_groupElement hne h
  refine ⟨fun hnil => ?_, group.map quote, hitems, ?_⟩
  · rw [hnil] at hitems
    cases group with
    | nil => exact hne rfl
    | cons text group => cases hitems
  · rw [List.map_map]
    exact (List.map_id'' unquote_quote group).symm

/-- A group of texts ends in a quote. -/
lemma exists_groupElement_eq_concat (hne : group ≠ []) (h : ∀ text ∈ group, Quotable text) :
    ∃ front mark, isQuote mark ∧ (groupElement group).fragment = front ++ [mark] := by
  induction group with
  | nil => exact absurd rfl hne
  | cons text group ih =>
    obtain ⟨htext, hgroup⟩ := List.forall_mem_cons.1 h
    cases group with
    | nil =>
      obtain ⟨mark, hmark, -, heq⟩ := exists_quote_eq htext
      refine ⟨mark :: text.toList, mark, hmark, ?_⟩
      rw [groupElement, List.map_singleton, List.intercalate_singleton, heq, List.cons_append]
    | cons next group =>
      obtain ⟨front, mark, hmark, heq⟩ := ih (List.cons_ne_nil _ _) hgroup
      refine ⟨quote text ++ [','] ++ front, mark, hmark, ?_⟩
      rw [List.append_assoc, ← heq]
      exact List.intercalate_cons_cons ..

lemma getLast?_groupElement (hne : group ≠ []) (h : ∀ text ∈ group, Quotable text) :
    (groupElement group).fragment.getLast? ≠ some ',' := by
  obtain ⟨front, mark, hmark, heq⟩ := exists_groupElement_eq_concat hne h
  rw [heq, List.getLast?_concat]
  exact fun hcomma => not_isQuote_comma (Option.some.inj hcomma ▸ hmark)

/-! ## Lists of groups -/

variable {groups : List (List String)}

/-- Groups of texts are the elements of a list when there is a group, none is empty, and no text
has quotes of both kinds. -/
structure IsGrouping (groups : List (List String)) : Prop where
  ne_nil : groups ≠ []
  group_ne_nil : ∀ group ∈ groups, group ≠ []
  quotable : ∀ text ∈ groups.flatten, Quotable text

/-- The tokens of a list of groups spell their texts, whether the list is in parentheses or
not. -/
lemma IsGrouping.spells (h : IsGrouping groups) {ending : List Char}
    (hending : ending = [] ∨ ending = [')']) :
    Spells ending (layOut ending (groups.map groupElement)) groups.flatten := by
  obtain ⟨hne, hgroups, hquotable⟩ := h
  induction groups with
  | nil => exact absurd rfl hne
  | cons group groups ih =>
    obtain ⟨hgroup, hgroups⟩ := List.forall_mem_cons.1 hgroups
    rw [List.flatten_cons, List.forall_mem_append] at hquotable
    obtain ⟨htexts, hquotable⟩ := hquotable
    have hholds := holds_groupElement hgroup htexts
    rw [List.flatten_cons, List.map_cons]
    cases groups with
    | nil =>
      have hlast : ((groupElement group).fragment ++ ending).getLast? ≠ some ',' := by
        rcases hending with rfl | rfl
        · rw [List.append_nil]
          exact getLast?_groupElement hgroup htexts
        · simp
      rw [List.flatten_nil, List.append_nil]
      exact .last hholds hlast
    | cons next groups =>
      have hmore := ih (List.cons_ne_nil _ _) hgroups hquotable
      rw [layOut_cons (by simp)]
      exact .more hholds hmore

/-- A segment in the form of a clause, whatever follows, is read as the clause. -/
lemma readsAs_of_form {segment : List Token} {clause : Clause}
    (h : ∀ following, clause.Form segment following) : ReadsAs segment clause := by
  obtain ⟨keyword, tail, rfl, -⟩ := (h []).read_append
  refine ⟨keyword, tail, rfl, fun rest => ?_⟩
  obtain ⟨keyword', tail', heq, hread⟩ := (h rest).read_append
  obtain ⟨rfl, rfl⟩ := List.cons.inj heq
  exact hread

/-- The elements of a list stand for its texts in every clause with a list of texts, and whatever
follows the clause. -/
structure StandsFor (elements : List ListElement) (texts : List String) : Prop where
  columns : ∀ keyword : Token, keyword.word = "SELECT" →
    ReadsAs (keyword :: layOut [] elements) (.select texts)
  values : ∀ keyword : Token, keyword.word = "VALUES" →
    ReadsAs (keyword :: ['('] :: layOut [')'] elements) (.values texts)
  oneOf : ∀ keyword column operator : Token, keyword.word = "WHERE" ∨ keyword.word = "AND" →
    operator.word = "IN" → ReadsAs (keyword :: column :: operator :: ['('] :: layOut [')'] elements)
      (.condition ⟨column.unquote, .oneOf (.ofList texts)⟩)

lemma IsGrouping.standsFor (h : IsGrouping groups) :
    StandsFor (groups.map groupElement) groups.flatten where
  columns _ hkeyword := readsAs_of_form fun _ =>
    .select (Token.says_of_word hkeyword) (h.spells (.inl rfl))
  values _ hkeyword := readsAs_of_form fun _ =>
    .values (Token.says_of_word hkeyword) (.items (h.spells (.inr rfl)))
  oneOf _ _ _ hkeyword hoperator :=
    readsAs_of_form fun _ =>
      .oneOf (hkeyword.imp (Token.says_of_word ·) (Token.says_of_word ·))
        (Token.says_of_word hoperator) (.items (h.spells (.inr rfl)))

lemma ReadsAs.readAll {segment : List Token} {clause : Clause} (h : ReadsAs segment clause) :
    Clause.readAll segment = ([clause], none) := by
  have hread := h.readAll_append []
  rwa [List.append_nil, Clause.readAll] at hread

/-! ## Queries with a list -/

namespace Query

lemma ofTokens_of_readAll {config : Config} {tokens : List Token} {clauses : List Clause}
    {draft : Draft} (hread : Clause.readAll tokens = (clauses, none))
    (hdraft : Draft.empty.addAll (clauses.map (·.mapTable config.fullName)) = .ok draft)
    {query : Query} (hquery : draft.query = .ok query) : ofTokens config tokens = .ok query :=
  ofTokens_eq_ok_iff_readAll.2 ⟨clauses, draft, hread, hdraft, hquery⟩

/-- A list of texts in quotes stands for the texts in their order, however they are spread over
tokens: as the columns of a selection, unless a star is among them, as the values of an
insertion, and as the set of texts that a condition allows. -/
theorem ofTokens_layOut {groups : List (List String)} (h : IsGrouping groups) :
    let elements := groups.map groupElement
    let texts := groups.flatten
    StandsFor elements texts ∧ ∀ (config : Config) (table column : String),
      ("*" ∉ texts → ofTokens config
        ("SELECT".toList :: layOut [] elements ++ ["FROM".toList, quote table]) =
          .ok { kind := .select, table := config.fullName table, columns := .only texts }) ∧
      ofTokens config (["INSERT".toList, "INTO".toList, quote table] ++
        "VALUES".toList :: ['('] :: layOut [')'] elements) =
          .ok { kind := .insert, table := config.fullName table, columns := .only []
                values? := some texts } ∧
      ofTokens config (["DELETE".toList] ++ ["FROM".toList, quote table] ++
        "WHERE".toList :: quote column :: "IN".toList :: ['('] :: layOut [')'] elements) =
          .ok { kind := .delete, table := config.fullName table, columns := .only []
                conditions := [⟨column, .oneOf (.ofList texts)⟩] } := by
  intro elements texts
  have hstands : StandsFor elements texts := h.standsFor
  refine ⟨hstands, fun config table column => ⟨fun hstar => ?_, ?_, ?_⟩⟩
  · have hlist := hstands.columns "SELECT".toList rfl
    have hread : Clause.readAll ("SELECT".toList :: layOut [] elements ++
        ["FROM".toList, quote table]) = ([.select texts, .source table], none) := by
      rw [hlist.readAll_append, (readsAs_source table).readAll]
    refine ofTokens_of_readAll hread rfl ?_
    simp [Draft.query, Draft.conflict?, Draft.selection, Draft.empty, hstar]
  · have hlist := hstands.values "VALUES".toList rfl
    have hread : Clause.readAll (["INSERT".toList, "INTO".toList, quote table] ++
        "VALUES".toList :: ['('] :: layOut [')'] elements) =
          ([.insert table, .values texts], none) := by
      rw [(readsAs_insert table).readAll_append, hlist.readAll]
    exact ofTokens_of_readAll hread rfl rfl
  · have hlist := hstands.oneOf "WHERE".toList (quote column) "IN".toList (.inl rfl) rfl
    have hread : Clause.readAll (["DELETE".toList] ++ ["FROM".toList, quote table] ++
        "WHERE".toList :: quote column :: "IN".toList :: ['('] :: layOut [')'] elements) =
          ([.delete, .source table, .condition ⟨column, .oneOf (.ofList texts)⟩], none) := by
      rw [List.append_assoc, readsAs_delete.readAll_append, (readsAs_source table).readAll_append,
        hlist.readAll, unquote_quote]
    exact ofTokens_of_readAll hread rfl rfl

/-- A token of two texts and a token of three, which are empty, spell a keyword or contain commas,
quotes and parentheses. -/
theorem ofTokens_layOut_of_signs_in_texts :
    let groups := [["a,", "it's"], ["", "FROM", "\")"]]
    let elements := groups.map groupElement
    let texts := ["a,", "it's", "", "FROM", "\")"]
    IsGrouping groups ∧ StandsFor elements texts ∧
      ofTokens {} ("SELECT".toList :: layOut [] elements ++ ["FROM".toList, quote "t"]) =
        .ok { kind := .select, table := "t.csv", columns := .only texts } := by
  intro groups elements texts
  have hgroups : IsGrouping groups := ⟨by decide, by decide, by decide⟩
  obtain ⟨hstands, hqueries⟩ := ofTokens_layOut hgroups
  exact ⟨hgroups, hstands, (hqueries {} "t" "c").1 (by decide)⟩

end Query

end FlatQuery
