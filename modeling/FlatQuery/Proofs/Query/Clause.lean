/-
# Reading written clauses

Every clause that is written out as a segment of tokens is read back from it, whatever tokens
follow.  Lists are the part that takes an induction: a list of quoted texts is read item by
item, and its end is recognized by the last character of a token, which a quoted text shares
with neither a comma nor a parenthesis.
-/
import FlatQuery.Proofs.Token
import FlatQuery.Query.Clause

namespace FlatQuery

variable {texts : List String}

/-! ## Lists -/

/-- The columns of a list are read back up to its end. -/
lemma readColumns_listTokens (hne : texts ≠ []) (h : ∀ text ∈ texts, Quotable text)
    (rest : List Token) :
    Clause.readColumns (listTokens (texts.map quote) ++ rest) = .ok (texts, rest) := by
  induction texts with
  | nil => exact absurd rfl hne
  | cons text texts ih =>
    have htext := h text List.mem_cons_self
    cases texts with
    | nil =>
      change Clause.readColumns (quote text :: rest) = _
      rw [Clause.readColumns, stripLast?_quote not_isQuote_comma]
      simp only [itemTexts_quote htext, bind_ok]
      rfl
    | cons next texts =>
      have hmore := ih (List.cons_ne_nil _ _) fun t ht => h t (List.mem_cons_of_mem text ht)
      change Clause.readColumns ((quote text ++ [',']) ::
        (listTokens ((next :: texts).map quote) ++ rest)) = _
      rw [Clause.readColumns, stripLast?_eq_some_iff.2 rfl]
      simp only [itemTexts_quote htext, hmore, bind_ok]
      rfl

/-- The values of a list are read back up to its closing parenthesis, which may follow the
opening one at once. -/
lemma readValues_closeList {atStart : Bool} (hne : texts = [] → atStart = true)
    (h : ∀ text ∈ texts, Quotable text) (rest : List Token) :
    Clause.readValues atStart (parenthesized.closeList (listTokens (texts.map quote)) ++ rest) =
      .ok (texts, rest) := by
  induction texts generalizing atStart with
  | nil =>
    obtain rfl := hne rfl
    rfl
  | cons text texts ih =>
    have htext := h text List.mem_cons_self
    cases texts with
    | nil =>
      change Clause.readValues atStart ((quote text ++ [')']) :: rest) = _
      rw [Clause.readValues, stripLast?_eq_some_iff.2 rfl]
      simp only [itemTexts_quote htext, bind_ok]
      rfl
    | cons next texts =>
      have hmore : Clause.readValues false (parenthesized.closeList
          (listTokens ((next :: texts).map quote)) ++ rest) = .ok (next :: texts, rest) :=
        ih (by simp) fun t ht => h t (List.mem_cons_of_mem text ht)
      have hlist : parenthesized.closeList (listTokens ((text :: next :: texts).map quote)) =
          (quote text ++ [',']) ::
            parenthesized.closeList (listTokens ((next :: texts).map quote)) := by
        cases texts <;> rfl
      -- the token ends in a comma, so the list goes on behind it
      have hopen : stripLast? ')' (quote text ++ [',']) = none := by
        simp [stripLast?]
      rw [hlist, List.cons_append, Clause.readValues, hopen, stripLast?_eq_some_iff.2 rfl]
      simp only [itemTexts_quote htext, hmore, bind_ok]
      rfl

lemma readParenthesized_parenthesized (construct : Construct)
    (h : ∀ text ∈ texts, Quotable text) (rest : List Token) :
    Clause.readParenthesized construct (parenthesized texts ++ rest) = .ok (texts, rest) :=
  readValues_closeList (fun _ => rfl) h rest

lemma spacedAssignment_quote (column : String) {value : String} (h : Quotable value) :
    Clause.spacedAssignment (quote column) (quote value) = .ok ⟨column, value⟩ := by
  simp only [Clause.spacedAssignment, items_quote h, bind_ok, unquote_quote]
  rfl

/-- Assignments are read back up to the first value without a comma after it. -/
lemma readAssignments_assignmentTokens {assignments : List Assignment} (hne : assignments ≠ [])
    (h : ∀ a ∈ assignments, Quotable a.value) (rest : List Token) :
    Clause.readAssignments (assignmentTokens assignments ++ rest) = .ok (assignments, rest) := by
  induction assignments with
  | nil => exact absurd rfl hne
  | cons a assignments ih =>
    have ha := h a List.mem_cons_self
    cases assignments with
    | nil =>
      have hcomma : Token.dropComma (quote a.value) = (quote a.value, false) := by
        rw [Token.dropComma, stripLast?_quote not_isQuote_comma]
      change Clause.readAssignments (quote a.column :: ['='] :: quote a.value :: rest) = _
      rw [Clause.readAssignments, hcomma, spacedAssignment_quote _ ha]
      rfl
    | cons next assignments =>
      have hmore := ih (List.cons_ne_nil _ _) fun b hb => h b (List.mem_cons_of_mem a hb)
      have hcomma : Token.dropComma (quote a.value ++ [',']) = (quote a.value, true) := by
        rw [Token.dropComma, stripLast?_eq_some_iff.2 rfl]
      change Clause.readAssignments (quote a.column :: ['='] :: (quote a.value ++ [',']) ::
        (assignmentTokens (next :: assignments) ++ rest)) = _
      rw [Clause.readAssignments, hcomma, spacedAssignment_quote _ ha]
      simp only [bind_ok, hmore, if_true]
      rfl

/-! ## Segments

A segment is read as a clause when its first token is the keyword and reading takes up all of
its other tokens, but none of those behind them. -/

/-- The tokens of a segment are read as the given clause. -/
def ReadsAs (segment : List Token) (clause : Clause) : Prop :=
  ∃ keyword tail, segment = keyword :: tail ∧
    ∀ rest, Clause.read keyword (tail ++ rest) = .ok (clause, rest)

lemma readAll_cons {keyword : Token} {tokens rest : List Token} {clause : Clause}
    (h : Clause.read keyword tokens = .ok (clause, rest)) :
    Clause.readAll (keyword :: tokens) =
      (clause :: (Clause.readAll rest).1, (Clause.readAll rest).2) := by
  rw [Clause.readAll]
  split
  · next e he => cases he.symm.trans h
  · next clause' rest' he =>
    cases he.symm.trans h
    rfl

lemma ReadsAs.readAll_append {segment : List Token} {clause : Clause}
    (h : ReadsAs segment clause) (rest : List Token) :
    Clause.readAll (segment ++ rest) =
      (clause :: (Clause.readAll rest).1, (Clause.readAll rest).2) := by
  obtain ⟨keyword, tail, rfl, hread⟩ := h
  exact readAll_cons (hread rest)

/-- Segments in a row are read as their clauses in a row. -/
lemma readAll_flatMap_append {α : Type} {segment : α → List Token} {clause : α → Clause}
    {parts : List α} (h : ∀ part ∈ parts, ReadsAs (segment part) (clause part))
    (rest : List Token) :
    Clause.readAll (parts.flatMap segment ++ rest) =
      (parts.map clause ++ (Clause.readAll rest).1, (Clause.readAll rest).2) := by
  induction parts with
  | nil => rfl
  | cons part parts ih =>
    have hpart := h part List.mem_cons_self
    rw [List.flatMap_cons, List.append_assoc, hpart.readAll_append,
      ih fun p hp => h p (List.mem_cons_of_mem part hp)]
    rfl

/-! ## The clauses -/

lemma readsAs_all : ReadsAs ["SELECT".toList, ['*']] (.select ["*"]) :=
  ⟨_, _, rfl, fun _ => rfl⟩

lemma readsAs_select (hne : texts ≠ []) (h : ∀ text ∈ texts, Quotable text) :
    ReadsAs ("SELECT".toList :: listTokens (texts.map quote)) (.select texts) := by
  refine ⟨_, _, rfl, fun rest => ?_⟩
  change (do return (← Clause.readColumns _).map Clause.select id) = _
  rw [readColumns_listTokens hne h]
  rfl

lemma readsAs_insert (table : String) :
    ReadsAs ["INSERT".toList, "INTO".toList, quote table] (.insert table) := by
  refine ⟨_, _, rfl, fun rest => ?_⟩
  change Except.ok (Clause.insert (Token.unquote (quote table)), rest) = _
  rw [unquote_quote]

lemma readsAs_values (h : ∀ text ∈ texts, Quotable text) :
    ReadsAs ("VALUES".toList :: parenthesized texts) (.values texts) := by
  refine ⟨_, _, rfl, fun rest => ?_⟩
  change (do return (← Clause.readParenthesized .values _).map Clause.values id) = _
  rw [readParenthesized_parenthesized _ h]
  rfl

lemma readsAs_update (table : String) :
    ReadsAs ["UPDATE".toList, quote table] (.update table) := by
  refine ⟨_, _, rfl, fun rest => ?_⟩
  change Except.ok (Clause.update (Token.unquote (quote table)), rest) = _
  rw [unquote_quote]

lemma readsAs_assignments {assignments : List Assignment} (hne : assignments ≠ [])
    (h : ∀ a ∈ assignments, Quotable a.value) :
    ReadsAs ("SET".toList :: assignmentTokens assignments) (.assignments assignments) := by
  refine ⟨_, _, rfl, fun rest => ?_⟩
  change (do return (← Clause.readAssignments _).map Clause.assignments id) = _
  rw [readAssignments_assignmentTokens hne h]
  rfl

lemma readsAs_delete : ReadsAs ["DELETE".toList] .delete :=
  ⟨_, _, rfl, fun _ => rfl⟩

lemma readsAs_source (table : String) : ReadsAs ["FROM".toList, quote table] (.source table) := by
  refine ⟨_, _, rfl, fun rest => ?_⟩
  change Except.ok (Clause.source (Token.unquote (quote table)), rest) = _
  rw [unquote_quote]

lemma readsAs_join (join : Join) : ReadsAs join.tokens (.join join) := by
  refine ⟨_, _, rfl, fun rest => ?_⟩
  change Except.ok (Clause.join ⟨Token.unquote (quote join.leftColumn),
    Token.unquote (quote join.table), Token.unquote (quote join.rightColumn)⟩, rest) = _
  rw [unquote_quote, unquote_quote, unquote_quote]

/-- A set of texts is read back from its texts in any order. -/
lemma ofList_toList (texts : TextSet) : Std.ExtTreeSet.ofList texts.toList = texts := by
  ext text
  rw [Std.ExtTreeSet.mem_ofList, List.contains_iff_mem, Std.ExtTreeSet.mem_toList]

lemma readCondition_oneOf (column : String) (texts : TextSet)
    (h : ∀ text ∈ texts.toList, Quotable text) (rest : List Token) :
    Clause.readCondition (quote column :: "IN".toList :: (parenthesized texts.toList ++ rest)) =
      .ok (⟨column, .oneOf texts⟩, rest) := by
  change (Clause.readParenthesized .condition (parenthesized texts.toList ++ rest) >>= fun read =>
    .ok ((⟨Token.unquote (quote column), .oneOf (.ofList read.1)⟩ : Condition), read.2)) = _
  rw [readParenthesized_parenthesized _ h, unquote_quote, bind_ok]
  change Except.ok ((⟨column, .oneOf (.ofList texts.toList)⟩ : Condition), rest) = _
  rw [ofList_toList]

lemma readsAs_condition (condition : Condition)
    (h : ∀ texts, condition.criterion = .oneOf texts → ∀ text ∈ texts.toList, Quotable text) :
    ReadsAs condition.tokens (.condition condition) := by
  obtain ⟨column, criterion⟩ := condition
  refine ⟨_, _, rfl, fun rest => ?_⟩
  cases criterion with
  | equals text =>
    change Except.ok (Clause.condition ⟨Token.unquote (quote column),
      .equals (Token.unquote (quote text))⟩, rest) = _
    rw [unquote_quote, unquote_quote]
  | oneOf texts =>
    change (do return (← Clause.readCondition (quote column :: "IN".toList ::
      (parenthesized texts.toList ++ rest))).map Clause.condition id) = _
    rw [readCondition_oneOf column texts (h texts rfl)]
    rfl

lemma readsAs_order (key : SortKey) : ReadsAs key.tokens (.order key) := by
  obtain ⟨column, direction⟩ := key
  refine ⟨_, _, rfl, fun rest => ?_⟩
  cases direction <;>
  · change Except.ok (Clause.order ⟨Token.unquote (quote column), _⟩, rest) = _
    rw [unquote_quote]

end FlatQuery
