/-
# The grammar of queries

A query is a row of clauses, and this file says what a clause looks like as a segment of tokens,
without saying how it is read.  The form of a segment settles the clause that it stands for.
Two forms depend on the token behind: a sort key without a direction must not be followed by
one, and an assignment packed into a token must not be followed by a lone `=`.  No keyword is
such a token, so that it does not matter which clause follows (`Clause.Form.before_keyword`).
-/
import FlatQuery.Proofs.Token
import FlatQuery.Proofs.Token.Word
import FlatQuery.Query.Clause

namespace FlatQuery

/-! ## Lists -/

/-- A fragment of a list holds the texts of its items, of which there is at least one. -/
def Token.Holds (fragment : Token) (texts : List String) : Prop :=
  fragment ≠ [] ∧ ∃ items, fragment.items = .ok items ∧ texts = items.map Token.unquote

/-- Tokens that spell a list: each but the last is a fragment with a comma behind it, and the
last is a fragment with the given ending and does not end in a comma. -/
inductive Spells (ending : List Char) : List Token → List String → Prop
  | last {fragment : Token} {texts : List String} (h : fragment.Holds texts)
      (hlast : (fragment ++ ending).getLast? ≠ some ',') :
      Spells ending [fragment ++ ending] texts
  | more {fragment : Token} {texts others : List String} {tokens : List Token}
      (h : fragment.Holds texts) (hmore : Spells ending tokens others) :
      Spells ending ((fragment ++ [',']) :: tokens) (texts ++ others)

/-- Tokens that spell a list in parentheses.  Only this list may be empty. -/
inductive SpellsInParens : List Token → List String → Prop
  | empty : SpellsInParens [['('], [')']] []
  | items {tokens : List Token} {texts : List String} (h : Spells [')'] tokens texts) :
      SpellsInParens (['('] :: tokens) texts

/-! ## Assignments -/

/-- An item that packs an assignment: a column and a value with the first `=` between them. -/
inductive Packs : Token → Assignment → Prop
  | mk {column value : Token} (hcolumn : column ≠ []) (hfirst : '=' ∉ column)
      (hvalue : value ≠ []) :
      Packs (column ++ '=' :: value) ⟨column.unquote, value.unquote⟩

/-- The assignments of one element after `SET`.  The element is given as its last token, less
the comma that may end it, and the tokens before; and the token behind it is given as well. -/
inductive Assigns (next? : Option Token) : List Token → Token → List Assignment → Prop
  | spaced {column value item : Token} (h : value.items = .ok [item]) :
      Assigns next? [column, ['=']] value [⟨column.unquote, item.unquote⟩]
  | packed {token : Token} {items : List Token} {assignments : List Assignment}
      (hnext : next? ≠ some ['=']) (hitems : token.items = .ok items)
      (h : List.Forall₂ Packs items assignments) : Assigns next? [] token assignments

/-- Tokens that spell the assignments after `SET`, when the given tokens follow: the last token
of each element but the last ends in a comma. -/
inductive SpellsAssignments : List Token → List Assignment → List Token → Prop
  | last {tokens following : List Token} {token : Token} {assignments : List Assignment}
      (h : Assigns following.head? tokens token assignments) (hlast : token.getLast? ≠ some ',') :
      SpellsAssignments (tokens ++ [token]) assignments following
  | more {tokens others following : List Token} {token : Token}
      {assignments more : List Assignment} (h : Assigns others.head? tokens token assignments)
      (hmore : SpellsAssignments others more following) :
      SpellsAssignments (tokens ++ (token ++ [',']) :: others) (assignments ++ more) following

lemma SpellsAssignments.ne_nil {tokens following : List Token} {assignments : List Assignment}
    (h : SpellsAssignments tokens assignments following) : tokens ≠ [] := by
  cases h <;> simp

/-! ## Clauses -/

namespace Clause

/-- The form of a clause: a segment of tokens that stands for the clause when the given tokens
follow.  Keywords may be written in any case. -/
inductive Form : List Token → Clause → List Token → Prop
  | select {keyword : Token} {tokens following : List Token} {columns : List String}
      (hkeyword : keyword.Says "SELECT") (h : Spells [] tokens columns) :
      Form (keyword :: tokens) (.select columns) following
  | insert {keyword into table : Token} {following : List Token}
      (hkeyword : keyword.Says "INSERT") (hinto : into.Says "INTO") :
      Form [keyword, into, table] (.insert table.unquote) following
  | update {keyword table : Token} {following : List Token} (hkeyword : keyword.Says "UPDATE") :
      Form [keyword, table] (.update table.unquote) following
  | delete {keyword : Token} {following : List Token} (hkeyword : keyword.Says "DELETE") :
      Form [keyword] .delete following
  | source {keyword table : Token} {following : List Token} (hkeyword : keyword.Says "FROM") :
      Form [keyword, table] (.source table.unquote) following
  | join {keyword table on left right : Token} {following : List Token}
      (hkeyword : keyword.Says "JOIN") (hon : on.Says "ON") :
      Form [keyword, table, on, left, ['='], right]
        (.join ⟨left.unquote, table.unquote, right.unquote⟩) following
  | equals {keyword column value : Token} {following : List Token}
      (hkeyword : keyword.Says "WHERE" ∨ keyword.Says "AND") :
      Form [keyword, column, ['='], value]
        (.condition ⟨column.unquote, .equals value.unquote⟩) following
  | oneOf {keyword column operator : Token} {tokens following : List Token} {texts : List String}
      (hkeyword : keyword.Says "WHERE" ∨ keyword.Says "AND") (hoperator : operator.Says "IN")
      (h : SpellsInParens tokens texts) :
      Form (keyword :: column :: operator :: tokens)
        (.condition ⟨column.unquote, .oneOf (.ofList texts)⟩) following
  | order {keyword second column : Token} {following : List Token}
      (hkeyword : keyword.Says "ORDER") (hby : second.Says "BY")
      (hnext : ∀ next ∈ following.head?, ∀ direction : Direction, ¬direction.IsSaid next) :
      Form [keyword, second, column] (.order ⟨column.unquote, .ascending⟩) following
  | orderTowards {keyword second column last : Token} {direction : Direction}
      {following : List Token} (hkeyword : keyword.Says "ORDER") (hby : second.Says "BY")
      (hlast : direction.IsSaid last) :
      Form [keyword, second, column, last] (.order ⟨column.unquote, direction⟩) following
  | values {keyword : Token} {tokens following : List Token} {texts : List String}
      (hkeyword : keyword.Says "VALUES") (h : SpellsInParens tokens texts) :
      Form (keyword :: tokens) (.values texts) following
  | assignments {keyword : Token} {tokens following : List Token} {assignments : List Assignment}
      (hkeyword : keyword.Says "SET") (h : SpellsAssignments tokens assignments following) :
      Form (keyword :: tokens) (.assignments assignments) following

/-- A way to cut tokens into segments that have the form of clauses, with the clauses. -/
inductive Cut : List Token → List (List Token × Clause) → Prop
  | nil : Cut [] []
  | cons {segment rest : List Token} {clause : Clause} {cut : List (List Token × Clause)}
      (h : clause.Form segment rest) (hrest : Cut rest cut) :
      Cut (segment ++ rest) ((segment, clause) :: cut)

end Clause

/-! ## What may follow a clause -/

/-- The words with which clauses begin. -/
def keywords : List String :=
  ["SELECT", "INSERT", "UPDATE", "DELETE", "FROM", "JOIN", "WHERE", "AND", "ORDER", "VALUES",
    "SET"]

/-- A token is a keyword when it is the word with which a clause begins, in any case. -/
def Token.IsKeyword (token : Token) : Prop :=
  token.word ∈ keywords

lemma Token.Says.isKeyword {token : Token} {word : String} (h : token.Says word)
    (hword : word ∈ keywords := by decide) : token.IsKeyword := by
  have hcapital : ∀ word ∈ keywords, IsCapital word := by decide
  rwa [Token.IsKeyword, h.word_eq (hcapital word hword)]

lemma Token.IsKeyword.not_isQuote {token : Token} (h : token.IsKeyword) :
    ∀ c ∈ token, ¬isQuote c := by
  have hfree : ∀ word ∈ keywords, word.toList.all (!isQuote ·) := by decide
  exact Token.not_isQuote_of_word (hfree _ h)

/-- No keyword is a direction, with quotes or without. -/
lemma Token.IsKeyword.not_isSaid {token : Token} (h : token.IsKeyword) :
    ∀ direction : Direction, ¬direction.IsSaid token := by
  have hword : ∀ word ∈ keywords, word ≠ "ASC" ∧ word ≠ "DESC" := by decide
  obtain ⟨hasc, hdesc⟩ := hword _ h
  rw [← Direction.ofToken?_bare_eq_none_iff, Token.bare_of_not_isQuote h.not_isQuote,
    Direction.ofToken?]
  split
  · next heq => exact absurd heq hasc
  · next heq => exact absurd heq hdesc
  · rfl

lemma Token.IsKeyword.ne_equals {token : Token} (h : token.IsKeyword) : token ≠ ['='] := by
  rintro rfl
  exact absurd h (by unfold Token.IsKeyword; decide)

/-- Assignments are spelled in the same way before a keyword as at the end. -/
lemma SpellsAssignments.before_keyword {tokens following : List Token}
    {assignments : List Assignment} (h : SpellsAssignments tokens assignments [])
    (hnext : ∀ next ∈ following.head?, next.IsKeyword) :
    SpellsAssignments tokens assignments following := by
  generalize hend : ([] : List Token) = rest at h
  induction h with
  | last h hlast =>
    cases h with
    | spaced h => exact .last (.spaced h) hlast
    | packed _ hitems h =>
      exact .last (.packed (fun heq => (hnext _ heq).ne_equals rfl) hitems h) hlast
  | more h _ ih => exact .more h (ih hend)

/-- A segment has the form of a clause before a keyword when it has it at the end. -/
lemma Clause.Form.before_keyword {segment following : List Token} {clause : Clause}
    (h : clause.Form segment []) (hnext : ∀ next ∈ following.head?, next.IsKeyword) :
    clause.Form segment following := by
  cases h with
  | select hkeyword h => exact .select hkeyword h
  | insert hkeyword hinto => exact .insert hkeyword hinto
  | update hkeyword => exact .update hkeyword
  | delete hkeyword => exact .delete hkeyword
  | source hkeyword => exact .source hkeyword
  | join hkeyword hon => exact .join hkeyword hon
  | equals hkeyword => exact .equals hkeyword
  | oneOf hkeyword hoperator h => exact .oneOf hkeyword hoperator h
  | order hkeyword hsecond _ =>
    exact .order hkeyword hsecond fun next h => (hnext next h).not_isSaid
  | orderTowards hkeyword hsecond hlast => exact .orderTowards hkeyword hsecond hlast
  | values hkeyword h => exact .values hkeyword h
  | assignments hkeyword h => exact .assignments hkeyword (h.before_keyword hnext)

/-- A clause begins with a keyword. -/
lemma Clause.Form.exists_keyword {segment following : List Token} {clause : Clause}
    (h : clause.Form segment following) :
    ∃ keyword tail, segment = keyword :: tail ∧ keyword.IsKeyword := by
  cases h with
  | equals hkeyword | oneOf hkeyword =>
    refine ⟨_, _, rfl, ?_⟩
    rcases hkeyword with hkeyword | hkeyword
    · exact hkeyword.isKeyword
    · exact hkeyword.isKeyword
  | select hkeyword | insert hkeyword | update hkeyword | delete hkeyword | source hkeyword
  | join hkeyword | order hkeyword | orderTowards hkeyword | values hkeyword
  | assignments hkeyword => exact ⟨_, _, rfl, hkeyword.isKeyword⟩

end FlatQuery
