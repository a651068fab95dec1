/-
# What the reader accepts

Reading answers with a query exactly when the tokens can be cut into segments in the form of
clauses that make up the query, and there is only one way to cut them
(`Query.ofTokens_eq_ok_iff`).  The way there is one lemma for each reader: it succeeds exactly
when a segment in the form that it looks for stands at the front, and leaves the rest over.
-/
import FlatQuery.Proofs.Query.Clause
import FlatQuery.Proofs.Query.Grammar
import FlatQuery.Query.Reading
import Mathlib.Data.List.TakeWhile

namespace FlatQuery

variable {tokens segment rest : List Token} {texts : List String}
  {assignments : List Assignment} {clause : Clause}

/-! ## Lists -/

/-- The texts of a fragment are those that it holds.  None are there only where it is allowed. -/
lemma itemTexts_eq_ok_iff {emptyAllowed : Bool} {fragment : Token} :
    fragment.itemTexts emptyAllowed = .ok texts ↔
      fragment.Holds texts ∨ emptyAllowed = true ∧ fragment = [] ∧ texts = [] := by
  cases fragment with
  | nil =>
    cases emptyAllowed with
    | false => simp [Token.itemTexts, Token.Holds]
    | true =>
      change Except.ok [] = Except.ok texts ↔ _
      simp [Token.Holds, eq_comm]
  | cons c cs =>
    change (Token.items (c :: cs) >>= fun items => .ok (items.map Token.unquote)) = _ ↔ _
    rw [bind_eq_ok_iff]
    simp [Token.Holds, eq_comm]

lemma itemTexts_false_eq_ok_iff {fragment : Token} :
    fragment.itemTexts false = .ok texts ↔ fragment.Holds texts := by
  simp [itemTexts_eq_ok_iff]

lemma Token.Holds.itemTexts {fragment : Token} (h : fragment.Holds texts) (emptyAllowed : Bool) :
    fragment.itemTexts emptyAllowed = .ok texts :=
  itemTexts_eq_ok_iff.2 (.inl h)

lemma stripLast?_eq_none_iff {c : Char} {token : Token} :
    stripLast? c token = none ↔ token.getLast? ≠ some c := by
  simp [stripLast?]

lemma readColumns_eq_ok_iff :
    Clause.readColumns tokens = .ok (texts, rest) ↔
      ∃ segment, tokens = segment ++ rest ∧ Spells [] segment texts := by
  constructor
  · intro h
    fun_induction Clause.readColumns tokens generalizing texts with
    | case1 => cases h
    | case2 token tail hlast =>
      obtain ⟨columns, hcolumns, h⟩ := bind_eq_ok_iff.1 h
      cases h
      have hend : (token ++ []).getLast? ≠ some ',' := by
        rwa [List.append_nil, ← stripLast?_eq_none_iff]
      have hspells := Spells.last (itemTexts_false_eq_ok_iff.1 hcolumns) hend
      rw [List.append_nil] at hspells
      exact ⟨[token], rfl, hspells⟩
    | case3 token tail fragment hcomma ih =>
      obtain ⟨columns, hcolumns, h⟩ := bind_eq_ok_iff.1 h
      obtain ⟨⟨more, rest'⟩, hmore, h⟩ := bind_eq_ok_iff.1 h
      cases h
      obtain ⟨segment, rfl, hsegment⟩ := ih hmore
      obtain rfl := stripLast?_eq_some_iff.1 hcomma
      exact ⟨_ :: segment, rfl, .more (itemTexts_false_eq_ok_iff.1 hcolumns) hsegment⟩
  · rintro ⟨segment, rfl, h⟩
    induction h with
    | @last fragment texts h hlast =>
      rw [List.singleton_append, Clause.readColumns, stripLast?_eq_none_iff.2 hlast,
        List.append_nil]
      simp only [h.itemTexts]
      rfl
    | @more fragment texts others tokens h hmore ih =>
      rw [List.cons_append, Clause.readColumns, stripLast?_eq_some_iff.2 rfl]
      simp only [h.itemTexts, ih, bind_ok]
      rfl

lemma readValues_eq_ok_iff {atStart : Bool} :
    Clause.readValues atStart tokens = .ok (texts, rest) ↔
      ∃ segment, tokens = segment ++ rest ∧ (Spells [')'] segment texts ∨
        atStart = true ∧ segment = [[')']] ∧ texts = []) := by
  constructor
  · intro h
    fun_induction Clause.readValues atStart tokens generalizing texts with
    | case1 => cases h
    | case2 atStart token tail fragment hclosed =>
      obtain ⟨values, hvalues, h⟩ := bind_eq_ok_iff.1 h
      cases h
      obtain rfl := stripLast?_eq_some_iff.1 hclosed
      refine ⟨[fragment ++ [')']], rfl, ?_⟩
      rcases itemTexts_eq_ok_iff.1 hvalues with hholds | ⟨hstart, rfl, rfl⟩
      · exact .inl (.last hholds (by simp))
      · exact .inr ⟨hstart, rfl, rfl⟩
    | case3 atStart token tail fragment hcomma _ ih =>
      obtain ⟨values, hvalues, h⟩ := bind_eq_ok_iff.1 h
      obtain ⟨⟨more, rest'⟩, hmore, h⟩ := bind_eq_ok_iff.1 h
      cases h
      obtain ⟨segment, rfl, hsegment | ⟨hstart, -⟩⟩ := ih hmore
      · obtain rfl := stripLast?_eq_some_iff.1 hcomma
        exact ⟨_ :: segment, rfl, .inl (.more (itemTexts_false_eq_ok_iff.1 hvalues) hsegment)⟩
      · cases hstart
    | case4 => cases h
  · rintro ⟨segment, rfl, h | ⟨rfl, rfl, rfl⟩⟩
    · induction h generalizing atStart with
      | @last fragment texts h hlast =>
        rw [List.singleton_append, Clause.readValues, stripLast?_eq_some_iff.2 rfl]
        simp only [h.itemTexts]
        rfl
      | @more fragment texts others tokens h hmore ih =>
        -- the token ends in a comma, so the list goes on behind it
        have hopen : stripLast? ')' (fragment ++ [',']) = none := by
          simp [stripLast?]
        rw [List.cons_append, Clause.readValues, hopen, stripLast?_eq_some_iff.2 rfl]
        simp only [h.itemTexts, ih, bind_ok]
        rfl
    · rfl

lemma readParenthesized_eq_ok_iff {construct : Construct} :
    Clause.readParenthesized construct tokens = .ok (texts, rest) ↔
      ∃ segment, tokens = segment ++ rest ∧ SpellsInParens segment texts := by
  constructor
  · intro h
    unfold Clause.readParenthesized at h
    split at h
    · obtain ⟨segment, rfl, hspells | ⟨-, rfl, rfl⟩⟩ := readValues_eq_ok_iff.1 h
      · exact ⟨_, rfl, .items hspells⟩
      · exact ⟨_, rfl, .empty⟩
    · cases h
  · rintro ⟨segment, rfl, h⟩
    cases h with
    | empty => rfl
    | items h => exact readValues_eq_ok_iff.2 ⟨_, rfl, .inl h⟩

/-! ## Assignments -/

lemma packedAssignment_append {column : Token} (h : '=' ∉ column) (value : Token) :
    Clause.packedAssignment (column ++ '=' :: value) =
      if column.isEmpty || value.isEmpty then .error (.malformed .assignmentShape)
      else .ok ⟨column.unquote, value.unquote⟩ := by
  have hcolumn : ∀ c ∈ column, (c != '=') = true := fun c hc =>
    bne_iff_ne.2 fun heq => h (heq ▸ hc)
  have htake : (column ++ '=' :: value).takeWhile (· != '=') = column := by
    simp [List.takeWhile_append_of_pos hcolumn]
  have hdrop : (column ++ '=' :: value).dropWhile (· != '=') = '=' :: value := by
    simp [List.dropWhile_append_of_pos hcolumn]
  rw [Clause.packedAssignment, htake, hdrop]
  rfl

lemma packedAssignment_eq_ok_iff {item : Token} {assignment : Assignment} :
    Clause.packedAssignment item = .ok assignment ↔ Packs item assignment := by
  constructor
  · intro h
    by_cases hmem : '=' ∈ item
    · obtain ⟨column, value, rfl, hfirst⟩ := List.eq_append_cons_of_mem hmem
      rw [packedAssignment_append hfirst] at h
      split at h
      · cases h
      · next hne =>
        cases h
        obtain ⟨hcolumn, hvalue⟩ : column ≠ [] ∧ value ≠ [] := by simpa using hne
        exact .mk hcolumn hfirst hvalue
    · have hdrop : item.dropWhile (· != '=') = [] :=
        List.dropWhile_eq_nil_iff.2 fun c hc => bne_iff_ne.2 fun heq => hmem (heq ▸ hc)
      simp [Clause.packedAssignment, hdrop] at h
  · intro h
    cases h with
    | @mk column value hcolumn hfirst hvalue =>
      rw [packedAssignment_append hfirst, if_neg (by simp [hcolumn, hvalue])]

/-- A list of actions succeeds when each of them does. -/
lemma mapM_eq_ok_iff {ε α β : Type} {f : α → Except ε β} {xs : List α} {ys : List β} :
    xs.mapM f = .ok ys ↔ List.Forall₂ (fun x y => f x = .ok y) xs ys := by
  induction xs generalizing ys with
  | nil =>
    change Except.ok [] = Except.ok ys ↔ _
    simp [eq_comm]
  | cons x xs ih =>
    rw [List.mapM_cons, bind_eq_ok_iff, List.forall₂_cons_left_iff]
    refine exists_congr fun y => ?_
    rw [bind_eq_ok_iff]
    constructor
    · rintro ⟨hy, ys', hys, h⟩
      cases h
      exact ⟨ys', hy, ih.1 hys, rfl⟩
    · rintro ⟨ys', hy, hys, rfl⟩
      exact ⟨hy, ys', ih.2 hys, rfl⟩

lemma mapM_packedAssignment_eq_ok_iff {items : List Token} :
    items.mapM Clause.packedAssignment = .ok assignments ↔
      List.Forall₂ Packs items assignments := by
  simp only [mapM_eq_ok_iff, packedAssignment_eq_ok_iff]

lemma spacedAssignment_eq_ok_iff {column value : Token} {assignment : Assignment} :
    Clause.spacedAssignment column value = .ok assignment ↔
      ∃ item, value.items = .ok [item] ∧ assignment = ⟨column.unquote, item.unquote⟩ := by
  rw [Clause.spacedAssignment, bind_eq_ok_iff]
  constructor
  · rintro ⟨items, hitems, h⟩
    split at h
    · next item => exact ⟨item, hitems, by cases h; rfl⟩
    · cases h
  · rintro ⟨item, hitems, rfl⟩
    exact ⟨[item], hitems, rfl⟩

lemma dropComma_append_comma (token : Token) :
    Token.dropComma (token ++ [',']) = (token, true) := by
  rw [Token.dropComma, stripLast?_eq_some_iff.2 rfl]

lemma dropComma_of_getLast? {token : Token} (h : token.getLast? ≠ some ',') :
    token.dropComma = (token, false) := by
  rw [Token.dropComma, stripLast?, if_neg h]

/-- A token either ends in a comma, which is dropped, or stays as it is. -/
lemma exists_dropComma (token : Token) :
    (∃ head, token = head ++ [','] ∧ token.dropComma = (head, true)) ∨
      token.getLast? ≠ some ',' ∧ token.dropComma = (token, false) := by
  by_cases h : token.getLast? = some ','
  · obtain ⟨head, rfl⟩ := List.getLast?_eq_some_iff.1 h
    exact .inl ⟨head, rfl, dropComma_append_comma head⟩
  · exact .inr ⟨h, dropComma_of_getLast? h⟩

/-- An assignment is packed into its token when no lone `=` comes next. -/
lemma readAssignments_of_head? {token : Token} {tail : List Token} (h : tail.head? ≠ some ['=']) :
    Clause.readAssignments (token :: tail) = (do
      let assignments ← (← token.dropComma.1.items).mapM Clause.packedAssignment
      if token.dropComma.2 then
        let (more, rest) ← Clause.readAssignments tail
        return (assignments ++ more, rest)
      else return (assignments, tail)) := by
  rw [Clause.readAssignments]
  · rintro rfl
    exact h rfl
  · rintro value tail rfl
    exact h rfl

lemma spellsAssignments_of_readAssignments
    (h : Clause.readAssignments tokens = .ok (assignments, rest)) :
    ∃ segment, tokens = segment ++ rest ∧ SpellsAssignments segment assignments rest := by
  fun_induction Clause.readAssignments tokens generalizing assignments with
  | case1 => cases h
  | case2 => cases h
  | case3 column value tail ih =>
    obtain ⟨first, hfirst, h⟩ := bind_eq_ok_iff.1 h
    obtain ⟨item, hitem, rfl⟩ := spacedAssignment_eq_ok_iff.1 hfirst
    obtain ⟨head, rfl, hcomma⟩ | ⟨hlast, hcomma⟩ := exists_dropComma value
    · rw [hcomma] at hitem h
      obtain ⟨⟨more, rest'⟩, hmore, h⟩ := bind_eq_ok_iff.1 h
      cases h
      obtain ⟨segment, rfl, hsegment⟩ := ih hmore
      exact ⟨[column, ['=']] ++ (head ++ [',']) :: segment, rfl, .more (.spaced hitem) hsegment⟩
    · rw [hcomma] at hitem h
      cases h
      exact ⟨[column, ['=']] ++ [value], rfl, .last (.spaced hitem) hlast⟩
  | case4 token tail hsingle hspaced ih =>
    obtain ⟨items, hitems, h⟩ := bind_eq_ok_iff.1 h
    obtain ⟨packed, hpacked, h⟩ := bind_eq_ok_iff.1 h
    rw [mapM_packedAssignment_eq_ok_iff] at hpacked
    have hnext : tail.head? ≠ some ['='] := by
      intro hhead
      obtain ⟨tail', rfl⟩ := List.head?_eq_some_iff.1 hhead
      cases tail' with
      | nil => exact hsingle rfl
      | cons value tail => exact hspaced value tail rfl
    obtain ⟨head, rfl, hcomma⟩ | ⟨hlast, hcomma⟩ := exists_dropComma token
    · rw [hcomma] at hitems h
      obtain ⟨⟨more, rest'⟩, hmore, h⟩ := bind_eq_ok_iff.1 h
      cases h
      obtain ⟨segment, rfl, hsegment⟩ := ih hmore
      rw [List.head?_append_of_ne_nil _ hsegment.ne_nil] at hnext
      exact ⟨[] ++ (head ++ [',']) :: segment, rfl, .more (.packed hnext hitems hpacked) hsegment⟩
    · rw [hcomma] at hitems h
      cases h
      exact ⟨[] ++ [token], rfl, .last (.packed hnext hitems hpacked) hlast⟩

lemma SpellsAssignments.readAssignments_append
    (h : SpellsAssignments segment assignments rest) :
    Clause.readAssignments (segment ++ rest) = .ok (assignments, rest) := by
  induction h with
  | @last tokens following token assignments h hlast =>
    have hcomma := dropComma_of_getLast? hlast
    cases h with
    | @spaced column value item h =>
      change Clause.readAssignments (column :: ['='] :: token :: following) = _
      rw [Clause.readAssignments, hcomma, spacedAssignment_eq_ok_iff.2 ⟨item, h, rfl⟩]
      rfl
    | @packed token items assignments hnext hitems h =>
      rw [List.nil_append, List.singleton_append, readAssignments_of_head? hnext, hcomma]
      simp only [hitems, mapM_packedAssignment_eq_ok_iff.2 h, bind_ok]
      rfl
  | @more tokens others following token assignments more h hmore ih =>
    have hcomma := dropComma_append_comma token
    cases h with
    | @spaced column value item h =>
      change Clause.readAssignments
        (column :: ['='] :: (token ++ [',']) :: (others ++ following)) = _
      rw [Clause.readAssignments, hcomma, spacedAssignment_eq_ok_iff.2 ⟨item, h, rfl⟩, bind_ok]
      simp only [ih, bind_ok, if_true]
      rfl
    | @packed token items assignments hnext hitems h =>
      have hnext' : (others ++ following).head? ≠ some ['='] := by
        rwa [List.head?_append_of_ne_nil _ hmore.ne_nil]
      rw [List.nil_append, List.cons_append, readAssignments_of_head? hnext', hcomma]
      simp only [hitems, mapM_packedAssignment_eq_ok_iff.2 h, bind_ok, ih, if_true]
      rfl

/-! ## The clauses -/

lemma word_eq_equals_iff {token : Token} : token.word = "=" ↔ token = ['='] := by
  rw [← Token.says_iff (by decide)]
  change List.Forall₂ EitherCase token ['='] ↔ _
  constructor
  · intro h
    obtain ⟨c, rest, hc, hrest, rfl⟩ := List.forall₂_cons_right_iff.1 h
    obtain rfl := List.forall₂_nil_right_iff.1 hrest
    -- the sign is no capital letter, so nothing else stands for it
    rcases hc with rfl | ⟨hle, -⟩
    · rfl
    · exact absurd hle (by decide)
  · rintro rfl
    decide

lemma readTable_eq_ok_iff {words table : String} :
    Clause.readTable words tokens = .ok (table, rest) ↔
      ∃ name : Token, tokens = name :: rest ∧ table = name.unquote := by
  cases tokens with
  | nil => simp [Clause.readTable]
  | cons name tail => simp [Clause.readTable, eq_comm, and_comm]

lemma readInsert_eq_ok_iff {table : String} :
    Clause.readInsert tokens = .ok (table, rest) ↔
      ∃ into name : Token, tokens = into :: name :: rest ∧ into.word = "INTO" ∧
        table = name.unquote := by
  cases tokens with
  | nil => simp [Clause.readInsert]
  | cons into tail =>
    by_cases hinto : into.word = "INTO"
    · simp [Clause.readInsert, hinto, readTable_eq_ok_iff]
    · simp [Clause.readInsert, hinto]

lemma readJoin_eq_ok_iff {join : Join} :
    Clause.readJoin tokens = .ok (join, rest) ↔
      ∃ table on left right : Token, tokens = table :: on :: left :: ['='] :: right :: rest ∧
        on.word = "ON" ∧ join = ⟨left.unquote, table.unquote, right.unquote⟩ := by
  constructor
  · intro h
    unfold Clause.readJoin at h
    split at h
    · next table on left right tail =>
      split at h
      · next hon =>
        cases h
        exact ⟨table, on, left, right, rfl, hon, rfl⟩
      · cases h
    · cases h
  · rintro ⟨table, on, left, right, rfl, hon, rfl⟩
    simp [Clause.readJoin, hon]

lemma readCondition_equals (column value : Token) (rest : List Token) :
    Clause.readCondition (column :: ['='] :: value :: rest) =
      .ok (⟨column.unquote, .equals value.unquote⟩, rest) :=
  rfl

lemma readCondition_in {operator : Token} (hoperator : operator.word = "IN") (column : Token)
    (rest : List Token) :
    Clause.readCondition (column :: operator :: rest) = (do
      let (texts, rest) ← Clause.readParenthesized .condition rest
      return (⟨column.unquote, .oneOf (.ofList texts)⟩, rest)) := by
  simp only [Clause.readCondition, hoperator]

lemma readOrder_of_no_direction {second : Token} (hsecond : second.word = "BY") (column : Token)
    {rest : List Token}
    (hnext : ∀ next ∈ rest.head?, ∀ direction : Direction, ¬direction.IsSaid next) :
    Clause.readOrder (second :: column :: rest) = .ok (⟨column.unquote, .ascending⟩, rest) := by
  cases rest with
  | nil => simp only [Clause.readOrder, hsecond, if_true]
  | cons next rest =>
    have hnone := Direction.ofToken?_bare_eq_none_iff.2 (hnext next rfl)
    simp only [Clause.readOrder, hsecond, if_true, hnone]

lemma readOrder_of_direction {second last : Token} {direction : Direction}
    (hsecond : second.word = "BY") (column : Token) (hlast : direction.IsSaid last)
    (rest : List Token) :
    Clause.readOrder (second :: column :: last :: rest) =
      .ok (⟨column.unquote, direction⟩, rest) := by
  have hsome := Direction.ofToken?_bare_eq_some_iff.2 hlast
  simp only [Clause.readOrder, hsecond, if_true, hsome]

/-- The reader of a clause makes the clause out of what stands after its keyword. -/
lemma map_read_eq_ok_iff {α : Type} {x : Except SyntaxError (WithRest α)} {f : α → Clause} :
    (do return (← x).map f id) = Except.ok (clause, rest) ↔
      ∃ a, x = .ok (a, rest) ∧ clause = f a := by
  change (x >>= fun read => .ok (read.map f id)) = _ ↔ _
  rw [bind_eq_ok_iff]
  constructor
  · rintro ⟨⟨a, rest'⟩, ha, h⟩
    cases h
    exact ⟨a, ha, rfl⟩
  · rintro ⟨a, ha, rfl⟩
    exact ⟨(a, rest), ha, rfl⟩

lemma form_of_readCondition {keyword : Token} {condition : Condition}
    (hkeyword : keyword.Says "WHERE" ∨ keyword.Says "AND")
    (h : Clause.readCondition tokens = .ok (condition, rest)) :
    ∃ segment, tokens = segment ++ rest ∧
      (Clause.condition condition).Form (keyword :: segment) rest := by
  unfold Clause.readCondition at h
  split at h
  · next column operator tail =>
    split at h
    · next hoperator =>
      obtain rfl := word_eq_equals_iff.1 hoperator
      split at h
      · cases h
      · next value tail =>
        cases h
        exact ⟨[column, ['='], value], rfl, .equals hkeyword⟩
    · next hoperator =>
      obtain ⟨⟨texts, rest'⟩, hread, h⟩ := bind_eq_ok_iff.1 h
      cases h
      obtain ⟨segment, rfl, hsegment⟩ := readParenthesized_eq_ok_iff.1 hread
      exact ⟨column :: operator :: segment, rfl, .oneOf hkeyword (Token.says_of_word hoperator) hsegment⟩
    · cases h
  · cases h

lemma form_of_readOrder {keyword : Token} {key : SortKey}
    (hkeyword : keyword.Says "ORDER") (h : Clause.readOrder tokens = .ok (key, rest)) :
    ∃ segment, tokens = segment ++ rest ∧
      (Clause.order key).Form (keyword :: segment) rest := by
  unfold Clause.readOrder at h
  split at h
  · cases h
  · next second tail =>
    split at h
    · next hsecond =>
      have hby : second.Says "BY" := Token.says_of_word hsecond
      split at h
      · cases h
      · next column =>
        cases h
        exact ⟨[second, column], rfl, .order hkeyword hby (by simp)⟩
      · next column next tail =>
        split at h
        · next direction hdirection =>
          cases h
          exact ⟨[second, column, next], rfl,
            .orderTowards hkeyword hby (Direction.ofToken?_bare_eq_some_iff.1 hdirection)⟩
        · next hdirection =>
          cases h
          refine ⟨[second, column], rfl, .order hkeyword hby ?_⟩
          simpa using Direction.ofToken?_bare_eq_none_iff.1 hdirection
    · cases h

/-- What is read as a clause has the form of the clause. -/
lemma form_of_read {keyword : Token}
    (h : Clause.read keyword tokens = .ok (clause, rest)) :
    ∃ segment, tokens = segment ++ rest ∧ clause.Form (keyword :: segment) rest := by
  unfold Clause.read at h
  split at h
  · next hword =>
    obtain ⟨columns, hread, rfl⟩ := map_read_eq_ok_iff.1 h
    obtain ⟨segment, rfl, hsegment⟩ := readColumns_eq_ok_iff.1 hread
    exact ⟨segment, rfl, .select (Token.says_of_word hword) hsegment⟩
  · next hword =>
    obtain ⟨table, hread, rfl⟩ := map_read_eq_ok_iff.1 h
    obtain ⟨into, name, rfl, hinto, rfl⟩ := readInsert_eq_ok_iff.1 hread
    exact ⟨[into, name], rfl, .insert (Token.says_of_word hword) (Token.says_of_word hinto)⟩
  · next hword =>
    obtain ⟨table, hread, rfl⟩ := map_read_eq_ok_iff.1 h
    obtain ⟨name, rfl, rfl⟩ := readTable_eq_ok_iff.1 hread
    exact ⟨[name], rfl, .update (Token.says_of_word hword)⟩
  · next hword =>
    cases h
    exact ⟨[], rfl, .delete (Token.says_of_word hword)⟩
  · next hword =>
    obtain ⟨table, hread, rfl⟩ := map_read_eq_ok_iff.1 h
    obtain ⟨name, rfl, rfl⟩ := readTable_eq_ok_iff.1 hread
    exact ⟨[name], rfl, .source (Token.says_of_word hword)⟩
  · next hword =>
    obtain ⟨join, hread, rfl⟩ := map_read_eq_ok_iff.1 h
    obtain ⟨table, on, left, right, rfl, hon, rfl⟩ := readJoin_eq_ok_iff.1 hread
    exact ⟨[table, on, left, ['='], right], rfl, .join (Token.says_of_word hword) (Token.says_of_word hon)⟩
  · next hword =>
    obtain ⟨condition, hread, rfl⟩ := map_read_eq_ok_iff.1 h
    exact form_of_readCondition (.inl (Token.says_of_word hword)) hread
  · next hword =>
    obtain ⟨condition, hread, rfl⟩ := map_read_eq_ok_iff.1 h
    exact form_of_readCondition (.inr (Token.says_of_word hword)) hread
  · next hword =>
    obtain ⟨key, hread, rfl⟩ := map_read_eq_ok_iff.1 h
    exact form_of_readOrder (Token.says_of_word hword) hread
  · next hword =>
    obtain ⟨texts, hread, rfl⟩ := map_read_eq_ok_iff.1 h
    obtain ⟨segment, rfl, hsegment⟩ := readParenthesized_eq_ok_iff.1 hread
    exact ⟨segment, rfl, .values (Token.says_of_word hword) hsegment⟩
  · next hword =>
    obtain ⟨assignments, hread, rfl⟩ := map_read_eq_ok_iff.1 h
    obtain ⟨segment, rfl, hsegment⟩ := spellsAssignments_of_readAssignments hread
    exact ⟨segment, rfl, .assignments (Token.says_of_word hword) hsegment⟩
  · cases h

/-- A segment in the form of a clause is read as the clause. -/
lemma Clause.Form.read_append
    (h : clause.Form segment rest) :
    ∃ keyword tail, segment = keyword :: tail ∧
      Clause.read keyword (tail ++ rest) = .ok (clause, rest) := by
  cases h with
  | select hkeyword h =>
    refine ⟨_, _, rfl, ?_⟩
    simp only [Clause.read, hkeyword.word_eq, map_read_eq_ok_iff]
    exact ⟨_, readColumns_eq_ok_iff.2 ⟨_, rfl, h⟩, rfl⟩
  | insert hkeyword hinto =>
    refine ⟨_, _, rfl, ?_⟩
    simp only [Clause.read, hkeyword.word_eq, map_read_eq_ok_iff]
    exact ⟨_, readInsert_eq_ok_iff.2 ⟨_, _, rfl, hinto.word_eq, rfl⟩, rfl⟩
  | update hkeyword =>
    refine ⟨_, _, rfl, ?_⟩
    simp only [Clause.read, hkeyword.word_eq, map_read_eq_ok_iff]
    exact ⟨_, readTable_eq_ok_iff.2 ⟨_, rfl, rfl⟩, rfl⟩
  | delete hkeyword =>
    refine ⟨_, _, rfl, ?_⟩
    simp only [Clause.read, hkeyword.word_eq]
    rfl
  | source hkeyword =>
    refine ⟨_, _, rfl, ?_⟩
    simp only [Clause.read, hkeyword.word_eq, map_read_eq_ok_iff]
    exact ⟨_, readTable_eq_ok_iff.2 ⟨_, rfl, rfl⟩, rfl⟩
  | join hkeyword hon =>
    refine ⟨_, _, rfl, ?_⟩
    simp only [Clause.read, hkeyword.word_eq, map_read_eq_ok_iff]
    exact ⟨_, readJoin_eq_ok_iff.2 ⟨_, _, _, _, rfl, hon.word_eq, rfl⟩, rfl⟩
  | equals hkeyword =>
    refine ⟨_, _, rfl, ?_⟩
    rcases hkeyword with hkeyword | hkeyword <;>
    · simp only [Clause.read, hkeyword.word_eq, map_read_eq_ok_iff]
      exact ⟨_, readCondition_equals _ _ _, rfl⟩
  | @oneOf keyword column operator tokens _ texts hkeyword hoperator h =>
    refine ⟨_, _, rfl, ?_⟩
    have hread : Clause.readCondition (column :: operator :: tokens ++ rest) =
        .ok (⟨column.unquote, .oneOf (.ofList texts)⟩, rest) := by
      have htexts : Clause.readParenthesized .condition (tokens ++ rest) = .ok (texts, rest) :=
        readParenthesized_eq_ok_iff.2 ⟨tokens, rfl, h⟩
      rw [List.cons_append, List.cons_append, readCondition_in hoperator.word_eq, htexts]
      rfl
    rcases hkeyword with hkeyword | hkeyword <;>
    · simp only [Clause.read, hkeyword.word_eq, map_read_eq_ok_iff]
      exact ⟨_, hread, rfl⟩
  | order hkeyword hsecond hnext =>
    refine ⟨_, _, rfl, ?_⟩
    simp only [Clause.read, hkeyword.word_eq, map_read_eq_ok_iff]
    exact ⟨_, readOrder_of_no_direction hsecond.word_eq _ hnext, rfl⟩
  | orderTowards hkeyword hsecond hlast =>
    refine ⟨_, _, rfl, ?_⟩
    simp only [Clause.read, hkeyword.word_eq, map_read_eq_ok_iff]
    exact ⟨_, readOrder_of_direction hsecond.word_eq _ hlast _, rfl⟩
  | values hkeyword h =>
    refine ⟨_, _, rfl, ?_⟩
    simp only [Clause.read, hkeyword.word_eq, map_read_eq_ok_iff]
    exact ⟨_, readParenthesized_eq_ok_iff.2 ⟨_, rfl, h⟩, rfl⟩
  | assignments hkeyword h =>
    refine ⟨_, _, rfl, ?_⟩
    simp only [Clause.read, hkeyword.word_eq, map_read_eq_ok_iff]
    exact ⟨_, h.readAssignments_append, rfl⟩

/-! ## Cuts -/

/-- Tokens that are read to their end are cut by the reader. -/
lemma exists_cut_of_readAll {clauses : List Clause}
    (h : Clause.readAll tokens = (clauses, none)) :
    ∃ cut, Clause.Cut tokens cut ∧ clauses = cut.map (·.2) := by
  fun_induction Clause.readAll tokens generalizing clauses with
  | case1 =>
    cases h
    exact ⟨[], .nil, rfl⟩
  | case2 => cases h
  | case3 keyword tokens clause rest hread ih =>
    obtain ⟨hclauses, hstopped⟩ := Prod.mk.inj h
    obtain ⟨segment, rfl, hform⟩ := form_of_read hread
    obtain ⟨cut, hcut, hrest⟩ := ih (Prod.ext rfl hstopped)
    refine ⟨(keyword :: segment, clause) :: cut, .cons hform hcut, ?_⟩
    rw [List.map_cons, ← hrest, ← hclauses]

/-- The reader follows every cut. -/
lemma Clause.Cut.readAll {cut : List (List Token × Clause)}
    (h : Clause.Cut tokens cut) : Clause.readAll tokens = (cut.map (·.2), none) := by
  induction h with
  | nil => rw [Clause.readAll, List.map_nil]
  | cons h hrest ih =>
    obtain ⟨keyword, tail, rfl, hread⟩ := h.read_append
    rw [List.cons_append, readAll_cons hread, ih]
    rfl

/-- The first segment of a cut is settled by the tokens, and so are all others. -/
lemma Clause.Cut.unique {cut cut' : List (List Token × Clause)}
    (h : Clause.Cut tokens cut) (h' : Clause.Cut tokens cut') : cut = cut' := by
  induction h generalizing cut' with
  | nil =>
    generalize htokens : ([] : List Token) = tokens at h'
    cases h' with
    | nil => rfl
    | cons hform =>
      obtain ⟨keyword, tail, rfl, -⟩ := hform.read_append
      cases htokens
  | @cons segment rest clause cut hform hrest ih =>
    generalize htokens : segment ++ rest = tokens at h'
    obtain ⟨keyword, tail, rfl, hread⟩ := hform.read_append
    cases h' with
    | nil => cases htokens
    | @cons segment' rest' clause' cut' hform' hrest' =>
      obtain ⟨keyword', tail', rfl, hread'⟩ := hform'.read_append
      rw [List.cons_append, List.cons_append, List.cons.injEq] at htokens
      obtain ⟨rfl, htail⟩ := htokens
      rw [← htail, hread] at hread'
      cases hread'
      obtain rfl := List.append_cancel_right htail
      rw [ih hrest']

/-- A query is read when all tokens are read as clauses, and the clauses make it up. -/
lemma ofTokens_eq_ok_iff_readAll {config : Config} {query : Query} :
    Query.ofTokens config tokens = .ok query ↔
      ∃ clauses draft, Clause.readAll tokens = (clauses, none) ∧
        Draft.empty.addAll (clauses.map (·.mapTable config.fullName)) = .ok draft ∧
        draft.query = .ok query := by
  rcases hread : Clause.readAll tokens with ⟨clauses, stopped?⟩
  rw [Query.ofTokens, hread]
  change ((Draft.empty.addAll (clauses.map _)).mapError _ >>= fun draft => _) = _ ↔ _
  rw [bind_eq_ok_iff]
  simp only [mapError_eq_ok_iff]
  cases stopped? with
  | none => simp [mapError_eq_ok_iff]
  | some e => simp

/-- Tokens make up a query exactly when they can be cut into clauses that a draft takes up in
this order and that make up the query.  There is at most one such cut, whether the clauses fit
together or not. -/
theorem Query.ofTokens_eq_ok_iff (config : Config) (tokens : List Token) :
    (∀ query, Query.ofTokens config tokens = .ok query ↔
      ∃ cut draft, Clause.Cut tokens cut ∧
        Draft.empty.addAll (cut.map (·.2.mapTable config.fullName)) = .ok draft ∧
        draft.query = .ok query) ∧
    ∀ cut cut', Clause.Cut tokens cut → Clause.Cut tokens cut' → cut = cut' := by
  refine ⟨fun query => ?_, fun cut cut' h h' => h.unique h'⟩
  rw [ofTokens_eq_ok_iff_readAll]
  constructor
  · rintro ⟨clauses, draft, hread, hdraft, hquery⟩
    obtain ⟨cut, hcut, rfl⟩ := exists_cut_of_readAll hread
    rw [List.map_map] at hdraft
    exact ⟨cut, draft, hcut, hdraft, hquery⟩
  · rintro ⟨cut, draft, hcut, hdraft, hquery⟩
    refine ⟨cut.map (·.2), draft, hcut.readAll, ?_, hquery⟩
    rw [List.map_map]
    exact hdraft

/-- Keywords in small letters and in both, and a direction between two quotes of different kinds. -/
theorem Query.ofTokens_eq_ok_iff_of_small_letters :
    Query.ofTokens {} ["select".toList, "name".toList, "From".toList, "'t'".toList,
        "order".toList, "By".toList, "age".toList, "'dEsc\"".toList] =
      .ok { kind := .select, table := "t.csv", columns := .only ["name"]
            order := [⟨"age", .descending⟩] } := by
  have hholds : Token.Holds "name".toList ["name"] :=
    ⟨by decide, ["name".toList], by decide +kernel, rfl⟩
  have hselect : ∀ following,
      (Clause.select ["name"]).Form ["select".toList, "name".toList] following := fun _ =>
    .select (by decide) (.last hholds (by decide))
  have hsource : ∀ following,
      (Clause.source "t").Form ["From".toList, "'t'".toList] following := fun _ =>
    .source (by decide)
  have hwraps : Token.Wraps "'dEsc\"".toList "dEsc".toList :=
    .inr (.inr (.inr ⟨'\'', '"', rfl, rfl, rfl⟩))
  have hsaid : Direction.descending.IsSaid "'dEsc\"".toList := .descending hwraps (by decide)
  have horder : (Clause.order ⟨"age", .descending⟩).Form
      ["order".toList, "By".toList, "age".toList, "'dEsc\"".toList] [] :=
    .orderTowards (by decide) (by decide) hsaid
  have hcut := Clause.Cut.cons (hselect _) (.cons (hsource _) (.cons horder .nil))
  exact ((Query.ofTokens_eq_ok_iff {} _).1 _).2 ⟨_, _, hcut, rfl, rfl⟩

end FlatQuery
