/-
# Tokens on a line

A list of tokens is written on a line with single spaces between them and a semicolon at the
end.  When every token is well formed and the first opening parenthesis stands alone, cutting
the line into tokens gives the list back (`tokenize_lineOf`).  The second part of the file is
about texts between quotes: such a token is well formed, and taking the quotes off gives the
text.  At the end it is shown that blanks around a line do not count (`tokenize_trim`).
-/
import FlatQuery.Proofs.Token.Scan
import FlatQuery.Query.Writing
import Mathlib.Data.List.DropRight

namespace FlatQuery

/-- The first token with an opening parenthesis outside quoted runs, if there is one, has
nothing else in it. -/
def ParenApart : List Token → Prop
  | [] => True
  | token :: tokens => token = ['('] ∨ IsSolid (· == '(') none token ∧ ParenApart tokens

instance decidableParenApart : (tokens : List Token) → Decidable (ParenApart tokens)
  | [] => inferInstanceAs (Decidable True)
  | _ :: tokens =>
    have := decidableParenApart tokens
    inferInstanceAs (Decidable (_ ∨ _ ∧ ParenApart tokens))

/-! ## Cutting a text into tokens -/

lemma tokensOf_intercalate {tokens : List Token} (h : ∀ token ∈ tokens, token.WellFormed) :
    tokensOf ([' '].intercalate tokens) = tokens := by
  induction tokens with
  | nil => exact tokensOf_nil
  | cons token tokens ih =>
    have htoken := h token List.mem_cons_self
    have hrest : ∀ t ∈ tokens, t.WellFormed := fun t ht => h t (List.mem_cons_of_mem token ht)
    cases tokens with
    | nil => rw [List.intercalate_singleton, htoken.tokensOf_self]
    | cons next tokens =>
      rw [List.intercalate_cons_cons, List.append_assoc, List.singleton_append,
        htoken.tokensOf_append_space, ih hrest]

/-- Setting the first parenthesis apart changes nothing for tokens among which it stands alone
already. -/
lemma tokensOf_isolateParen_intercalate {tokens : List Token}
    (h : ∀ token ∈ tokens, token.WellFormed) (hparen : ParenApart tokens) :
    tokensOf (isolateParen none ([' '].intercalate tokens)) = tokens := by
  induction tokens with
  | nil => exact tokensOf_nil
  | cons token tokens ih =>
    have htoken := h token List.mem_cons_self
    have hrest : ∀ t ∈ tokens, t.WellFormed := fun t ht => h t (List.mem_cons_of_mem token ht)
    rcases hparen with rfl | ⟨hsolid, hparen⟩
    · have hset : ∀ text, isolateParen none ('(' :: text) = ' ' :: (['('] ++ ' ' :: text) :=
        fun text => rfl
      cases tokens with
      | nil => decide
      | cons next tokens =>
        rw [List.intercalate_cons_cons, List.append_assoc, List.singleton_append,
          List.singleton_append, hset, tokensOf_space, htoken.tokensOf_append_space,
          tokensOf_space, tokensOf_intercalate hrest]
    · cases tokens with
      | nil =>
        have hself : isolateParen none token = token := by
          simpa [isolateParen] using hsolid.isolateParen_append []
        rw [List.intercalate_singleton, hself, htoken.tokensOf_self]
      | cons next tokens =>
        have hspace : ∀ text, isolateParen none (' ' :: text) = ' ' :: isolateParen none text :=
          fun text => rfl
        rw [List.intercalate_cons_cons, List.append_assoc, List.singleton_append,
          hsolid.isolateParen_append, htoken.closed, hspace, htoken.tokensOf_append_space,
          ih hrest hparen]

/-! ## Lines -/

lemma quoteAtEnd_intercalate {tokens : List Token} (h : ∀ token ∈ tokens, token.WellFormed) :
    quoteAtEnd none ([' '].intercalate tokens) = none := by
  induction tokens with
  | nil => rfl
  | cons token tokens ih =>
    have htoken := h token List.mem_cons_self
    have hrest : ∀ t ∈ tokens, t.WellFormed := fun t ht => h t (List.mem_cons_of_mem token ht)
    cases tokens with
    | nil => rw [List.intercalate_singleton, htoken.closed]
    | cons next tokens =>
      rw [List.intercalate_cons_cons, List.append_assoc, List.singleton_append,
        quoteAtEnd_append, htoken.closed]
      exact ih hrest

lemma trimEnd_append_semicolon (cs : List Char) : trimEnd (cs ++ [';']) = cs ++ [';'] := by
  have hblank : isBlank ';' = false := by decide
  simp [trimEnd, hblank]

/-- Cutting a line into tokens undoes writing them. -/
lemma tokenize_lineOf {tokens : List Token} (h : ∀ token ∈ tokens, token.WellFormed)
    (hparen : ParenApart tokens) : tokenize (lineOf tokens) = .ok tokens := by
  have hbody : stripLast? ';' (trimEnd (lineOf tokens).toList) =
      some ([' '].intercalate tokens) := by
    rw [lineOf, String.toList_ofList, trimEnd_append_semicolon, stripLast?_eq_some_iff]
  have hclosed : openRun none (isolateParen none ([' '].intercalate tokens)) = none := by
    rw [openRun_eq_none_iff, Option.map_none, quoteAtEnd_isolateParen, quoteAtEnd_intercalate h]
  simp only [tokenize, hbody, Token.scan_eq, hclosed, tokensOf_isolateParen_intercalate h hparen]

/-! ## Tokens without parentheses -/

/-- A well-formed token without an opening parenthesis outside quoted runs. -/
structure Token.NoParen (token : Token) : Prop extends token.WellFormed where
  noParen : IsSolid (· == '(') none token

/-- A character that neither ends a token nor is a quote or an opening parenthesis. -/
def isPlain (c : Char) : Bool :=
  !isQuote c && !isBlank c && c != '('

/-- A word in which no character has a meaning of its own. -/
lemma noParen_of_all {token : Token} (h : token ≠ [] ∧ token.all isPlain := by decide) :
    token.NoParen := by
  have hplain : ∀ c ∈ token, (¬isQuote c ∧ ¬isBlank c) ∧ ¬(c == '(') := by
    simpa [isPlain] using h.2
  exact {
    ne_nil := h.1
    solid := isSolid_of_forall fun c hc => (hplain c hc).1
    closed := quoteAtEnd_none_of_forall fun c hc => (hplain c hc).1.1
    noParen := isSolid_of_forall fun c hc => ⟨(hplain c hc).1.1, (hplain c hc).2⟩ }

lemma Token.NoParen.append {token more : Token} (h : token.NoParen) (hmore : more.NoParen) :
    Token.NoParen (token ++ more) where
  ne_nil := by simp [h.ne_nil]
  solid := h.solid.append (by rw [h.closed]; exact hmore.solid)
  closed := by rw [quoteAtEnd_append, h.closed, hmore.closed]
  noParen := h.noParen.append (by rw [h.closed]; exact hmore.noParen)

lemma wellFormed_openParen : Token.WellFormed ['('] where
  ne_nil := by simp
  solid := by decide
  closed := by decide

/-- Tokens without parentheses may stand in any order together with single parentheses. -/
lemma parenApart_of_forall {tokens : List Token}
    (h : ∀ token ∈ tokens, token = ['('] ∨ token.NoParen) : ParenApart tokens := by
  induction tokens with
  | nil => trivial
  | cons token tokens ih =>
    have hrest := ih fun t ht => h t (List.mem_cons_of_mem token ht)
    exact (h token List.mem_cons_self).imp_right fun hfree => ⟨hfree.noParen, hrest⟩

/-! ## Texts between quotes -/

/-- A text can be put between quotes unless it contains quotes of both kinds. -/
def Quotable (text : String) : Prop :=
  ¬('\'' ∈ text.toList ∧ '"' ∈ text.toList)

instance (text : String) : Decidable (Quotable text) :=
  inferInstanceAs (Decidable (¬_))

/-- A quoted text has at both ends one quote, which does not occur in it. -/
lemma exists_quote_eq {text : String} (h : Quotable text) :
    ∃ mark, isQuote mark ∧ mark ∉ text.toList ∧ quote text = mark :: (text.toList ++ [mark]) := by
  by_cases hsingle : '\'' ∈ text.toList
  · exact ⟨'"', rfl, fun hdouble => h ⟨hsingle, hdouble⟩, by simp [quote, hsingle]⟩
  · exact ⟨'\'', rfl, hsingle, by simp [quote, hsingle]⟩

lemma quoteAtEnd_quote {text : String} (h : Quotable text) :
    quoteAtEnd none (quote text) = none := by
  obtain ⟨mark, hmark, hmem, heq⟩ := exists_quote_eq h
  rw [heq, quoteAtEnd_run hmark hmem]

/-- A quoted text is solid for every class of characters without quotes. -/
lemma isSolid_quote {isCut : Char → Bool} {text : String} (h : Quotable text)
    (hcut : ∀ c, isQuote c → ¬isCut c) : IsSolid isCut none (quote text) := by
  obtain ⟨mark, hmark, hmem, heq⟩ := exists_quote_eq h
  rw [heq]
  exact isSolid_run hmark hmem (hcut mark hmark)

lemma not_isQuote_comma : ¬isQuote ',' := by decide

lemma noParen_quote {text : String} (h : Quotable text) : Token.NoParen (quote text) where
  ne_nil := by simp [quote]
  solid := isSolid_quote h fun _ => not_isBlank_of_isQuote
  closed := quoteAtEnd_quote h
  noParen := isSolid_quote h fun c hc => by rcases eq_of_isQuote hc with rfl | rfl <;> decide

/-- Taking the quotes off gives the text. -/
lemma unquote_quote (text : String) : Token.unquote (quote text) = text := by
  have hends : ∀ mark, isQuote mark →
      Token.bare (mark :: (text.toList ++ [mark])) = text.toList := by
    intro mark hmark
    simp [Token.bare, Token.dropFirstQuote, Token.dropLastQuote, hmark]
  have hbare : Token.bare (quote text) = text.toList := by
    by_cases hsingle : '\'' ∈ text.toList
    · simpa [quote, hsingle] using hends '"' rfl
    · simpa [quote, hsingle] using hends '\'' rfl
  rw [Token.unquote, hbare, String.ofList_toList]

/-- A quoted text does not end in any other character than a quote. -/
lemma stripLast?_quote {c : Char} (hc : ¬isQuote c) (text : String) :
    stripLast? c (quote text) = none := by
  have hlast : ∀ mark, isQuote mark → stripLast? c (mark :: (text.toList ++ [mark])) = none := by
    intro mark hmark
    have hne : mark ≠ c := fun h => hc (h ▸ hmark)
    simp [stripLast?, List.getLast?_cons, hne]
  by_cases hsingle : '\'' ∈ text.toList
  · simpa [quote, hsingle] using hlast '"' rfl
  · simpa [quote, hsingle] using hlast '\'' rfl

/-- As a list, a quoted text has one item, also when the text is blank or contains commas. -/
lemma items_quote {text : String} (h : Quotable text) :
    Token.items (quote text) = .ok [quote text] := by
  have hsolid : splitUnquoted (· == ',') none (quote text) = [quote text] :=
    isSolid_quote h fun c hc => by rcases eq_of_isQuote hc with rfl | rfl <;> decide
  have hblank : (quote text).all isBlank = false := by
    obtain ⟨mark, hmark, -, heq⟩ := exists_quote_eq h
    simp [heq, not_isBlank_of_isQuote hmark]
  have hne : (quote text).isEmpty = false := by simp [quote]
  simp [Token.items, hsolid, hblank, hne]

lemma itemTexts_quote {text : String} (h : Quotable text) (emptyAllowed : Bool) :
    Token.itemTexts emptyAllowed (quote text) = .ok [text] := by
  have hne : (quote text).isEmpty = false := by simp [quote]
  rw [Token.itemTexts, hne, items_quote h]
  change Except.ok [Token.unquote (quote text)] = _
  rw [unquote_quote]

/-! ## Blanks around a line -/

variable {blanks : List Char}

lemma isolateParen_append_of_isBlank (h : ∀ c ∈ blanks, isBlank c) (text : List Char) :
    isolateParen none (blanks ++ text) = blanks ++ isolateParen none text := by
  induction blanks with
  | nil => rfl
  | cons c blanks ih =>
    obtain ⟨hc, hblanks⟩ := List.forall_mem_cons.1 h
    have hquote : ¬isQuote c := fun hquote => not_isBlank_of_isQuote hquote hc
    have hparen : c ≠ '(' := by
      rintro rfl
      exact absurd hc (by decide)
    rw [List.cons_append, isolateParen, if_neg fun h => hparen h.2,
      quoteAfter_none_of_not_isQuote hquote, ih hblanks, List.cons_append]

lemma trimEnd_append (cs ds : List Char) :
    trimEnd (cs ++ ds) = if trimEnd ds = [] then trimEnd cs else cs ++ trimEnd ds := by
  rw [trimEnd, List.reverse_append, List.dropWhile_append]
  by_cases h : ds.reverse.dropWhile isBlank = []
  · simp [trimEnd, h]
  · simp [trimEnd, h]

lemma stripLast?_append {cs ds : List Char} (hne : ds ≠ []) (c : Char) :
    stripLast? c (cs ++ ds) = (stripLast? c ds).map (cs ++ ·) := by
  rw [stripLast?, stripLast?, List.getLast?_append_of_ne_nil cs hne,
    List.dropLast_append_of_ne_nil hne]
  split <;> rfl

/-- A line without the blanks at its two ends has the same tokens, or fails in the same way. -/
lemma tokenize_trim (line : String) :
    tokenize (String.ofList (trim line.toList)) = tokenize line := by
  obtain ⟨blanks, rest, hblanks, hline⟩ : ∃ blanks rest, (∀ c ∈ blanks, isBlank c) ∧
      line.toList = blanks ++ rest ∧ trimStart line.toList = rest :=
    ⟨line.toList.takeWhile isBlank, _, fun c hc => List.mem_takeWhile_imp hc,
      List.takeWhile_append_dropWhile.symm, rfl⟩
  have hagain : trimEnd (trimEnd rest) = trimEnd rest :=
    List.rdropWhile_idempotent isBlank rest
  rw [tokenize, tokenize, String.toList_ofList, trim, hline.2, hagain, hline.1, trimEnd_append]
  by_cases hrest : trimEnd rest = []
  · have hnone : trimEnd blanks = [] := List.rdropWhile_eq_nil_iff.2 hblanks
    rw [if_pos hrest, hrest, hnone]
  · rw [if_neg hrest, stripLast?_append hrest]
    cases stripLast? ';' (trimEnd rest) with
    | none => rfl
    | some body =>
      simp only [Option.map_some, isolateParen_append_of_isBlank hblanks, Token.scan_eq,
        openRun_append_of_isBlank hblanks, tokensOf_append_of_isBlank hblanks]

end FlatQuery
