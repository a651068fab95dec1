/-
# Token lists that can be written on a line

A list of tokens is written on a line with single spaces between them.  The lists that are read
back from their line are the well-formed ones, and there are no other lists of tokens: whatever
line is cut into tokens, the list is well formed (`tokenize_lineOf_eq`).  In particular every
quoted run of a token is closed, and so a comma or a parenthesis at the end of a token is never
part of a quoted text.
-/
import FlatQuery.Proofs.Token.Cut

namespace FlatQuery

variable {text : List Char} {tokens : List Token}

/-- A list of tokens is well formed when no token is empty, none has a blank outside quoted runs
or leaves a quoted run open, and the first one that has an opening parenthesis outside quoted
runs has nothing else in it. -/
structure WellFormedTokens (tokens : List Token) : Prop where
  ne_nil : ∀ token ∈ tokens, token ≠ []
  no_blank : ∀ token ∈ tokens, ¬HasOutside isBlank token
  closed : ∀ token ∈ tokens, Closed token
  paren : ∀ before token after, tokens = before ++ token :: after →
    (∀ earlier ∈ before, ¬HasOutside (· == '(') earlier) → HasOutside (· == '(') token →
      token = ['(']

/-! ## Well-formed lists, token by token -/

lemma Token.wellFormed_iff {token : Token} :
    token.WellFormed ↔ token ≠ [] ∧ ¬HasOutside isBlank token ∧ Closed token := by
  rw [← isSolid_iff, closed_iff]
  exact ⟨fun h => ⟨h.ne_nil, h.solid, h.closed⟩, fun h => ⟨h.1, h.2.1, h.2.2⟩⟩

/-- The parenthesis stands apart when the first token that has one outside quoted runs has
nothing else in it. -/
lemma parenApart_iff :
    ParenApart tokens ↔ ∀ before token after, tokens = before ++ token :: after →
      (∀ earlier ∈ before, ¬HasOutside (· == '(') earlier) → HasOutside (· == '(') token →
        token = ['('] := by
  induction tokens with
  | nil => exact iff_of_true trivial fun before token after h => by simp at h
  | cons first tokens ih =>
    rw [ParenApart, isSolid_iff, ih]
    constructor
    · rintro (rfl | ⟨hfirst, hrest⟩) before token after heq hbefore htoken
      · cases before with
        | nil => exact (List.cons.inj heq).1.symm
        | cons other before =>
          obtain ⟨rfl, -⟩ := List.cons.inj heq
          exact absurd ⟨[], '(', [], rfl, .nil, rfl⟩ (hbefore _ List.mem_cons_self)
      · cases before with
        | nil =>
          obtain ⟨rfl, -⟩ := List.cons.inj heq
          exact absurd htoken hfirst
        | cons other before =>
          obtain ⟨-, rfl⟩ := List.cons.inj heq
          exact hrest before token after rfl
            (fun earlier h => hbefore earlier (List.mem_cons_of_mem _ h)) htoken
    · intro h
      by_cases hfirst : HasOutside (· == '(') first
      · exact Or.inl (h [] first tokens rfl (fun _ hmem => by cases hmem) hfirst)
      · refine Or.inr ⟨hfirst, fun before token after heq hbefore htoken => ?_⟩
        exact h (first :: before) token after (by rw [heq, List.cons_append])
          (List.forall_mem_cons.2 ⟨hfirst, hbefore⟩) htoken

lemma wellFormedTokens_iff :
    WellFormedTokens tokens ↔ (∀ token ∈ tokens, token.WellFormed) ∧ ParenApart tokens := by
  simp only [Token.wellFormed_iff]
  constructor
  · intro h
    exact ⟨fun token ht => ⟨h.ne_nil token ht, h.no_blank token ht, h.closed token ht⟩,
      parenApart_iff.2 h.paren⟩
  · rintro ⟨htokens, hparen⟩
    exact ⟨fun token ht => (htokens token ht).1, fun token ht => (htokens token ht).2.1,
      fun token ht => (htokens token ht).2.2, parenApart_iff.1 hparen⟩

instance (token : Token) : Decidable token.WellFormed :=
  decidable_of_iff _ Token.wellFormed_iff.symm

instance (tokens : List Token) : Decidable (WellFormedTokens tokens) :=
  decidable_of_iff _ wellFormedTokens_iff.symm

/-! ## Where tokens stand -/

/-- A token stands behind a closed text, and it is closed too unless the text ends with it. -/
lemma exists_place {token : Token} (h : token ∈ tokensOf text) :
    token ≠ [] ∧ IsSolid isBlank none token ∧ ∃ before after, text = before ++ (token ++ after) ∧
      Closed before ∧ (after ≠ [] → Closed token) := by
  have hself : ∀ {part : List Char}, IsSolid isBlank none part → token ∈ tokensOf part →
      part = token ∧ part ≠ [] := by
    intro part hsolid hmem
    rw [tokensOf_of_isSolid hsolid] at hmem
    by_cases hnil : part = []
    · simp [hnil] at hmem
    · rw [if_neg hnil] at hmem
      exact ⟨(List.mem_singleton.1 hmem).symm, hnil⟩
  -- the text behind the first blank is shorter
  induction hlength : text.length using Nat.strong_induction_on generalizing text with
  | _ n ih =>
    rcases isSolid_or_exists_cut isBlank none text with
      hsolid | ⟨part, c, rest, rfl, hsolid, hopen, hc⟩
    · obtain ⟨rfl, hne⟩ := hself hsolid h
      exact ⟨hne, hsolid, [], [], by simp, .nil, fun h => absurd rfl h⟩
    · have hclosed : Closed part := closed_iff.2 hopen
      rw [hclosed.tokensOf_append_blank hc, List.mem_append] at h
      rcases h with h | h
      · obtain ⟨rfl, hne⟩ := hself hsolid h
        exact ⟨hne, hsolid, [], c :: rest, rfl, .nil, fun _ => hclosed⟩
      · have hlt : rest.length < n := by
          rw [← hlength, List.length_append, List.length_cons]
          omega
        obtain ⟨hne, htoken, before, after, rfl, hbefore, hafter⟩ := ih _ hlt h rfl
        have hquote : ¬isQuote c := fun hquote => not_isBlank_of_isQuote hquote hc
        have hfront : Closed (part ++ [c]) := (closed_concat_iff hquote).2 hclosed
        exact ⟨hne, htoken, part ++ [c] ++ before, after, by simp, hfront.append_iff.2 hbefore,
          hafter⟩

/-- The tokens of a closed text are well formed. -/
lemma wellFormed_of_mem_tokensOf (h : Closed text) {token : Token}
    (htoken : token ∈ tokensOf text) : token.WellFormed := by
  obtain ⟨hne, hsolid, before, after, rfl, hbefore, hafter⟩ := exists_place htoken
  have hclosed : Closed token := by
    by_cases hnil : after = []
    · rw [hnil, List.append_nil] at h
      exact hbefore.append_iff.1 h
    · exact hafter hnil
  exact ⟨hne, hsolid, hclosed.quoteAtEnd⟩

/-- What stands outside the quoted runs of a token stands outside those of the text. -/
lemma hasOutside_of_mem_tokensOf {isClass : Char → Bool} {token : Token}
    (htoken : token ∈ tokensOf text) (h : HasOutside isClass token) : HasOutside isClass text := by
  obtain ⟨-, -, before, after, rfl, hbefore, -⟩ := exists_place htoken
  obtain ⟨front, c, back, rfl, hfront, hc⟩ := h
  exact ⟨before ++ front, c, back ++ after, by simp, hbefore.append_iff.2 hfront, hc⟩

/-! ## Reading back -/

lemma parenApart_append {more : List Token} (h : ∀ token ∈ tokens, ¬HasOutside (· == '(') token)
    (hmore : ParenApart more) : ParenApart (tokens ++ more) := by
  induction tokens with
  | nil => exact hmore
  | cons token tokens ih =>
    obtain ⟨htoken, htokens⟩ := List.forall_mem_cons.1 h
    exact Or.inr ⟨isSolid_iff.2 htoken, ih htokens⟩

/-- A line in which every quoted run is closed is cut into a well-formed list. -/
lemma wellFormedTokens_of_closed {body : List Char} (h : Closed body) :
    WellFormedTokens (tokensOf (isolateParen none body)) := by
  have hclosed : Closed (isolateParen none body) := by
    rw [closed_iff, quoteAtEnd_isolateParen, h.quoteAtEnd]
  refine wellFormedTokens_iff.2 ⟨fun token => wellFormed_of_mem_tokensOf hclosed, ?_⟩
  rcases exists_isFirstParen body with hnone | ⟨before, after, rfl, hfirst⟩
  · have htokens : ∀ token ∈ tokensOf body, ¬HasOutside (· == '(') token := by
      intro token htoken hparen
      exact hnone (hasOutside_of_mem_tokensOf htoken hparen)
    rw [isolateParen_of_not_hasOutside hnone, ← List.append_nil (tokensOf body)]
    exact parenApart_append htokens trivial
  · rw [hfirst.tokensOf_isolateParen]
    exact parenApart_append (fun token htoken hparen =>
      hfirst.first (hasOutside_of_mem_tokensOf htoken hparen)) (Or.inl rfl)

/-- A well-formed list of tokens is read back from the line on which it is written, and every
list that is read from a line is well formed. -/
theorem tokenize_lineOf_eq :
    (∀ tokens, WellFormedTokens tokens → tokenize (lineOf tokens) = .ok tokens) ∧
    ∀ line tokens, tokenize line = .ok tokens →
      WellFormedTokens tokens ∧ tokenize (lineOf tokens) = .ok tokens ∧
      ∀ head c, head ++ [c] ∈ tokens → c = ',' ∨ c = ')' → Closed head := by
  have hread : ∀ tokens, WellFormedTokens tokens → tokenize (lineOf tokens) = .ok tokens :=
    fun tokens h => tokenize_lineOf (wellFormedTokens_iff.1 h).1 (wellFormedTokens_iff.1 h).2
  refine ⟨hread, fun line tokens h => ?_⟩
  obtain ⟨body, -, hclosed, rfl⟩ := tokenize_eq_ok_iff.1 h
  have hwell := wellFormedTokens_of_closed hclosed
  refine ⟨hwell, hread _ hwell, fun head c htoken hc => ?_⟩
  have hquote : ¬isQuote c := by
    rcases hc with rfl | rfl <;> decide
  exact (closed_concat_iff hquote).1 (hwell.closed _ htoken)

/-- Tokens with blanks and parentheses between quotes, and a parenthesis behind the first one. -/
theorem tokenize_lineOf_of_quoted_parentheses :
    let tokens := ["'a (b',".toList, "(".toList, "\"'c\"(d,".toList, "')')".toList]
    WellFormedTokens tokens ∧ tokenize (lineOf tokens) = .ok tokens ∧
      ∀ head c, head ++ [c] ∈ tokens → c = ',' ∨ c = ')' → Closed head := by
  intro tokens
  have h : WellFormedTokens tokens := by decide +kernel
  have hread := tokenize_lineOf_eq.1 tokens h
  exact ⟨h, hread, (tokenize_lineOf_eq.2 _ tokens hread).2.2⟩

end FlatQuery
