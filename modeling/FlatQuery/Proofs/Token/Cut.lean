/-
# What the tokens of a line are

A line has tokens when it ends in a semicolon, blanks aside, and every quoted run before the
semicolon is closed.  The tokens then hold what stands there, but for the blanks outside quoted
runs, and the text is cut into tokens at those blanks and around the first opening parenthesis,
and nowhere else (`tokenize_cuts`).

The heart of the proof is that a text may be cut in two at any place: its pieces are those of
the two parts, with the two pieces at the place joined (`exists_splitUnquoted_append`).
-/
import FlatQuery.Proofs.Text.Run
import FlatQuery.Proofs.Token

namespace FlatQuery

variable {text cs ds : List Char}

/-! ## What is kept of a text -/

/-- A blank outside quoted runs is dropped.  The first argument is the text before it. -/
def IsDropped (before : List Char) (c : Char) : Prop :=
  Closed before ∧ isBlank c

instance (before : List Char) (c : Char) : Decidable (IsDropped before c) :=
  inferInstanceAs (Decidable (_ ∧ _))

/-- A text without the blanks outside its quoted runs. -/
def keptText (text : List Char) : List Char :=
  (text.zipIdx.filter fun (c, n) => ¬IsDropped (text.take n) c).map (·.1)

lemma keptText_concat (text : List Char) (c : Char) :
    keptText (text ++ [c]) = keptText text ++ if IsDropped text c then [] else [c] := by
  -- the text before a character is not changed by what comes behind
  have hbefore : ∀ entry ∈ text.zipIdx,
      decide (¬IsDropped ((text ++ [c]).take entry.2) entry.1) =
        decide (¬IsDropped (text.take entry.2) entry.1) := by
    rintro ⟨d, n⟩ hentry
    have hlength : n ≤ text.length := by
      have hlt := (List.mem_zipIdx hentry).2.1
      omega
    rw [List.take_append_of_le_length hlength]
  rw [keptText, List.zipIdx_append, List.filter_append, List.map_append,
    List.filter_congr hbefore, keptText]
  congr 1
  by_cases hc : IsDropped text c <;> simp [hc]

lemma isDropped_iff {c : Char} : IsDropped text c ↔ quoteAtEnd none text = none ∧ isBlank c := by
  rw [IsDropped, closed_iff]

lemma keptText_of_not_isDropped {c : Char} (h : ¬IsDropped text c) :
    keptText (text ++ [c]) = keptText text ++ [c] := by
  rw [keptText_concat, if_neg h]

lemma prefix_keptText_append (cs ds : List Char) : keptText cs <+: keptText (cs ++ ds) := by
  induction ds using List.reverseRecOn with
  | nil => simp
  | append_singleton ds d ih =>
    rw [← List.append_assoc, keptText_concat]
    exact ih.trans (List.prefix_append _ _)

/-- Every character of a stretch of text is dropped.  The first argument is the text before the
stretch. -/
def AllDropped (before gap : List Char) : Prop :=
  ∀ part c rest, gap = part ++ c :: rest → IsDropped (before ++ part) c

lemma AllDropped.keptText_append {gap : List Char} (h : AllDropped cs gap) :
    keptText (cs ++ gap) = keptText cs := by
  induction gap using List.reverseRecOn with
  | nil => rw [List.append_nil]
  | append_singleton gap c ih =>
    have hfront : AllDropped cs gap := by
      rintro part d rest rfl
      exact h part d (rest ++ [c]) (by simp)
    rw [← List.append_assoc, keptText_concat, if_pos (h gap c [] rfl), ih hfront, List.append_nil]

/-- Behind a closed text, what is kept does not depend on it. -/
lemma Closed.keptText_append (h : Closed cs) (ds : List Char) :
    keptText (cs ++ ds) = keptText cs ++ keptText ds := by
  induction ds using List.reverseRecOn with
  | nil => simp [keptText]
  | append_singleton ds d ih =>
    have hdropped : IsDropped (cs ++ ds) d ↔ IsDropped ds d := by
      rw [IsDropped, IsDropped, h.append_iff]
    rw [← List.append_assoc, keptText_concat, keptText_concat, ih, List.append_assoc]
    simp only [hdropped]

/-! ## Cutting a text in two -/

/-- The pieces of a text are those of its two parts, where the last piece of the first part and
the first piece of the second part are joined. -/
lemma exists_splitUnquoted_append {isCut : Char → Bool} (hcut : ∀ c, isQuote c → ¬isCut c)
    (quote : Option Char) (cs ds : List Char) :
    ∃ pieces last first rest, splitUnquoted isCut quote cs = pieces ++ [last] ∧
      splitUnquoted isCut (quoteAtEnd quote cs) ds = first :: rest ∧
      splitUnquoted isCut quote (cs ++ ds) = pieces ++ (last ++ first) :: rest := by
  induction cs generalizing quote with
  | nil =>
    obtain ⟨first, rest, hds⟩ := List.exists_cons_of_ne_nil (splitUnquoted_ne_nil isCut quote ds)
    exact ⟨[], [], first, rest, rfl, hds, hds⟩
  | cons c cs ih =>
    by_cases hc : quote = none ∧ isCut c
    · obtain ⟨rfl, hc⟩ := hc
      have hquote : quoteAfter none c = none :=
        quoteAfter_none_of_not_isQuote fun hquote => hcut c hquote hc
      obtain ⟨pieces, last, first, rest, hcs, hds, hall⟩ := ih none
      refine ⟨[] :: pieces, last, first, rest, ?_, ?_, ?_⟩
      · rw [splitUnquoted, if_pos ⟨rfl, hc⟩, hcs, List.cons_append]
      · rw [quoteAtEnd_cons, hquote, hds]
      · rw [List.cons_append, splitUnquoted, if_pos ⟨rfl, hc⟩, hall, List.cons_append]
    · obtain ⟨pieces, last, first, rest, hcs, hds, hall⟩ := ih (quoteAfter quote c)
      rw [List.cons_append, splitUnquoted, if_neg hc, splitUnquoted, if_neg hc, hcs, hall]
      cases pieces with
      | nil => exact ⟨[], c :: last, first, rest, rfl, hds, rfl⟩
      | cons piece pieces => exact ⟨(c :: piece) :: pieces, last, first, rest, rfl, hds, rfl⟩

/-- At a cut outside quoted runs the pieces before and behind it meet. -/
lemma Closed.splitUnquoted_append_cons (h : Closed cs) {isCut : Char → Bool}
    (hcut : ∀ c, isQuote c → ¬isCut c) {c : Char} (hc : isCut c) (ds : List Char) :
    splitUnquoted isCut none (cs ++ c :: ds) =
      splitUnquoted isCut none cs ++ splitUnquoted isCut none ds := by
  obtain ⟨pieces, last, first, rest, hcs, hds, hall⟩ :=
    exists_splitUnquoted_append hcut none cs (c :: ds)
  rw [h.quoteAtEnd, splitUnquoted, if_pos ⟨rfl, hc⟩] at hds
  obtain ⟨rfl, rfl⟩ := List.cons.inj hds
  rw [hall, hcs, List.append_nil, List.append_cons]

/-- At a blank outside quoted runs the tokens before and behind it meet. -/
lemma Closed.tokensOf_append_blank (h : Closed cs) {c : Char} (hc : isBlank c) (ds : List Char) :
    tokensOf (cs ++ c :: ds) = tokensOf cs ++ tokensOf ds := by
  rw [tokensOf, h.splitUnquoted_append_cons (fun _ => not_isBlank_of_isQuote) hc,
    List.filter_append]
  rfl

/-- The tokens hold what is kept of the text. -/
lemma flatten_tokensOf (text : List Char) : (tokensOf text).flatten = keptText text := by
  rw [tokensOf, List.flatten_filter_not_isEmpty]
  induction text using List.reverseRecOn with
  | nil => rfl
  | append_singleton text c ih =>
    obtain ⟨pieces, last, first, rest, hcs, hds, hall⟩ :=
      exists_splitUnquoted_append (fun _ => not_isBlank_of_isQuote) none text [c]
    rw [hcs] at ih
    rw [hall, keptText_concat, ← ih]
    rw [splitUnquoted] at hds
    by_cases hc : IsDropped text c
    · rw [if_pos ⟨hc.1.quoteAtEnd, hc.2⟩] at hds
      obtain ⟨rfl, rfl⟩ := List.cons.inj hds
      simp [hc, splitUnquoted]
    · rw [if_neg fun h => hc ⟨closed_iff.2 h.1, h.2⟩] at hds
      obtain ⟨rfl, rfl⟩ := List.cons.inj hds
      simp [hc]

/-! ## Characters that belong to one token -/

/-- Of the characters of a list of tokens, counted from 0 on, the one with the given number and
the next one belong to the same token. -/
def Together (tokens : List Token) (n : Nat) : Prop :=
  ∃ left token right, tokens = left ++ token :: right ∧ left.flatten.length ≤ n ∧
    n + 1 < left.flatten.length + token.length

section Together

variable {tokens xs ys : List Token} {n : Nat}

lemma Together.lt (h : Together tokens n) : n + 1 < tokens.flatten.length := by
  obtain ⟨left, token, right, rfl, -, hlt⟩ := h
  simp only [List.flatten_append, List.flatten_cons, List.length_append]
  omega

/-- Characters that belong to the same token do so in one part of a list of tokens. -/
lemma together_append_iff :
    Together (xs ++ ys) n ↔
      Together xs n ∨ xs.flatten.length ≤ n ∧ Together ys (n - xs.flatten.length) := by
  constructor
  · rintro ⟨left, token, right, heq, hle, hlt⟩
    rcases List.append_eq_append_iff.1 heq with ⟨more, rfl, rfl⟩ | ⟨more, rfl, hmore⟩
    · rw [List.flatten_append, List.length_append] at hle hlt
      exact Or.inr ⟨by omega, more, token, right, rfl, by omega, by omega⟩
    · cases more with
      | nil =>
        rw [List.append_nil]
        refine Or.inr ⟨hle, [], token, right, hmore.symm, Nat.zero_le _, ?_⟩
        rw [List.flatten_nil, List.length_nil]
        omega
      | cons first more =>
        obtain ⟨rfl, -⟩ := List.cons.inj hmore
        exact Or.inl ⟨left, token, more, rfl, hle, hlt⟩
  · rintro (⟨left, token, right, rfl, hle, hlt⟩ | ⟨hle, left, token, right, rfl, hle', hlt⟩)
    · exact ⟨left, token, right ++ ys, by simp, hle, hlt⟩
    · refine ⟨xs ++ left, token, right, by simp, ?_, ?_⟩
      · rw [List.flatten_append, List.length_append]
        omega
      · rw [List.flatten_append, List.length_append]
        omega

lemma together_append_of_lt (h : n + 1 < xs.flatten.length) :
    Together (xs ++ ys) n ↔ Together xs n := by
  rw [together_append_iff, or_iff_left]
  rintro ⟨hle, -⟩
  omega

lemma together_append_add : Together (xs ++ ys) (xs.flatten.length + n) ↔ Together ys n := by
  rw [together_append_iff, Nat.add_sub_cancel_left, or_iff_right]
  · exact and_iff_right (Nat.le_add_right _ _)
  · intro h
    have hlt := h.lt
    omega

/-- Where one part of a list of tokens ends, a token ends. -/
lemma not_together_append (h : n + 1 = xs.flatten.length) : ¬Together (xs ++ ys) n := by
  rw [together_append_iff]
  rintro (hleft | ⟨hle, -⟩)
  · have hlt := hleft.lt
    omega
  · omega

end Together

/-- Two characters of a text that are kept, with nothing between them but what is dropped. -/
structure Neighbours where
  before : List Char
  left : Char
  gap : List Char
  right : Char
  after : List Char
  left_kept : ¬IsDropped before left
  gap_dropped : AllDropped (before ++ [left]) gap
  right_kept : ¬IsDropped (before ++ left :: gap) right

namespace Neighbours

variable (pair : Neighbours)

/-- The text up to the right one of two neighbours. -/
def upTo : List Char :=
  pair.before ++ pair.left :: pair.gap

/-- The whole text in which two neighbours stand. -/
def whole : List Char :=
  pair.upTo ++ pair.right :: pair.after

lemma whole_eq :
    pair.whole = pair.before ++ pair.left :: (pair.gap ++ pair.right :: pair.after) := by
  rw [whole, upTo, List.append_assoc, List.cons_append]

lemma keptText_upTo : keptText pair.upTo = keptText pair.before ++ [pair.left] := by
  rw [upTo, List.append_cons, pair.gap_dropped.keptText_append,
    keptText_of_not_isDropped pair.left_kept]

lemma add_one_lt_length : (keptText pair.before).length + 1 < (keptText pair.whole).length := by
  have hright : ¬IsDropped pair.upTo pair.right := pair.right_kept
  have hwhole : pair.whole = pair.upTo ++ [pair.right] ++ pair.after := List.append_cons ..
  have hle := (prefix_keptText_append (pair.upTo ++ [pair.right]) pair.after).length_le
  rw [← hwhole, keptText_of_not_isDropped hright, keptText_upTo] at hle
  simp only [List.length_append, List.length_singleton] at hle
  omega

/-- Characters next to each other belong to one token exactly when nothing is dropped between
them. -/
lemma together_tokensOf :
    Together (tokensOf pair.whole) (keptText pair.before).length ↔ pair.gap = [] := by
  obtain ⟨before, left, gap, right, after, hleft, hgap, hright⟩ := pair
  simp only [whole_eq]
  cases gap with
  | nil =>
    obtain ⟨pieces, last, first, rest, hbefore, hafter, hall⟩ :=
      exists_splitUnquoted_append (fun _ => not_isBlank_of_isQuote) none before
        (left :: ([] ++ right :: after))
    have hkept : keptText before = pieces.flatten ++ last := by
      rw [← flatten_tokensOf, tokensOf, List.flatten_filter_not_isEmpty, hbefore]
      simp
    -- neither character is a cut, so both stand in the first piece
    obtain ⟨more, rfl⟩ : ∃ more, first = left :: right :: more := by
      have hright' : ¬(quoteAfter (quoteAtEnd none before) left = none ∧ isBlank right) := by
        rwa [isDropped_iff, quoteAtEnd_append] at hright
      obtain ⟨more, pieces, hmore⟩ := List.exists_cons_of_ne_nil (splitUnquoted_ne_nil isBlank
        (quoteAfter (quoteAfter (quoteAtEnd none before) left) right) after)
      rw [splitUnquoted, if_neg (isDropped_iff.not.1 hleft), List.nil_append, splitUnquoted,
        if_neg hright', hmore] at hafter
      exact ⟨more, (List.cons.inj hafter).1.symm⟩
    refine iff_of_true ⟨pieces.filter (!·.isEmpty), last ++ left :: right :: more,
      rest.filter (!·.isEmpty), ?_, ?_, ?_⟩ rfl
    · rw [tokensOf, hall]
      simp
    · rw [List.flatten_filter_not_isEmpty, hkept, List.length_append]
      omega
    · rw [List.flatten_filter_not_isEmpty, hkept, List.length_append, List.length_append]
      simp only [List.length_cons]
      omega
  | cons c gap =>
    obtain ⟨hclosed, hc⟩ := hgap [] c gap rfl
    rw [List.append_nil] at hclosed
    refine iff_of_false ?_ (List.cons_ne_nil c gap)
    rw [List.append_cons, List.cons_append, hclosed.tokensOf_append_blank hc]
    apply not_together_append
    rw [flatten_tokensOf, keptText_of_not_isDropped hleft, List.length_append]
    rfl

end Neighbours

/-! ## The first parenthesis -/

/-- The first opening parenthesis outside quoted runs, given with the text before it. -/
structure IsFirstParen (before : List Char) (c : Char) : Prop where
  paren : c = '('
  closed : Closed before
  first : ¬HasOutside (· == '(') before

/-- A text has no parenthesis outside quoted runs, or it has a first one. -/
lemma exists_isFirstParen (text : List Char) :
    ¬HasOutside (· == '(') text ∨
      ∃ before after, text = before ++ '(' :: after ∧ IsFirstParen before '(' := by
  rcases isSolid_or_exists_cut (· == '(') none text with
    hsolid | ⟨before, c, after, htext, hsolid, hopen, hc⟩
  · exact Or.inl (isSolid_iff.1 hsolid)
  · obtain rfl : c = '(' := eq_of_beq hc
    exact Or.inr ⟨before, after, htext, rfl, closed_iff.2 hopen, isSolid_iff.1 hsolid⟩

/-- Without a parenthesis outside quoted runs there is nothing to set apart. -/
lemma isolateParen_of_not_hasOutside (h : ¬HasOutside (· == '(') text) :
    isolateParen none text = text := by
  simpa [isolateParen] using (isSolid_iff.2 h).isolateParen_append []

/-- The first parenthesis is a token of its own, and those behind it are not looked for. -/
lemma IsFirstParen.tokensOf_isolateParen {before : List Char} (h : IsFirstParen before '(')
    (after : List Char) : tokensOf (isolateParen none (before ++ '(' :: after)) =
      tokensOf before ++ ['('] :: tokensOf after := by
  have hset : isolateParen none ('(' :: after) = ' ' :: (['('] ++ ' ' :: after) := rfl
  rw [(isSolid_iff.2 h.first).isolateParen_append, h.closed.quoteAtEnd, hset,
    h.closed.tokensOf_append_blank (by decide), wellFormed_openParen.tokensOf_append_space]

lemma IsFirstParen.closed_concat {before : List Char} (h : IsFirstParen before '(') :
    Closed (before ++ ['(']) :=
  (closed_concat_iff (by decide)).2 h.closed

/-- A parenthesis is no blank, and is kept. -/
lemma IsFirstParen.keptText_append {before : List Char} (h : IsFirstParen before '(')
    (after : List Char) : keptText (before ++ '(' :: after) =
      keptText before ++ '(' :: keptText after := by
  have hparen : ¬IsDropped before '(' := fun hc => absurd hc.2 (by decide)
  rw [List.append_cons, h.closed_concat.keptText_append, keptText_of_not_isDropped hparen,
    ← List.append_cons]

/-- Two ways to single out a character of a text: it is the same one, or one stands before the
other. -/
lemma append_cons_eq_append_cons {xs ys us vs : List Char} {a b : Char}
    (h : xs ++ a :: ys = us ++ b :: vs) :
    (xs = us ∧ a = b ∧ ys = vs) ∨
    (∃ more, us = xs ++ a :: more ∧ ys = more ++ b :: vs) ∨
    (∃ more, xs = us ++ b :: more ∧ vs = more ++ a :: ys) := by
  rcases List.append_eq_append_iff.1 h with ⟨more, rfl, hmore⟩ | ⟨more, rfl, hmore⟩
  · cases more with
    | nil =>
      obtain ⟨rfl, rfl⟩ := List.cons.inj hmore
      exact Or.inl ⟨(List.append_nil xs).symm, rfl, rfl⟩
    | cons c more =>
      obtain ⟨rfl, rfl⟩ := List.cons.inj hmore
      exact Or.inr (Or.inl ⟨more, rfl, rfl⟩)
  · cases more with
    | nil =>
      obtain ⟨rfl, rfl⟩ := List.cons.inj hmore
      exact Or.inl ⟨List.append_nil us, rfl, rfl⟩
    | cons c more =>
      obtain ⟨rfl, rfl⟩ := List.cons.inj hmore
      exact Or.inr (Or.inr ⟨more, rfl, rfl⟩)

/-- No parenthesis of a text is its first one when none stands outside quoted runs. -/
lemma not_isFirstParen {before after : List Char} {c : Char} (h : ¬HasOutside (· == '(') text)
    (htext : text = before ++ c :: after) : ¬IsFirstParen before c := fun hc =>
  h ⟨before, c, after, htext, hc.closed, beq_iff_eq.2 hc.paren⟩

/-- No parenthesis behind another one is the first. -/
lemma IsFirstParen.not_isFirstParen_append {before : List Char} (h : IsFirstParen before '(')
    (more : List Char) (c : Char) : ¬IsFirstParen (before ++ '(' :: more) c := fun hc =>
  hc.first ⟨before, '(', more, rfl, h.closed, rfl⟩

namespace Neighbours

variable (pair : Neighbours)

/-- The place of two neighbours behind a closed text, when the text is left out. -/
lemma exists_behind {front part : List Char} (hclosed : Closed front)
    (hbefore : pair.before = front ++ part) :
    ∃ shorter : Neighbours, shorter.before = part ∧ shorter.gap = pair.gap ∧
      pair.whole = front ++ shorter.whole := by
  have hdropped : ∀ more c, IsDropped (front ++ more) c ↔ IsDropped more c := by
    intro more c
    rw [IsDropped, hclosed.append_iff, IsDropped]
  obtain ⟨before, left, gap, right, after, hleft, hgap, hright⟩ := pair
  obtain rfl : before = front ++ part := hbefore
  refine ⟨⟨part, left, gap, right, after, ?_, ?_, ?_⟩, rfl, rfl, by simp [whole, upTo]⟩
  · rwa [hdropped] at hleft
  · intro more c rest hmore
    have hc := hgap more c rest hmore
    rwa [List.append_assoc, List.append_assoc, hdropped, ← List.append_assoc] at hc
  · rwa [List.append_assoc, hdropped] at hright

/-- Tokens that come behind the text of two neighbours do not matter to them. -/
lemma together_before {front more : List Char} (hfront : front = pair.upTo ++ pair.right :: more)
    (tokens : List Token) :
    Together (tokensOf front ++ tokens) (keptText pair.before).length ↔ pair.gap = [] := by
  let shorter : Neighbours := { pair with after := more }
  obtain rfl : front = shorter.whole := hfront
  have hlt : (keptText pair.before).length + 1 < (tokensOf shorter.whole).flatten.length := by
    rw [flatten_tokensOf]
    exact shorter.add_one_lt_length
  rw [together_append_of_lt hlt]
  exact shorter.together_tokensOf

/-- Behind the first parenthesis the tokens are those of the text that is left. -/
lemma together_behind {front part back : List Char} (hfirst : IsFirstParen front '(')
    (htext : pair.whole = front ++ '(' :: back) (hbefore : pair.before = front ++ '(' :: part) :
    Together (tokensOf front ++ ['('] :: tokensOf back) (keptText pair.before).length ↔
      pair.gap = [] := by
  have hkept : (keptText pair.before).length =
      (tokensOf front ++ [['(']]).flatten.length + (keptText part).length := by
    rw [hbefore, hfirst.keptText_append, List.flatten_append, flatten_tokensOf,
      List.append_cons, List.length_append]
    rfl
  rw [List.append_cons] at hbefore
  obtain ⟨shorter, rfl, hgap, hback⟩ := pair.exists_behind hfirst.closed_concat hbefore
  obtain rfl : shorter.whole = back := by
    rw [htext, List.append_cons] at hback
    exact (List.append_cancel_left hback).symm
  rw [List.append_cons, hkept, together_append_add, shorter.together_tokensOf, hgap]

/-- Characters next to each other belong to different tokens exactly when something is dropped
between them, or one of them is the first parenthesis. -/
lemma not_together_iff :
    ¬Together (tokensOf (isolateParen none pair.whole)) (keptText pair.before).length ↔
      pair.gap ≠ [] ∨ IsFirstParen pair.before pair.left ∨ IsFirstParen pair.upTo pair.right := by
  rcases exists_isFirstParen pair.whole with hnone | ⟨front, back, htext, hfirst⟩
  · -- without a parenthesis only the blanks count
    have hleft : ¬IsFirstParen pair.before pair.left := not_isFirstParen hnone pair.whole_eq
    have hright : ¬IsFirstParen pair.upTo pair.right := not_isFirstParen hnone rfl
    rw [isolateParen_of_not_hasOutside hnone, pair.together_tokensOf]
    simp only [hleft, hright, or_false, ne_eq]
  rw [htext, hfirst.tokensOf_isolateParen back]
  rcases append_cons_eq_append_cons htext with
    ⟨rfl, hparen, -⟩ | ⟨more, hfront, -⟩ | ⟨more, hupTo, -⟩
  · -- the right one is the parenthesis, and the tokens before it end with the left one
    refine iff_of_true (not_together_append ?_) (Or.inr (Or.inr (hparen ▸ hfirst)))
    rw [flatten_tokensOf, keptText_upTo, List.length_append]
    rfl
  · -- both stand in front of the parenthesis
    have hfree : ¬HasOutside (· == '(') (pair.upTo ++ pair.right :: more) := hfront ▸ hfirst.first
    have hleft : ¬IsFirstParen pair.before pair.left :=
      not_isFirstParen hfree { pair with after := more : Neighbours }.whole_eq
    have hright : ¬IsFirstParen pair.upTo pair.right := not_isFirstParen hfree rfl
    rw [pair.together_before hfront]
    simp only [hleft, hright, or_false, ne_eq]
  rcases append_cons_eq_append_cons hupTo with
    ⟨rfl, hparen, -⟩ | ⟨part, -, hgap⟩ | ⟨part, hbefore, -⟩
  · -- the left one is the parenthesis, and a token ends with it
    refine iff_of_true ?_ (Or.inr (Or.inl (hparen ▸ hfirst)))
    rw [List.append_cons]
    apply not_together_append
    rw [List.flatten_append, flatten_tokensOf, List.length_append]
    rfl
  · -- a parenthesis is no blank, so none stands between the two
    exact absurd (pair.gap_dropped part '(' more hgap).2 (by decide)
  · -- both stand behind the parenthesis
    have hleft : ¬IsFirstParen pair.before pair.left := by
      rw [hbefore]
      exact hfirst.not_isFirstParen_append part _
    have hright : ¬IsFirstParen pair.upTo pair.right := by
      rw [hupTo]
      exact hfirst.not_isFirstParen_append more _
    rw [pair.together_behind hfirst htext hbefore]
    simp only [hleft, hright, or_false, ne_eq]

end Neighbours

/-! ## Tokens of a line -/

/-- A text is cut into tokens when they hold what is kept of it, none of them is empty, and
the text is cut at what is dropped and around the first parenthesis, and nowhere else. -/
structure CutInto (body : List Char) (tokens : List Token) : Prop where
  flatten : tokens.flatten = keptText body
  ne_nil : ∀ token ∈ tokens, token ≠ []
  apart : ∀ pair : Neighbours, pair.whole = body →
    (¬Together tokens (keptText pair.before).length ↔
      pair.gap ≠ [] ∨ IsFirstParen pair.before pair.left ∨ IsFirstParen pair.upTo pair.right)
  paren : ∀ before after, body = before ++ '(' :: after → IsFirstParen before '(' →
    ∃ left right, tokens = left ++ ['('] :: right ∧ left.flatten = keptText before

lemma keptText_isolateParen (body : List Char) :
    keptText (isolateParen none body) = keptText body := by
  rcases exists_isFirstParen body with hnone | ⟨before, after, rfl, hfirst⟩
  · rw [isolateParen_of_not_hasOutside hnone]
  · rw [← flatten_tokensOf, hfirst.tokensOf_isolateParen, List.flatten_append, List.flatten_cons,
      flatten_tokensOf, flatten_tokensOf, hfirst.keptText_append, List.singleton_append]

lemma cutInto_tokensOf_isolateParen (body : List Char) :
    CutInto body (tokensOf (isolateParen none body)) where
  flatten := by rw [flatten_tokensOf, keptText_isolateParen]
  ne_nil token htoken := by
    rintro rfl
    exact absurd (List.mem_filter.1 htoken).2 (by decide)
  apart := by
    rintro pair rfl
    exact pair.not_together_iff
  paren := by
    rintro before after rfl hfirst
    exact ⟨_, _, hfirst.tokensOf_isolateParen after, flatten_tokensOf before⟩

/-- All that can come of a line: it has no semicolon at its end, or a quoted run before the
semicolon is left open, or it has tokens. -/
lemma tokenize_cases (line : String) :
    ((∀ body, trimEnd line.toList ≠ body ++ [';']) ∧ tokenize line = .error .noTerminator) ∨
    ∃ body, trimEnd line.toList = body ++ [';'] ∧
      ((¬Closed body ∧ ∃ stray, tokenize line = .error (.openQuote stray)) ∨
        Closed body ∧ tokenize line = .ok (tokensOf (isolateParen none body))) := by
  unfold tokenize
  cases hbody : stripLast? ';' (trimEnd line.toList) with
  | none =>
    refine Or.inl ⟨fun body hline => ?_, rfl⟩
    rw [stripLast?_eq_some_iff.2 hline] at hbody
    cases hbody
  | some body =>
    refine Or.inr ⟨body, stripLast?_eq_some_iff.1 hbody, ?_⟩
    have hclosed : Closed body ↔ openRun none (isolateParen none body) = none := by
      rw [openRun_eq_none_iff, Option.map_none, quoteAtEnd_isolateParen, closed_iff]
    rw [hclosed]
    simp only [Token.scan_eq]
    cases openRun none (isolateParen none body) with
    | none => exact Or.inr ⟨rfl, rfl⟩
    | some run => exact Or.inl ⟨Option.some_ne_none run, _, rfl⟩

lemma tokenize_eq_ok_iff {line : String} {tokens : List Token} :
    tokenize line = .ok tokens ↔ ∃ body, trimEnd line.toList = body ++ [';'] ∧ Closed body ∧
      tokens = tokensOf (isolateParen none body) := by
  constructor
  · intro h
    rcases tokenize_cases line with ⟨-, herror⟩ | ⟨body, hline, ⟨-, stray, herror⟩ | ⟨hclosed, hok⟩⟩
    · rw [h] at herror
      cases herror
    · rw [h] at herror
      cases herror
    · exact ⟨body, hline, hclosed, Except.ok.inj (h.symm.trans hok)⟩
  · rintro ⟨body, hline, hclosed, rfl⟩
    rcases tokenize_cases line with ⟨hnone, -⟩ | ⟨body', hline', hcases⟩
    · exact absurd hline (hnone body)
    · obtain rfl : body = body' := List.append_cancel_right (hline.symm.trans hline')
      rcases hcases with ⟨hopen, -⟩ | ⟨-, hok⟩
      · exact absurd hclosed hopen
      · exact hok

/-- A line has tokens exactly when it ends in a semicolon, blanks behind it aside, and every
quoted run before the semicolon is closed.  The text before it is then cut into the tokens. -/
theorem tokenize_cuts (line : String) :
    ((∃ tokens, tokenize line = .ok tokens) ↔
      ∃ body, trimEnd line.toList = body ++ [';'] ∧ Closed body) ∧
    (∀ e, tokenize line = .error e → e = .noTerminator ∨ ∃ stray, e = .openQuote stray) ∧
    ∀ tokens, tokenize line = .ok tokens →
      ∃ body, trimEnd line.toList = body ++ [';'] ∧ CutInto body tokens := by
  refine ⟨⟨?_, ?_⟩, fun e h => ?_, fun tokens h => ?_⟩
  · rintro ⟨tokens, h⟩
    obtain ⟨body, hline, hclosed, -⟩ := tokenize_eq_ok_iff.1 h
    exact ⟨body, hline, hclosed⟩
  · rintro ⟨body, hline, hclosed⟩
    exact ⟨_, tokenize_eq_ok_iff.2 ⟨body, hline, hclosed, rfl⟩⟩
  · rcases tokenize_cases line with ⟨-, herror⟩ | ⟨body, -, ⟨-, stray, herror⟩ | ⟨-, hok⟩⟩
    · exact Or.inl (Except.error.inj (h.symm.trans herror))
    · exact Or.inr ⟨stray, Except.error.inj (h.symm.trans herror)⟩
    · rw [h] at hok
      cases hok
  · obtain ⟨body, hline, -, rfl⟩ := tokenize_eq_ok_iff.1 h
    exact ⟨body, hline, cutInto_tokensOf_isolateParen body⟩

/-- A line with quotes of both kinds, a parenthesis and a blank between quotes, and two
parentheses outside. -/
theorem tokenize_cuts_of_two_parentheses :
    let tokens := ["VALUES".toList, "(".toList, "'a(\" b',\"c d\"f(".toList, "g)".toList]
    tokenize "VALUES('a(\" b',\"c d\"f(\t g); \n" = .ok tokens ∧
      ∃ body, trimEnd "VALUES('a(\" b',\"c d\"f(\t g); \n".toList = body ++ [';'] ∧
        CutInto body tokens := by
  intro tokens
  have h : tokenize "VALUES('a(\" b',\"c d\"f(\t g); \n" = .ok tokens := by decide +kernel
  exact ⟨h, (tokenize_cuts _).2.2 tokens h⟩

end FlatQuery
