/-
# How tokens are found

The tokens of a text are found from left to right: what stands before the first unit is the gap
before a token, the units from there on are the token, and then the search goes on behind it.
The end of the search is that of looking at the open quote only (`Token.scan_eq`): when every quoted
run is closed, the text is cut at the blanks outside them, and when a quote is left open, what
cannot be part of a token is found behind it.

The two agree because a gap is settled by its first quote.  Without one it is blank, and with
one that quote is never closed, so that it is the open quote of the text (`checkGap_strayText`).
-/
import FlatQuery.Proofs.Text.Quotation
import Mathlib.Data.List.DropRight

namespace FlatQuery

variable {text unit gap rest blanks : List Char} {c : Char} {token : Token}

/-! ## Cutting a text at its blanks -/

/-- A token is well formed when it is not empty, has no blank outside quoted runs, and leaves
no quoted run open. -/
structure Token.WellFormed (token : Token) : Prop where
  ne_nil : token ≠ []
  solid : IsSolid isBlank none token
  closed : quoteAtEnd none token = none

/-- The pieces of a text between the blanks outside quoted runs. -/
def tokensOf (text : List Char) : List Token :=
  (splitUnquoted isBlank none text).filter (!·.isEmpty)

@[simp] lemma tokensOf_nil : tokensOf [] = [] := by decide

lemma tokensOf_cons_of_isBlank (h : isBlank c) (text : List Char) :
    tokensOf (c :: text) = tokensOf text := by
  rw [tokensOf, splitUnquoted, if_pos ⟨rfl, h⟩]
  rfl

lemma tokensOf_space (text : List Char) : tokensOf (' ' :: text) = tokensOf text :=
  tokensOf_cons_of_isBlank (by decide) text

lemma tokensOf_append_of_isBlank (h : ∀ c ∈ blanks, isBlank c) (text : List Char) :
    tokensOf (blanks ++ text) = tokensOf text := by
  induction blanks with
  | nil => rfl
  | cons c blanks ih =>
    obtain ⟨hc, hblanks⟩ := List.forall_mem_cons.1 h
    rw [List.cons_append, tokensOf_cons_of_isBlank hc, ih hblanks]

lemma tokensOf_of_isSolid (h : IsSolid isBlank none text) :
    tokensOf text = if text = [] then [] else [text] := by
  rw [tokensOf, show splitUnquoted isBlank none text = [text] from h]
  cases text <;> rfl

lemma Token.WellFormed.tokensOf_self (h : token.WellFormed) : tokensOf token = [token] := by
  rw [tokensOf_of_isSolid h.solid, if_neg h.ne_nil]

/-- A well-formed token in front of a blank is the first token. -/
lemma Token.WellFormed.tokensOf_append_cons (h : token.WellFormed) (hc : isBlank c)
    (text : List Char) : tokensOf (token ++ c :: text) = token :: tokensOf text := by
  have hblank : splitUnquoted isBlank none (c :: text) =
      [] :: splitUnquoted isBlank none text := by
    rw [splitUnquoted, if_pos ⟨rfl, hc⟩]
  have hkeep : (!List.isEmpty token) = true := by simpa using h.ne_nil
  rw [tokensOf, h.solid.splitUnquoted_append, h.closed, hblank, List.modifyHead_cons,
    List.append_nil, List.filter_cons, if_pos hkeep, tokensOf]

lemma Token.WellFormed.tokensOf_append_space (h : token.WellFormed) (text : List Char) :
    tokensOf (token ++ ' ' :: text) = token :: tokensOf text :=
  h.tokensOf_append_cons (by decide) text

/-! ## The run that is left open -/

/-- The end of a text from the quote on that is still open there, or nothing when every quoted
run is closed.  The first argument is the run that is open at the start: its quote, and the
text from that quote on. -/
def openRun : Option (Char × List Char) → List Char → Option (List Char)
  | run, [] => run.map (·.2)
  | none, c :: cs => openRun (if isQuote c then some (c, c :: cs) else none) cs
  | some (q, run), c :: cs => openRun (if c = q then none else some (q, run)) cs

/-- No run reaches to the end of a text exactly when no quote is open there. -/
lemma openRun_eq_none_iff (run : Option (Char × List Char)) (cs : List Char) :
    openRun run cs = none ↔ quoteAtEnd (run.map (·.1)) cs = none := by
  induction cs generalizing run with
  | nil => simp [openRun, quoteAtEnd]
  | cons c cs ih =>
    rcases run with _ | ⟨q, run⟩
    · by_cases hc : isQuote c <;> simp [openRun, quoteAtEnd, quoteAfter, hc, ih]
    · by_cases hc : c = q <;> simp [openRun, quoteAtEnd, quoteAfter, hc, ih]

lemma openRun_cons_of_not_isQuote (h : ¬isQuote c) (text : List Char) :
    openRun none (c :: text) = openRun none text := by
  rw [openRun, if_neg h]

lemma openRun_some_of_not_mem (run : List Char) (h : c ∉ text) :
    openRun (some (c, run)) text = some run := by
  induction text with
  | nil => rfl
  | cons d text ih =>
    simp only [List.mem_cons, not_or] at h
    rw [openRun, if_neg (Ne.symm h.1), ih h.2]

/-- A quote that does not come again opens a run that goes to the end. -/
lemma openRun_cons_of_not_mem (hc : isQuote c) (h : c ∉ text) :
    openRun none (c :: text) = some (c :: text) := by
  rw [openRun, if_pos hc, openRun_some_of_not_mem _ h]

lemma openRun_append_of_isBlank (h : ∀ c ∈ blanks, isBlank c) (text : List Char) :
    openRun none (blanks ++ text) = openRun none text := by
  induction blanks with
  | nil => rfl
  | cons c blanks ih =>
    obtain ⟨hc, hblanks⟩ := List.forall_mem_cons.1 h
    have hquote : ¬isQuote c := fun hquote => not_isBlank_of_isQuote hquote hc
    rw [List.cons_append, openRun_cons_of_not_isQuote hquote, ih hblanks]

/-- Where no quote is open, what stands before does not matter. -/
lemma openRun_append {run : Option (Char × List Char)} {cs : List Char}
    (h : quoteAtEnd (run.map (·.1)) cs = none) (text : List Char) :
    openRun run (cs ++ text) = openRun none text := by
  induction cs generalizing run with
  | nil =>
    obtain rfl : run = none := Option.map_eq_none_iff.1 h
    rfl
  | cons c cs ih =>
    rw [quoteAtEnd_cons] at h
    rcases run with _ | ⟨mark, run⟩
    · by_cases hc : isQuote c
      · rw [List.cons_append, openRun, if_pos hc]
        exact ih (by rwa [Option.map_none, quoteAfter_none_of_isQuote hc] at h)
      · rw [List.cons_append, openRun_cons_of_not_isQuote hc]
        exact ih (by rwa [Option.map_none, quoteAfter_none_of_not_isQuote hc] at h)
    · by_cases hc : c = mark
      · rw [List.cons_append, openRun, if_pos hc]
        exact ih (by simpa [quoteAfter, hc] using h)
      · rw [List.cons_append, openRun, if_neg hc]
        exact ih (by simpa [quoteAfter, hc] using h)

lemma Token.WellFormed.openRun_append (h : token.WellFormed) (text : List Char) :
    openRun none (token ++ text) = openRun none text :=
  @FlatQuery.openRun_append none token h.closed text

/-! ## Units -/

/-- A unit is a quoted run that is closed, or a character that is neither blank nor a quote. -/
inductive IsUnit : List Char → Prop
  | run {mark : Char} {inner : List Char} (hmark : isQuote mark) (hinner : mark ∉ inner) :
      IsUnit (mark :: (inner ++ [mark]))
  | plain {c : Char} (hquote : ¬isQuote c) (hblank : ¬isBlank c) : IsUnit [c]

/-- Every unit at the start of a text is found there, so that there is only one. -/
lemma unit?_eq_some_iff :
    Token.unit? text = some (unit, rest) ↔ IsUnit unit ∧ text = unit ++ rest := by
  constructor
  · intro h
    unfold Token.unit? at h
    split at h
    · cases h
    next c cs =>
    split at h
    · next hquote =>
      split at h
      · cases h
      next mark behind hbehind =>
      cases h
      have hmark : mark = c := by
        have hstop := List.head?_dropWhile_not (· != c) cs
        rw [hbehind] at hstop
        simpa using hstop
      subst hmark
      refine ⟨.run hquote fun hmem => ?_, ?_⟩
      · simpa using List.mem_takeWhile_imp hmem
      · rw [List.cons_append, List.append_assoc, List.singleton_append, ← hbehind,
          List.takeWhile_append_dropWhile]
    · next hquote =>
      split at h
      · cases h
      next hblank =>
      cases h
      exact ⟨.plain hquote hblank, rfl⟩
  · rintro ⟨hunit, rfl⟩
    cases hunit with
    | @run mark inner hmark hinner =>
      have hpass : ∀ d ∈ inner, (d != mark) = true := fun d hd =>
        bne_iff_ne.2 fun heq => hinner (heq ▸ hd)
      have htake : (inner ++ mark :: rest).takeWhile (· != mark) = inner := by
        simp [List.takeWhile_append_of_pos hpass]
      have hdrop : (inner ++ mark :: rest).dropWhile (· != mark) = mark :: rest := by
        simp [List.dropWhile_append_of_pos hpass]
      rw [List.cons_append, List.append_assoc, List.singleton_append, Token.unit?, if_pos hmark,
        hdrop, htake]
    | plain hquote hblank =>
      rw [List.singleton_append, Token.unit?, if_neg hquote, if_neg hblank]

/-- No unit begins at a blank, nor at a quote that does not come again. -/
lemma unit?_cons_eq_none_iff :
    Token.unit? (c :: text) = none ↔ isBlank c ∨ isQuote c ∧ c ∉ text := by
  have hdrop : text.dropWhile (· != c) = [] ↔ c ∉ text := by
    rw [List.dropWhile_eq_nil_iff]
    simp only [bne_iff_ne]
    exact ⟨fun h hmem => h c hmem rfl, fun h d hd heq => h (heq ▸ hd)⟩
  rw [Token.unit?]
  by_cases hquote : isQuote c
  · have hblank : ¬isBlank c := not_isBlank_of_isQuote hquote
    rw [if_pos hquote, ← hdrop]
    cases text.dropWhile (· != c) <;> simp [hquote, hblank]
  · by_cases hblank : isBlank c <;> simp [hquote, hblank]

lemma IsUnit.wellFormed (h : IsUnit unit) : Token.WellFormed unit := by
  cases h with
  | run hmark hinner =>
    exact ⟨List.cons_ne_nil _ _, isSolid_run hmark hinner (not_isBlank_of_isQuote hmark),
      quoteAtEnd_run hmark hinner⟩
  | @plain c hquote hblank =>
    have hall : ∀ d ∈ [c], ¬isQuote d ∧ ¬isBlank d := by simp [hquote, hblank]
    exact ⟨List.cons_ne_nil _ _, isSolid_of_forall hall,
      quoteAtEnd_none_of_forall fun d hd => (hall d hd).1⟩

/-! ## One token -/

/-- The units at the start of a text are taken until none follows, and no quote is open between
them. -/
lemma takeUnits_eq {text rest : List Char} {token : Token}
    (h : Token.takeUnits text = (token, rest)) :
    text = token ++ rest ∧ Token.unit? rest = none ∧ IsSolid isBlank none token ∧
      quoteAtEnd none token = none := by
  fun_induction Token.takeUnits text generalizing token with
  | case1 text hnone =>
    cases h
    exact ⟨rfl, hnone, isSolid_nil, rfl⟩
  | case2 text unit behind hunit ih =>
    obtain ⟨htoken, hrest⟩ := Prod.mk.inj h
    obtain ⟨hisUnit, rfl⟩ := unit?_eq_some_iff.1 hunit
    obtain ⟨hbehind, hend, hsolid, hclosed⟩ := ih (Prod.ext rfl hrest)
    obtain rfl := htoken
    refine ⟨?_, hend, hisUnit.wellFormed.solid.append ?_, ?_⟩
    · rw [List.append_assoc, ← hbehind]
    · rwa [hisUnit.wellFormed.closed]
    · rw [quoteAtEnd_append, hisUnit.wellFormed.closed, hclosed]

/-- What cannot be part of a token at the start of a text: blanks, and quotes that do not come
again. -/
def strayText : List Char → List Char
  | [] => []
  | c :: cs => if isBlank c || (isQuote c && !cs.contains c) then c :: strayText cs else []

lemma strayText_cons (c : Char) (cs : List Char) :
    strayText (c :: cs) = if Token.unit? (c :: cs) = none then c :: strayText cs else [] := by
  simp only [strayText, unit?_cons_eq_none_iff, Bool.or_eq_true, Bool.and_eq_true,
    Bool.not_eq_true', List.contains_eq_mem, decide_eq_false_iff_not]

/-- The first token in a text, with what stands before it and the text behind it. -/
structure FindsFirst (text gap : List Char) (token : Token) (rest : List Char) : Prop where
  whole : text = gap ++ (token ++ rest)
  gap_eq : gap = strayText text
  wellFormed : token.WellFormed
  ended : Token.unit? rest = none

lemma findsFirst_of_first? (h : Token.first? text = some (gap, token, rest)) :
    FindsFirst text gap token rest := by
  fun_induction Token.first? text generalizing gap with
  | case1 => cases h
  | case2 c cs hunit =>
    obtain ⟨rfl, htake⟩ := Prod.mk.inj (Option.some.inj h)
    obtain ⟨hwhole, hended, hsolid, hclosed⟩ := takeUnits_eq htake
    refine ⟨hwhole, ?_, ⟨?_, hsolid, hclosed⟩, hended⟩
    · rw [strayText_cons, if_neg (Option.isSome_iff_ne_none.1 hunit)]
    · -- a text at which a unit begins is not what the units leave over
      rintro rfl
      rw [hwhole, List.nil_append, hended] at hunit
      cases hunit
  | case3 c cs hunit ih =>
    obtain ⟨⟨gap', found⟩, hfound, h⟩ := Option.map_eq_some_iff.1 h
    cases h
    obtain ⟨hwhole, hgap, hwellFormed, hended⟩ := ih hfound
    refine ⟨congrArg (c :: ·) hwhole, ?_, hwellFormed, hended⟩
    rw [strayText_cons, if_pos (by simpa using hunit), ← hgap]

lemma strayText_of_first? (h : Token.first? text = none) : strayText text = text := by
  fun_induction Token.first? text with
  | case1 => rfl
  | case2 => cases h
  | case3 c cs hunit ih =>
    rw [strayText_cons, if_pos (by simpa using hunit), ih (Option.map_eq_none_iff.1 h)]

/-! ## Gaps -/

lemma checkGap_of_isBlank (h : ∀ c ∈ gap, isBlank c) : Token.checkGap gap = .ok () := by
  have htrim : trim gap = [] := by
    rw [trim, trimStart_eq_nil_iff.2 (List.all_eq_true.2 h)]
    rfl
  rw [Token.checkGap, htrim]
  rfl

lemma checkGap_cons_of_isBlank (hc : isBlank c) (gap : List Char) :
    Token.checkGap (c :: gap) = Token.checkGap gap := by
  have htrim : trim (c :: gap) = trim gap := by
    rw [trim, trim, trimStart, List.dropWhile_cons_of_pos hc, trimStart]
  rw [Token.checkGap, Token.checkGap, htrim]

lemma checkGap_cons_of_not_isBlank (hc : ¬isBlank c) (gap : List Char) :
    Token.checkGap (c :: gap) = .error (.openQuote (trimEnd (c :: gap))) := by
  have htrim : trim (c :: gap) = trimEnd (c :: gap) := by
    rw [trim, trimStart, List.dropWhile_cons_of_neg hc]
  have hne : trimEnd (c :: gap) ≠ [] := fun h =>
    hc (List.rdropWhile_eq_nil_iff.1 h c List.mem_cons_self)
  rw [Token.checkGap, htrim, if_neg (by simpa using hne)]

/-- A gap is blank, or its first quote opens a run that is never closed. -/
lemma checkGap_strayText (text : List Char) :
    (∀ c ∈ strayText text, isBlank c) ∨
    ∃ run, openRun none text = some run ∧
      Token.checkGap (strayText text) = .error (.openQuote (trimEnd (strayText run))) := by
  induction text with
  | nil => exact .inl fun c hc => absurd hc List.not_mem_nil
  | cons c text ih =>
    by_cases hunit : Token.unit? (c :: text) = none
    · have hstray : strayText (c :: text) = c :: strayText text := by
        rw [strayText_cons, if_pos hunit]
      rcases unit?_cons_eq_none_iff.1 hunit with hblank | ⟨hquote, hmem⟩
      · have hplain : ¬isQuote c := fun hquote => not_isBlank_of_isQuote hquote hblank
        rw [hstray, checkGap_cons_of_isBlank hblank, openRun_cons_of_not_isQuote hplain]
        exact ih.imp_left fun hall => List.forall_mem_cons.2 ⟨hblank, hall⟩
      · refine .inr ⟨c :: text, openRun_cons_of_not_mem hquote hmem, ?_⟩
        rw [hstray, checkGap_cons_of_not_isBlank (not_isBlank_of_isQuote hquote)]
    · rw [strayText_cons, if_neg hunit]
      exact .inl fun c hc => absurd hc List.not_mem_nil

/-! ## All tokens -/

/-- The token that is found first is the first piece of the text, if what follows is closed. -/
lemma FindsFirst.tokensOf_eq (h : FindsFirst text gap token rest)
    (hgap : ∀ c ∈ gap, isBlank c) (hrest : openRun none rest = none) :
    tokensOf text = token :: tokensOf rest := by
  rw [h.whole, tokensOf_append_of_isBlank hgap]
  cases rest with
  | nil => rw [List.append_nil, h.wellFormed.tokensOf_self, tokensOf_nil]
  | cons c rest =>
    rcases unit?_cons_eq_none_iff.1 h.ended with hblank | ⟨hquote, hmem⟩
    · rw [h.wellFormed.tokensOf_append_cons hblank, tokensOf_cons_of_isBlank hblank]
    · rw [openRun_cons_of_not_mem hquote hmem] at hrest
      cases hrest

/-- The tokens that are found in a text are its pieces between the blanks, when every quoted run is
closed.  Otherwise what cannot be part of a token is found where the open run begins. -/
lemma Token.scan_eq (text : List Char) :
    Token.scan text =
      match openRun none text with
      | some run => .error (.openQuote (trimEnd (strayText run)))
      | none => .ok (tokensOf text) := by
  fun_induction Token.scan text with
  | case1 text hnone =>
    -- no unit is left, so the whole text is a gap
    have hstray : strayText text = text := strayText_of_first? hnone
    rcases checkGap_strayText text with hblank | ⟨run, hrun, hgap⟩
    · rw [hstray] at hblank
      have hopen : openRun none text = none := by
        have happend := openRun_append_of_isBlank hblank []
        rwa [List.append_nil] at happend
      have htokens : tokensOf text = [] := by
        have happend := tokensOf_append_of_isBlank hblank []
        rwa [List.append_nil] at happend
      rw [checkGap_of_isBlank hblank, hopen, htokens]
      rfl
    · rw [hstray] at hgap
      rw [hgap, hrun]
      rfl
  | case2 text gap token rest hfirst ih =>
    have hfinds := findsFirst_of_first? hfirst
    rcases checkGap_strayText text with hblank | ⟨run, hrun, hgap⟩
    · rw [← hfinds.gap_eq] at hblank
      have hopen : openRun none text = openRun none rest := by
        rw [hfinds.whole, openRun_append_of_isBlank hblank, hfinds.wellFormed.openRun_append]
      rw [checkGap_of_isBlank hblank, bind_ok, ih, hopen]
      cases hrest : openRun none rest with
      | some run => rfl
      | none =>
        rw [hfinds.tokensOf_eq hblank hrest]
        rfl
    · rw [← hfinds.gap_eq] at hgap
      rw [hgap, hrun]
      rfl

end FlatQuery
