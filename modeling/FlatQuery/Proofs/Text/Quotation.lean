/-
# Reading a text piece by piece

All that a reader of a text has to know about what came before is the quote that is open.
This file states what follows for a text that is put together from pieces: the quote open
after the whole is found piece by piece, and a piece that holds no cut outside quoted runs
stays in one piece when it becomes part of a longer text.
-/
import FlatQuery.Token
import Mathlib.Tactic.Lemma

namespace FlatQuery

variable {isCut : Char → Bool} {quote : Option Char} {cs ds : List Char}

/-- A text is solid when none of its characters outside quoted runs is of the given class, so
that a cut at those characters leaves it in one piece.  It is read with the given quote open
at its start. -/
def IsSolid (isCut : Char → Bool) (quote : Option Char) (cs : List Char) : Prop :=
  splitUnquoted isCut quote cs = [cs]

instance (isCut : Char → Bool) (quote : Option Char) (cs : List Char) :
    Decidable (IsSolid isCut quote cs) :=
  inferInstanceAs (Decidable (_ = _))

/-! ## Quotes -/

lemma eq_of_isQuote {c : Char} (h : isQuote c) : c = '\'' ∨ c = '"' := by
  simpa [isQuote] using h

lemma not_isBlank_of_isQuote {c : Char} (h : isQuote c) : ¬isBlank c := by
  rcases eq_of_isQuote h with rfl | rfl <;> decide

/-! ## The open quote -/

@[simp] lemma quoteAtEnd_nil (quote : Option Char) : quoteAtEnd quote [] = quote := rfl

@[simp] lemma quoteAtEnd_cons (quote : Option Char) (c : Char) (cs : List Char) :
    quoteAtEnd quote (c :: cs) = quoteAtEnd (quoteAfter quote c) cs := rfl

lemma quoteAtEnd_append (quote : Option Char) (cs ds : List Char) :
    quoteAtEnd quote (cs ++ ds) = quoteAtEnd (quoteAtEnd quote cs) ds :=
  List.foldl_append

lemma quoteAfter_none_of_not_isQuote {c : Char} (h : ¬isQuote c) : quoteAfter none c = none := by
  simp [quoteAfter, h]

lemma quoteAfter_none_of_isQuote {mark : Char} (h : isQuote mark) :
    quoteAfter none mark = some mark := by
  simp [quoteAfter, h]

/-- A quote stays open in a text in which it does not occur. -/
lemma quoteAtEnd_some_of_not_mem {mark : Char} (h : mark ∉ cs) :
    quoteAtEnd (some mark) cs = some mark := by
  induction cs with
  | nil => rfl
  | cons c cs ih =>
    simp only [List.mem_cons, not_or] at h
    rw [quoteAtEnd_cons, quoteAfter, if_neg (Ne.symm h.1), ih h.2]

/-! ## Solid texts -/

@[simp] lemma isSolid_nil : IsSolid isCut quote [] := rfl

lemma isSolid_cons {c : Char} :
    IsSolid isCut quote (c :: cs) ↔
      ¬(quote = none ∧ isCut c) ∧ IsSolid isCut (quoteAfter quote c) cs := by
  rw [IsSolid, splitUnquoted]
  split
  · next hcut => simp [hcut]
  · next hcut =>
    rcases h : splitUnquoted isCut (quoteAfter quote c) cs with _ | ⟨piece, pieces⟩
    · exact absurd h (splitUnquoted_ne_nil _ _ _)
    · simp [IsSolid, h, hcut]

/-- In front of another text a solid text becomes part of the first piece. -/
lemma IsSolid.splitUnquoted_append (h : IsSolid isCut quote cs) (rest : List Char) :
    splitUnquoted isCut quote (cs ++ rest) =
      (splitUnquoted isCut (quoteAtEnd quote cs) rest).modifyHead (cs ++ ·) := by
  induction cs generalizing quote with
  | nil =>
    rcases hr : splitUnquoted isCut quote rest with _ | ⟨piece, pieces⟩ <;> simp [hr]
  | cons c cs ih =>
    obtain ⟨hc, hcs⟩ := isSolid_cons.1 h
    rw [List.cons_append, splitUnquoted, if_neg hc, ih hcs, quoteAtEnd_cons,
      List.modifyHead_modifyHead]
    rfl

lemma IsSolid.append (h : IsSolid isCut quote cs) (hd : IsSolid isCut (quoteAtEnd quote cs) ds) :
    IsSolid isCut quote (cs ++ ds) := by
  rw [IsSolid, h.splitUnquoted_append, hd]
  rfl

/-- A text without quotes and without cuts is solid. -/
lemma isSolid_of_forall (h : ∀ c ∈ cs, ¬isQuote c ∧ ¬isCut c) : IsSolid isCut none cs := by
  induction cs with
  | nil => exact isSolid_nil
  | cons c cs ih =>
    obtain ⟨hquote, hcut⟩ := h c List.mem_cons_self
    refine isSolid_cons.2 ⟨fun hc => hcut hc.2, ?_⟩
    rw [quoteAfter_none_of_not_isQuote hquote]
    exact ih fun d hd => h d (List.mem_cons_of_mem c hd)

lemma quoteAtEnd_none_of_forall (h : ∀ c ∈ cs, ¬isQuote c) : quoteAtEnd none cs = none := by
  induction cs with
  | nil => rfl
  | cons c cs ih =>
    rw [quoteAtEnd_cons, quoteAfter_none_of_not_isQuote (h c List.mem_cons_self)]
    exact ih fun d hd => h d (List.mem_cons_of_mem c hd)

/-- Inside a quoted run nothing is a cut. -/
lemma isSolid_some_of_not_mem {mark : Char} (h : mark ∉ cs) : IsSolid isCut (some mark) cs := by
  induction cs with
  | nil => exact isSolid_nil
  | cons c cs ih =>
    simp only [List.mem_cons, not_or] at h
    refine isSolid_cons.2 ⟨by simp, ?_⟩
    rw [quoteAfter, if_neg (Ne.symm h.1)]
    exact ih h.2

/-! ## Quoted runs -/

section Run

variable {mark : Char} {inner : List Char}

/-- After a quoted run no quote is open. -/
lemma quoteAtEnd_run (hmark : isQuote mark) (hinner : mark ∉ inner) :
    quoteAtEnd none (mark :: (inner ++ [mark])) = none := by
  rw [quoteAtEnd_cons, quoteAfter_none_of_isQuote hmark, quoteAtEnd_append,
    quoteAtEnd_some_of_not_mem hinner]
  simp [quoteAfter]

/-- A quoted run is solid for every class of characters without its quote. -/
lemma isSolid_run (hmark : isQuote mark) (hinner : mark ∉ inner) (hcut : ¬isCut mark) :
    IsSolid isCut none (mark :: (inner ++ [mark])) := by
  refine isSolid_cons.2 ⟨fun hc => hcut hc.2, ?_⟩
  rw [quoteAfter_none_of_isQuote hmark]
  refine (isSolid_some_of_not_mem hinner).append ?_
  rw [quoteAtEnd_some_of_not_mem hinner]
  exact isSolid_cons.2 ⟨by simp, isSolid_nil⟩

end Run

/-! ## The first parenthesis -/

/-- A solid text is passed over in the search for the first opening parenthesis. -/
lemma IsSolid.isolateParen_append (h : IsSolid (· == '(') quote cs) (rest : List Char) :
    isolateParen quote (cs ++ rest) = cs ++ isolateParen (quoteAtEnd quote cs) rest := by
  induction cs generalizing quote with
  | nil => rfl
  | cons c cs ih =>
    obtain ⟨hc, hcs⟩ := isSolid_cons.1 h
    rw [List.cons_append, isolateParen, if_neg (by simpa using hc), ih hcs]
    rfl

/-- The spaces around the first opening parenthesis do not open or close a quote. -/
lemma quoteAtEnd_isolateParen (quote : Option Char) (cs : List Char) :
    quoteAtEnd quote (isolateParen quote cs) = quoteAtEnd quote cs := by
  induction cs generalizing quote with
  | nil => rfl
  | cons c cs ih =>
    rw [isolateParen]
    split
    · next h =>
      obtain ⟨rfl, rfl⟩ := h
      rfl
    · rw [quoteAtEnd_cons, quoteAtEnd_cons, ih]

end FlatQuery
