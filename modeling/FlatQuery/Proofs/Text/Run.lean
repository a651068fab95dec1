/-
# Inside and outside of quoted runs

A quoted run goes from a quote to the next quote of the same kind.  A text is closed when it is
made up of such runs and of characters that are no quotes, and a character stands outside quoted
runs when the text before it is closed.  This file ties both notions to the reading of a text
from left to right: a text is closed when no quote is open after it (`closed_iff`), and solid
when no cut stands outside its runs (`isSolid_iff`).
-/
import FlatQuery.Proofs.Text.Quotation
import FlatQuery.Text.Blank
import Mathlib.Data.List.Induction

namespace FlatQuery

variable {isCut : Char → Bool} {quote : Option Char} {cs ds text : List Char}

/-- A text in which every quoted run is closed: it consists of characters that are no quotes,
and of runs from a quote to the next quote of the same kind. -/
inductive Closed : List Char → Prop
  | nil : Closed []
  | plain {c : Char} {cs : List Char} (hc : ¬isQuote c) (hrest : Closed cs) : Closed (c :: cs)
  | run {mark : Char} {inner cs : List Char} (hmark : isQuote mark) (hinner : mark ∉ inner)
      (hrest : Closed cs) : Closed (mark :: (inner ++ mark :: cs))

/-- A character of a class stands outside the quoted runs of a text. -/
def HasOutside (isClass : Char → Bool) (text : List Char) : Prop :=
  ∃ before c after, text = before ++ c :: after ∧ Closed before ∧ isClass c

/-! ## Closed texts -/

lemma Closed.quoteAtEnd (h : Closed text) : quoteAtEnd none text = none := by
  induction h with
  | nil => rfl
  | plain hc hrest ih => rw [quoteAtEnd_cons, quoteAfter_none_of_not_isQuote hc, ih]
  | run hmark hinner hrest ih =>
    rw [quoteAtEnd_cons, quoteAfter_none_of_isQuote hmark, quoteAtEnd_append,
      quoteAtEnd_some_of_not_mem hinner, quoteAtEnd_cons, quoteAfter, if_pos rfl, ih]

/-- What is read up to a point where no quote is open: a closed text, or the rest of a run with a
closed text behind it. -/
lemma closed_of_quoteAtEnd (cs : List Char) :
    (quoteAtEnd none cs = none → Closed cs) ∧
    ∀ mark, quoteAtEnd (some mark) cs = none →
      ∃ inner rest, cs = inner ++ mark :: rest ∧ mark ∉ inner ∧ Closed rest := by
  induction cs with
  | nil => exact ⟨fun _ => .nil, fun mark h => by cases h⟩
  | cons c cs ih =>
    obtain ⟨ihOutside, ihInside⟩ := ih
    refine ⟨fun h => ?_, fun mark h => ?_⟩
    · rw [quoteAtEnd_cons] at h
      by_cases hc : isQuote c
      · rw [quoteAfter_none_of_isQuote hc] at h
        obtain ⟨inner, rest, rfl, hinner, hrest⟩ := ihInside c h
        exact .run hc hinner hrest
      · rw [quoteAfter_none_of_not_isQuote hc] at h
        exact .plain hc (ihOutside h)
    · rw [quoteAtEnd_cons, quoteAfter] at h
      by_cases hc : c = mark
      · rw [if_pos hc] at h
        exact ⟨[], cs, by rw [hc, List.nil_append], List.not_mem_nil, ihOutside h⟩
      · rw [if_neg hc] at h
        obtain ⟨inner, rest, rfl, hinner, hrest⟩ := ihInside mark h
        exact ⟨c :: inner, rest, rfl, by simp [Ne.symm hc, hinner], hrest⟩

/-- A text is closed exactly when no quote is open after it. -/
lemma closed_iff : Closed text ↔ quoteAtEnd none text = none :=
  ⟨Closed.quoteAtEnd, (closed_of_quoteAtEnd text).1⟩

instance (text : List Char) : Decidable (Closed text) :=
  decidable_of_iff _ closed_iff.symm

lemma Closed.append_iff (h : Closed cs) : Closed (cs ++ ds) ↔ Closed ds := by
  rw [closed_iff, closed_iff, quoteAtEnd_append, h.quoteAtEnd]

/-- The quote that is open after a text is a quote. -/
lemma isQuote_of_quoteAtEnd {mark : Char} (h : quoteAtEnd none cs = some mark) : isQuote mark := by
  induction cs using List.reverseRecOn generalizing mark with
  | nil => cases h
  | append_singleton cs c ih =>
    rw [quoteAtEnd_append, quoteAtEnd_cons, quoteAtEnd_nil] at h
    cases hbefore : quoteAtEnd none cs with
    | none =>
      rw [hbefore, quoteAfter, Option.ite_none_right_eq_some] at h
      exact Option.some.inj h.2 ▸ h.1
    | some opened =>
      rw [hbefore, quoteAfter, Option.ite_none_left_eq_some] at h
      exact Option.some.inj h.2 ▸ ih hbefore

/-- A character that is no quote neither opens a run nor closes one. -/
lemma closed_concat_iff {c : Char} (hc : ¬isQuote c) : Closed (cs ++ [c]) ↔ Closed cs := by
  rw [closed_iff, closed_iff, quoteAtEnd_append, quoteAtEnd_cons, quoteAtEnd_nil]
  cases hmark : quoteAtEnd none cs with
  | none => simp [quoteAfter_none_of_not_isQuote hc]
  | some mark =>
    have hne : c ≠ mark := by
      rintro rfl
      exact hc (isQuote_of_quoteAtEnd hmark)
    simp [quoteAfter, hne]

/-! ## Solid texts -/

lemma isSolid_append_iff :
    IsSolid isCut quote (cs ++ ds) ↔
      IsSolid isCut quote cs ∧ IsSolid isCut (quoteAtEnd quote cs) ds := by
  induction cs generalizing quote with
  | nil => simp
  | cons c cs ih =>
    rw [List.cons_append, isSolid_cons, isSolid_cons, ih, and_assoc, quoteAtEnd_cons]

/-- A text is solid, or a first cut stands outside its quoted runs. -/
lemma isSolid_or_exists_cut (isCut : Char → Bool) (quote : Option Char) (text : List Char) :
    IsSolid isCut quote text ∨ ∃ before c after, text = before ++ c :: after ∧
      IsSolid isCut quote before ∧ quoteAtEnd quote before = none ∧ isCut c := by
  induction text generalizing quote with
  | nil => exact Or.inl isSolid_nil
  | cons c cs ih =>
    by_cases hc : quote = none ∧ isCut c
    · exact Or.inr ⟨[], c, cs, rfl, isSolid_nil, hc.1, hc.2⟩
    · rcases ih (quoteAfter quote c) with hsolid | ⟨before, d, after, rfl, hsolid, hopen, hd⟩
      · exact Or.inl (isSolid_cons.2 ⟨hc, hsolid⟩)
      · exact Or.inr ⟨c :: before, d, after, rfl, isSolid_cons.2 ⟨hc, hsolid⟩, hopen, hd⟩

/-- A text is solid exactly when no cut stands outside its quoted runs. -/
lemma isSolid_iff : IsSolid isCut none text ↔ ¬HasOutside isCut text := by
  constructor
  · rintro h ⟨before, c, after, rfl, hclosed, hc⟩
    have hrest := (isSolid_append_iff.1 h).2
    rw [hclosed.quoteAtEnd] at hrest
    exact (isSolid_cons.1 hrest).1 ⟨rfl, hc⟩
  · intro h
    refine (isSolid_or_exists_cut isCut none text).resolve_right ?_
    rintro ⟨before, c, after, htext, -, hopen, hc⟩
    exact h ⟨before, c, after, htext, closed_iff.2 hopen, hc⟩

instance (isClass : Char → Bool) (text : List Char) : Decidable (HasOutside isClass text) :=
  decidable_of_iff (¬IsSolid isClass none text) (not_iff_comm.1 isSolid_iff.symm)

end FlatQuery
