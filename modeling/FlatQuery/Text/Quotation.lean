/-
# Quoted runs

Inside a query a piece of text may stand between two quotes of the same kind, single or
double.  What stands there is taken as it is: a blank does not end a word, a comma does not
end an item, and a quote of the other kind means nothing.  Reading a text from left to right
needs one piece of knowledge only, the quote that is open, if any; this file describes how a
character changes it, and how a text is cut at the characters outside quoted runs.
-/
import FlatQuery.Text.Blank

namespace FlatQuery

/-- The two kinds of quote. -/
def isQuote (c : Char) : Bool :=
  c == '\'' || c == '"'

/-- The open quote after one more character: outside quoted runs a quote opens one, inside a
run the quote that opened it closes it, and any other character changes nothing. -/
def quoteAfter : Option Char → Char → Option Char
  | none, c => if isQuote c then some c else none
  | some q, c => if c = q then none else some q

/-- A text is cut at the characters of a class that stand outside quoted runs.  Those
characters are dropped, so that a text with `n` of them has `n + 1` pieces.  The text is read
with the given quote open at its start. -/
def splitUnquoted (isCut : Char → Bool) : Option Char → List Char → List (List Char)
  | _, [] => [[]]
  | quote, c :: cs =>
    if quote = none ∧ isCut c then [] :: splitUnquoted isCut none cs
    else (splitUnquoted isCut (quoteAfter quote c) cs).modifyHead (c :: ·)

/-- The open quote after a whole text. -/
def quoteAtEnd (quote : Option Char) (cs : List Char) : Option Char :=
  cs.foldl quoteAfter quote

/-- A text without its last character, provided that this is the given one. -/
def stripLast? (c : Char) (cs : List Char) : Option (List Char) :=
  if cs.getLast? = some c then some cs.dropLast else none

theorem stripLast?_eq_some_iff {c : Char} {cs head : List Char} :
    stripLast? c cs = some head ↔ cs = head ++ [c] := by
  constructor
  · intro h
    rw [stripLast?, Option.ite_none_right_eq_some] at h
    obtain ⟨ys, rfl⟩ := List.getLast?_eq_some_iff.1 h.1
    obtain rfl : ys = head := by simpa using h.2
    rfl
  · rintro rfl
    simp [stripLast?]

theorem splitUnquoted_ne_nil (isCut : Char → Bool) (quote : Option Char) (cs : List Char) :
    splitUnquoted isCut quote cs ≠ [] := by
  induction cs generalizing quote with
  | nil => simp [splitUnquoted]
  | cons c cs ih =>
    rw [splitUnquoted]
    split
    · simp
    · simpa using ih _

end FlatQuery
