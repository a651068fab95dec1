/-
# Tokens

A query line ends in a semicolon, and what stands before it is a list of tokens.  A token is made
up of units: quoted runs, and single characters that are neither blank nor quotes.  The tokens are
found from left to right, each as long as it can be, and only blanks may stand between them; a
quote that is not closed cannot begin a unit, so that it is found there too.  The first opening
parenthesis outside quoted runs is a token of its own, so that the list of values after it can be
told from the word before it.  Quotes stay on the tokens, because a token that is a list has to
be cut at its commas first; `unquote` takes them off at the end.
-/
import FlatQuery.Text.Quotation
import FlatQuery.Error

namespace FlatQuery

/-- A piece of a query's text, with its quotes. -/
abbrev Token := List Char

/-- A text in which the first opening parenthesis outside quoted runs stands between two
spaces.  The text is read with the given quote open at its start. -/
def isolateParen : Option Char → List Char → List Char
  | _, [] => []
  | quote, c :: cs =>
    if quote = none ∧ c = '(' then ' ' :: '(' :: ' ' :: cs
    else c :: isolateParen (quoteAfter quote c) cs

/-! ## Finding tokens -/

namespace Token

/-- The unit at the start of a text, with the text behind it.  From a quote it reaches to the next
quote of the same kind, and any other character that is not blank is a unit by itself. -/
def unit? : List Char → Option (List Char × List Char)
  | [] => none
  | c :: cs =>
    if isQuote c then
      match cs.dropWhile (· != c) with
      | [] => none
      | mark :: rest => some (c :: (cs.takeWhile (· != c) ++ [mark]), rest)
    else if isBlank c then none
    else some ([c], cs)

theorem length_lt_of_unit? {text unit rest : List Char} (h : unit? text = some (unit, rest)) :
    rest.length < text.length := by
  unfold unit? at h
  split at h
  · cases h
  · next c cs =>
    split at h
    · split at h
      · cases h
      · next mark behind hbehind =>
        cases h
        have hle := (cs.dropWhile_suffix (· != c)).length_le
        rw [hbehind, List.length_cons] at hle
        exact Nat.lt_succ_of_lt hle
    · split at h
      · cases h
      · cases h
        exact Nat.lt_succ_self _

/-- The units at the start of a text, as many as there are, with the text behind them. -/
def takeUnits (text : List Char) : Token × List Char :=
  match _h : unit? text with
  | none => ([], text)
  | some (unit, rest) => (takeUnits rest).map (unit ++ ·) id
termination_by text.length
decreasing_by exact length_lt_of_unit? _h

theorem length_takeUnits_le (text : List Char) : (takeUnits text).2.length ≤ text.length := by
  fun_induction takeUnits text with
  | case1 => exact Nat.le_refl _
  | case2 text unit rest h ih => exact Nat.le_of_lt (Nat.lt_of_le_of_lt ih (length_lt_of_unit? h))

/-- The first token in a text: what stands before the first unit, then the units from there on,
and the text behind them. -/
def first? : List Char → Option (List Char × Token × List Char)
  | [] => none
  | c :: cs =>
    if (unit? (c :: cs)).isSome then some ([], takeUnits (c :: cs))
    else (first? cs).map fun (gap, found) => (c :: gap, found)

theorem length_lt_of_first? {text gap rest : List Char} {token : Token}
    (h : first? text = some (gap, token, rest)) : rest.length < text.length := by
  fun_induction first? text generalizing gap with
  | case1 => cases h
  | case2 c cs hunit =>
    obtain ⟨⟨unit, behind⟩, hunit⟩ := Option.isSome_iff_exists.1 hunit
    have htake : (takeUnits behind).map (unit ++ ·) id = (token, rest) := by
      rw [takeUnits, hunit] at h
      exact congrArg Prod.snd (Option.some.inj h)
    have hrest : (takeUnits behind).2 = rest := congrArg Prod.snd htake
    exact hrest ▸ Nat.lt_of_le_of_lt (length_takeUnits_le behind) (length_lt_of_unit? hunit)
  | case3 c cs _ ih =>
    obtain ⟨⟨gap', found⟩, hfound, h⟩ := Option.map_eq_some_iff.1 h
    cases h
    exact Nat.lt_succ_of_lt (ih hfound)

/-- What stands between tokens has to be blank. -/
def checkGap (gap : List Char) : Except SyntaxError Unit :=
  if (trim gap).isEmpty then .ok () else .error (.openQuote (trim gap))

/-- The tokens of a text, found one after the other. -/
def scan (text : List Char) : Except SyntaxError (List Token) :=
  match _h : first? text with
  | none => do
    checkGap text
    return []
  | some (gap, token, rest) => do
    checkGap gap
    return token :: (← scan rest)
termination_by text.length
decreasing_by exact length_lt_of_first? _h

end Token

/-- The tokens of a query line. -/
def tokenize (line : String) : Except SyntaxError (List Token) :=
  match stripLast? ';' (trimEnd line.toList) with
  | none => .error .noTerminator
  | some body => Token.scan (isolateParen none body)

/-! ## Tokens and their parts -/

/-- The line with the given tokens, which are separated by single spaces. -/
def lineOf (tokens : List Token) : String :=
  String.ofList ([' '].intercalate tokens ++ [';'])

namespace Token

/-- A token as a word: its letters `a` to `z` are made capital. -/
def word (token : Token) : String :=
  String.ofList (token.map Char.toUpper)

/-- A token without a quote at its start. -/
def dropFirstQuote : Token → Token
  | [] => []
  | c :: cs => if isQuote c then cs else c :: cs

/-- A token without a quote at its end. -/
def dropLastQuote (token : Token) : Token :=
  match token.getLast? with
  | none => []
  | some c => if isQuote c then token.dropLast else token

/-- A token without its quotes: one is taken off each end, of whatever kind the two are. -/
def bare (token : Token) : Token :=
  token.dropFirstQuote.dropLastQuote

/-- The text that a token stands for. -/
def unquote (token : Token) : String :=
  String.ofList token.bare

/-- The items of a list, cut at the commas outside quoted runs.  No text has no items; in any
other text every item must have something in it. -/
def items (fragment : Token) : Except SyntaxError (List Token) :=
  if fragment.isEmpty then .ok []
  else
    let pieces := splitUnquoted (· == ',') none fragment
    if pieces.any (·.all isBlank) then .error (.blankItem fragment) else .ok pieces

/-- The texts of the items of a list.  A list without items has to be allowed. -/
def itemTexts (emptyAllowed : Bool) (fragment : Token) : Except SyntaxError (List String) :=
  if fragment.isEmpty && !emptyAllowed then .error .missingItem
  else return (← fragment.items).map unquote

/-- A token without a comma at its end, and whether there was one. -/
def dropComma (token : Token) : Token × Bool :=
  match stripLast? ',' token with
  | some head => (head, true)
  | none => (token, false)

end Token

end FlatQuery
