/-
# Words in any case

A word, such as a keyword, is given in capital letters, and may be written in capital and small
ones.  What this means is said letter by letter (`EitherCase`, `Token.Says`), apart from how words
are compared: every letter of a token is made capital first (`Token.says_iff`).  A direction may
have quotes around it as well (`Direction.IsSaid`).
-/
import FlatQuery.Proofs.Text.Quotation
import FlatQuery.Query.Basic
import Mathlib.Data.List.Forall2

namespace FlatQuery

variable {c letter : Char} {token letters front back : Token} {word : String}

/-! ## Letters -/

/-- A character stands for a letter, which is a capital one if it is between `A` and `Z`, when it is
this letter itself or the small one. -/
def EitherCase (c letter : Char) : Prop :=
  c = letter ∨ 'A'.toNat ≤ letter.toNat ∧ letter.toNat ≤ 'Z'.toNat ∧ c.toNat = letter.toNat + 32

instance (c letter : Char) : Decidable (EitherCase c letter) :=
  inferInstanceAs (Decidable (_ ∨ _))

/-- Only small letters are made capital. -/
lemma toNat_toUpper (c : Char) : c.toUpper.toNat =
    if 'a'.toNat ≤ c.toNat ∧ c.toNat ≤ 'z'.toNat then c.toNat - 32 else c.toNat := by
  have hsmall : 'a'.val ≤ c.val ∧ c.val ≤ 'z'.val ↔
      'a'.toNat ≤ c.toNat ∧ c.toNat ≤ 'z'.toNat := Iff.rfl
  have hdown : ('A'.val - 'a'.val).toNat = 2 ^ 32 - 32 := by decide
  have hfirst : 'a'.toNat = 97 := rfl
  have hlt : c.val.toNat < 2 ^ 32 := c.val.toNat_lt
  unfold Char.toUpper
  by_cases h : 'a'.toNat ≤ c.toNat ∧ c.toNat ≤ 'z'.toNat
  · rw [dif_pos (hsmall.2 h), if_pos h]
    change (c.val + ('A'.val - 'a'.val)).toNat = c.val.toNat - 32
    have hle : 97 ≤ c.val.toNat := hfirst ▸ h.1
    rw [UInt32.toNat_add, hdown]
    omega
  · rw [dif_neg (hsmall.not.2 h), if_neg h]

/-- Making a character capital gives a letter exactly when the character stands for it. -/
lemma toUpper_eq_iff (h : letter.toUpper = letter) : c.toUpper = letter ↔ EitherCase c letter := by
  have hbounds : 'a'.toNat = 97 ∧ 'z'.toNat = 122 ∧ 'A'.toNat = 65 ∧ 'Z'.toNat = 90 :=
    ⟨rfl, rfl, rfl, rfl⟩
  have hletter := toNat_toUpper letter
  have hc := toNat_toUpper c
  rw [h] at hletter
  rw [EitherCase, ← Char.toNat_inj, hc, ← Char.toNat_inj]
  split at hletter <;> split <;> omega

/-! ## Words -/

/-- A token says a word when its characters stand for the letters of the word, one by one. -/
def Token.Says (token : Token) (word : String) : Prop :=
  List.Forall₂ EitherCase token word.toList

instance (token : Token) (word : String) : Decidable (token.Says word) :=
  inferInstanceAs (Decidable (List.Forall₂ _ _ _))

lemma map_toUpper_eq_iff {letters : List Char} (h : ∀ letter ∈ letters, letter.toUpper = letter) :
    token.map Char.toUpper = letters ↔ List.Forall₂ EitherCase token letters := by
  induction letters generalizing token with
  | nil => rw [List.map_eq_nil_iff, List.forall₂_nil_right_iff]
  | cons letter letters ih =>
    obtain ⟨hletter, hletters⟩ := List.forall_mem_cons.1 h
    cases token with
    | nil => simp
    | cons c token =>
      rw [List.map_cons, List.cons.injEq, List.forall₂_cons, toUpper_eq_iff hletter,
        ih hletters]

/-- The words that can be said are those in capital letters. -/
def IsCapital (word : String) : Bool :=
  word.toList.all fun letter => letter.toUpper = letter

/-- A token says a word exactly when it is this word in capital letters. -/
lemma Token.says_iff (h : IsCapital word) : token.Says word ↔ token.word = word := by
  have hletters : ∀ letter ∈ word.toList, letter.toUpper = letter := by
    simpa [IsCapital] using h
  rw [Token.Says, ← map_toUpper_eq_iff hletters, Token.word, ← String.toList_inj,
    String.toList_ofList]

lemma Token.Says.word_eq (h : token.Says word) (hword : IsCapital word := by decide) :
    token.word = word :=
  (Token.says_iff hword).1 h

lemma Token.says_of_word (h : token.word = word) (hword : IsCapital word := by decide) :
    token.Says word :=
  (Token.says_iff hword).2 h

/-- A token that says a word without quotes has none itself. -/
lemma Token.not_isQuote_of_word (h : token.word.toList.all (!isQuote ·)) :
    ∀ c ∈ token, ¬isQuote c := by
  intro c hc hquote
  have hword : ∀ d ∈ token.word.toList, ¬isQuote d := by simpa using h
  have hupper : c.toUpper = c := by
    rcases eq_of_isQuote hquote with rfl | rfl <;> rfl
  refine hword c ?_ hquote
  rw [Token.word, String.toList_ofList, ← hupper]
  exact List.mem_map_of_mem hc

/-! ## Quotes around a word -/

/-- A token wraps another one when it has one quote more at either end, at both ends or at none.
Two quotes need not be of the same kind. -/
def Token.Wraps (token inner : Token) : Prop :=
  token = inner ∨ (∃ mark, isQuote mark ∧ token = mark :: inner) ∨
    (∃ mark, isQuote mark ∧ token = inner ++ [mark]) ∨
    ∃ first last, isQuote first ∧ isQuote last ∧ token = first :: (inner ++ [last])

lemma Token.dropFirstQuote_of_not_isQuote (h : ∀ c ∈ token, ¬isQuote c) :
    token.dropFirstQuote = token := by
  cases token with
  | nil => rfl
  | cons c cs => simp [Token.dropFirstQuote, h c List.mem_cons_self]

lemma Token.dropLastQuote_of_not_isQuote (h : ∀ c ∈ token, ¬isQuote c) :
    token.dropLastQuote = token := by
  rw [Token.dropLastQuote]
  split
  · next hlast => rw [List.getLast?_eq_none_iff.1 hlast]
  · next c hlast => simp [h c (List.mem_of_getLast? hlast)]

lemma Token.dropLastQuote_concat {mark : Char} (h : isQuote mark) (token : Token) :
    Token.dropLastQuote (token ++ [mark]) = token := by
  simp [Token.dropLastQuote, h]

lemma Token.bare_of_not_isQuote (h : ∀ c ∈ token, ¬isQuote c) : token.bare = token := by
  rw [Token.bare, Token.dropFirstQuote_of_not_isQuote h, Token.dropLastQuote_of_not_isQuote h]

/-- A token wraps what is left of it without its quotes. -/
lemma Token.wraps_bare (token : Token) : token.Wraps token.bare := by
  have hfirst : ∀ t : Token, t = t.dropFirstQuote ∨
      ∃ mark, isQuote mark ∧ t = mark :: t.dropFirstQuote := by
    rintro (_ | ⟨c, cs⟩)
    · exact .inl rfl
    · by_cases hc : isQuote c
      · exact .inr ⟨c, hc, by rw [Token.dropFirstQuote, if_pos hc]⟩
      · exact .inl (by rw [Token.dropFirstQuote, if_neg hc])
  have hlast : ∀ t : Token, t = t.dropLastQuote ∨
      ∃ mark, isQuote mark ∧ t = t.dropLastQuote ++ [mark] := by
    intro t
    rcases List.eq_nil_or_concat' t with rfl | ⟨front, c, rfl⟩
    · exact .inl rfl
    · by_cases hc : isQuote c
      · exact .inr ⟨c, hc, by rw [Token.dropLastQuote_concat hc]⟩
      · exact .inl (by simp [Token.dropLastQuote, hc])
  rcases hfirst token with hopen | ⟨first, hquote, hopen⟩
  · rcases hlast token.dropFirstQuote with hclose | ⟨last, hquote', hclose⟩
    · exact .inl (hopen.trans hclose)
    · exact .inr (.inr (.inl ⟨last, hquote', hopen.trans hclose⟩))
  · rcases hlast token.dropFirstQuote with hclose | ⟨last, hquote', hclose⟩
    · exact .inr (.inl ⟨first, hquote, hopen.trans (congrArg (first :: ·) hclose)⟩)
    · exact .inr (.inr (.inr ⟨first, last, hquote, hquote',
        hopen.trans (congrArg (first :: ·) hclose)⟩))

/-- A token without quotes is what is left of the tokens that wrap it. -/
lemma Token.Wraps.bare_eq (h : token.Wraps letters) (hletters : ∀ c ∈ letters, ¬isQuote c) :
    token.bare = letters := by
  rcases h with rfl | ⟨mark, hmark, rfl⟩ | ⟨mark, hmark, rfl⟩ | ⟨first, last, hfirst, hlast, rfl⟩
  · exact Token.bare_of_not_isQuote hletters
  · rw [Token.bare, Token.dropFirstQuote, if_pos hmark,
      Token.dropLastQuote_of_not_isQuote hletters]
  · cases letters with
    | nil =>
      rw [List.nil_append, Token.bare, Token.dropFirstQuote, if_pos hmark]
      rfl
    | cons c cs =>
      rw [Token.bare, List.cons_append, Token.dropFirstQuote,
        if_neg (hletters c List.mem_cons_self), ← List.cons_append,
        Token.dropLastQuote_concat hmark]
  · rw [Token.bare, Token.dropFirstQuote, if_pos hfirst, Token.dropLastQuote_concat hlast]

/-- The word that a token wraps is the one that is read from it. -/
lemma Token.Wraps.bare_word (h : token.Wraps letters) (hword : letters.word = word)
    (hfree : word.toList.all (!isQuote ·) := by decide) : token.bare.word = word := by
  rw [h.bare_eq (Token.not_isQuote_of_word (hword ▸ hfree)), hword]

/-! ## Directions -/

/-- A token says a direction when it wraps the word for it. -/
inductive Direction.IsSaid : Direction → Token → Prop
  | ascending {token letters : Token} (hwraps : token.Wraps letters) (h : letters.Says "ASC") :
      IsSaid .ascending token
  | descending {token letters : Token} (hwraps : token.Wraps letters) (h : letters.Says "DESC") :
      IsSaid .descending token

/-- A direction is read from a token exactly when the token says it. -/
lemma Direction.ofToken?_bare_eq_some_iff {direction : Direction} :
    Direction.ofToken? token.bare = some direction ↔ direction.IsSaid token := by
  constructor
  · intro h
    unfold Direction.ofToken? at h
    split at h
    · next hword =>
      cases h
      exact .ascending token.wraps_bare (Token.says_of_word hword)
    · next hword =>
      cases h
      exact .descending token.wraps_bare (Token.says_of_word hword)
    · cases h
  · intro h
    cases h with
    | ascending hwraps h =>
      simp only [Direction.ofToken?, hwraps.bare_word h.word_eq]
    | descending hwraps h =>
      simp only [Direction.ofToken?, hwraps.bare_word h.word_eq]

lemma Direction.ofToken?_bare_eq_none_iff :
    Direction.ofToken? token.bare = none ↔ ∀ direction : Direction, ¬direction.IsSaid token := by
  rw [Option.eq_none_iff_forall_ne_some]
  exact forall_congr' fun direction => Direction.ofToken?_bare_eq_some_iff.not

end FlatQuery
