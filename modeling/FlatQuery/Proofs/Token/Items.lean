/-
# The items of a list

A list is cut into items at the commas outside quoted runs.  Items that are closed and have no
such comma are found again when they are written with commas between them
(`items_intercalate`), and a list in which a comma stands beside another one, or at an end, has
an item with nothing in it (`Closed.hasEmptyItem`) and is refused.
-/
import FlatQuery.Proofs.Token.Cut

namespace FlatQuery

variable {front back : List Char} {pieces : List Token}

lemma not_comma_of_isQuote (c : Char) (h : isQuote c) : ¬(c == ',') := by
  rcases eq_of_isQuote h with rfl | rfl <;> decide

/-- At a comma outside quoted runs the items before and behind it meet. -/
lemma Closed.splitUnquoted_append_comma (h : Closed front) (back : List Char) :
    splitUnquoted (· == ',') none (front ++ ',' :: back) =
      splitUnquoted (· == ',') none front ++ splitUnquoted (· == ',') none back :=
  h.splitUnquoted_append_cons not_comma_of_isQuote rfl back

/-! ## Items with commas between them -/

/-- A text that can be an item of a list: every quoted run is closed, no comma stands outside
quoted runs, and there is something in it. -/
structure Token.IsItem (piece : Token) : Prop where
  closed : Closed piece
  solid : IsSolid (· == ',') none piece
  not_blank : ¬piece.all isBlank

lemma splitUnquoted_intercalate (hne : pieces ≠ []) (h : ∀ piece ∈ pieces, piece.IsItem) :
    splitUnquoted (· == ',') none ([','].intercalate pieces) = pieces := by
  induction pieces with
  | nil => exact absurd rfl hne
  | cons piece pieces ih =>
    obtain ⟨hpiece, hpieces⟩ := List.forall_mem_cons.1 h
    cases pieces with
    | nil => rw [List.intercalate_singleton, hpiece.solid]
    | cons next pieces =>
      rw [List.intercalate_cons_cons, List.append_assoc, List.singleton_append,
        hpiece.closed.splitUnquoted_append_comma, hpiece.solid,
        ih (List.cons_ne_nil _ _) hpieces, List.singleton_append]

/-- Items are found again in the list in which they are written. -/
lemma items_intercalate (hne : pieces ≠ []) (h : ∀ piece ∈ pieces, piece.IsItem) :
    Token.items ([','].intercalate pieces) = .ok pieces := by
  have hsplit := splitUnquoted_intercalate hne h
  have hfragment : ([','].intercalate pieces).isEmpty = false := by
    -- no text would have no items but a blank piece
    cases hempty : [','].intercalate pieces with
    | cons c cs => rfl
    | nil =>
      rw [hempty] at hsplit
      subst hsplit
      exact absurd rfl (h [] List.mem_cons_self).not_blank
  have hblank : pieces.any (·.all isBlank) = false :=
    List.any_eq_false.2 fun piece hpiece => (h piece hpiece).not_blank
  simp [Token.items, hfragment, hsplit, hblank]

/-! ## Items with nothing in them -/

/-- A list has an empty item when nothing stands before its first comma outside quoted runs, behind
its last one, or between two of them. -/
def Token.HasEmptyItem (fragment : Token) : Prop :=
  [] ∈ splitUnquoted (· == ',') none fragment

/-- Where two texts meet there is no item: one of them ends there, or has a comma there. -/
def NoItemBetween (front back : List Char) : Prop :=
  (front = [] ∨ front.getLast? = some ',') ∨ back = [] ∨ back.head? = some ','

instance (front back : List Char) : Decidable (NoItemBetween front back) :=
  inferInstanceAs (Decidable ((_ ∨ _) ∨ _ ∨ _))

lemma hasEmptyItem_nil : Token.HasEmptyItem [] :=
  List.mem_cons_self

/-- A comma that stands at an end of a list, or beside another comma, has an empty item beside
it. -/
lemma Closed.hasEmptyItem (hfront : Closed front) (h : NoItemBetween front back) :
    Token.HasEmptyItem (front ++ ',' :: back) := by
  rw [Token.HasEmptyItem, hfront.splitUnquoted_append_comma, List.mem_append]
  rcases h with (rfl | hlast) | rfl | hhead
  · exact .inl hasEmptyItem_nil
  · obtain ⟨before, rfl⟩ := List.getLast?_eq_some_iff.1 hlast
    rw [closed_concat_iff not_isQuote_comma] at hfront
    rw [hfront.splitUnquoted_append_comma]
    exact .inl (List.mem_append_right _ hasEmptyItem_nil)
  · exact .inr hasEmptyItem_nil
  · obtain ⟨behind, rfl⟩ := List.head?_eq_some_iff.1 hhead
    exact .inr List.mem_cons_self

variable {fragment : Token}

/-- A list with an empty item is refused, unless it is no text at all. -/
lemma Token.HasEmptyItem.items (h : fragment.HasEmptyItem) (hne : fragment ≠ []) :
    fragment.items = .error (.blankItem fragment) := by
  have hblank : (splitUnquoted (· == ',') none fragment).any (·.all isBlank) = true :=
    List.any_eq_true.2 ⟨[], h, rfl⟩
  simp [Token.items, hne, hblank]

/-- Where a list must have an item, one with an empty item is refused in any case. -/
lemma Token.HasEmptyItem.itemTexts (h : fragment.HasEmptyItem) (texts : List String) :
    fragment.itemTexts false ≠ .ok texts := by
  intro htexts
  by_cases hne : fragment = []
  · subst hne
    cases htexts
  · have hfragment : (fragment.isEmpty && !false) = false := by simpa using hne
    rw [Token.itemTexts, hfragment, h.items hne] at htexts
    cases htexts

end FlatQuery
