/-
# The stretches between commas

Seen from outside, the items of a list are the stretches between its commas: each begins at the
start of the text or behind a comma outside quoted runs, and reaches to the next such comma or
to the end (`mem_splitUnquoted_iff`).  From this, cutting a list into items and writing items
with commas between them undo each other, and a list is refused exactly when there is nothing
in one of its stretches (`items_inverts_intercalate`).

All of it goes along the cuts of a text: a text is solid, or it has a solid front up to its
first cut and goes on behind it (`cut_induction`).
-/
import FlatQuery.Proofs.Token.Items

namespace FlatQuery

variable {isCut : Char → Bool} {text before stretch after : List Char}

/-- A text is read from cut to cut: it has none outside quoted runs, or it has a first one, and
no quote is open there. -/
@[elab_as_elim]
lemma cut_induction (isCut : Char → Bool) {motive : List Char → Prop}
    (solid : ∀ text, IsSolid isCut none text → motive text)
    (cut : ∀ front c back, IsSolid isCut none front → Closed front → isCut c → motive back →
      motive (front ++ c :: back))
    (text : List Char) : motive text := by
  rcases isSolid_or_exists_cut isCut none text with
    hsolid | ⟨front, c, back, htext, hfront, hopen, hc⟩
  · exact solid text hsolid
  · rw [htext]
    exact cut front c back hfront (closed_iff.2 hopen) hc (cut_induction isCut solid cut back)
termination_by text.length
decreasing_by
  rw [htext, List.length_append, List.length_cons]
  omega

/-! ## Stretches -/

/-- A cut is no quote, so it leaves a text closed. -/
lemma Closed.concat_cut {front : List Char} {c : Char} (h : Closed front)
    (hcut : ∀ c, isQuote c → ¬isCut c) (hc : isCut c) : Closed (front ++ [c]) :=
  (closed_concat_iff fun hquote => hcut c hquote hc).2 h

/-- A stretch of a text, given with what stands before and after it, begins at the start or
behind a cut outside quoted runs, ends at the end or at such a cut, and holds none itself. -/
structure IsStretch (isCut : Char → Bool) (before stretch after : List Char) : Prop where
  begins : before = [] ∨ ∃ front c, before = front ++ [c] ∧ Closed front ∧ isCut c
  ends : after = [] ∨ ∃ c back, after = c :: back ∧ Closed (before ++ stretch) ∧ isCut c
  uncut : ∀ part c rest, stretch = part ++ c :: rest → Closed (before ++ part) → ¬isCut c

/-- No quote is open where a stretch begins. -/
lemma IsStretch.closed_before (h : IsStretch isCut before stretch after)
    (hcut : ∀ c, isQuote c → ¬isCut c) : Closed before := by
  rcases h.begins with rfl | ⟨front, c, rfl, hfront, hc⟩
  · exact .nil
  · exact hfront.concat_cut hcut hc

/-- A text in front of the whole does not change a stretch, if it ends in a cut. -/
lemma IsStretch.append_left (h : IsStretch isCut before stretch after) {front : List Char}
    {c : Char} (hfront : Closed front) (hcut : ∀ c, isQuote c → ¬isCut c) (hc : isCut c) :
    IsStretch isCut (front ++ [c] ++ before) stretch after where
  begins := by
    refine Or.inr ?_
    rcases h.begins with rfl | ⟨more, d, rfl, hmore, hd⟩
    · exact ⟨front, c, List.append_nil _, hfront, hc⟩
    · have hclosed : Closed (front ++ [c] ++ more) :=
        (hfront.concat_cut hcut hc).append_iff.2 hmore
      exact ⟨front ++ [c] ++ more, d, (List.append_assoc _ _ _).symm, hclosed, hd⟩
  ends := by
    rw [List.append_assoc, (hfront.concat_cut hcut hc).append_iff]
    exact h.ends
  uncut part d rest hstretch := by
    rw [List.append_assoc, (hfront.concat_cut hcut hc).append_iff]
    exact h.uncut part d rest hstretch

lemma IsSolid.not_isCut (h : IsSolid isCut none text) (part : List Char) (c : Char)
    (rest : List Char) (htext : text = part ++ c :: rest) (hpart : Closed part) : ¬isCut c :=
  fun hc => isSolid_iff.1 h ⟨part, c, rest, htext, hpart, hc⟩

/-- Every piece of a text is one of its stretches. -/
lemma exists_isStretch (hcut : ∀ c, isQuote c → ¬isCut c) :
    ∀ piece ∈ splitUnquoted isCut none text, ∃ before after,
      text = before ++ piece ++ after ∧ IsStretch isCut before piece after := by
  induction text using cut_induction isCut with
  | solid text hsolid =>
    intro piece hpiece
    obtain rfl : piece = text := List.mem_singleton.1 (hsolid ▸ hpiece)
    exact ⟨[], [], (List.append_nil _).symm, .inl rfl, .inl rfl, hsolid.not_isCut⟩
  | cut front c back hsolid hfront hc ih =>
    intro piece hpiece
    rw [hfront.splitUnquoted_append_cons hcut hc, hsolid, List.singleton_append] at hpiece
    rcases List.mem_cons.1 hpiece with rfl | hpiece
    · -- the piece up to the first cut
      exact ⟨[], c :: back, rfl, .inl rfl, .inr ⟨c, back, rfl, hfront, hc⟩, hsolid.not_isCut⟩
    · obtain ⟨before, after, rfl, hstretch⟩ := ih piece hpiece
      exact ⟨front ++ [c] ++ before, after, by simp, hstretch.append_left hfront hcut hc⟩

/-- No cut stands outside the quoted runs of a stretch. -/
lemma IsStretch.solid (h : IsStretch isCut before stretch after)
    (hcut : ∀ c, isQuote c → ¬isCut c) : IsSolid isCut none stretch := by
  rw [isSolid_iff]
  rintro ⟨part, c, rest, hstretch, hpart, hc⟩
  have hclosed : Closed (before ++ part) := (h.closed_before hcut).append_iff.2 hpart
  exact h.uncut part c rest hstretch hclosed hc

/-- Every stretch of a text is one of its pieces. -/
lemma IsStretch.mem_splitUnquoted (h : IsStretch isCut before stretch after)
    (hcut : ∀ c, isQuote c → ¬isCut c) :
    stretch ∈ splitUnquoted isCut none (before ++ stretch ++ after) := by
  have hbehind : stretch ∈ splitUnquoted isCut none (stretch ++ after) := by
    rcases h.ends with rfl | ⟨c, back, rfl, hclosed, hc⟩
    · rw [List.append_nil, h.solid hcut]
      exact List.mem_singleton_self _
    · have hstretch : Closed stretch := (h.closed_before hcut).append_iff.1 hclosed
      rw [hstretch.splitUnquoted_append_cons hcut hc, h.solid hcut]
      exact List.mem_cons_self
  rcases h.begins with rfl | ⟨front, c, rfl, hfront, hc⟩
  · exact hbehind
  · rw [List.append_assoc, List.append_assoc, List.singleton_append,
      hfront.splitUnquoted_append_cons hcut hc]
    exact List.mem_append_right _ hbehind

/-- The pieces of a text are its stretches. -/
lemma mem_splitUnquoted_iff (hcut : ∀ c, isQuote c → ¬isCut c) {piece : List Char} :
    piece ∈ splitUnquoted isCut none text ↔
      ∃ before after, text = before ++ piece ++ after ∧ IsStretch isCut before piece after := by
  constructor
  · exact exists_isStretch hcut piece
  · rintro ⟨before, after, rfl, hstretch⟩
    exact hstretch.mem_splitUnquoted hcut

/-! ## Cutting and joining -/

variable {fragment : Token} {pieces : List Token}

/-- Nothing but commas is dropped from a list. -/
lemma intercalate_splitUnquoted (text : List Char) :
    [','].intercalate (splitUnquoted (· == ',') none text) = text := by
  induction text using cut_induction (· == ',') with
  | solid text hsolid => rw [hsolid, List.intercalate_singleton]
  | cut front c back hsolid hfront hc ih =>
    obtain rfl : c = ',' := eq_of_beq hc
    rw [hfront.splitUnquoted_append_comma, hsolid, List.singleton_append,
      List.intercalate_cons_of_ne_nil (splitUnquoted_ne_nil _ _ _), ih, List.append_assoc,
      List.singleton_append]

lemma Token.items_of_ne_nil (h : fragment ≠ []) :
    fragment.items =
      if (splitUnquoted (· == ',') none fragment).any (·.all isBlank) then
        .error (.blankItem fragment)
      else .ok (splitUnquoted (· == ',') none fragment) := by
  rw [items, if_neg (by simpa using h)]

/-- The items of a list are its pieces, each with something in it. -/
lemma Token.mem_items (h : fragment.items = .ok pieces) :
    [','].intercalate pieces = fragment ∧
      ∀ piece ∈ pieces, ¬piece.all isBlank ∧ IsSolid (· == ',') none piece := by
  by_cases hne : fragment = []
  · subst hne
    obtain rfl : [] = pieces := Except.ok.inj h
    exact ⟨rfl, fun piece hpiece => absurd hpiece List.not_mem_nil⟩
  · rw [items_of_ne_nil hne] at h
    split at h
    · cases h
    next hblank =>
      obtain rfl := Except.ok.inj h
      refine ⟨intercalate_splitUnquoted fragment, fun piece hpiece => ⟨fun hall => ?_, ?_⟩⟩
      · exact hblank (List.any_eq_true.2 ⟨piece, hpiece, hall⟩)
      · obtain ⟨before, after, -, hstretch⟩ :=
          (mem_splitUnquoted_iff not_comma_of_isQuote).1 hpiece
        exact hstretch.solid not_comma_of_isQuote

/-- A list is refused exactly when it is some text and there is nothing in one of its pieces. -/
lemma Token.exists_items_eq_error_iff :
    (∃ e, fragment.items = .error e) ↔
      fragment ≠ [] ∧ ∃ piece ∈ splitUnquoted (· == ',') none fragment, piece.all isBlank := by
  by_cases hne : fragment = []
  · subst hne
    refine iff_of_false ?_ fun h => h.1 rfl
    rintro ⟨e, h⟩
    cases h
  · rw [items_of_ne_nil hne, ← List.any_eq_true]
    split
    · next hblank => exact iff_of_true ⟨_, rfl⟩ ⟨hne, hblank⟩
    · next hblank =>
      refine iff_of_false ?_ fun h => hblank h.2
      rintro ⟨e, h⟩
      cases h

lemma not_all_isBlank_iff {piece : Token} :
    ¬piece.all isBlank ↔ ∃ c ∈ piece, ¬isBlank c := by
  simp

/-- Cutting a list into items and joining items with commas undo each other: items that are
closed, with no comma outside quoted runs and with something in them, are found again; what is
cut into items is the items with commas between them; and a text is refused exactly when there
is nothing in the stretch between two neighbouring commas outside quoted runs, before the first
one or behind the last one. -/
theorem Token.items_inverts_intercalate :
    (∀ pieces : List Token, pieces ≠ [] →
      (∀ piece ∈ pieces,
        ¬HasOutside (· == ',') piece ∧ Closed piece ∧ ∃ c ∈ piece, ¬isBlank c) →
      items ([','].intercalate pieces) = .ok pieces) ∧
    ∀ fragment : Token,
      (∀ pieces, fragment.items = .ok pieces →
        [','].intercalate pieces = fragment ∧
          ∀ piece ∈ pieces, (∃ c ∈ piece, ¬isBlank c) ∧ ¬HasOutside (· == ',') piece) ∧
      ((∃ e, fragment.items = .error e) ↔
        fragment ≠ [] ∧ ∃ before stretch after, fragment = before ++ stretch ++ after ∧
          IsStretch (· == ',') before stretch after ∧ ∀ c ∈ stretch, isBlank c) := by
  refine ⟨fun pieces hne h => ?_, fun fragment => ⟨fun pieces h => ?_, ?_⟩⟩
  · refine items_intercalate hne fun piece hpiece => ?_
    obtain ⟨hcomma, hclosed, hblank⟩ := h piece hpiece
    exact ⟨hclosed, isSolid_iff.2 hcomma, not_all_isBlank_iff.2 hblank⟩
  · obtain ⟨htext, hpieces⟩ := mem_items h
    refine ⟨htext, fun piece hpiece => ?_⟩
    obtain ⟨hblank, hsolid⟩ := hpieces piece hpiece
    exact ⟨not_all_isBlank_iff.1 hblank, isSolid_iff.1 hsolid⟩
  · rw [exists_items_eq_error_iff]
    refine and_congr_right fun _ => ?_
    constructor
    · rintro ⟨piece, hpiece, hblank⟩
      obtain ⟨before, after, htext, hstretch⟩ :=
        (mem_splitUnquoted_iff not_comma_of_isQuote).1 hpiece
      exact ⟨before, piece, after, htext, hstretch, List.all_eq_true.1 hblank⟩
    · rintro ⟨before, stretch, after, htext, hstretch, hblank⟩
      have hpiece : stretch ∈ splitUnquoted (· == ',') none fragment :=
        (mem_splitUnquoted_iff not_comma_of_isQuote).2 ⟨before, after, htext, hstretch⟩
      exact ⟨stretch, hpiece, List.all_eq_true.2 hblank⟩

/-- Three items with a quote of the other kind or a comma between quotes, a list whose last
quote is open, and a list with a blank between two commas. -/
theorem Token.items_inverts_intercalate_of_nested_quotes :
    let pieces := ["'4,0\"'".toList, " b ".toList, "\"it's, so\"".toList]
    let unclosed := ["x".toList, " 'y,\"z".toList]
    items "'4,0\"', b ,\"it's, so\"".toList = .ok pieces ∧
      items "x, 'y,\"z".toList = .ok unclosed ∧
      [','].intercalate unclosed = "x, 'y,\"z".toList ∧
      ∃ e, items "a, ,b".toList = .error e := by
  intro pieces unclosed
  have hunclosed : items "x, 'y,\"z".toList = .ok unclosed := by decide +kernel
  refine ⟨?_, hunclosed, ((items_inverts_intercalate.2 _).1 unclosed hunclosed).1, ?_⟩
  · have hpieces : ∀ piece ∈ pieces, ¬HasOutside (· == ',') piece ∧ Closed piece ∧
        ¬piece.all isBlank := by decide +kernel
    refine items_inverts_intercalate.1 pieces (List.cons_ne_nil _ _) fun piece hpiece => ?_
    obtain ⟨hcomma, hclosed, hblank⟩ := hpieces piece hpiece
    exact ⟨hcomma, hclosed, not_all_isBlank_iff.1 hblank⟩
  · have hblank : IsStretch (· == ',') [] " ".toList ",b".toList :=
      ⟨.inl rfl, .inr ⟨',', ['b'], rfl, by decide, rfl⟩, IsSolid.not_isCut (by decide)⟩
    have hstretch : IsStretch (· == ',') (['a'] ++ [','] ++ []) " ".toList ",b".toList :=
      hblank.append_left (by decide) not_comma_of_isQuote rfl
    have hspace : " ".toList.all isBlank := by decide
    exact (items_inverts_intercalate.2 _).2.2
      ⟨by decide, _, _, ",b".toList, rfl, hstretch, List.all_eq_true.1 hspace⟩

end FlatQuery
