/-
# Reading a list element by element

A list is read one element after the other, so that it can be read only if it can be read from
any of its elements on (`ReadsOn.exists_of_append` for texts).  For assignments there is more to say,
because an assignment in one token must not be followed by a lone sign.  In a list that is read to
its end none is (`ne_equals_of_readAssignments`), and so the elements up to a place mean the same
whatever comes to stand behind it (`exists_readAssignments_append`).
-/
import FlatQuery.Proofs.Query.Layout

namespace FlatQuery

variable {element : ListElement} {elements front back : List ListElement} {tail : List Token}

/-- A token with a comma in it is no lone sign. -/
lemma ne_of_comma_mem {token : Token} {c : Char} (h : ',' ∈ token) (hc : ',' ≠ c) :
    token ≠ [c] := by
  rintro rfl
  exact hc (List.mem_singleton.1 h)

/-- A list that begins with an assignment in three tokens begins with its column. -/
lemma head?_layOut_spaced (column sign fragment : Token) (ending : List Char) :
    (layOut ending (⟨[column, sign], fragment⟩ :: back)).head? = some column := by
  cases back <;> rfl

/-! ## Texts -/

/-- A reader of a list of texts takes an element that ends in a comma, and reads on behind it. -/
def ReadsOn (read : List Token → Except SyntaxError (WithRest (List String))) : Prop :=
  ∀ (fragment : Token) (tail : List Token), read ((fragment ++ [',']) :: tail) = do
    let texts ← fragment.itemTexts false
    let (more, rest) ← read tail
    return (texts ++ more, rest)

lemma readsOn_readColumns : ReadsOn Clause.readColumns := by
  intro fragment tail
  rw [Clause.readColumns, stripLast?_eq_some_iff.2 rfl]

lemma readValues_comma (atStart : Bool) (fragment : Token) (tail : List Token) :
    Clause.readValues atStart ((fragment ++ [',']) :: tail) = do
      let texts ← fragment.itemTexts false
      let (more, rest) ← Clause.readValues false tail
      return (texts ++ more, rest) := by
  have hopen : stripLast? ')' (fragment ++ [',']) = none := by simp [stripLast?]
  rw [Clause.readValues, hopen, stripLast?_eq_some_iff.2 rfl]

lemma readsOn_readValues : ReadsOn (Clause.readValues false) :=
  readValues_comma false

/-- Only the list `()` begins with a lone closing parenthesis, and any other is read as if it were
not at its start. -/
lemma readValues_true {token : Token} (h : token ≠ [')']) (tail : List Token) :
    Clause.readValues true (token :: tail) = Clause.readValues false (token :: tail) := by
  rw [Clause.readValues, Clause.readValues]
  rcases hclosed : stripLast? ')' token with _ | head
  · cases stripLast? ',' token <;> rfl
  · obtain rfl := stripLast?_eq_some_iff.1 hclosed
    cases head with
    | nil => exact absurd rfl h
    | cons c cs => rfl

/-- What is read from its first element on is read from any later element on. -/
lemma ReadsOn.exists_of_append {read : List Token → Except SyntaxError (WithRest (List String))}
    (hread : ReadsOn read) (hfront : ∀ element ∈ front, element.lead = []) {rest : List Token}
    (h : ∃ texts, read (layOut [','] front ++ tail) = .ok (texts, rest)) :
    ∃ texts, read tail = .ok (texts, rest) := by
  induction front with
  | nil => exact h
  | cons element front ih =>
    obtain ⟨hlead, hfront⟩ := List.forall_mem_cons.1 hfront
    rw [layOut_comma_cons, hlead, List.nil_append, List.cons_append, hread] at h
    obtain ⟨texts, h⟩ := h
    obtain ⟨_, -, h⟩ := bind_eq_ok_iff.1 h
    obtain ⟨⟨more, rest'⟩, hmore, h⟩ := bind_eq_ok_iff.1 h
    cases h
    exact ih hfront ⟨more, hmore⟩

/-- The tokens that spell a list of texts are the elements of a list. -/
lemma Spells.exists_elements {ending : List Char} {tokens : List Token} {texts : List String}
    (h : Spells ending tokens texts) :
    ∃ elements, elements ≠ [] ∧ tokens = layOut ending elements ∧
      ∀ element ∈ elements, element.lead = [] := by
  induction h with
  | @last fragment =>
    exact ⟨[⟨[], fragment⟩], List.cons_ne_nil _ _, rfl, List.forall_mem_singleton.2 rfl⟩
  | @more fragment _ _ _ _ _ ih =>
    obtain ⟨elements, hne, rfl, helements⟩ := ih
    exact ⟨⟨[], fragment⟩ :: elements, List.cons_ne_nil _ _,
      (layOut_cons hne ending ⟨[], fragment⟩).symm,
      List.forall_mem_cons.2 ⟨rfl, helements⟩⟩

/-! ## Assignments -/

namespace ListElement

/-- An element of a list of assignments has either one token, or three with a lone sign between the
other two. -/
def IsAssignment (element : ListElement) : Prop :=
  element.lead = [] ∨ ∃ column, element.lead = [column, ['=']]

/-- The assignments that an element is read as. -/
def assignments (element : ListElement) : Except SyntaxError (List Assignment) :=
  match element.lead with
  | [column, _] => do return [← Clause.spacedAssignment column element.fragment]
  | _ => do (← element.fragment.items).mapM Clause.packedAssignment

end ListElement

lemma Assigns.isAssignment {next? : Option Token} {lead : List Token} {fragment : Token}
    {assignments : List Assignment} (h : Assigns next? lead fragment assignments) :
    ListElement.IsAssignment ⟨lead, fragment⟩ := by
  cases h with
  | spaced => exact .inr ⟨_, rfl⟩
  | packed => exact .inl rfl

/-- The tokens that spell assignments are the elements of a list. -/
lemma SpellsAssignments.exists_elements {tokens following : List Token}
    {assignments : List Assignment} (h : SpellsAssignments tokens assignments following) :
    ∃ elements, elements ≠ [] ∧ tokens = layOut [] elements ∧
      ∀ element ∈ elements, element.IsAssignment := by
  induction h with
  | @last lead _ fragment _ h =>
    refine ⟨[⟨lead, fragment⟩], List.cons_ne_nil _ _, ?_,
      List.forall_mem_singleton.2 h.isAssignment⟩
    rw [layOut, List.append_nil]
  | @more lead _ _ fragment _ _ h _ ih =>
    obtain ⟨elements, hne, rfl, helements⟩ := ih
    exact ⟨⟨lead, fragment⟩ :: elements, List.cons_ne_nil _ _,
      (layOut_cons hne [] ⟨lead, fragment⟩).symm,
      List.forall_mem_cons.2 ⟨h.isAssignment, helements⟩⟩

/-- An element is read as its assignments, and when its last token ends in a comma, the list goes
on behind it. -/
lemma readAssignments_append {lead : List Token} {token : Token}
    (h : ListElement.IsAssignment ⟨lead, token.dropComma.1⟩)
    (hnext : lead = [] → tail.head? ≠ some ['=']) :
    Clause.readAssignments (lead ++ token :: tail) = do
      let first ← ListElement.assignments ⟨lead, token.dropComma.1⟩
      if token.dropComma.2 then
        let (more, rest) ← Clause.readAssignments tail
        return (first ++ more, rest)
      else return (first, tail) := by
  obtain rfl | ⟨column, rfl⟩ := h
  · rw [List.nil_append, readAssignments_of_head? (hnext rfl), ListElement.assignments, bind_assoc]
  · change Clause.readAssignments (column :: ['='] :: token :: tail) = _
    rw [Clause.readAssignments, ListElement.assignments, bind_assoc]
    rfl

lemma readAssignments_comma (h : element.IsAssignment)
    (hnext : element.lead = [] → tail.head? ≠ some ['=']) :
    Clause.readAssignments (element.lead ++ (element.fragment ++ [',']) :: tail) = do
      let first ← element.assignments
      let (more, rest) ← Clause.readAssignments tail
      return (first ++ more, rest) := by
  have hcomma := dropComma_append_comma element.fragment
  rw [readAssignments_append (by rwa [hcomma]) hnext, hcomma]
  rfl

/-- In a list that is read to its end no lone sign stands behind a token without a sign before
it. -/
lemma ne_equals_of_readAssignments {token : Token} {assignments : List Assignment}
    (helements : ∀ e ∈ elements, e.IsAssignment)
    (h : Clause.readAssignments (token :: layOut [] elements) = .ok (assignments, [])) :
    (layOut [] elements).head? ≠ some ['='] := by
  intro hhead
  cases elements with
  | nil => cases hhead
  | cons element elements =>
    obtain ⟨lead, fragment⟩ := element
    obtain hlead | ⟨column, hlead⟩ := helements _ List.mem_cons_self
    · obtain rfl : lead = [] := hlead
      cases elements with
      | nil =>
        -- the token and the sign are the beginning of an assignment without a value
        obtain rfl : fragment = ['='] := by simpa [layOut] using hhead
        cases h
      | cons next elements =>
        rw [layOut_cons (List.cons_ne_nil _ _), List.nil_append, List.head?_cons] at hhead
        exact ne_of_comma_mem (by simp) (by decide) (Option.some.inj hhead)
    · obtain rfl : lead = [column, ['=']] := hlead
      rw [head?_layOut_spaced] at hhead
      obtain rfl : column = ['='] := Option.some.inj hhead
      -- the second sign is a value, and no comma follows it
      obtain ⟨value, behind, heq⟩ : ∃ value behind,
          layOut [] (⟨[['='], ['=']], fragment⟩ :: elements) = ['='] :: ['='] :: value :: behind := by
        cases elements with
        | nil => exact ⟨_, _, rfl⟩
        | cons next elements => exact ⟨_, _, rfl⟩
      rw [heq] at h
      change (Clause.spacedAssignment token ['='] >>= fun first =>
        Except.ok ([first], value :: behind)) = _ at h
      obtain ⟨first, -, h⟩ := bind_eq_ok_iff.1 h
      cases h

/-- The first element of a list, whose last token has a comma unless the list ends there. -/
lemma exists_layOut_cons {fragment : Token} (h : back = [] → fragment.getLast? ≠ some ',') :
    ∃ token : Token, token.dropComma = (fragment, !back.isEmpty) ∧ fragment ⊆ token ∧
      ∀ lead, layOut [] (⟨lead, fragment⟩ :: back) = lead ++ token :: layOut [] back := by
  cases back with
  | nil =>
    exact ⟨fragment, dropComma_of_getLast? (h rfl), List.Subset.refl _, fun lead => by
      simp [layOut]⟩
  | cons next back =>
    exact ⟨fragment ++ [','], dropComma_append_comma _, List.subset_append_left _ _,
      fun lead => layOut_cons (List.cons_ne_nil _ _) _ _⟩

/-- In a list that is read to its end the last element does not end in a comma, and no lone sign
stands behind a first element in one token.  The first element is read, and so are the others. -/
lemma readAssignments_layOut_cons {lead : List Token} {fragment : Token}
    {assignments : List Assignment} (helement : ListElement.IsAssignment ⟨lead, fragment⟩)
    (hback : ∀ e ∈ back, e.IsAssignment)
    (h : Clause.readAssignments (layOut [] (⟨lead, fragment⟩ :: back)) = .ok (assignments, [])) :
    (back = [] → fragment.getLast? ≠ some ',') ∧
      (lead = [] → (layOut [] back).head? ≠ some ['=']) ∧
      ∃ given others, ListElement.assignments ⟨lead, fragment⟩ = .ok given ∧
        assignments = given ++ others ∧ (back = [] → others = []) ∧
        (back ≠ [] → Clause.readAssignments (layOut [] back) = .ok (others, [])) := by
  have hlast : back = [] → fragment.getLast? ≠ some ',' := by
    rintro rfl hlast
    obtain ⟨inner, rfl⟩ := List.getLast?_eq_some_iff.1 hlast
    have hinner : ListElement.IsAssignment ⟨lead, inner⟩ := helement
    rw [layOut, List.append_nil] at h
    rw [readAssignments_comma hinner (by simp)] at h
    obtain ⟨first, -, h⟩ := bind_eq_ok_iff.1 h
    cases h
  obtain ⟨token, hdrop, -, htoken⟩ := exists_layOut_cons hlast
  have hsign : lead = [] → (layOut [] back).head? ≠ some ['='] := by
    rintro rfl
    rw [htoken] at h
    exact ne_equals_of_readAssignments hback h
  rw [htoken, readAssignments_append (by rwa [hdrop]) hsign, hdrop] at h
  obtain ⟨given, hgiven, h⟩ := bind_eq_ok_iff.1 h
  refine ⟨hlast, hsign, given, ?_⟩
  cases back with
  | nil =>
    cases h
    exact ⟨[], hgiven, (List.append_nil _).symm, fun _ => rfl, fun hne => absurd rfl hne⟩
  | cons next back =>
    obtain ⟨⟨others, rest⟩, hothers, h⟩ := bind_eq_ok_iff.1 h
    cases h
    exact ⟨others, hgiven, rfl, fun hnil => (List.cons_ne_nil _ _ hnil).elim, fun _ => hothers⟩

/-- A list that does not begin with a lone sign does not begin with one either when a comma and
other tokens come to stand behind its first elements. -/
lemma head?_layOut_append (h : ∀ e ∈ front ++ back, e.IsAssignment)
    (hsign : (layOut [] (front ++ back)).head? ≠ some ['='])
    (htail : tail.head? = some ['='] → (layOut [] back).head? = some ['=']) :
    (layOut [','] front ++ tail).head? ≠ some ['='] := by
  cases front with
  | nil => exact fun hhead => hsign (htail hhead)
  | cons element front =>
    obtain ⟨lead, fragment⟩ := element
    rw [layOut_comma_cons]
    obtain hlead | ⟨column, hlead⟩ := h _ List.mem_cons_self
    · obtain rfl : lead = [] := hlead
      exact fun hhead => ne_of_comma_mem (by simp) (by decide) (Option.some.inj hhead)
    · obtain rfl : lead = [column, ['=']] := hlead
      rw [List.cons_append, head?_layOut_spaced] at hsign
      exact hsign

/-- The elements before a place in a list are read as assignments that do not depend on what
stands behind the place, if it does not begin with a lone sign where the list does not. -/
lemma exists_readAssignments_append {assignments : List Assignment}
    (helements : ∀ e ∈ front ++ back, e.IsAssignment)
    (h : Clause.readAssignments (layOut [] (front ++ back)) = .ok (assignments, [])) :
    ∃ first, (back ≠ [] → ∃ more, assignments = first ++ more ∧
        Clause.readAssignments (layOut [] back) = .ok (more, [])) ∧
      ∀ tail : List Token, (tail.head? = some ['='] → (layOut [] back).head? = some ['=']) →
        Clause.readAssignments (layOut [','] front ++ tail) = do
          let (more, rest) ← Clause.readAssignments tail
          return (first ++ more, rest) := by
  induction front generalizing assignments with
  | nil =>
    refine ⟨[], fun _ => ⟨assignments, rfl, h⟩, fun tail _ => ?_⟩
    exact (bind_pure _).symm
  | cons element front ih =>
    rw [List.cons_append] at helements h
    obtain ⟨helement, hbehind⟩ := List.forall_mem_cons.1 helements
    obtain ⟨-, hsign, given, others, hgiven, rfl, -, hothers⟩ :=
      readAssignments_layOut_cons helement hbehind h
    have hcomma (tail : List Token)
        (htail : tail.head? = some ['='] → (layOut [] back).head? = some ['=']) :=
      readAssignments_comma helement fun hlead =>
        head?_layOut_append hbehind (hsign hlead) htail
    by_cases hne : front ++ back = []
    · obtain ⟨rfl, rfl⟩ := List.append_eq_nil_iff.1 hne
      refine ⟨given, fun hback => absurd rfl hback, fun tail htail => ?_⟩
      rw [layOut_comma_cons, List.append_assoc, List.cons_append, hcomma tail htail, hgiven]
      rfl
    · obtain ⟨first, hafter, hfirst⟩ := ih hbehind (hothers hne)
      refine ⟨given ++ first, fun hback => ?_, fun tail htail => ?_⟩
      · obtain ⟨more, rfl, hmore⟩ := hafter hback
        exact ⟨more, (List.append_assoc ..).symm, hmore⟩
      · rw [layOut_comma_cons, List.append_assoc, List.cons_append, hcomma tail htail, hgiven,
          bind_ok, hfirst tail htail]
        simp only [bind_assoc, pure_bind, List.append_assoc]

end FlatQuery
