/-
# The two spellings of an assignment

An assignment after `SET` is spelled with spaces around its sign, so that it has three tokens, or
without them, so that it is packed into one.  Both spellings may be mixed.  They mean the same
(`Query.ofLine_updateLine`) unless the name of the column contains the sign: a packed assignment
is cut at its first sign, inside quotes or not, and so such a name is cut in two
(`Query.packed_column_is_cut`).
-/
import FlatQuery.Proofs.Query.Layout
import FlatQuery.Proofs.Query.Writing

namespace FlatQuery

/-- The spellings of an assignment: with spaces around its sign, or without. -/
inductive Spelling where
  | spaced
  | packed
deriving DecidableEq, Repr

/-- An assignment and how it is spelled. -/
structure Setting where
  assignment : Assignment
  spelling : Spelling
deriving DecidableEq, Repr

namespace Setting

/-- The element of a list in which a setting is written, with column and value in quotes. -/
def element : Setting → ListElement
  | ⟨a, .spaced⟩ => ⟨[quote a.column, ['=']], quote a.value⟩
  | ⟨a, .packed⟩ => ⟨[], quote a.column ++ '=' :: quote a.value⟩

/-- A setting is clear unless it is packed and its column contains the sign. -/
def Clear (setting : Setting) : Prop :=
  setting.spelling = .packed → '=' ∉ setting.assignment.column.toList

instance (setting : Setting) : Decidable setting.Clear :=
  inferInstanceAs (Decidable (_ → _))

/-- Neither the column nor the value of a setting has quotes of both kinds. -/
structure Writable (setting : Setting) : Prop where
  column : Quotable setting.assignment.column
  value : Quotable setting.assignment.value

end Setting

/-- The line of an update of a table: a comma stands behind every setting but the last, and a
space before the next. -/
def updateLine (table : String) (settings : List Setting) : String :=
  lineOf (["UPDATE".toList, quote table] ++ "SET".toList :: layOut [] (settings.map Setting.element))

variable {table column value : String} {setting : Setting} {settings : List Setting}

/-! ## Cutting the line -/

lemma noParen_layOut {elements : List ListElement}
    (h : ∀ element ∈ elements, (∀ token ∈ element.lead, token.NoParen) ∧ element.fragment.NoParen) :
    ∀ token ∈ layOut [] elements, token.NoParen := by
  fun_induction layOut [] elements with
  | case1 => simp
  | case2 element =>
    obtain ⟨hlead, hfragment⟩ := h element List.mem_cons_self
    rw [List.append_nil]
    exact List.forall_mem_append.2 ⟨hlead, List.forall_mem_singleton.2 hfragment⟩
  | case3 element elements _ ih =>
    obtain ⟨⟨hlead, hfragment⟩, helements⟩ := List.forall_mem_cons.1 h
    exact List.forall_mem_append.2
      ⟨hlead, List.forall_mem_cons.2 ⟨hfragment.append noParen_comma, ih helements⟩⟩

lemma Setting.Writable.noParen (h : setting.Writable) :
    (∀ token ∈ setting.element.lead, token.NoParen) ∧ setting.element.fragment.NoParen := by
  obtain ⟨hcolumn, hvalue⟩ := h
  obtain ⟨a, _ | _⟩ := setting
  · refine ⟨fun token htoken => ?_, noParen_quote hvalue⟩
    rcases List.mem_pair.1 htoken with rfl | rfl
    · exact noParen_quote hcolumn
    · exact noParen_equals
  · exact ⟨nofun, (noParen_quote hcolumn).append (noParen_equals.append (noParen_quote hvalue))⟩

lemma tokenize_updateLine (htable : Quotable table) (h : ∀ setting ∈ settings, setting.Writable) :
    tokenize (updateLine table settings) =
      .ok (["UPDATE".toList, quote table] ++
        "SET".toList :: layOut [] (settings.map Setting.element)) := by
  have hlist := noParen_layOut (List.forall_mem_map.2 fun setting hsetting =>
    (h setting hsetting).noParen)
  have hprintable : Printable (["UPDATE".toList, quote table] ++
      "SET".toList :: layOut [] (settings.map Setting.element)) :=
    .cons noParen_of_all <| .cons (noParen_quote htable) <|
      .cons noParen_of_all (printable_of_noParen hlist)
  exact hprintable.tokenize_eq

/-! ## Reading the settings -/

/-- A packed assignment is one item. -/
lemma isItem_packed (hcolumn : Quotable column) (hvalue : Quotable value) :
    Token.IsItem (quote column ++ '=' :: quote value) := by
  have hc := isItem_quote hcolumn
  have hv := isItem_quote hvalue
  refine ⟨hc.closed.append_iff.2 (.plain (by decide) hv.closed), ?_, ?_⟩
  · refine hc.solid.append ?_
    rw [hc.closed.quoteAtEnd]
    exact isSolid_cons.2 ⟨by decide, hv.solid⟩
  · intro hblank
    rw [List.all_append, Bool.and_eq_true] at hblank
    exact hc.not_blank hblank.1

lemma mem_of_mem_unquote {token : Token} {c : Char} (h : c ∈ token.unquote.toList) :
    c ∈ token := by
  have hfirst : token.dropFirstQuote.Sublist token := by
    fun_cases Token.dropFirstQuote token <;> simp
  have hlast : token.dropFirstQuote.dropLastQuote.Sublist token.dropFirstQuote := by
    fun_cases Token.dropLastQuote token.dropFirstQuote <;> simp [List.dropLast_sublist]
  rw [Token.unquote, String.toList_ofList] at h
  exact (hlast.trans hfirst).subset h

/-- A packed assignment is cut at its first sign, so that it is read as it was written exactly if
its column does not contain the sign. -/
lemma exists_packs (hcolumn : Quotable column) (hvalue : Quotable value) :
    ∃ a, Packs (quote column ++ '=' :: quote value) a ∧
      (a = ⟨column, value⟩ ↔ '=' ∉ column.toList) := by
  obtain ⟨mark, hmark, -, hquoted⟩ := exists_quote_eq hcolumn
  obtain ⟨mark', hmark', -, hquoted'⟩ := exists_quote_eq hvalue
  have hsign : ∀ c, isQuote c → c ≠ '=' := by
    rintro c hc rfl
    exact absurd hc (by decide)
  by_cases hmem : '=' ∈ column.toList
  · obtain ⟨front, back, heq, hfront⟩ := List.eq_append_cons_of_mem
      (show '=' ∈ quote column ++ '=' :: quote value by simp)
    have hfront_ne : front ≠ [] := by
      rintro rfl
      rw [hquoted] at heq
      exact hsign mark hmark (List.cons.inj heq).1
    have hback_ne : back ≠ [] := by
      rintro rfl
      have hlast := congrArg List.getLast? heq
      rw [hquoted'] at hlast
      simp [List.getLast?_cons, hsign mark' hmark'] at hlast
    refine ⟨⟨Token.unquote front, Token.unquote back⟩, ?_,
      iff_of_false (fun h => ?_) (not_not_intro hmem)⟩
    · rw [heq]
      exact .mk hfront_ne hfront hback_ne
    · have hcut : Token.unquote front = column := congrArg Assignment.column h
      rw [← hcut] at hmem
      exact hfront (mem_of_mem_unquote hmem)
  · have hfree : '=' ∉ quote column := by
      simp [hquoted, hmem, (hsign mark hmark).symm]
    have hpacks := Packs.mk (by simp [hquoted]) hfree
      (show quote value ≠ [] by simp [hquoted'])
    rw [unquote_quote, unquote_quote] at hpacks
    exact ⟨⟨column, value⟩, hpacks, iff_of_true rfl hmem⟩

/-- A setting assigns something before any token but a lone sign, and what it says exactly if it
is clear. -/
lemma Setting.Writable.exists_assigns (h : setting.Writable) {next? : Option Token}
    (hnext : next? ≠ some ['=']) :
    ∃ a, Assigns next? setting.element.lead setting.element.fragment [a] ∧
      (a = setting.assignment ↔ setting.Clear) := by
  obtain ⟨hcolumn, hvalue⟩ := h
  obtain ⟨⟨column, value⟩, _ | _⟩ := setting
  · have hassigns : Assigns next? [quote column, ['=']] (quote value)
        [⟨Token.unquote (quote column), Token.unquote (quote value)⟩] :=
      .spaced (items_quote hvalue)
    rw [unquote_quote, unquote_quote] at hassigns
    exact ⟨_, hassigns, iff_of_true rfl nofun⟩
  · obtain ⟨a, hpacks, hclear⟩ := exists_packs hcolumn hvalue
    have hitems := items_intercalate (List.cons_ne_nil _ [])
      (List.forall_mem_singleton.2 (isItem_packed hcolumn hvalue))
    rw [List.intercalate_singleton] at hitems
    exact ⟨a, .packed hnext hitems (.cons hpacks .nil), hclear.trans
      ⟨fun h _ => h, fun h => h rfl⟩⟩

/-- A setting ends in a quote. -/
lemma Setting.getLast?_fragment (setting : Setting) :
    setting.element.fragment.getLast? ≠ some ',' := by
  have hquote (text : String) : (quote text).getLast? ≠ some ',' :=
    stripLast?_eq_none_iff.1 (stripLast?_quote not_isQuote_comma text)
  obtain ⟨⟨column, value⟩, _ | _⟩ := setting
  · exact hquote value
  · rw [element, List.append_cons, List.getLast?_append_of_ne_nil _ (by simp [quote])]
    exact hquote value

/-- A list of settings begins with a quote, so that it does not begin with a lone sign. -/
lemma Setting.Writable.head?_layOut (h : setting.Writable) (elements : List ListElement) :
    (layOut [] (setting.element :: elements)).head? ≠ some ['='] := by
  obtain ⟨mark, hmark, -, hquoted⟩ := exists_quote_eq h.column
  have hsign : mark ≠ '=' := by
    rintro rfl
    exact absurd hmark (by decide)
  obtain ⟨⟨column, value⟩, _ | _⟩ := setting <;>
    cases elements <;> simp_all [layOut, element]

/-- The settings of a list spell one assignment each. -/
lemma exists_spellsAssignments (hne : settings ≠ [])
    (h : ∀ setting ∈ settings, setting.Writable) :
    ∃ assignments, SpellsAssignments (layOut [] (settings.map Setting.element)) assignments [] ∧
      List.Forall₂ (fun setting a => a = setting.assignment ↔ setting.Clear) settings
        assignments := by
  induction settings with
  | nil => exact absurd rfl hne
  | cons setting settings ih =>
    obtain ⟨hsetting, hsettings⟩ := List.forall_mem_cons.1 h
    cases settings with
    | nil =>
      have hnext : (none : Option Token) ≠ some ['='] := nofun
      obtain ⟨a, hassigns, hclear⟩ := hsetting.exists_assigns hnext
      refine ⟨[a], ?_, .cons hclear .nil⟩
      rw [List.map_singleton, layOut, List.append_nil]
      exact .last hassigns setting.getLast?_fragment
    | cons next settings =>
      obtain ⟨assignments, hmore, hrest⟩ := ih (List.cons_ne_nil _ _) hsettings
      have hnext := (hsettings next List.mem_cons_self).head?_layOut (settings.map Setting.element)
      obtain ⟨a, hassigns, hclear⟩ := hsetting.exists_assigns hnext
      refine ⟨a :: assignments, ?_, .cons hclear hrest⟩
      rw [List.map_cons, layOut_cons (by simp)]
      exact .more hassigns hmore

lemma eq_map_assignment_iff {assignments : List Assignment}
    (h : List.Forall₂ (fun setting a => a = setting.assignment ↔ setting.Clear) settings
      assignments) :
    assignments = settings.map Setting.assignment ↔ ∀ setting ∈ settings, setting.Clear := by
  induction h with
  | nil => simp
  | cons hfirst _ ih => rw [List.map_cons, List.cons.injEq, hfirst, ih, List.forall_mem_cons]

/-! ## The update -/

namespace Query

/-- An update whose settings are spelled with spaces or packed, each as it may be, is read as an
update of the table with one assignment for each setting.  The assignment is what the setting
says exactly if the setting is clear, and so all are exactly if all settings are clear. -/
theorem ofLine_updateLine (config : Config) (hne : settings ≠ []) (htable : Quotable table)
    (h : ∀ setting ∈ settings, setting.Writable) :
    ∃ assignments,
      Query.ofLine config (updateLine table settings) =
        .ok { kind := .update, table := config.fullName table, columns := .only []
              assignments? := some assignments } ∧
      List.Forall₂ (fun setting a => a = setting.assignment ↔ setting.Clear) settings assignments ∧
      (assignments = settings.map Setting.assignment ↔ ∀ setting ∈ settings, setting.Clear) := by
  obtain ⟨assignments, hspells, hclear⟩ := exists_spellsAssignments hne h
  have hset : (Clause.assignments assignments).Form
      ("SET".toList :: layOut [] (settings.map Setting.element)) [] :=
    .assignments (by decide) hspells
  have hread : Clause.readAll (["UPDATE".toList, quote table] ++
      "SET".toList :: layOut [] (settings.map Setting.element)) =
        ([.update table, .assignments assignments], none) := by
    have hlist := (Clause.Cut.cons hset .nil).readAll
    rw [List.append_nil] at hlist
    rw [(readsAs_update table).readAll_append, hlist]
    rfl
  refine ⟨assignments, ?_, hclear, eq_map_assignment_iff hclear⟩
  rw [Query.ofLine, tokenize_updateLine htable h, mapError_ok, bind_ok]
  exact ofTokens_of_readAll hread rfl rfl

/-- Settings of both spellings, in which names and values contain commas, signs, spaces and
parentheses. -/
theorem ofLine_updateLine_of_signs_in_texts :
    let settings : List Setting :=
      [⟨⟨"a, b", "=("⟩, .packed⟩, ⟨⟨"c=d", "it's"⟩, .spaced⟩, ⟨⟨"e)", ",="⟩, .packed⟩]
    (∀ setting ∈ settings, setting.Writable ∧ setting.Clear) ∧
      Query.ofLine {} (updateLine "t" settings) =
        .ok { kind := .update, table := "t.csv", columns := .only []
              assignments? := some [⟨"a, b", "=("⟩, ⟨"c=d", "it's"⟩, ⟨"e)", ",="⟩] } := by
  intro settings
  have hwritable : ∀ setting ∈ settings, setting.Writable := by
    simp only [settings, List.forall_mem_cons]
    exact ⟨⟨by decide, by decide⟩, ⟨by decide, by decide⟩, ⟨by decide, by decide⟩, nofun⟩
  have hclear : ∀ setting ∈ settings, setting.Clear := by decide
  obtain ⟨assignments, hread, -, hassignments⟩ :=
    ofLine_updateLine {} (List.cons_ne_nil _ _) (show Quotable "t" by decide) hwritable
  rw [hassignments.2 hclear] at hread
  exact ⟨fun setting hsetting => ⟨hwritable setting hsetting, hclear setting hsetting⟩, hread⟩

/-- A packed assignment to a column whose name contains the sign is an assignment to another
column. -/
theorem packed_column_is_cut :
    let line (spelling : Spelling) := updateLine "t" [⟨⟨"a=b", "v"⟩, spelling⟩]
    let update (assignment : Assignment) : Query :=
      { kind := .update, table := "t.csv", columns := .only [], assignments? := some [assignment] }
    line .packed = "UPDATE 't' SET 'a=b'='v';" ∧
      Query.ofLine {} (line .spaced) = .ok (update ⟨"a=b", "v"⟩) ∧
      Query.ofLine {} (line .packed) = .ok (update ⟨"a", "b'='v"⟩) := by
  decide +kernel

end Query

end FlatQuery
