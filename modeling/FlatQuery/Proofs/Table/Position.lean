/-
# Fields by position

A record gives one text after the other, and a row gives texts to names.  A record that becomes
a row and is then written again has gone through both forms.  What is left of it is said
position by position (`PassedOn`): under each column stands the text that the record had at its
last position under the same name.  Where no name is repeated this is the record itself, cut
and filled to the width of the header (`PassedOn.eq_of_nodup`).
-/
import FlatQuery.Proofs.Table.Sheet

namespace FlatQuery

variable {columns values header exempt record passed : List String} {name text : String}

/-! ## Names and positions -/

lemma contains_drop_zip_eq_false {n : ℕ}
    (h : ∀ k, n ≤ k → k < values.length → columns[k]? ≠ some name) :
    (((columns.zip values).drop n).map Prod.fst).contains name = false := by
  rw [← Bool.not_eq_true, List.contains_iff_mem, List.mem_map]
  rintro ⟨⟨column, value⟩, hmem, rfl⟩
  obtain ⟨k, hk⟩ := List.mem_iff_getElem?.1 hmem
  rw [List.getElem?_drop, List.getElem?_zip_eq_some] at hk
  exact h (n + k) (by omega) (List.getElem?_eq_some_iff.1 hk.2).1 hk.1

/-- The text under a name is the one at the last position that has the name and a text. -/
lemma getElem?_fieldsOf_of_last {j : ℕ} (hcolumn : columns[j]? = some name)
    (hvalue : values[j]? = some text)
    (hlast : ∀ k, j < k → k < values.length → columns[k]? ≠ some name) :
    (fieldsOf columns values)[name]? = some text := by
  have hpair : (columns.zip values)[j]? = some (name, text) :=
    List.getElem?_zip_eq_some.2 ⟨hcolumn, hvalue⟩
  obtain ⟨hj, hget⟩ := List.getElem?_eq_some_iff.1 hpair
  have hsplit : columns.zip values = (columns.zip values).take j ++
      (name, text) :: (columns.zip values).drop (j + 1) := by
    rw [← hget, ← List.drop_eq_getElem_cons hj, List.take_append_drop]
  -- the pair at this position is entered after those before it, and no later one replaces it
  rw [fieldsOf, hsplit, Std.ExtTreeMap.ofList_eq_insertMany_empty, Std.ExtTreeMap.insertMany_append,
    Std.ExtTreeMap.insertMany_cons, Std.ExtTreeMap.getElem?_insertMany_list_of_contains_eq_false
      (contains_drop_zip_eq_false hlast), Std.ExtTreeMap.getElem?_insert_self]

/-- There is no text under a name that has none at any of its positions. -/
lemma getElem?_fieldsOf_of_absent (h : ∀ k < values.length, columns[k]? ≠ some name) :
    (fieldsOf columns values)[name]? = none :=
  Std.ExtTreeMap.getElem?_ofList_of_contains_eq_false
    (contains_drop_zip_eq_false (n := 0) fun k _ => h k)

/-! ## Records that are passed on -/

/-- What has become of a record under a header.  It is as wide as the header, and under each
name stands what the record had at its last position under that name, or the empty text where
the record was too short to have such a position.  Under the exempt names anything may stand. -/
structure PassedOn (header exempt record passed : List String) : Prop where
  width : passed.length = header.length
  text : ∀ (i j : ℕ) (name : String), header[i]? = some name → name ∉ exempt →
    header[j]? = some name → j < record.length →
    (∀ k, j < k → k < record.length → header[k]? ≠ some name) → passed[i]? = record[j]?
  blank : ∀ (i : ℕ) (name : String), header[i]? = some name → name ∉ exempt →
    (∀ k < record.length, header[k]? ≠ some name) → passed[i]? = some ""

/-- A record is passed on when it becomes a row, which keeps what is not exempt, and the row is
written. -/
lemma passedOn_fieldValues {fields : Fields}
    (hkept : ∀ name, name ∉ exempt → fields[name]? = (fieldsOf header record)[name]?) :
    PassedOn header exempt record (fieldValues header fields) where
  width := List.length_map _
  text i j name hi hname hj hlength hlast := by
    obtain ⟨text, htext⟩ : ∃ text, record[j]? = some text :=
      ⟨_, List.getElem?_eq_getElem hlength⟩
    rw [fieldValues, List.getElem?_map, hi, Option.map_some, hkept name hname,
      getElem?_fieldsOf_of_last hj htext hlast, htext, Option.getD_some]
  blank i name hi hname habsent := by
    rw [fieldValues, List.getElem?_map, hi, Option.map_some, hkept name hname,
      getElem?_fieldsOf_of_absent habsent, Option.getD_none]

namespace PassedOn

/-- Under a name that is not repeated the text of the same position stands. -/
lemma getElem?_eq (h : PassedOn header exempt record passed) (hnodup : header.Nodup) {i : ℕ}
    (hi : header[i]? = some name) (hname : name ∉ exempt) (hlength : i < record.length) :
    passed[i]? = record[i]? := by
  refine h.text i i name hi hname hi hlength fun k hik _ hk => ?_
  have hheader : i < header.length := (List.getElem?_eq_some_iff.1 hi).1
  have hsame : i = k := (List.getElem?_inj hheader hnodup).1 (hi.trans hk.symm)
  omega

/-- Under a header without repeated names a record of its width is passed on as it is. -/
lemma eq_of_nodup (h : PassedOn header [] record passed) (hnodup : header.Nodup)
    (hlength : record.length = header.length) : passed = record := by
  have hwidth : passed.length = record.length := h.width.trans hlength.symm
  apply List.ext_getElem?
  intro i
  by_cases hi : i < record.length
  · exact h.getElem?_eq hnodup (List.getElem?_eq_getElem (hlength ▸ hi)) List.not_mem_nil hi
  · rw [List.getElem?_eq_none (by omega), List.getElem?_eq_none (by omega)]

end PassedOn

end FlatQuery
