/-
# Sorting by several keys

Rows are sorted by the first key that tells them apart, and rows that no key tells apart keep the
order in which they came.  There is exactly one arrangement of the rows with these properties
(`stablySorted_iff_eq_sortRows`), so that whatever is known to have them is the sorted list.  The comparison by
which the rows are sorted is described first, without its recursion over the keys: it is a total
preorder, in which two rows tie when they have the same values in the columns of all keys.
-/
import FlatQuery.Table.Select
import Mathlib.Data.String.Basic
import Mathlib.Tactic.Lemma

namespace FlatQuery

/-! ## Comparing rows -/

/-- The order of values: a missing one comes before every text, and texts are ordered by their
code points. -/
inductive Precedes : Option String → Option String → Prop
  | missing (text : String) : Precedes none (some text)
  | texts {first second : String}
      (h : first.toList.map Char.toNat < second.toList.map Char.toNat) :
      Precedes (some first) (some second)

namespace SortKey

/-- A key puts a row before another one when its value in the column of the key precedes that of
the other row, or is preceded by it where the key is descending. -/
def Less (key : SortKey) (a b : Row) : Prop :=
  match key.direction with
  | .ascending => Precedes (a.value? key.column) (b.value? key.column)
  | .descending => Precedes (b.value? key.column) (a.value? key.column)

/-- Rows tie when they have the same values in the columns of all keys. -/
def Tied (keys : List SortKey) (a b : Row) : Prop :=
  ∀ key ∈ keys, a.value? key.column = b.value? key.column

instance (keys : List SortKey) (a b : Row) : Decidable (Tied keys a b) :=
  inferInstanceAs (Decidable (∀ _ ∈ keys, _ = _))

/-- A row is less than another one when the first key on which they differ puts it first. -/
def LessAll (keys : List SortKey) (a b : Row) : Prop :=
  ∃ before key after, keys = before ++ key :: after ∧ Tied before a b ∧ key.Less a b

/-- A row is at most another one when it is not greater. -/
def AtMost (keys : List SortKey) (a b : Row) : Prop :=
  ¬LessAll keys b a

/-- Keys weigh rows when comparing by them tells which row is less, and not being greater is a
total preorder in which only tied rows are equal. -/
structure Weighs (keys : List SortKey) : Prop where
  lt_iff : ∀ a b, compareAll keys a b = .lt ↔ LessAll keys a b
  eq_iff : ∀ a b, compareAll keys a b = .eq ↔ Tied keys a b
  gt_iff : ∀ a b, compareAll keys a b = .gt ↔ LessAll keys b a
  total : ∀ a b, AtMost keys a b ∨ AtMost keys b a
  trans : ∀ a b c, AtMost keys a b → AtMost keys b c → AtMost keys a c
  antisymm : ∀ a b, AtMost keys a b → AtMost keys b a → Tied keys a b

variable {key : SortKey} {keys : List SortKey} {a b : Row}

/-! ### One key -/

lemma map_toNat_lt_iff {cs ds : List Char} :
    cs.map Char.toNat < ds.map Char.toNat ↔ cs < ds := by
  induction cs generalizing ds with
  | nil => cases ds <;> simp
  | cons c cs ih =>
    cases ds with
    | nil => simp
    | cons d ds =>
      rw [List.map_cons, List.map_cons, List.cons_lt_cons_iff, List.cons_lt_cons_iff, ih,
        Char.toNat_inj]
      rfl

lemma compare_eq_lt_iff_precedes {first? second? : Option String} :
    Ord.compare first? second? = .lt ↔ Precedes first? second? := by
  cases first? with
  | none =>
    cases second? with
    | none => exact iff_of_false (by decide) (by rintro ⟨⟩)
    | some second => exact iff_of_true rfl (.missing second)
  | some first =>
    cases second? with
    | none => exact iff_of_false nofun (by rintro ⟨⟩)
    | some second =>
      change Ord.compare first second = .lt ↔ _
      rw [compare_lt_iff_lt, String.lt_iff_toList_lt, ← map_toNat_lt_iff]
      exact ⟨.texts, by rintro ⟨⟩; assumption⟩

instance transCmp_compare (key : SortKey) : Std.TransCmp key.compare := by
  obtain ⟨column, direction⟩ := key
  cases direction with
  | ascending =>
    exact {
      eq_swap := Std.OrientedOrd.eq_swap
      isLE_trans := Std.TransOrd.isLE_trans }
  | descending =>
    have hswap : compare ⟨column, .descending⟩ =
        fun a b => Ord.compare (b.value? column) (a.value? column) := by
      funext a b
      exact Std.OrientedOrd.eq_swap.symm
    rw [hswap]
    exact {
      eq_swap := Std.OrientedOrd.eq_swap
      isLE_trans := fun hab hbc => Std.TransOrd.isLE_trans hbc hab }

lemma compare_eq_lt_iff : key.compare a b = .lt ↔ key.Less a b := by
  obtain ⟨column, direction⟩ := key
  cases direction with
  | ascending => exact compare_eq_lt_iff_precedes
  | descending =>
    change (Ord.compare (a.value? column) (b.value? column)).swap = .lt ↔ _
    rw [← Std.OrientedOrd.eq_swap]
    exact compare_eq_lt_iff_precedes

lemma compare_eq_eq_iff : key.compare a b = .eq ↔ a.value? key.column = b.value? key.column := by
  obtain ⟨column, direction⟩ := key
  cases direction with
  | ascending => exact Std.LawfulEqOrd.compare_eq_iff_eq
  | descending =>
    change (Ord.compare (a.value? column) (b.value? column)).swap = .eq ↔ _
    rw [Ordering.swap_eq_eq]
    exact Std.LawfulEqOrd.compare_eq_iff_eq

/-! ### Several keys -/

lemma compareAll_cons (key : SortKey) (keys : List SortKey) (a b : Row) :
    compareAll (key :: keys) a b = (key.compare a b).then (compareAll keys a b) :=
  rfl

lemma tied_cons :
    Tied (key :: keys) a b ↔ a.value? key.column = b.value? key.column ∧ Tied keys a b :=
  List.forall_mem_cons

/-- The first key decides unless the rows have the same value in its column. -/
lemma lessAll_cons :
    LessAll (key :: keys) a b ↔
      key.Less a b ∨ a.value? key.column = b.value? key.column ∧ LessAll keys a b := by
  constructor
  · rintro ⟨before, decisive, after, hkeys, htied, hless⟩
    cases before with
    | nil =>
      obtain ⟨rfl, rfl⟩ := List.cons.inj hkeys
      exact .inl hless
    | cons first before =>
      obtain ⟨rfl, rfl⟩ := List.cons.inj hkeys
      obtain ⟨hfirst, hbefore⟩ := tied_cons.1 htied
      exact .inr ⟨hfirst, before, decisive, after, rfl, hbefore, hless⟩
  · rintro (hless | ⟨hfirst, before, decisive, after, rfl, hbefore, hless⟩)
    · exact ⟨[], key, keys, rfl, nofun, hless⟩
    · exact ⟨key :: before, decisive, after, rfl, tied_cons.2 ⟨hfirst, hbefore⟩, hless⟩

lemma compareAll_eq_lt_iff : compareAll keys a b = .lt ↔ LessAll keys a b := by
  induction keys with
  | nil => exact iff_of_false nofun fun ⟨before, _, _, h, _⟩ => by cases before <;> cases h
  | cons key keys ih =>
    rw [compareAll_cons, Ordering.then_eq_lt, compare_eq_lt_iff, compare_eq_eq_iff, ih,
      lessAll_cons]

lemma compareAll_eq_eq_iff : compareAll keys a b = .eq ↔ Tied keys a b := by
  induction keys with
  | nil => exact iff_of_true rfl nofun
  | cons key keys ih =>
    rw [compareAll_cons, Ordering.then_eq_eq, compare_eq_eq_iff, ih, tied_cons]

instance transCmp_compareAll (keys : List SortKey) : Std.TransCmp (compareAll keys) := by
  induction keys with
  | nil =>
    exact {
      eq_swap := rfl
      isLE_trans := fun _ _ => rfl }
  | cons key keys ih =>
    change Std.TransCmp (compareLex key.compare (compareAll keys))
    infer_instance

/-- Of two rows the sort leaves that one first which is at most the other. -/
lemma isLE_compareAll_iff : (compareAll keys a b).isLE ↔ AtMost keys a b := by
  rw [AtMost, ← compareAll_eq_lt_iff, ← Std.OrientedCmp.gt_iff_lt]
  cases compareAll keys a b <;> decide

lemma AtMost.trans {c : Row} (hab : AtMost keys a b) (hbc : AtMost keys b c) :
    AtMost keys a c :=
  isLE_compareAll_iff.1 <|
    Std.TransCmp.isLE_trans (isLE_compareAll_iff.2 hab) (isLE_compareAll_iff.2 hbc)

lemma isLE_compareAll_total (keys : List SortKey) (a b : Row) :
    (compareAll keys a b).isLE || (compareAll keys b a).isLE := by
  have hswap : compareAll keys b a = (compareAll keys a b).swap := Std.OrientedCmp.eq_swap
  rw [hswap]
  cases compareAll keys a b <;> decide

lemma AtMost.total (keys : List SortKey) (a b : Row) : AtMost keys a b ∨ AtMost keys b a := by
  rw [← isLE_compareAll_iff, ← isLE_compareAll_iff, ← Bool.or_eq_true]
  exact isLE_compareAll_total keys a b

lemma AtMost.antisymm (hab : AtMost keys a b) (hba : AtMost keys b a) : Tied keys a b := by
  rw [AtMost, ← compareAll_eq_lt_iff] at hab hba
  rw [← Std.OrientedCmp.gt_iff_lt] at hab
  rw [← compareAll_eq_eq_iff]
  cases h : compareAll keys a b <;> trivial

lemma Tied.atMost (h : Tied keys a b) : AtMost keys a b :=
  isLE_compareAll_iff.1 (by rw [compareAll_eq_eq_iff.2 h]; rfl)

lemma Tied.symm (h : Tied keys a b) : Tied keys b a :=
  fun key hkey => (h key hkey).symm

lemma Tied.trans {c : Row} (hab : Tied keys a b) (hbc : Tied keys b c) : Tied keys a c :=
  fun key hkey => (hab key hkey).trans (hbc key hkey)

lemma weighs (keys : List SortKey) : Weighs keys where
  lt_iff _ _ := compareAll_eq_lt_iff
  eq_iff _ _ := compareAll_eq_eq_iff
  gt_iff _ _ := Std.OrientedCmp.gt_iff_lt.trans compareAll_eq_lt_iff
  total := AtMost.total keys
  trans _ _ _ := AtMost.trans
  antisymm _ _ := AtMost.antisymm

end SortKey

/-! ## Sorted rows -/

/-- An arrangement of rows is stably sorted when it has the same rows, no row in it is greater
than a later one, and the rows that tie with any given row, repeated ones included, come in the
same order as before. -/
structure StablySorted (keys : List SortKey) (rows sorted : List Row) : Prop where
  perm : sorted.Perm rows
  ordered : sorted.Pairwise (SortKey.AtMost keys)
  stable : ∀ row, sorted.filter (SortKey.Tied keys row ·) = rows.filter (SortKey.Tied keys row ·)

variable {keys : List SortKey} {rows sorted others : List Row}

/-- Of tied rows nothing is moved: they stand in the sorted list as a sublist already, and there
are no more of them. -/
lemma filter_sortRows (keys : List SortKey) (rows : List Row) (row : Row) :
    (sortRows keys rows).filter (SortKey.Tied keys row ·) =
      rows.filter (SortKey.Tied keys row ·) := by
  set tied : Row → Bool := fun other => SortKey.Tied keys row other with htied
  have hpairwise : (rows.filter tied).Pairwise
      fun a b => (SortKey.compareAll keys a b).isLE = true := by
    refine List.pairwise_filter.2 (List.pairwise_of_forall_mem_list fun a _ b _ ha hb => ?_)
    have ha : SortKey.Tied keys row a := of_decide_eq_true ha
    have hb : SortKey.Tied keys row b := of_decide_eq_true hb
    exact SortKey.isLE_compareAll_iff.2 (ha.symm.trans hb).atMost
  have hsublist : (rows.filter tied).Sublist (sortRows keys rows) :=
    List.sublist_mergeSort (fun _ _ _ => Std.TransCmp.isLE_trans)
      (SortKey.isLE_compareAll_total keys) hpairwise List.filter_sublist
  have hfiltered : (rows.filter tied).Sublist ((sortRows keys rows).filter tied) := by
    simpa using hsublist.filter tied
  exact (hfiltered.eq_of_length ((List.mergeSort_perm rows _).filter tied).length_eq.symm).symm

lemma stablySorted_sortRows (keys : List SortKey) (rows : List Row) :
    StablySorted keys rows (sortRows keys rows) where
  perm := List.mergeSort_perm rows _
  ordered :=
    (List.pairwise_mergeSort (fun _ _ _ => Std.TransCmp.isLE_trans)
      (SortKey.isLE_compareAll_total keys) rows).imp SortKey.isLE_compareAll_iff.1
  stable := filter_sortRows keys rows

/-- The rows that tie with a given row are there in both lists or in neither. -/
lemma mem_iff_of_tied
    (h : ∀ row, sorted.filter (SortKey.Tied keys row ·) = others.filter (SortKey.Tied keys row ·))
    (row : Row) : row ∈ sorted ↔ row ∈ others := by
  have hself : SortKey.Tied keys row row := fun _ _ => rfl
  simpa [hself] using congrArg (row ∈ ·) (h row)

/-- Lists in order are the same when they agree on the rows that tie with any given row: their
first rows tie, because each stands somewhere in the other list, and so they are the same. -/
lemma eq_of_ordered (h : sorted.Pairwise (SortKey.AtMost keys))
    (hothers : others.Pairwise (SortKey.AtMost keys))
    (htied : ∀ row, sorted.filter (SortKey.Tied keys row ·) =
      others.filter (SortKey.Tied keys row ·)) : sorted = others := by
  induction sorted generalizing others with
  | nil =>
    exact (List.eq_nil_iff_forall_not_mem.2 fun row hrow =>
      List.not_mem_nil ((mem_iff_of_tied htied row).2 hrow)).symm
  | cons first sorted ih =>
    obtain ⟨hfirst, hsorted⟩ := List.pairwise_cons.1 h
    cases others with
    | nil => exact absurd ((mem_iff_of_tied htied first).1 List.mem_cons_self) List.not_mem_nil
    | cons second others =>
      obtain ⟨hsecond, hrest⟩ := List.pairwise_cons.1 hothers
      have hself : SortKey.Tied keys first first := fun _ _ => rfl
      have hfirsts : SortKey.Tied keys first second := by
        have hmem := (mem_iff_of_tied htied second).2 List.mem_cons_self
        have hmem' := (mem_iff_of_tied htied first).1 List.mem_cons_self
        rcases List.mem_cons.1 hmem with rfl | hmem
        · exact hself
        · rcases List.mem_cons.1 hmem' with rfl | hmem'
          · exact hself
          · exact (hfirst second hmem).antisymm (hsecond first hmem')
      obtain rfl : first = second := by
        have hheads := htied first
        rw [List.filter_cons_of_pos (by simpa using hself),
          List.filter_cons_of_pos (by simpa using hfirsts)] at hheads
        exact (List.cons.inj hheads).1
      congr 1
      refine ih hsorted hrest fun row => ?_
      have hrow := htied row
      by_cases htie : SortKey.Tied keys row first
      · rw [List.filter_cons_of_pos (by simpa using htie),
          List.filter_cons_of_pos (by simpa using htie)] at hrow
        exact (List.cons.inj hrow).2
      · rwa [List.filter_cons_of_neg (by simpa using htie),
          List.filter_cons_of_neg (by simpa using htie)] at hrow

/-- There is only one way to sort rows stably. -/
lemma StablySorted.eq_sortRows (h : StablySorted keys rows sorted) :
    sorted = sortRows keys rows := by
  have hsort := stablySorted_sortRows keys rows
  exact eq_of_ordered h.ordered hsort.ordered fun row => (h.stable row).trans (hsort.stable row).symm

/-- Sorting compares rows by a total preorder, in which the first key on which two rows differ
decides, and answers with the one arrangement of the rows that is stably sorted. -/
theorem stablySorted_iff_eq_sortRows (keys : List SortKey) :
    SortKey.Weighs keys ∧
    ∀ rows sorted, StablySorted keys rows sorted ↔ sorted = sortRows keys rows := by
  refine ⟨SortKey.weighs keys, fun rows sorted => ⟨StablySorted.eq_sortRows, ?_⟩⟩
  rintro rfl
  exact stablySorted_sortRows keys rows

end FlatQuery
