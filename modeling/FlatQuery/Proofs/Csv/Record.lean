/-
# Written records are read back

Records that are written one after the other are read as the same records
(`Csv.fields_recordsFrom_flatMap`).  The reading has to find the end of each field: a field
without special bytes ends at the first comma or line feed behind it, and a quoted one at the
quote that is not followed by another one.  It also has to find the start of each record, and
for this a written record must not begin like an empty line.
-/
import FlatQuery.Csv.Writing
import Mathlib.Tactic.Lemma

namespace FlatQuery.Csv

variable {place : Place} {field : Bytes} {fields : List Bytes}

/-! ## Single bytes -/

lemma meaning_comma (h : place ≠ .quoted) : place.meaning comma = .fieldEnd := by
  cases place with
  | quoted => exact absurd rfl h
  | _ => rfl

lemma meaning_lineFeed (h : place ≠ .quoted) : place.meaning lineFeed = .recordEnd := by
  cases place with
  | quoted => exact absurd rfl h
  | _ => rfl

lemma readFields_comma (h : place ≠ .quoted) (rest : Bytes) :
    readFields place (comma :: rest) = (readFields .start rest).map ([] :: ·) id := by
  rw [readFields, meaning_comma h]

lemma readFields_lineFeed (h : place ≠ .quoted) (rest : Bytes) :
    readFields place (lineFeed :: rest) = ([[]], rest) := by
  rw [readFields, meaning_lineFeed h]

/-! ## Fields -/

/-- What is read of the text of a field goes in front of what is read behind it. -/
def prepend (text : Bytes) (read : List Bytes × Bytes) : List Bytes × Bytes :=
  read.map (·.modifyHead (text ++ ·)) id

lemma prepend_nil (read : List Bytes × Bytes) : prepend [] read = read := by
  obtain ⟨_ | ⟨first, more⟩, rest⟩ := read <;> rfl

lemma prepend_cons (b : UInt8) (text : Bytes) (read : List Bytes × Bytes) :
    (prepend text read).map (·.modifyHead (b :: ·)) id = prepend (b :: text) read := by
  obtain ⟨_ | ⟨first, more⟩, rest⟩ := read <;> rfl

/-- Text without commas and line ends is read as it is, quotes included, once the start of the
field is passed. -/
lemma readFields_plain (h : ∀ b ∈ field, b ≠ comma ∧ ¬isLineEnd b) (rest : Bytes) :
    readFields .plain (field ++ rest) = prepend field (readFields .plain rest) := by
  induction field with
  | nil => exact (prepend_nil _).symm
  | cons b field ih =>
    obtain ⟨⟨hcomma, hend⟩, hfield⟩ := List.forall_mem_cons.1 h
    have hmeaning : Place.plain.meaning b = .text .plain := by
      simp [Place.meaning, hcomma, hend]
    rw [List.cons_append, readFields, hmeaning]
    simp only [ih hfield, prepend_cons]

/-- A byte between quotes, where a quote is written twice. -/
def escape (b : UInt8) : Bytes :=
  if b = quote then [quote, quote] else [b]

/-- Between quotes all text is read up to the quote that ends it. -/
lemma readFields_quoted (field rest : Bytes) :
    readFields .quoted (field.flatMap escape ++ quote :: rest) =
      prepend field (readFields .closing rest) := by
  induction field with
  | nil => exact (prepend_nil _).symm
  | cons b field ih =>
    rw [List.flatMap_cons, List.append_assoc]
    by_cases hquote : b = quote
    · -- the first of two quotes seems to end the field, and the second takes that back
      have hpair : ∀ text, readFields .quoted (quote :: quote :: text) =
          (readFields .quoted text).map (·.modifyHead (quote :: ·)) id := fun text => rfl
      rw [hquote, escape, if_pos rfl]
      change readFields .quoted (quote :: quote :: (field.flatMap escape ++ quote :: rest)) = _
      rw [hpair, ih, prepend_cons]
    · have hmeaning : Place.quoted.meaning b = .text .quoted := by
        simp [Place.meaning, hquote]
      rw [escape, if_neg hquote, List.singleton_append, readFields, hmeaning]
      simp only [ih, prepend_cons]

/-- A written field is read as the field, and what stands behind it is not between quotes. -/
lemma exists_readFields_writeField (field : Bytes) :
    ∃ place, place ≠ Place.quoted ∧ ∀ rest,
      readFields .start (writeField field ++ rest) = prepend field (readFields place rest) := by
  by_cases hquotes : needsQuotes field
  · refine ⟨.closing, by simp, fun rest => ?_⟩
    have hopen : ∀ text, readFields .start (quote :: text) = readFields .quoted text :=
      fun text => rfl
    rw [writeField, if_pos hquotes, quoteField, List.cons_append, List.cons_append,
      List.append_assoc, List.singleton_append, hopen]
    exact readFields_quoted field rest
  · rw [writeField, if_neg hquotes]
    cases field with
    | nil => exact ⟨.start, by simp, fun rest => (prepend_nil _).symm⟩
    | cons b field =>
      have hplain : ∀ c ∈ b :: field, c ≠ comma ∧ c ≠ quote ∧ ¬isLineEnd c := by
        intro c hc
        simp only [needsQuotes, List.any_eq_true, not_exists, not_and] at hquotes
        simpa [and_assoc] using hquotes c hc
      obtain ⟨⟨hcomma, hquote, hend⟩, hfield⟩ := List.forall_mem_cons.1 hplain
      have hmeaning : Place.start.meaning b = .text .plain := by
        simp [Place.meaning, hcomma, hquote, hend]
      refine ⟨.plain, by simp, fun rest => ?_⟩
      rw [List.cons_append, readFields, hmeaning]
      simp only [readFields_plain fun c hc => ⟨(hfield c hc).1, (hfield c hc).2.2⟩, prepend_cons]

/-! ## Records -/

lemma readFields_writeFields (hne : fields ≠ []) (rest : Bytes) :
    readFields .start (writeFields fields ++ lineFeed :: rest) = (fields, rest) := by
  induction fields with
  | nil => exact absurd rfl hne
  | cons field fields ih =>
    obtain ⟨place, hplace, hread⟩ := exists_readFields_writeField field
    cases fields with
    | nil =>
      rw [writeFields, List.map_singleton, List.intercalate_singleton, hread,
        readFields_lineFeed hplace]
      simp [prepend]
    | cons next fields =>
      have hrest : readFields .start (writeFields (next :: fields) ++ lineFeed :: rest) =
          (next :: fields, rest) := ih (List.cons_ne_nil _ _)
      have hsplit : writeFields (field :: next :: fields) =
          writeField field ++ comma :: writeFields (next :: fields) := by
        simp [writeFields]
      rw [hsplit, List.append_assoc, List.cons_append, hread, readFields_comma hplace, hrest]
      simp [prepend]

/-- A written record is read as its fields. -/
lemma readFields_writeRecord (hne : fields ≠ []) (rest : Bytes) :
    readFields .start (writeRecord fields ++ rest) = (fields, rest) := by
  by_cases hempty : fields = [[]]
  · subst hempty
    rfl
  · rw [writeRecord, if_neg hempty, List.append_assoc, List.singleton_append,
      readFields_writeFields hne]

/-! ## Files -/

/-- A written record starts with a quote, or with its first field as it is and the byte that
ends the field there.  Only a field with something in it is followed by a line feed. -/
lemma writeRecord_cons (field : Bytes) (fields : List Bytes) :
    (∃ tail, writeRecord (field :: fields) = quote :: tail) ∨
      needsQuotes field = false ∧ ∃ b tail, (b = comma ∨ b = lineFeed ∧ field ≠ []) ∧
        writeRecord (field :: fields) = field ++ b :: tail := by
  by_cases hempty : field :: fields = [[]]
  · exact Or.inl ⟨[quote, lineFeed], by rw [writeRecord, if_pos hempty]⟩
  rw [writeRecord, if_neg hempty, writeFields, List.map_cons]
  by_cases hquotes : needsQuotes field
  · left
    have hwritten : ∃ tail, writeField field = quote :: tail :=
      ⟨_, by rw [writeField, if_pos hquotes, quoteField, List.cons_append]⟩
    obtain ⟨tail, htail⟩ := hwritten
    rw [htail, List.intercalate_cons_cons_left]
    exact ⟨_, rfl⟩
  · refine Or.inr ⟨by simpa using hquotes, ?_⟩
    rw [writeField, if_neg hquotes]
    cases fields with
    | nil =>
      have hne : field ≠ [] := by simpa using hempty
      exact ⟨lineFeed, [], Or.inr ⟨rfl, hne⟩, by simp⟩
    | cons next fields =>
      refine ⟨comma, [comma].intercalate ((next :: fields).map writeField) ++ [lineFeed],
        Or.inl rfl, ?_⟩
      rw [List.map_cons, List.intercalate_cons_cons]
      simp

/-- A written record does not begin like an empty line. -/
lemma exists_writeRecord_eq_cons (hne : fields ≠ []) :
    ∃ b tail, writeRecord fields = b :: tail ∧ ¬isLineEnd b := by
  obtain ⟨field, fields, rfl⟩ := List.exists_cons_of_ne_nil hne
  rcases writeRecord_cons field fields with ⟨tail, htail⟩ | ⟨hplain, b, tail, hb, htail⟩
  · exact ⟨quote, tail, htail, by decide⟩
  cases field with
  | nil =>
    obtain rfl : b = comma := by simpa using hb
    exact ⟨comma, tail, htail, by decide⟩
  | cons c field =>
    refine ⟨c, field ++ b :: tail, htail, ?_⟩
    simp only [needsQuotes, List.any_cons, Bool.or_eq_false_iff] at hplain
    simp [hplain.1.2]

lemma recordsFrom_writeRecord_append (hne : fields ≠ []) (source rest : Bytes) :
    recordsFrom source (writeRecord fields ++ rest) =
      ⟨source, fields⟩ :: recordsFrom rest rest := by
  obtain ⟨b, tail, hcons, hb⟩ := exists_writeRecord_eq_cons hne
  -- there is no empty line that could be passed over
  have hbody : (writeRecord fields ++ rest).dropWhile isLineEnd = writeRecord fields ++ rest := by
    rw [hcons, List.cons_append, List.dropWhile_cons_of_neg hb]
  have hrest : writeRecord fields ++ rest ≠ [] := by simp [hcons]
  rw [recordsFrom]
  simp only [hbody, if_neg hrest, readFields_writeRecord hne]

/-- Records that are written one after the other are read as the same records. -/
lemma fields_recordsFrom_flatMap {records : List (List Bytes)}
    (hne : ∀ fields ∈ records, fields ≠ []) (source : Bytes) :
    (recordsFrom source (records.flatMap writeRecord)).map Record.fields = records := by
  induction records generalizing source with
  | nil =>
    rw [List.flatMap_nil, recordsFrom]
    rfl
  | cons fields records ih =>
    obtain ⟨hfields, hrecords⟩ := List.forall_mem_cons.1 hne
    rw [List.flatMap_cons, recordsFrom_writeRecord_append hfields, List.map_cons, ih hrecords]

/-- The byte order mark. -/
def mark : Bytes := [0xEF, 0xBB, 0xBF]

lemma dropMark_of_not_prefix {file : Bytes} (h : ¬mark <+: file) : dropMark file = file := by
  unfold dropMark
  split
  · next bytes => exact absurd ⟨bytes, rfl⟩ h
  · rfl

/-- A written record begins with the byte order mark only when its first field does, and is
not quoted. -/
lemma mark_prefix_of_prefix_writeRecord {rest : Bytes}
    (h : mark <+: writeRecord (field :: fields) ++ rest) :
    mark <+: field ∧ needsQuotes field = false := by
  obtain ⟨bytes, hbytes⟩ := h
  rcases writeRecord_cons field fields with ⟨tail, htail⟩ | ⟨hplain, b, tail, hb, htail⟩
  · rw [htail] at hbytes
    exact absurd (List.cons.inj hbytes).1 (by decide)
  refine ⟨?_, hplain⟩
  -- a field with fewer than three bytes would be ended by a byte of the mark
  have hne : b ≠ 0xEF ∧ b ≠ 0xBB ∧ b ≠ 0xBF := by
    rcases hb with rfl | ⟨rfl, -⟩ <;> decide
  rw [htail, List.append_assoc] at hbytes
  match field, hbytes with
  | [], hbytes => exact absurd (List.cons.inj hbytes).1.symm hne.1
  | [_], hbytes => exact absurd (List.cons.inj (List.cons.inj hbytes).2).1.symm hne.2.1
  | [_, _], hbytes =>
    exact absurd (List.cons.inj (List.cons.inj (List.cons.inj hbytes).2).2).1.symm hne.2.2
  | x :: y :: z :: more, hbytes =>
    simp only [mark, List.cons_append, List.cons.injEq] at hbytes
    obtain ⟨rfl, rfl, rfl, -⟩ := hbytes
    exact ⟨more, rfl⟩

end FlatQuery.Csv
