/-
# What a session does

A session is nothing but its query lines, answered one after the other: those that are texts and
not blank, up to the first line that says `quit` or `exit`.  This file says so for the database,
for the output and for the reports (`Session.run_eq`).  Explaining the queries adds to the
reports and changes nothing else.  A query is answered from its line without the blanks around
it, which is the same as answering it from the whole line (`Database.executeLine_trim`).
-/
import FlatQuery.Proofs.Frame
import FlatQuery.Proofs.Token
import FlatQuery.Proofs.Token.Word
import FlatQuery.Session

namespace FlatQuery

/-! ## Lines of input -/

/-- The lines of an input: each of them ends with its only line feed, but the last may lack it. -/
inductive LinesOf : Bytes → List Bytes → Prop
  | nil : LinesOf [] []
  | last {line : Bytes} (hne : line ≠ []) (hline : Csv.lineFeed ∉ line) : LinesOf line [line]
  | more {line input : Bytes} {lines : List Bytes} (hline : Csv.lineFeed ∉ line)
      (hrest : LinesOf input lines) :
      LinesOf (line ++ Csv.lineFeed :: input) ((line ++ [Csv.lineFeed]) :: lines)

lemma linesOf_cutLines (input : Bytes) : LinesOf input (cutLines input) := by
  fun_induction cutLines input with
  | case1 => exact .nil
  | case2 bytes ih => exact .more (List.not_mem_nil) ih
  | case3 b bytes hb hnone ih =>
    rw [hnone] at ih
    cases ih
    exact .last (List.cons_ne_nil b []) (by simpa [eq_comm] using hb)
  | case4 b bytes hb line lines hlines ih =>
    rw [hlines] at ih
    cases ih with
    | last hne hline => exact .last (List.cons_ne_nil b _) (by simp [eq_comm, hb, hline])
    | @more line _ _ hline hrest =>
      exact @LinesOf.more (b :: line) _ _ (by simp [eq_comm, hb, hline]) hrest

lemma cutLines_append {line : Bytes} (hline : Csv.lineFeed ∉ line) (input : Bytes) :
    cutLines (line ++ Csv.lineFeed :: input) = (line ++ [Csv.lineFeed]) :: cutLines input := by
  induction line with
  | nil => rw [List.nil_append, cutLines, if_pos rfl, List.nil_append]
  | cons b line ih =>
    simp only [List.mem_cons, not_or] at hline
    rw [List.cons_append, cutLines, if_neg (Ne.symm hline.1), ih hline.2]
    rfl

lemma cutLines_of_not_mem {line : Bytes} (hne : line ≠ []) (hline : Csv.lineFeed ∉ line) :
    cutLines line = [line] := by
  induction line with
  | nil => exact absurd rfl hne
  | cons b line ih =>
    simp only [List.mem_cons, not_or] at hline
    rw [cutLines, if_neg (Ne.symm hline.1)]
    cases line with
    | nil => rfl
    | cons next line => rw [ih (List.cons_ne_nil next line) hline.2]

/-- Input has one cut into lines. -/
lemma linesOf_iff {input : Bytes} {lines : List Bytes} :
    LinesOf input lines ↔ lines = cutLines input := by
  constructor
  · intro h
    induction h with
    | nil => rfl
    | last hne hline => rw [cutLines_of_not_mem hne hline]
    | more hline _ ih => rw [cutLines_append hline, ih]
  · rintro rfl
    exact linesOf_cutLines input

/-! ## Blanks around a query -/

lemma trim_eq_nil_iff {cs : List Char} : trim cs = [] ↔ cs.all isBlank := by
  rw [← trimStart_eq_nil_iff, trim]
  constructor
  · intro h
    have hblank : ∀ c ∈ trimStart cs, isBlank c := List.rdropWhile_eq_nil_iff.1 h
    have hagain : trimStart (trimStart cs) = trimStart cs := List.dropWhile_idempotent isBlank cs
    rw [← hagain, trimStart_eq_nil_iff, List.all_eq_true]
    exact hblank
  · intro h
    rw [h]
    rfl

lemma Query.ofLine_trim (config : Config) (line : String) :
    Query.ofLine config (String.ofList (trim line.toList)) = Query.ofLine config line := by
  rw [Query.ofLine, Query.ofLine, tokenize_trim]

namespace Database

lemma executeLine_trim (db : Database) (line : String) :
    db.executeLine (String.ofList (trim line.toList)) = db.executeLine line := by
  rw [executeLine, executeLine, Query.ofLine_trim]

lemma config_executeLine (db : Database) (line : String) :
    (db.executeLine line).2.config = db.config := by
  rw [executeLine]
  split
  · rfl
  · next query _ => exact (leaves_execute db query).change.config

end Database

namespace Session

/-! ## What a line adds -/

/-- A line ends the session when it is a text that says `quit` or `exit` between blanks, in any
case. -/
def Ends (bytes : Bytes) : Prop :=
  ∃ text ∈ decodeText? bytes,
    Token.Says (trim text.toList) "QUIT" ∨ Token.Says (trim text.toList) "EXIT"

instance (bytes : Bytes) : Decidable (Ends bytes) :=
  inferInstanceAs (Decidable (∃ text ∈ decodeText? bytes, _))

/-- The query line that is to be answered: a line that is a text and not blank. -/
def queryLine? (bytes : Bytes) : Option String :=
  (decodeText? bytes).filter fun text => !text.toList.all isBlank

/-- What comes of a line when it is a query line. -/
def outcome? (db : Database) (bytes : Bytes) : Option (Except QueryError (List String)) :=
  (queryLine? bytes).map fun line => (db.executeLine line).1

/-- The database after lines of input: the query lines among them are answered, whatever comes
of those before. -/
def after (db : Database) (lines : List Bytes) : Database :=
  (lines.filterMap queryLine?).foldl (fun db line => (db.executeLine line).2) db

/-- What is shown after a line: a line for each row of the answer. -/
def shown (db : Database) (bytes : Bytes) : String :=
  match outcome? db bytes with
  | some (.ok rows) => String.join (rows.map (· ++ "\n"))
  | _ => ""

/-- What is reported of a line: that it is no text, or why its query fails. -/
def complaint (db : Database) (bytes : Bytes) : String :=
  match decodeText? bytes, outcome? db bytes with
  | none, _ => "Error: input is not valid UTF-8: " ++ (Utf8Fault.first 0 bytes).message ++ "\n"
  | some _, some (.error e) => "Error: " ++ e.message ++ "\n"
  | some _, _ => ""

/-- How the query of a line is explained, if the line has one. -/
def rendering (config : Config) (bytes : Bytes) : String :=
  match (queryLine? bytes).map (Query.ofLine config) with
  | some (.ok query) => query.explanation ++ "\n"
  | _ => ""

/-- What lines add to a text one after the other, each with the database that it meets. -/
def transcript (add : Database → Bytes → String) (db : Database) (lines : List Bytes) : String :=
  String.join (lines.mapIdx fun k bytes => add (after db (lines.take k)) bytes)

variable {db : Database} {bytes : Bytes} {explained : Bool}

lemma after_append (db : Database) (lines more : List Bytes) :
    after db (lines ++ more) = after (after db lines) more := by
  rw [after, List.filterMap_append, List.foldl_append]
  rfl

lemma after_of_no_query (h : queryLine? bytes = none) : after db [bytes] = db := by
  rw [after, List.filterMap_cons_none h]
  rfl

lemma after_of_query {line : String} (h : queryLine? bytes = some line) :
    after db [bytes] = (db.executeLine line).2 := by
  rw [after, List.filterMap_cons_some h]
  rfl

lemma config_after_singleton (db : Database) (bytes : Bytes) :
    (after db [bytes]).config = db.config := by
  cases h : queryLine? bytes with
  | none => rw [after_of_no_query h]
  | some line => rw [after_of_query h, db.config_executeLine line]

lemma transcript_cons (add : Database → Bytes → String) (db : Database) (bytes : Bytes)
    (lines : List Bytes) : transcript add db (bytes :: lines) =
      add db bytes ++ transcript add (after db [bytes]) lines := by
  have hafter : ∀ k, after db ((bytes :: lines).take (k + 1)) =
      after (after db [bytes]) (lines.take k) := fun k => after_append db [bytes] _
  rw [transcript, List.mapIdx_cons, String.join_cons]
  simp only [hafter]
  rfl

/-- A line that ends the session is read as such, and no other line is. -/
lemma ofBytes_eq_stop_iff : Line.ofBytes bytes = .stop ↔ Ends bytes := by
  rw [Line.ofBytes, Ends]
  cases decodeText? bytes with
  | none => simp
  | some text =>
    have hsays : Token.Says (trim text.toList) "QUIT" ∨ Token.Says (trim text.toList) "EXIT" ↔
        Token.word (trim text.toList) = "QUIT" ∨ Token.word (trim text.toList) = "EXIT" :=
      or_congr (Token.says_iff (by decide)) (Token.says_iff (by decide))
    simp only [Option.mem_def, Option.some.injEq, exists_eq_left', hsays]
    by_cases hblank : trim text.toList = []
    · simp [hblank, Token.word]
    · by_cases hword : Token.word (trim text.toList) = "QUIT" ∨
          Token.word (trim text.toList) = "EXIT" <;> simp [hblank, hword]

lemma shown_of_no_query (h : queryLine? bytes = none) : shown db bytes = "" := by
  rw [shown, outcome?, h, Option.map_none]

lemma rendering_of_no_query {config : Config} (h : queryLine? bytes = none) :
    rendering config bytes = "" := by
  rw [rendering, h, Option.map_none]

/-- A query line is explained without the blanks around it. -/
lemma explain_trim {config : Config} {line : String} (h : queryLine? bytes = some line) :
    explain explained config (String.ofList (trim line.toList)) =
      ⟨"", if explained then rendering config bytes else ""⟩ := by
  unfold explain
  rw [Query.ofLine_trim, rendering, h, Option.map_some]
  cases explained <;> cases Query.ofLine config line <;> rfl

lemma display_executeLine {line : String} (hdecode : decodeText? bytes = some line)
    (h : queryLine? bytes = some line) :
    display (db.executeLine line).1 = ⟨shown db bytes, complaint db bytes⟩ := by
  rw [shown, complaint, outcome?, hdecode, h, Option.map_some]
  cases (db.executeLine line).1 <;> rfl

/-- What a session does with a line that does not end it. -/
lemma respond_ofBytes (h : ¬Ends bytes) : respond explained db (Line.ofBytes bytes) =
    (⟨shown db bytes, (if explained then rendering db.config bytes else "") ++ complaint db bytes⟩,
      after db [bytes]) := by
  cases hdecode : decodeText? bytes with
  | none =>
    have hline : queryLine? bytes = none := by rw [queryLine?, hdecode, Option.filter_none]
    rw [shown_of_no_query hline, rendering_of_no_query hline, after_of_no_query hline, ite_self,
      String.empty_append, Line.ofBytes, complaint, hdecode]
    rfl
  | some text =>
    by_cases hblank : text.toList.all isBlank
    · -- a blank line is no query line, so all that it could add is empty
      have hline : queryLine? bytes = none := by
        rw [queryLine?, hdecode, Option.filter_some, hblank]
        rfl
      rw [shown_of_no_query hline, rendering_of_no_query hline, after_of_no_query hline, ite_self,
        String.empty_append, Line.ofBytes, complaint, hdecode, outcome?, hline]
      simp [trim_eq_nil_iff.2 hblank, respond]
    · have hline : queryLine? bytes = some text := by
        rw [queryLine?, hdecode, Option.filter_some]
        simp [hblank]
      have hread : Line.ofBytes bytes = .query (String.ofList (trim text.toList)) := by
        have hne : ¬trim text.toList = [] := fun h => hblank (trim_eq_nil_iff.1 h)
        have hgoes : Line.ofBytes bytes ≠ .stop := ofBytes_eq_stop_iff.not.2 h
        rw [Line.ofBytes, hdecode] at hgoes ⊢
        simpa [hne] using hgoes
      rw [hread, respond, Database.executeLine_trim, explain_trim hline, after_of_query hline]
      simp only [Prod.map, display_executeLine hdecode hline, id]
      rfl

lemma append_mk (out err out' err' : String) :
    (⟨out, err⟩ ++ ⟨out', err'⟩ : Reply) = ⟨out ++ out', err ++ err'⟩ :=
  rfl

lemma runLines_cons (h : ¬Ends bytes) (lines : List Bytes) :
    runLines explained db (bytes :: lines) =
      (runLines explained (respond explained db (Line.ofBytes bytes)).2 lines).map
        (prompt ++ (respond explained db (Line.ofBytes bytes)).1 ++ ·) id := by
  rw [runLines]
  split
  · next hstop => exact absurd (ofBytes_eq_stop_iff.1 hstop) h
  · rfl

/-- What a session does with its lines.  The configuration is named apart from the database, since
it stays the same while the database changes. -/
lemma runLines_eq {config : Config} (hconfig : db.config = config) (lines : List Bytes) :
    runLines explained db lines =
      (⟨transcript (fun db bytes => "csvql> " ++ shown db bytes) db
            (lines.takeWhile (¬Ends ·)) ++ "csvql> ",
        transcript (fun db bytes =>
            (if explained then rendering config bytes else "") ++ complaint db bytes) db
          (lines.takeWhile (¬Ends ·))⟩,
        after db (lines.takeWhile (¬Ends ·))) := by
  induction lines generalizing db with
  | nil => rfl
  | cons bytes lines ih =>
    by_cases hends : Ends bytes
    · rw [List.takeWhile_cons_of_neg (by simp [hends]), runLines, ofBytes_eq_stop_iff.2 hends]
      rfl
    · -- the rest of the session starts from the database after this line
      have hrest := @ih (after db [bytes]) ((config_after_singleton db bytes).trans hconfig)
      rw [List.takeWhile_cons_of_pos (by simp [hends]), transcript_cons, transcript_cons,
        runLines_cons hends, respond_ofBytes hends, hrest, hconfig]
      have hafter : after db (bytes :: lines.takeWhile (¬Ends ·)) =
          after (after db [bytes]) (lines.takeWhile (¬Ends ·)) := after_append db [bytes] _
      rw [hafter, Prod.map, prompt, append_mk, append_mk, String.empty_append]
      simp only [id, String.append_assoc]

/-- A session takes the lines of its input up to the first that ends it, and answers the query
lines among them one after the other.  The output has a prompt for each line, with the rows of
its answer behind it, and one prompt more at the end.  Of each line there is at most one report,
that it is no text or that its query fails, and when queries are explained the explanation
stands right before it. -/
theorem run_eq (db : Database) (input : Bytes) :
    (∀ lines, LinesOf input lines ↔ lines = cutLines input) ∧
    ∀ explained : Bool,
      let lines := (cutLines input).takeWhile (¬Ends ·)
      let (reply, final) := run explained db input
      final = after db lines ∧
      reply.out = transcript (fun db bytes => "csvql> " ++ shown db bytes) db lines ++ "csvql> " ∧
      reply.err = transcript (fun current bytes =>
          (if explained then rendering db.config bytes else "") ++ complaint current bytes)
        db lines := by
  refine ⟨fun lines => linesOf_iff, fun explained => ?_⟩
  rw [run, runLines_eq rfl]
  exact ⟨rfl, rfl, rfl⟩

/-- An update, a selection in small letters, a line without a semicolon, and the word that ends the
session, with blanks around it and one more query behind it. -/
theorem run_eq_of_quit :
    let db : Database :=
      ⟨{}, (Disk.empty [['h']]).addFile "t.csv" (encodeText "a,b\n1,x\n")⟩
    let input := encodeText
      "UPDATE t SET b = y;\nselect b from t;\nDELETE FROM t\n\t Quit\r\nDELETE FROM t;\n"
    let (reply, final) := run false db input
    final.disk.read "t.csv" = .ok (encodeText "a,b\n1,y\n") ∧
      reply.out = "csvql> csvql> y\ncsvql> csvql> " ∧
      reply.err = "Error: Syntax error: Query must end with a semicolon\n" := by
  intro db input
  rcases hrun : run false db input with ⟨reply, final⟩
  have hlines : (cutLines input).takeWhile (¬Ends ·) =
      [encodeText "UPDATE t SET b = y;\n", encodeText "select b from t;\n",
        encodeText "DELETE FROM t\n"] := by decide +kernel
  have h := (run_eq db input).2 false
  rw [hrun, hlines] at h
  obtain ⟨hfinal, hout, herr⟩ := h
  refine ⟨?_, hout.trans ?_, herr.trans ?_⟩
  · rw [hfinal]
    decide +kernel
  · decide +kernel
  · decide +kernel

end Session

end FlatQuery
