/-
# Queries that have nothing to do with each other

Two queries of which neither writes a file that the other one names can be executed in either
order (`Database.execute_comm`): each has the answer that it has by itself, and afterwards the
disk is the same.  The reason is that a query does not notice files that it does not name: when
one of them gets another content, the query does what it did before, and leaves the new content
alone (`Database.execute_putFile`).
-/
import FlatQuery.Proofs.Execution

namespace FlatQuery

/-! ## What an answer depends on -/

section Answer

variable {query : Query} {config : Config} {read other : Reader}

lemma Table.load_congr {path : String} (h : read path = other path) :
    Table.load read path = Table.load other path := by
  rw [Table.load, Table.load, h]

namespace Query

lemma joined_congr (h : ∀ path ∈ query.paths config, read path = other path) :
    query.joined config read = query.joined config other := by
  have htable : read (config.path query.table) = other (config.path query.table) :=
    h _ (List.mem_map_of_mem List.mem_cons_self)
  have hjoins : ∀ join ∈ query.joins,
      read (config.path join.table) = other (config.path join.table) := fun join hjoin =>
    h _ (List.mem_map_of_mem (List.mem_cons_of_mem _ (List.mem_map_of_mem hjoin)))
  rw [joined, joined, Table.load_congr htable]
  congr 1
  funext table
  -- the joins are loaded one after the other
  generalize query.joins = joins at hjoins ⊢
  induction joins generalizing table with
  | nil => rfl
  | cons join joins ih =>
    obtain ⟨hjoin, hjoins⟩ := List.forall_mem_cons.1 hjoins
    rw [List.foldlM_cons, List.foldlM_cons, Table.load_congr hjoin]
    congr 1
    funext left
    exact ih left hjoins

/-- The answer to a query depends on the files that it names, and on nothing else. -/
lemma answer_congr (h : ∀ path ∈ query.paths config, read path = other path) :
    query.answer config read = query.answer config other := by
  rw [answer, answer, joined_congr h]

end Query

end Answer

/-! ## Files that a query does not name -/

namespace Database

variable {db : Database} {query : Query} {location : Location} {old bytes : Bytes}

/-- A query names a file when the path of its table, or of a table that it joins, leads there. -/
def Names (db : Database) (query : Query) (location : Location) : Prop :=
  ∃ path ∈ query.paths db.config, db.disk.locate path = .ok location

/-- A query writes a file when it is a change that succeeds, and the path of its table leads
there. -/
def Writes (db : Database) (query : Query) (location : Location) : Prop :=
  query.kind ≠ .select ∧ db.disk.locate (db.config.path query.table) = .ok location ∧
    ∃ rows, (db.execute query).1 = .ok rows

/-- A database with a file put at a location. -/
def putFile (db : Database) (location : Location) (bytes : Bytes) : Database :=
  { db with disk := db.disk.putFile location bytes }

lemma names_of_locate (h : db.disk.locate (db.config.path query.table) = .ok location) :
    db.Names query location :=
  ⟨_, List.mem_map_of_mem List.mem_cons_self, h⟩

lemma putFile_comm {other : Location} (h : location ≠ other) (bytes more : Bytes) :
    (db.putFile location bytes).putFile other more =
      (db.putFile other more).putFile location bytes :=
  congrArg (Database.mk db.config) (Disk.putFile_comm h bytes more)

/-- A query either leaves the database alone or writes a file that was there. -/
lemma execute_eq_self_or_putFile (db : Database) (query : Query) :
    (db.execute query).2 = db ∨
      ∃ location old bytes, db.Writes query location ∧
        db.disk.node? location = some (.file old) ∧
        (db.execute query).2 = db.putFile location bytes := by
  rcases db.execute_cases query with ⟨e, -, hrun⟩ | ⟨rows, -, -, hrun⟩ |
    ⟨table, location, old, -, hkind, hlocate, hold, hrun⟩
  · exact Or.inl (by rw [hrun])
  · exact Or.inl (by rw [hrun])
  · have hwrites : db.Writes query location := ⟨hkind, hlocate, [], by rw [hrun]⟩
    exact Or.inr ⟨location, old, Csv.encode table, hwrites, hold, by rw [hrun]; rfl⟩

/-- When a file that a query does not name gets another content, the query does what it did
before, and leaves the new content alone. -/
lemma execute_putFile (hold : db.disk.node? location = some (.file old))
    (hnames : ¬db.Names query location) (bytes : Bytes) :
    (db.putFile location bytes).execute query =
      ((db.execute query).1, (db.execute query).2.putFile location bytes) := by
  let after := db.putFile location bytes
  have hanswer : query.answer after.config after.disk.read =
      query.answer db.config db.disk.read := by
    refine Query.answer_congr fun path hpath => ?_
    have hread : after.disk.read path = _ := Disk.read_putFile_of_file hold path
    rw [hread, if_neg fun hlocate => hnames ⟨path, hpath, hlocate⟩]
  rcases db.execute_cases query with ⟨e, herror, hrun⟩ | ⟨rows, hrows, -, hrun⟩ |
    ⟨table, target, found, hchange, -, hlocate, hfile, hrun⟩
  · rw [hrun, execute_of_error (hanswer.trans herror)]
  · rw [hrun, execute_of_rows (hanswer.trans hrows)]
  · have hne : target ≠ location := by
      rintro rfl
      exact hnames (names_of_locate hlocate)
    have hlocate' : after.disk.locate (after.config.path query.table) = .ok target :=
      (Disk.locate_putFile_of_file hold _).trans hlocate
    have hfile' : after.disk.node? target = some (.file found) :=
      (Disk.node?_putFile_of_ne hne).trans hfile
    rw [hrun, execute_of_change (hanswer.trans hchange) hlocate' hfile']
    exact congrArg (Prod.mk _) (putFile_comm hne.symm bytes (Csv.encode table))

/-! ## Two queries -/

/-- Two queries are independent when neither writes a file that the other one names. -/
structure Independent (db : Database) (first second : Query) : Prop where
  first_writes : ∀ location, db.Writes first location → ¬db.Names second location
  second_writes : ∀ location, db.Writes second location → ¬db.Names first location

variable {first second : Query}

/-- For two queries to be independent it is enough that the path of a changed table leads to
another place than the paths of the other query. -/
lemma independent_of_locate_ne
    (hfirst : first.kind ≠ .select → ∀ path ∈ second.paths db.config,
      db.disk.locate path ≠ db.disk.locate (db.config.path first.table))
    (hsecond : second.kind ≠ .select → ∀ path ∈ first.paths db.config,
      db.disk.locate path ≠ db.disk.locate (db.config.path second.table)) :
    db.Independent first second where
  first_writes _ hwrites := fun ⟨path, hpath, hlocate⟩ =>
    hfirst hwrites.1 path hpath (hlocate.trans hwrites.2.1.symm)
  second_writes _ hwrites := fun ⟨path, hpath, hlocate⟩ =>
    hsecond hwrites.1 path hpath (hlocate.trans hwrites.2.1.symm)

/-- A query has the same answer after another one that writes no file that it names. -/
lemma answer_execute_after
    (h : ∀ location, db.Writes first location → ¬db.Names second location) :
    ((db.execute first).2.execute second).1 = (db.execute second).1 := by
  rcases db.execute_eq_self_or_putFile first with
    hself | ⟨location, old, bytes, hwrites, hold, hput⟩
  · rw [hself]
  · rw [hput, execute_putFile hold (h location hwrites)]

/-- Independent queries can be executed in either order. -/
theorem execute_comm (h : db.Independent first second) :
    ((db.execute second).2.execute first).1 = (db.execute first).1 ∧
    ((db.execute first).2.execute second).1 = (db.execute second).1 ∧
    ((db.execute first).2.execute second).2 = ((db.execute second).2.execute first).2 := by
  refine ⟨answer_execute_after h.second_writes, answer_execute_after h.first_writes, ?_⟩
  rcases db.execute_eq_self_or_putFile first with
    hfirst | ⟨here, old, bytes, hwrites, hold, hfirst⟩
  · rcases db.execute_eq_self_or_putFile second with
      hsecond | ⟨there, old, bytes, hwrites, hold, hsecond⟩
    · rw [hfirst, hsecond, hfirst]
    · rw [hsecond, execute_putFile hold (h.second_writes there hwrites), hfirst]
      exact hsecond
  · rw [hfirst, execute_putFile hold (h.first_writes here hwrites)]
    rcases db.execute_eq_self_or_putFile second with
      hsecond | ⟨there, old', bytes', hwrites', hold', hsecond⟩
    · rw [hsecond, hfirst]
    · have hne : here ≠ there := by
        rintro rfl
        exact h.first_writes here hwrites (names_of_locate hwrites'.2.1)
      rw [hsecond, execute_putFile hold' (h.second_writes there hwrites'), hfirst]
      exact putFile_comm hne.symm bytes' bytes

/-- A row is inserted into one table, and in another one, which is named in two ways and joined
with itself, all rows are deleted.  In both orders both are done. -/
theorem execute_comm_of_two_tables :
    let db : Database := ⟨{}, ((Disk.empty [['h']]).addFile "t.csv" (encodeText "a\n")).addFile
      "u.csv" (encodeText "b\n1\n")⟩
    let first : Query :=
      { kind := .insert, table := "t.csv", columns := .only [], values? := some ["x"] }
    let second : Query :=
      { kind := .delete, table := "u.csv", columns := .only []
        joins := [⟨"b", "../h/u.csv", "b"⟩] }
    db.Independent first second ∧
      ((db.execute second).2.execute first).1 = (db.execute first).1 ∧
      ((db.execute first).2.execute second).1 = (db.execute second).1 ∧
      ((db.execute first).2.execute second).2 = ((db.execute second).2.execute first).2 ∧
      (db.execute first).1 = .ok [] ∧ (db.execute second).1 = .ok [] ∧
      ((db.execute first).2.execute second).2.disk.read "t.csv" = .ok (encodeText "a\nx\n") ∧
      ((db.execute first).2.execute second).2.disk.read "u.csv" = .ok (encodeText "b\n") := by
  intro db first second
  have h : db.Independent first second :=
    independent_of_locate_ne (fun _ => by decide) (fun _ => by decide)
  obtain ⟨hfirst, hsecond, hboth⟩ := execute_comm h
  refine ⟨h, hfirst, hsecond, hboth, ?_, ?_, ?_, ?_⟩ <;> decide +kernel

end Database

end FlatQuery
