/-
**A table as a text of statements.**

A table is written as the `CREATE TABLE` and the `INSERT` statements that make it again, and a
`SELECT` behind them.

* `insert_row`: the `INSERT` of a row puts the row into the table, value for value.
* `dump_restores`: on a database without the table, a process with the text makes the table, with the
  rows in some order, and prints it.
* `main_restores`: so does the program, behind any number of processes that came to their ends.
-/

import Yadb.Shell.Main
import Yadb.Sql.Sentences

namespace Yadb

open Foundation Lexer Yadb.Parser

namespace Shell

variable {schema : Schema} {tableName : Bytes}

/-! ### Texts of rows -/

/-- `INSERT INTO table_name VALUES (...)`. A row is not empty. -/
def insertRow (doubles : Doubles) (tableName : Bytes) (values : List Value) : Sentence :=
  .insert tableName [] ((values.map (toText doubles)).headD []) (values.map (toText doubles)).tail

/-- The table with its rows, and a query that asks for them. -/
def dump (doubles : Doubles) (tableName : Bytes) (column : ColumnDef) (columns : List ColumnDef)
    (rows : List (List Value)) : List Sentence :=
  .create tableName column columns :: rows.map (insertRow doubles tableName) ++
    [.ofQuery (.select [] tableName none)]

/-- The strings of a row can be put in quotes. -/
def StringsQuotable (values : List Value) : Prop :=
  ∀ text, Value.string text ∈ values → Quotable text

theorem quotable_digits {digits : Bytes} (all : ∀ digit ∈ digits, IsDigit digit) :
    Quotable digits :=
  ⟨fun member => absurd (all quote member) (by decide), fun member => absurd (all 0 member) (by decide)⟩

theorem quotable_integerText (number : Int) : Quotable (integerText number) := by
  cases number with
  | ofNat number => exact quotable_digits (decimal_isDigit number)
  | negSucc number =>
      obtain ⟨noQuote, noNul⟩ := quotable_digits (decimal_isDigit (number + 1))
      exact ⟨fun member => (List.mem_cons.mp member).elim (by decide) noQuote,
        fun member => (List.mem_cons.mp member).elim (by decide) noNul⟩

/-- The texts of values can be put in quotes. -/
theorem quotable_toText (doubles : Doubles) {values : List Value}
    (quotable : StringsQuotable values) (notDouble : ∀ value ∈ values, value.type ≠ .f64) :
    ∀ value ∈ values, Quotable (toText doubles value) := by
  intro value member
  cases value with
  | i32 value => exact quotable_integerText value.toInt
  | string text => exact quotable text member
  | u32 value => exact quotable_digits (decimal_isDigit value.toNat)
  | i64 value => exact quotable_integerText value.toInt
  | f64 value => exact absurd rfl (notDouble _ member)

/-- A row of the schema has no `double`. -/
theorem values_notDouble (none_ : NoDoubles schema) {values : List Value}
    (matching : Matches schema values) : ∀ value ∈ values, value.type ≠ .f64 := by
  intro value member isDouble
  obtain ⟨attr, isAttr, isType, _⟩ : ∃ attr ∈ schema, typeOf value = attr.type ∧ value.Storable := by
    clear none_
    induction matching with
    | nil => cases member
    | cons first _ ih =>
        rcases List.mem_cons.mp member with rfl | member
        · exact ⟨_, List.mem_cons_self, first⟩
        · obtain ⟨attr, isAttr, fits⟩ := ih member
          exact ⟨attr, List.mem_cons_of_mem _ isAttr, fits⟩
  refine none_ attr isAttr ?_
  rw [← isType, typeOf, isDouble]

/-- **The texts of a row are read as the row.** -/
theorem readValues_toText (doubles : Doubles) (none_ : NoDoubles schema) {values : List Value}
    (matching : Matches schema values) :
    Executor.readValues (Parameters.ofDoubles doubles).valueFromString schema
      (values.map (toText doubles)) = some values := by
  have notDouble := values_notDouble none_ matching
  clear none_
  induction matching with
  | nil => rfl
  | @cons attr value schema values first _ ih =>
      obtain ⟨isType, storable⟩ := first
      obtain ⟨firstNot, restNot⟩ := List.forall_mem_cons.mp notDouble
      have read : (Parameters.ofDoubles doubles).valueFromString attr.type (toText doubles value)
          = some value := by
        show (valueFromString doubles attr.type (toText doubles value)).toOption = some value
        rw [← isType, valueFromString_toText doubles storable firstNot]
        rfl
      rw [List.map_cons, Executor.readValues, read, ih restNot]
      rfl

/-! ### On a database -/

variable {database : Database}

/-- **The `INSERT` of a row puts the row into the table**, value for value. -/
theorem insert_row (doubles : Doubles) (none_ : NoDoubles schema) {before : List (List Value)}
    (known : database tableName = some ⟨schema, some before⟩) {values : List Value}
    (matching : Matches schema values) (notEmpty : values ≠ []) (position : Nat) :
    database.execute (.ofDoubles doubles) (insertRow doubles tableName values).stmt position
      = (.done, Function.update database tableName
          (some ⟨schema, some (insertAt position values before)⟩)) := by
  obtain ⟨first, rest, rfl⟩ := List.exists_cons_of_ne_nil notEmpty
  have lengths := List.Forall₂.length_eq matching
  have isRead := readValues_toText doubles none_ matching
  have inserted : Database.insert (.ofDoubles doubles) ⟨schema, some before⟩
      ⟨tableName, [], (first :: rest).map (toText doubles)⟩ position
        = some ⟨schema, some (insertAt position (first :: rest) before)⟩ := by
    have same : ¬ ((first :: rest).map (toText doubles)).length ≠ schema.length := by
      rw [List.length_map]
      exact not_not.mpr lengths.symm
    simp only [Database.insert, Option.bind_eq_bind, Option.bind_some, if_neg same, isRead,
      if_pos matching]
  have isStmt : (insertRow doubles tableName (first :: rest)).stmt
      = .insert ⟨tableName, [], (first :: rest).map (toText doubles)⟩ := rfl
  simp only [isStmt, Database.execute, known, Option.bind_some, inserted]

theorem Report.after_append (first second : Bytes) (report : Report) :
    (report.after second).after first = report.after (first ++ second) :=
  congrArg (Report.mk · report.ending) (List.append_assoc _ _ _).symm

/-- **The `INSERT`s of some rows**, one after the other. -/
theorem run_inserts (doubles : Doubles) (none_ : NoDoubles schema) (someColumn : schema ≠ [])
    {rows : List (List Value)} (fitting : Fitting schema rows) {before : List (List Value)}
    (known : database tableName = some ⟨schema, some before⟩) (schedule : Schedule)
    (stmts : List SqlStmt) (behind : Database → Report × Database) :
    ∃ after, after.Perm (rows ++ before) ∧
      let run := runStmts (Database.engine doubles (.ofDoubles doubles))
        (schedule.shift rows.length)
        (Function.update database tableName (some ⟨schema, some after⟩)) stmts behind
      runStmts (Database.engine doubles (.ofDoubles doubles)) schedule database
          (rows.map (fun values => (insertRow doubles tableName values).stmt) ++ stmts) behind
        = (run.1.after (List.replicate rows.length ResultPrinter.doneText).flatten, run.2) := by
  induction rows generalizing database before schedule with
  | nil =>
      refine ⟨before, .refl _, ?_⟩
      rw [List.length_nil, schedule.shift_zero, ← known, Function.update_eq_self]
      rfl
  | cons values rows ih =>
      obtain ⟨first, rest⟩ := List.forall_mem_cons.mp fitting
      have notEmpty : values ≠ [] := by
        rintro rfl
        exact someColumn (List.length_eq_zero_iff.mp (List.Forall₂.length_eq first))
      have inserted := insert_row doubles none_ known first notEmpty
        (schedule 0).2.position
      have executed : Database.engine doubles (.ofDoubles doubles) database
          (insertRow doubles tableName values).stmt (schedule 0)
            = (.ok ResultPrinter.doneText, Function.update database tableName
                (some ⟨schema, some (insertAt (schedule 0).2.position values before)⟩)) := by
        rw [Database.engine, inserted]
        rfl
      obtain ⟨after, perm, run⟩ := ih rest (Function.update_self tableName _ _) (schedule.shift 1)
      refine ⟨after, ?_, ?_⟩
      · have moved := perm.trans
          ((perm_insertAt (schedule 0).2.position values before).append_left rows)
        exact moved.trans List.perm_middle
      · rw [Function.update_idem, schedule.shift_shift, Nat.add_comm] at run
        rw [List.map_cons, List.cons_append, runStmts_ok executed, run]
        exact Prod.ext (Report.after_append _ _ _) rfl

/-! ### The whole text -/

/-- The columns of a `CREATE TABLE`. -/
def schemaOf (column : ColumnDef) (columns : List ColumnDef) : Schema :=
  (column :: columns).map ColumnDef.attr

/-- A table that can be written: its names are no keywords, its strings have neither a quote nor a
NUL, and there is no `double` in it. -/
structure Writable (tableName : Bytes) (column : ColumnDef) (columns : List ColumnDef)
    (rows : List (List Value)) : Prop where
  tableIsName : IsName tableName
  names : ∀ one ∈ column :: columns, IsName one.name ∧ IsName one.typeName
  noDoubles : NoDoubles (schemaOf column columns)
  fitting : Fitting (schemaOf column columns) rows
  quotable : ∀ values ∈ rows, StringsQuotable values

section Dump

variable {column : ColumnDef} {columns : List ColumnDef} {rows : List (List Value)}

theorem schemaOf_ne_nil (column : ColumnDef) (columns : List ColumnDef) :
    schemaOf column columns ≠ [] :=
  List.cons_ne_nil _ _

theorem dump_printable (doubles : Doubles) (writable : Writable tableName column columns rows) :
    ∀ sentence ∈ dump doubles tableName column columns rows, sentence.Printable := by
  have inserts : ∀ values ∈ rows, (insertRow doubles tableName values).Printable := by
    intro values member
    have matching := writable.fitting values member
    have texts := quotable_toText doubles (writable.quotable values member)
      (values_notDouble writable.noDoubles matching)
    have notEmpty : values ≠ [] := by
      rintro rfl
      exact schemaOf_ne_nil _ _ (List.length_eq_zero_iff.mp (List.Forall₂.length_eq matching))
    obtain ⟨first, rest, rfl⟩ := List.exists_cons_of_ne_nil notEmpty
    exact ⟨writable.tableIsName, List.forall_mem_nil _, List.forall_mem_map.mpr texts⟩
  have query : (Sentence.ofQuery (.select [] tableName none)).Printable :=
    ⟨List.forall_mem_nil _, writable.tableIsName, by rintro _ ⟨⟩⟩
  exact List.forall_mem_cons.mpr ⟨⟨writable.tableIsName, writable.names⟩,
    List.forall_mem_append.mpr ⟨List.forall_mem_map.mpr inserts, List.forall_mem_singleton.mpr query⟩⟩

/-- What is printed for a table that is made again: a line for each statement, and the table. -/
def restoredText (doubles : Doubles) (schema : Schema) (rows : List (List Value)) : Bytes :=
  (List.replicate (rows.length + 1) ResultPrinter.doneText).flatten
    ++ (Reply.rows schema rows).text doubles

/-- **The text of a table makes it again**, on a database without it, with the rows in some order,
and prints it. -/
theorem dump_restores (doubles : Doubles) (writable : Writable tableName column columns rows)
    {query : Bytes} (renders : Renders (textTokens (dump doubles tableName column columns rows)) query)
    (unknown : database tableName = none) (schedule : Schedule) :
    ∃ found, found.Perm rows ∧
      runInput (Database.engine doubles (.ofDoubles doubles)) schedule database (.command query)
        = (⟨restoredText doubles (schemaOf column columns) found, .exit 0⟩,
          Function.update database tableName (some ⟨schemaOf column columns, some found⟩)) := by
  have parsed := parseSqlString_sentences (dump_printable doubles writable) renders
  have created : Database.engine doubles (.ofDoubles doubles) database
      (Sentence.create tableName column columns).stmt (schedule 0) = (.ok ResultPrinter.doneText,
        Function.update database tableName (some ⟨schemaOf column columns, some []⟩)) := by
    simp only [Database.engine, Sentence.stmt, Database.execute, unknown]
    rfl
  have queried : ∀ found choice, Database.engine doubles (.ofDoubles doubles)
      (Function.update database tableName (some ⟨schemaOf column columns, some found⟩))
      (Sentence.ofQuery (.select [] tableName none)).stmt choice
        = (.ok ((Reply.rows (schemaOf column columns) found).text doubles),
          Function.update database tableName (some ⟨schemaOf column columns, some found⟩)) := by
    intro found choice
    have isAll := query_all (.ofDoubles doubles) (Function.update_self tableName
      (some ⟨schemaOf column columns, some found⟩) database) rfl none
    simp only [Database.engine, Sentence.stmt, Query.stmt, Database.execute, List.isEmpty_nil, isAll,
      kept, Option.map_some, Option.getD_some]
  obtain ⟨found, perm, run⟩ := run_inserts doubles writable.noDoubles (schemaOf_ne_nil _ _)
    writable.fitting (Function.update_self tableName (some ⟨schemaOf column columns, some []⟩)
      database) (schedule.shift 1) [(Sentence.ofQuery (.select [] tableName none)).stmt]
    fun state => (⟨[], .exit 0⟩, state)
  rw [List.append_nil] at perm
  rw [Function.update_idem, runStmts_ok (queried found _), runStmts] at run
  refine ⟨found, perm, ?_⟩
  have isDump : (dump doubles tableName column columns rows).map Sentence.stmt
      = (Sentence.create tableName column columns).stmt ::
        (rows.map (fun values => (insertRow doubles tableName values).stmt) ++
          [(Sentence.ofQuery (.select [] tableName none)).stmt]) := by
    rw [dump, List.cons_append, List.map_cons, List.map_append, List.map_map]
    rfl
  rw [runInput, parsed, isDump]
  dsimp only
  rw [runStmts_ok created, run]
  refine Prod.ext ?_ rfl
  simp only [Report.after, List.append_nil, restoredText, perm.length_eq, List.replicate_succ,
    List.flatten_cons, List.append_assoc]

/-- **The text of a table makes it again in the program**, behind any number of processes that came
to their ends and have left no table with the name. -/
theorem main_restores (doubles : Doubles) (writable : Writable tableName column columns rows)
    {query : Bytes} (renders : Renders (textTokens (dump doubles tableName column columns rows)) query)
    (processes : List Process) (setup : Catalog.Setup) (schedule : Schedule)
    (exits : (machine doubles (.ofDoubles doubles)).Along (Exits doubles (.ofDoubles doubles)) .empty
      (processes ++ [⟨setup, .command query, schedule⟩]))
    (unknown : (Database.shell doubles (.ofDoubles doubles)).exec .initial processes tableName = none) :
    ∃ found, found.Perm rows ∧
      (machine doubles (.ofDoubles doubles)).answer
          ((machine doubles (.ofDoubles doubles)).exec .empty processes)
          ⟨setup, .command query, schedule⟩
        = ⟨restoredText doubles (schemaOf column columns) found, .exit 0⟩ := by
  have files : Files ((machine doubles (.ofDoubles doubles)).exec .empty processes)
      ((Database.shell doubles (.ofDoubles doubles)).exec .initial processes) :=
    exec_files exits.left
  have exitsHere := Machine.Along.last exits
  have restarted : Database.restart
      ((Database.shell doubles (.ofDoubles doubles)).exec .initial processes) tableName = none := by
    rw [Database.restart, unknown, Option.map_none]
  obtain ⟨found, perm, run⟩ := dump_restores doubles writable renders restarted schedule
  obtain ⟨same, _⟩ := process_shows files exitsHere
  refine ⟨found, perm, ?_⟩
  have answered : (main doubles (.ofDoubles doubles)
      ((machine doubles (.ofDoubles doubles)).exec .empty processes)
      ⟨setup, .command query, schedule⟩).1 = _ := same
  rw [Database.process, run] at answered
  exact answered

end Dump

/-- The rows of a table `t(a U32, b TEXT)`. -/
def sampleRows : List (List Value) := [[.u32 7, .string [120]], [.u32 1200, .string []]]

theorem sampleRows_writable : Writable [116] sampleColumn [textColumn] sampleRows := by
  refine ⟨isName_t, List.forall_mem_cons.mpr ⟨⟨isName_a, isName_u32⟩,
    List.forall_mem_singleton.mpr ⟨isName_b, isName_text⟩⟩, by decide,
    by unfold Fitting; decide, ?_⟩
  refine List.forall_mem_cons.mpr ⟨fun text member => ?_,
    List.forall_mem_singleton.mpr fun text member => ?_⟩
  · obtain rfl : text = [120] := by simpa using member
    exact ⟨by decide, by decide⟩
  · obtain rfl : text = [] := by simpa using member
    exact ⟨by decide, by decide⟩

/-- The text of the table. -/
def sampleDump : List Sentence := dump noDoubles [116] sampleColumn [textColumn] sampleRows

/-- `CREATE TABLE b ( a U32 ) ; INSERT INTO b VALUES ( '7' ) ;`. -/
def makeOther : List Sentence := [.create [98] sampleColumn [], .insert [98] [] [55] []]

theorem makeOther_printable : ∀ sentence ∈ makeOther, sentence.Printable := by
  have created : Sentence.Printable (.create [98] sampleColumn []) :=
    ⟨isName_b, List.forall_mem_singleton.mpr ⟨isName_a, isName_u32⟩⟩
  have inserted : Sentence.Printable (.insert [98] [] [55] []) :=
    ⟨isName_b, List.forall_mem_nil _, List.forall_mem_singleton.mpr ⟨by decide, by decide⟩⟩
  exact List.forall_mem_cons.mpr ⟨created, List.forall_mem_singleton.mpr inserted⟩

theorem process_sentences {sentences : List Sentence}
    (printable : ∀ sentence ∈ sentences, sentence.Printable) (database : Database) (index : Nat) :
    (Database.shell noDoubles (.ofDoubles noDoubles)).next database
        (sentenceProcess sentences index)
      = (runStmts (Database.engine noDoubles (.ofDoubles noDoubles))
          (sentenceProcess sentences index).schedule database.restart
          (sentences.map Sentence.stmt) fun state => (⟨[], .exit 0⟩, state)).2 := by
  simp only [Machine.next, Database.shell, Database.process, runInput, sentenceProcess,
    parse_sentenceText printable]

/-- A process makes another table before. -/
def makeBefore : List Process := [sentenceProcess makeOther 2]

theorem makeBefore_exits : (machine noDoubles (.ofDoubles noDoubles)).Along
    (Exits noDoubles (.ofDoubles noDoubles)) .empty
    (makeBefore ++ [sentenceProcess sampleDump 3]) := by
  have printable : ∀ sentence ∈ sampleDump, sentence.Printable :=
    dump_printable noDoubles sampleRows_writable
  refine ⟨?_, ?_, trivial⟩
  · rw [Exits, main_sentences makeOther_printable]
    decide +kernel
  · rw [next_sentences makeOther_printable, Exits, main_sentences printable]
    decide +kernel

theorem makeBefore_unknown :
    (Database.shell noDoubles (.ofDoubles noDoubles)).exec .initial makeBefore [116] = none := by
  rw [makeBefore, Machine.exec_cons, Machine.exec_nil, process_sentences makeOther_printable]
  decide +kernel

theorem sampleDump_restores : ∃ found, found.Perm sampleRows ∧
    (machine noDoubles (.ofDoubles noDoubles)).answer
        ((machine noDoubles (.ofDoubles noDoubles)).exec .empty makeBefore)
        (sentenceProcess sampleDump 3)
      = ⟨restoredText noDoubles (schemaOf sampleColumn [textColumn]) found, .exit 0⟩ :=
  main_restores noDoubles sampleRows_writable
    (printed_renders (textTokens_printable (dump_printable noDoubles sampleRows_writable)))
    makeBefore _ _ makeBefore_exits makeBefore_unknown

end Shell

end Yadb
