/-
**The program.**

`main.cpp`: a process makes an executor, parses what it is given, and prints the result of each
statement. With `-c` it is given one query; otherwise it reads lines up to `quit`, `exit` or the end
of the input. An exception of the executor ends it, and so does a failed assertion.

* `Database.process`: the same on a database, in the words of `Reply.text`.
* `process_shows`: a process that comes to its end prints what it prints on the database.
* `processes_refine`: so do any number of processes, one after the other, over the same files.
-/

import Yadb.Executor.Values
import Yadb.Shell.ResultPrinter
import Yadb.Sql.Sentences

namespace Yadb

open Foundation

namespace Shell

/-! ### Processes -/

/-- What a statement leaves to chance. -/
abbrev Schedule : Type := Nat → Choices × Placement

def Schedule.shift (schedule : Schedule) (count : Nat) : Schedule := fun index =>
  schedule (count + index)

theorem Schedule.shift_zero (schedule : Schedule) : schedule.shift 0 = schedule :=
  funext fun index => congrArg schedule (Nat.zero_add index)

theorem Schedule.shift_shift (schedule : Schedule) (first second : Nat) :
    (schedule.shift first).shift second = schedule.shift (first + second) :=
  funext fun index => congrArg schedule (Nat.add_assoc first second index).symm

/-- `-c query`, or the lines of the terminal. -/
inductive Input
  | command (query : Bytes)
  | lines (lines : List Bytes)

structure Process where
  setup : Catalog.Setup
  input : Input
  schedule : Schedule

inductive Ending
  | exit (code : Nat)
  | exception (failure : CallFailure)
  | assertion (failure : ReadFailure)

def Ending.isExit : Ending → Bool
  | .exit _ => true
  | .exception _ | .assertion _ => false

/-- What a process writes to `std::cout`, and how it ends. -/
structure Report where
  out : Bytes
  ending : Ending

/-- `Parser.y` for each text. -/
def invalidText : Bytes := ascii "Unknown command or invalid SQL" ++ [10]

/-- Both lines of the greeting. -/
def greeting : Bytes := ascii "Weclome to Yet Another Database 1.0" ++ 10 :: ascii
  "Type \"help\" for help" ++ [10]

def recieved (count : Nat) : Bytes := ascii "Recieved " ++ decimal count ++ ascii " queries" ++ [10]

def isQuit (line : Bytes) : Bool := line = ascii "quit" ∨ line = ascii "exit"

/-- What is written before the rest. -/
def Report.after (out : Bytes) (report : Report) : Report := ⟨out ++ report.out, report.ending⟩

/-- A statement is executed, and its result is printed. -/
abbrev Engine (State : Type) : Type :=
  State → SqlStmt → Choices × Placement → Except Ending Bytes × State

section Run

variable {State : Type} (engine : Engine State)

/-- The loop over the statements, with what the process does behind it. -/
def runStmts (schedule : Schedule) (state : State) :
    List SqlStmt → (State → Report × State) → Report × State
  | [], behind => behind state
  | stmt :: stmts, behind => match engine state stmt (schedule 0) with
    | (.error ending, state) => (⟨[], ending⟩, state)
    | (.ok text, state) =>
        let (report, state) := runStmts (schedule.shift 1) state stmts behind
        (report.after text, state)

/-- The loop over the lines. -/
def runLines (schedule : Schedule) (state : State) : List Bytes → Report × State
  | [] => (⟨[], .exit 0⟩, state)
  | line :: lines =>
      if line = [] then runLines schedule state lines
      else if isQuit line then (⟨[], .exit 0⟩, state)
      else match Parser.parseSqlString line with
        | none =>
            let (report, state) := runLines schedule state lines
            (report.after invalidText, state)
        | some stmts =>
            let (report, state) := runStmts engine schedule state stmts fun state =>
              runLines (schedule.shift stmts.length) state lines
            (report.after (recieved stmts.length), state)

def runInput (schedule : Schedule) (state : State) : Input → Report × State
  | .command query => match Parser.parseSqlString query with
    | none => (⟨[], .exit 1⟩, state)
    | some stmts => runStmts engine schedule state stmts fun state => (⟨[], .exit 0⟩, state)
  | .lines lines =>
      let (report, state) := runLines engine schedule state lines
      (report.after greeting, state)

end Run

/-- `executor.execute(stmt)` and `display_results`. -/
def executorEngine (doubles : Doubles) (parameters : Parameters) : Engine (Catalog × Storage) :=
  fun state stmt choice =>
    match Executor.step parameters state (.execute stmt choice.1 choice.2) with
    | (.error failure, state) => (.error (.exception failure), state)
    | (.ok result, state) => ((ResultPrinter.print doubles result).mapError .assertion, state)

/-- `main`. What was in memory before is gone. -/
def main (doubles : Doubles) (parameters : Parameters) (storage : Storage) (process : Process) :
    Report × Storage :=
  match Executor.construct process.setup (TableManager.reboot storage) with
  | (.error failure, storage) => (⟨[], .exception failure⟩, storage)
  | (.ok catalog, storage) =>
      let (report, state) := runInput (executorEngine doubles parameters) process.schedule
        (catalog, storage) process.input
      (report, state.2)

/-- Processes over the same files, one after the other. -/
def machine (doubles : Doubles) (parameters : Parameters) : Machine Storage Process Report :=
  ⟨main doubles parameters⟩

end Shell

/-! ### The same on a database -/

namespace Database

def engine (doubles : Doubles) (parameters : Parameters) : Shell.Engine Database :=
  fun database stmt choice =>
    let (reply, database) := execute parameters database stmt choice.2.position
    (.ok (reply.text doubles), database)

def process (doubles : Doubles) (parameters : Parameters) (database : Database)
    (process : Shell.Process) : Shell.Report × Database :=
  Shell.runInput (engine doubles parameters) process.schedule database.restart process.input

def shell (doubles : Doubles) (parameters : Parameters) : Machine Database Shell.Process Shell.Report :=
  ⟨process doubles parameters⟩

end Database

namespace Shell

/-! ### Loops in lockstep -/

section Lockstep

variable {State Spec : Type} {engine : Engine State} {spec : Engine Spec} {R : State → Spec → Prop}

/-- Both answer the same, into related states, if the first one comes to its end. -/
def Agrees (R : State → Spec → Prop) (first : Report × State) (second : Report × Spec) : Prop :=
  first.1.ending.isExit = true → first.1 = second.1 ∧ R first.2 second.2

/-- A statement of the parser has the same result on related states. -/
def Simulates (engine : Engine State) (spec : Engine Spec) (R : State → Spec → Prop) : Prop :=
  ∀ state spec' stmt choice, R state spec' → stmt.ValidTypes → ∀ text state',
    engine state stmt choice = (.ok text, state') →
      (spec spec' stmt choice).1 = .ok text ∧ R state' (spec spec' stmt choice).2

/-- No statement that fails ends the process well. -/
def FailsBadly (engine : Engine State) : Prop :=
  ∀ state stmt choice ending state', engine state stmt choice = (.error ending, state') →
    ending.isExit = false

theorem Agrees.after {first : Report × State} {second : Report × Spec} (agrees : Agrees R first second)
    (text : Bytes) : Agrees R (first.1.after text, first.2) (second.1.after text, second.2) := by
  intro isExit
  obtain ⟨same, related⟩ := agrees isExit
  exact ⟨congrArg (Report.after text) same, related⟩

/-- A statement that succeeds, and the loop behind it. -/
theorem runStmts_ok {schedule : Schedule} {state state' : State} {stmt : SqlStmt} {text : Bytes}
    (executed : engine state stmt (schedule 0) = (.ok text, state')) (stmts : List SqlStmt)
    (behind : State → Report × State) :
    runStmts engine schedule state (stmt :: stmts) behind
      = ((runStmts engine (schedule.shift 1) state' stmts behind).1.after text,
        (runStmts engine (schedule.shift 1) state' stmts behind).2) := by
  rw [runStmts, executed]

/-- **The loop over the statements.** -/
theorem runStmts_agrees (simulates : Simulates engine spec R) (badly : FailsBadly engine)
    {stmts : List SqlStmt} (valid : ∀ stmt ∈ stmts, stmt.ValidTypes) {schedule : Schedule}
    {state : State} {spec' : Spec} (related : R state spec') {behind : State → Report × State}
    {behind' : Spec → Report × Spec}
    (agrees : ∀ state spec', R state spec' → Agrees R (behind state) (behind' spec')) :
    Agrees R (runStmts engine schedule state stmts behind)
      (runStmts spec schedule spec' stmts behind') := by
  induction stmts generalizing schedule state spec' with
  | nil => exact agrees state spec' related
  | cons stmt stmts ih =>
      obtain ⟨first, rest⟩ := List.forall_mem_cons.mp valid
      cases run : engine state stmt (schedule 0) with
      | mk outcome state' =>
          cases outcome with
          | error ending =>
              intro isExit
              simp only [runStmts, run] at isExit
              rw [badly _ _ _ _ _ run] at isExit
              cases isExit
          | ok text =>
              obtain ⟨isText, related'⟩ := simulates _ _ _ _ related first _ _ run
              cases run' : spec spec' stmt (schedule 0) with
              | mk outcome spec'' =>
                  rw [run'] at isText related'
                  obtain rfl : outcome = .ok text := isText
                  rw [runStmts_ok run, runStmts_ok run']
                  exact (ih rest related').after text

/-! ### What is parsed -/

theorem typeFromName_valid {name : Bytes} {id : TypeId} (isType : typeFromName name = some id) :
    isValidTypeId id.toNat = true := by
  obtain ⟨entry, _, rfl⟩ := Option.map_eq_some_iff.mp isType
  cases entry.2 <;> rfl

theorem columnDefs_valid {tokens : List Lexer.Token} {columns : Schema}
    (list : Parser.CommaList Parser.ColumnDefRule tokens columns) :
    ∀ attr ∈ columns, isValidTypeId attr.type.toNat = true := by
  induction list with
  | single rule =>
      obtain ⟨_, _, isType⟩ := rule
      exact List.forall_mem_singleton.mpr (typeFromName_valid isType)
  | more _ rule ih =>
      obtain ⟨_, _, isType⟩ := rule
      exact List.forall_mem_append.mpr ⟨ih, List.forall_mem_singleton.mpr (typeFromName_valid isType)⟩

/-- **The columns of a statement that is parsed have types.** -/
theorem parse_validTypes {str : Bytes} {stmts : List SqlStmt}
    (parsed : Parser.parseSqlString str = some stmts) : ∀ stmt ∈ stmts, stmt.ValidTypes := by
  have rule := (Parser.readStmts_iff (Parser.tokens_valued _)).mpr parsed
  clear parsed
  generalize Lexer.tokens (Parser.cString str) = tokens at rule
  induction rule with
  | empty => exact List.forall_mem_nil _
  | more _ isStmt ih =>
      refine List.forall_mem_append.mpr ⟨ih, List.forall_mem_singleton.mpr ?_⟩
      cases isStmt with
      | create list => exact columnDefs_valid list
      | _ => trivial

/-- **The loop over the lines.** -/
theorem runLines_agrees (simulates : Simulates engine spec R) (badly : FailsBadly engine)
    (lines : List Bytes) {schedule : Schedule} {state : State} {spec' : Spec}
    (related : R state spec') :
    Agrees R (runLines engine schedule state lines) (runLines spec schedule spec' lines) := by
  induction lines generalizing schedule state spec' with
  | nil => exact fun _ => ⟨rfl, related⟩
  | cons line lines ih =>
      rw [runLines, runLines]
      by_cases nothing : line = []
      · rw [if_pos nothing, if_pos nothing]
        exact ih related
      · rw [if_neg nothing, if_neg nothing]
        by_cases quits : isQuit line = true
        · rw [if_pos quits, if_pos quits]
          exact fun _ => ⟨rfl, related⟩
        · rw [if_neg quits, if_neg quits]
          cases parsed : Parser.parseSqlString line with
          | none => exact (ih related).after invalidText
          | some stmts =>
              have valid := parse_validTypes parsed
              exact (runStmts_agrees simulates badly valid related fun _ _ => ih).after
                (recieved stmts.length)

theorem runInput_agrees (simulates : Simulates engine spec R) (badly : FailsBadly engine)
    (input : Input) {schedule : Schedule} {state : State} {spec' : Spec} (related : R state spec') :
    Agrees R (runInput engine schedule state input) (runInput spec schedule spec' input) := by
  cases input with
  | command query =>
      rw [runInput, runInput]
      cases parsed : Parser.parseSqlString query with
      | none => exact fun _ => ⟨rfl, related⟩
      | some stmts =>
          have valid := parse_validTypes parsed
          exact runStmts_agrees simulates badly valid related fun _ _ related _ => ⟨rfl, related⟩
  | lines lines => exact (runLines_agrees simulates badly lines related).after greeting

end Lockstep

/-! ### The executor and the database -/

variable {doubles : Doubles} {parameters : Parameters} {database : Database}

theorem executorEngine_badly : FailsBadly (executorEngine doubles parameters) := by
  intro state stmt choice ending state' run
  rw [executorEngine] at run
  cases stepped : Executor.step parameters state (.execute stmt choice.1 choice.2) with
  | mk outcome storage =>
      rw [stepped] at run
      cases outcome with
      | error failure =>
          cases run
          rfl
      | ok result =>
          cases printed : ResultPrinter.print doubles result with
          | error failure =>
              simp only [printed, Except.mapError] at run
              cases run
              rfl
          | ok text =>
              simp only [printed, Except.mapError] at run
              cases run

/-- The rows of an answer are rows of its schema. -/
theorem reply_fitting {catalog : Catalog} {storage : Storage}
    (shows_ : Shows database catalog storage) (stmt : SqlStmt) (position : Nat)
    {schema : Schema} {rows : List (List Value)}
    (isReply : (database.execute parameters stmt position).1 = .rows schema rows) :
    Fitting schema rows := by
  cases stmt with
  | select stmt =>
      have isQuery : (Database.query parameters database stmt).getD .failed = .rows schema rows :=
        isReply
      cases query : Database.query parameters database stmt with
      | none =>
          rw [query] at isQuery
          cases isQuery
      | some reply =>
          rw [query, Option.getD_some] at isQuery
          subst isQuery
          obtain ⟨entry, found, query⟩ := Option.bind_eq_some_iff.mp query
          obtain ⟨all, areRows, query⟩ := Option.bind_eq_some_iff.mp query
          obtain ⟨⟨schema', rows'⟩, selected, same⟩ := Option.bind_eq_some_iff.mp query
          cases same
          exact select_fitting ((shows_.rows stmt.tableName entry found).2 all areRows) selected
  | insert stmt =>
      simp only [Database.execute] at isReply
      split at isReply <;> cases isReply
  | createTable stmt =>
      simp only [Database.execute] at isReply
      split at isReply <;> cases isReply
  | dropTable stmt =>
      simp only [Database.execute] at isReply
      split at isReply <;> cases isReply
  | delete stmt => cases isReply
  | update stmt => cases isReply

/-- The tables of the executor are the tables of the database. -/
def Related (state : Catalog × Storage) (database : Database) : Prop :=
  Shows database state.1 state.2

/-- **A statement prints what it means.** -/
theorem executorEngine_simulates : Simulates (executorEngine doubles parameters)
    (Database.engine doubles parameters) Related := by
  rintro ⟨catalog, storage⟩ database stmt choice shows_ valid text state' run
  cases executed : Executor.execute parameters catalog stmt choice.1 choice.2 storage with
  | mk outcome storage' =>
      cases outcome with
      | error failure =>
          rw [executorEngine, Executor.step, executed] at run
          cases run
      | ok answer =>
          obtain ⟨result, catalog'⟩ := answer
          obtain ⟨isResult, shows'⟩ := execute_shows shows_ valid executed
          have printed : ResultPrinter.print doubles
              (database.execute parameters stmt choice.2.position).1.result
                = .ok ((database.execute parameters stmt choice.2.position).1.text doubles) :=
            ResultPrinter.print_result doubles fun _ _ =>
              reply_fitting shows_ stmt choice.2.position
          rw [← isResult] at printed
          simp only [executorEngine, Executor.step, executed, printed, Except.mapError] at run
          cases run
          exact ⟨rfl, shows'⟩

/-! ### Processes, one after the other -/

/-- The files are those of the database, or there are none yet. -/
def Files (storage : Storage) (database : Database) : Prop :=
  storage = .empty ∧ database = .initial ∨ ∃ catalog, Shows database catalog storage

/-- The process comes to its end. -/
def Exits (doubles : Doubles) (parameters : Parameters) (storage : Storage) (process : Process) :
    Prop :=
  (main doubles parameters storage process).1.ending.isExit = true

theorem restart_initial : Database.restart .initial = .initial := by
  funext name
  rw [Database.restart, Database.initial, Option.map_map]
  rfl

/-- **A process** that comes to its end prints what it prints on the database. -/
theorem process_shows {storage : Storage} (files : Files storage database) {process : Process}
    (exits : Exits doubles parameters storage process) :
    (main doubles parameters storage process).1
        = (Database.process doubles parameters database process).1 ∧
      Files (main doubles parameters storage process).2
        (Database.process doubles parameters database process).2 := by
  suffices constructed : ∀ catalog storage',
      Executor.construct process.setup (TableManager.reboot storage) = (.ok catalog, storage') →
        Shows database.restart catalog storage' by
    cases made : Executor.construct process.setup (TableManager.reboot storage) with
    | mk outcome storage' =>
        cases outcome with
        | error failure =>
            rw [Exits, main, made] at exits
            cases exits
        | ok catalog =>
            rw [Exits, main, made] at exits
            rw [main, made]
            have related : Related (catalog, storage') database.restart :=
              constructed catalog storage' made
            have agrees := runInput_agrees executorEngine_simulates executorEngine_badly process.input
              related exits
            exact ⟨agrees.1, Or.inr ⟨_, agrees.2⟩⟩
  intro catalog storage' made
  rcases files with ⟨rfl, rfl⟩ | ⟨catalog, shows_⟩
  · rw [restart_initial]
    exact Executor.construct_shows made
  · obtain ⟨made', shows'⟩ := Executor.restart_shows shows_ process.setup
    rw [made'] at made
    cases made
    exact shows'

theorem step_files : ∀ storage database process, Files storage database →
    Exits doubles parameters storage process →
      (machine doubles parameters).answer storage process
          = id ((Database.shell doubles parameters).answer database process) ∧
        Files ((machine doubles parameters).next storage process)
          ((Database.shell doubles parameters).next database process) :=
  fun _ _ _ files exits => process_shows files exits

/-- The files after some processes. -/
theorem exec_files {processes : List Process}
    (exits : (machine doubles parameters).Along (Exits doubles parameters) .empty processes) :
    Files ((machine doubles parameters).exec .empty processes)
      ((Database.shell doubles parameters).exec .initial processes) :=
  (Machine.lockstep id step_files (Or.inl ⟨rfl, rfl⟩) exits).2

/-- A process that is given some sentences. -/
def sentenceProcess (sentences : List Parser.Sentence) (index : Nat) : Process :=
  ⟨Catalog.sampleSetup, .command (Lexer.printed (Parser.textTokens sentences)),
    fun count => (TableManager.sampleChoices 0 index, Catalog.counted count)⟩

def sampleColumn : Parser.ColumnDef := ⟨[97], [85, 51, 50], 2, Parser.typeFromName_u32⟩

def textColumn : Parser.ColumnDef := ⟨[98], [84, 69, 88, 84], 1, Parser.typeFromName_text⟩

/-- `CREATE TABLE t ( a U32 , b TEXT ) ; INSERT INTO t VALUES ( '7' , 'x' ) ; SELECT * FROM t ;`. -/
def makeTable : List Parser.Sentence :=
  [.create [116] sampleColumn [textColumn], .insert [116] [] [55] [[120]],
    .ofQuery (.select [] [116] none)]

/-- `SELECT * FROM t ; DROP TABLE t ; CREATE TABLE t ( a U32 ) ; INSERT INTO t VALUES ( '9' ) ;` and
`SELECT * FROM t ;`. -/
def makeAgain : List Parser.Sentence :=
  [.ofQuery (.select [] [116] none), .drop [116], .create [116] sampleColumn [],
    .insert [116] [] [57] [], .ofQuery (.select [] [116] none)]
theorem makeTable_printable : ∀ sentence ∈ makeTable, sentence.Printable := by
  have created : Parser.Sentence.Printable (.create [116] sampleColumn [textColumn]) :=
    ⟨Parser.isName_t, List.forall_mem_cons.mpr ⟨⟨Parser.isName_a, Parser.isName_u32⟩,
      List.forall_mem_singleton.mpr ⟨Parser.isName_b, Parser.isName_text⟩⟩⟩
  have inserted : Parser.Sentence.Printable (.insert [116] [] [55] [[120]]) := by
    refine ⟨Parser.isName_t, List.forall_mem_nil _, List.forall_mem_cons.mpr
      ⟨⟨by decide, by decide⟩, List.forall_mem_singleton.mpr ⟨by decide, by decide⟩⟩⟩
  have query : Parser.Sentence.Printable (.ofQuery (.select [] [116] none)) :=
    ⟨List.forall_mem_nil _, Parser.isName_t, by rintro _ ⟨⟩⟩
  exact List.forall_mem_cons.mpr ⟨created, List.forall_mem_cons.mpr ⟨inserted,
    List.forall_mem_singleton.mpr query⟩⟩

theorem makeAgain_printable : ∀ sentence ∈ makeAgain, sentence.Printable := by
  have created : Parser.Sentence.Printable (.create [116] sampleColumn []) :=
    ⟨Parser.isName_t, List.forall_mem_singleton.mpr ⟨Parser.isName_a, Parser.isName_u32⟩⟩
  have inserted : Parser.Sentence.Printable (.insert [116] [] [57] []) :=
    ⟨Parser.isName_t, List.forall_mem_nil _,
      List.forall_mem_singleton.mpr ⟨by decide, by decide⟩⟩
  have query : Parser.Sentence.Printable (.ofQuery (.select [] [116] none)) :=
    ⟨List.forall_mem_nil _, Parser.isName_t, by rintro _ ⟨⟩⟩
  exact List.forall_mem_cons.mpr ⟨query, List.forall_mem_cons.mpr ⟨Parser.isName_t,
    List.forall_mem_cons.mpr ⟨created, List.forall_mem_cons.mpr ⟨inserted,
      List.forall_mem_singleton.mpr query⟩⟩⟩⟩

/-- A process with sentences that are parsed. -/
def runSentences (storage : Storage) (sentences : List Parser.Sentence) (index : Nat) :
    Report × Storage :=
  match Executor.construct Catalog.sampleSetup (TableManager.reboot storage) with
  | (.error failure, storage) => (⟨[], .exception failure⟩, storage)
  | (.ok catalog, storage) =>
      let (report, state) := runStmts (executorEngine noDoubles (.ofDoubles noDoubles))
        (sentenceProcess sentences index).schedule (catalog, storage)
        (sentences.map Parser.Sentence.stmt) fun state => (⟨[], .exit 0⟩, state)
      (report, state.2)

theorem parse_sentenceText {sentences : List Parser.Sentence}
    (printable : ∀ sentence ∈ sentences, sentence.Printable) :
    Parser.parseSqlString (Lexer.printed (Parser.textTokens sentences))
      = some (sentences.map Parser.Sentence.stmt) :=
  Parser.parseSqlString_sentences printable
    (Lexer.printed_renders (Parser.textTokens_printable printable))

theorem main_sentences {sentences : List Parser.Sentence}
    (printable : ∀ sentence ∈ sentences, sentence.Printable) (storage : Storage) (index : Nat) :
    main noDoubles (.ofDoubles noDoubles) storage (sentenceProcess sentences index)
      = runSentences storage sentences index := by
  simp only [main, runSentences, sentenceProcess, runInput, parse_sentenceText printable]

theorem next_sentences {sentences : List Parser.Sentence}
    (printable : ∀ sentence ∈ sentences, sentence.Printable) (storage : Storage) (index : Nat) :
    (machine noDoubles (.ofDoubles noDoubles)).next storage (sentenceProcess sentences index)
      = (runSentences storage sentences index).2 :=
  congrArg Prod.snd (main_sentences printable storage index)

/-- A table is made, filled and shown, and the next process drops it and makes another one. -/
def twoProcesses : List Process := [sentenceProcess makeTable 2, sentenceProcess makeAgain 3]

theorem twoProcesses_exit : (machine noDoubles (.ofDoubles noDoubles)).Along
    (Exits noDoubles (.ofDoubles noDoubles)) .empty twoProcesses := by
  refine ⟨?_, ?_, trivial⟩
  · rw [Exits, main_sentences makeTable_printable]
    decide +kernel
  · rw [next_sentences makeTable_printable, Exits, main_sentences makeAgain_printable]
    decide +kernel

end Shell

end Yadb
