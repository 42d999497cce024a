/-
**The values of a query.**

The parser of literals and the order of values that the executor runs with: `ValueFromString`, and
the operators that `<=>` defines.

* `truth_negate`: a condition with its operators turned around is true where the condition is false,
  and has no truth where the condition has none. The right operand of an `AND` is not looked at where
  that of the `OR` in its place is not.
* `select_negate`: so every row of a table is in the result of one of the two queries.
-/

import Yadb.Core.ValueText
import Yadb.Executor.Sessions

namespace Yadb

open Foundation

/-! ### Comparisons -/

/-- `compare_values`, by the answer of `<=>`. -/
def ComparisonOp.holds : ComparisonOp → Option Ordering → Bool
  | .eq, order => order = some .eq
  | .neq, order => order ≠ some .eq
  | .lt, order => order = some .lt
  | .gt, order => order = some .gt
  | .le, order => order = some .lt ∨ order = some .eq
  | .ge, order => order = some .gt ∨ order = some .eq

def Parameters.ofDoubles (doubles : Doubles) : Parameters where
  valueFromString id text := (Yadb.valueFromString doubles id text).toOption
  compare op left right := op.holds (left.order doubles right)

def ComparisonOp.opposite : ComparisonOp → ComparisonOp
  | .eq => .neq
  | .neq => .eq
  | .lt => .ge
  | .gt => .le
  | .le => .gt
  | .ge => .lt

def LogicalOp.opposite : LogicalOp → LogicalOp
  | .and => .or
  | .or => .and

/-- The condition with its operators turned around. -/
def Condition.negate : Condition → Condition
  | .comparison left op right => .comparison left op.opposite right
  | .logical left op right => .logical left.negate op.opposite right.negate

theorem ComparisonOp.holds_opposite (op : ComparisonOp) (order : Ordering) :
    op.opposite.holds (some order) = !op.holds (some order) := by
  cases op <;> cases order <;> rfl

theorem Value.order_isSome {doubles : Doubles} {first second : Value}
    (same : first.type = second.type) (notDouble : first.type ≠ .f64) :
    ∃ order, first.order doubles second = some order := by
  cases first <;> cases second <;> first | exact ⟨_, rfl⟩ | exact absurd rfl notDouble | cases same

/-! ### Negation -/

/-- No column is a `double`. -/
def NoDoubles (schema : Schema) : Prop := ∀ attr ∈ schema, attr.type ≠ DataType.f64.typeId

instance : DecidablePred NoDoubles := fun schema =>
  inferInstanceAs (Decidable (∀ attr ∈ schema, attr.type ≠ DataType.f64.typeId))

variable {doubles : Doubles} {schema : Schema} {values : List Value}

theorem typeOfColumn_notDouble (none_ : NoDoubles schema) {name : Bytes} {type : TypeId}
    (isType : typeOfColumn schema name = some type) : type ≠ DataType.f64.typeId := by
  obtain ⟨field, _, found⟩ := Option.bind_eq_some_iff.mp isType
  obtain ⟨attr, isAttr, rfl⟩ := Option.map_eq_some_iff.mp found
  exact none_ attr (List.mem_of_getElem? isAttr)

/-- The type that literals take is not `double`. -/
theorem literalType_notDouble (none_ : NoDoubles schema) {left right : Operand} {type : TypeId}
    (isType : literalType schema left right = some type) : type ≠ DataType.f64.typeId := by
  cases left with
  | column name => exact typeOfColumn_notDouble none_ isType
  | literal text =>
      cases right with
      | column name => exact typeOfColumn_notDouble none_ isType
      | literal text =>
          cases isType
          decide

/-- No operand is a `double`. -/
theorem operandValue_notDouble (none_ : NoDoubles schema) (matching : Matches schema values)
    {type : TypeId} (notDouble : type ≠ DataType.f64.typeId) {operand : Operand} {value : Value}
    (isValue : operandValue (.ofDoubles doubles) schema values type operand = some value) :
    value.type ≠ .f64 := by
  intro isDouble
  cases operand with
  | column name =>
      obtain ⟨field, _, found⟩ := Option.bind_eq_some_iff.mp isValue
      obtain ⟨inside, isElement⟩ := List.getElem?_eq_some_iff.mp found
      have lengths := List.Forall₂.length_eq matching
      have isAttr := (List.Forall₂.get matching (lengths ▸ inside) inside).1
      refine none_ _ (List.getElem_mem (lengths ▸ inside)) ?_
      have isTypeOf : typeOf values[field] = DataType.f64.typeId := by
        rw [isElement, typeOf, isDouble]
      exact isAttr.symm.trans isTypeOf
  | literal text =>
      have read : valueFromString doubles type text = .ok value := by
        cases outcome : valueFromString doubles type text with
        | error error =>
            have isNone : (valueFromString doubles type text).toOption = some value := isValue
            rw [outcome] at isNone
            cases isNone
        | ok value' =>
            have isSome : (valueFromString doubles type text).toOption = some value := isValue
            rw [outcome] at isSome
            rw [Option.some.inj isSome]
      refine notDouble ?_
      rw [← typeOf_valueFromString read, typeOf, isDouble]

theorem comparisonTruth_opposite (none_ : NoDoubles schema) (matching : Matches schema values)
    (left right : Operand) (op : ComparisonOp) :
    comparisonTruth (.ofDoubles doubles) schema values left op.opposite right
      = (comparisonTruth (.ofDoubles doubles) schema values left op right).map not := by
  rw [comparisonTruth, comparisonTruth]
  cases isType : literalType schema left right with
  | none => rfl
  | some type =>
      rw [Option.bind_eq_bind, Option.bind_some, Option.bind_eq_bind, Option.bind_some]
      cases isLeft : operandValue (.ofDoubles doubles) schema values type left with
      | none => rfl
      | some leftValue =>
          rw [Option.bind_some, Option.bind_some]
          cases operandValue (.ofDoubles doubles) schema values type right with
          | none => rfl
          | some rightValue =>
              rw [Option.bind_some, Option.bind_some]
              by_cases same : leftValue.type = rightValue.type
              · have notDouble := operandValue_notDouble none_ matching
                  (literalType_notDouble none_ isType) isLeft
                obtain ⟨order, isOrder⟩ := leftValue.order_isSome same notDouble
                rw [if_pos same, if_pos same, Option.map_some]
                show some (op.opposite.holds (leftValue.order doubles rightValue))
                  = some !op.holds (leftValue.order doubles rightValue)
                rw [isOrder, op.holds_opposite]
              · rw [if_neg same, if_neg same]
                rfl

/-- **A condition with its operators turned around** is true where the condition is false, and has
no truth where the condition has none. -/
theorem truth_negate (none_ : NoDoubles schema) (matching : Matches schema values)
    (condition : Condition) :
    truth (.ofDoubles doubles) schema values condition.negate
      = (truth (.ofDoubles doubles) schema values condition).map not := by
  induction condition with
  | comparison left op right => exact comparisonTruth_opposite none_ matching left right op
  | logical left op right ihLeft ihRight =>
      -- the operand that decides an `AND` is turned into the one that decides an `OR`
      have decides : ∀ first : Bool, (!first) = decisive op.opposite ↔ first = decisive op := by
        intro first
        cases op <;> cases first <;> decide
      rw [Condition.negate, truth, truth, ihLeft]
      cases truth (.ofDoubles doubles) schema values left with
      | none => rfl
      | some first =>
          rw [Option.map_some, Option.bind_eq_bind, Option.bind_some, Option.bind_some, ihRight]
          by_cases decided : first = decisive op
          · rw [if_pos ((decides first).mpr decided), if_pos decided]
            rfl
          · rw [if_neg (mt (decides first).mp decided), if_neg decided]

/-- A query that keeps some of the rows, and the one that keeps the others. -/
theorem kept_negate (none_ : NoDoubles schema) {rows : List (List Value)}
    (fitting : Fitting schema rows) (condition : Condition) :
    (∃ found others, kept (.ofDoubles doubles) schema (some condition) rows = some found ∧
      kept (.ofDoubles doubles) schema (some condition.negate) rows = some others ∧
        (found ++ others).Perm rows) ∨
    kept (.ofDoubles doubles) schema (some condition) rows = none ∧
      kept (.ofDoubles doubles) schema (some condition.negate) rows = none := by
  have negated : ∀ row ∈ rows, truth (.ofDoubles doubles) schema row condition.negate
      = (truth (.ofDoubles doubles) schema row condition).map not :=
    fun row member => truth_negate none_ (fitting row member) condition
  have same : (∀ row ∈ rows, truth (.ofDoubles doubles) schema row condition.negate ≠ none) ↔
      ∀ row ∈ rows, truth (.ofDoubles doubles) schema row condition ≠ none := by
    refine forall₂_congr fun row member => ?_
    rw [negated row member, Ne, Option.map_eq_none_iff]
  simp only [kept]
  by_cases all : ∀ row ∈ rows, truth (.ofDoubles doubles) schema row condition ≠ none
  · left
    rw [if_pos all, if_pos (same.mpr all)]
    refine ⟨_, _, rfl, rfl, ?_⟩
    have others : rows.filter (fun row =>
        decide (truth (.ofDoubles doubles) schema row condition.negate = some true))
          = rows.filter fun row =>
            !decide (truth (.ofDoubles doubles) schema row condition = some true) := by
      refine List.filter_congr fun row member => ?_
      rw [negated row member]
      have isSome := all row member
      cases isTruth : truth (.ofDoubles doubles) schema row condition with
      | none => exact absurd isTruth isSome
      | some value => cases value <;> rfl
    rw [others]
    exact List.filter_append_perm _ rows
  · right
    exact ⟨if_neg all, if_neg (mt same.mp all)⟩

/-! ### Two queries and the whole table -/

/-- `SELECT * FROM table_name`, with a condition or without. -/
def selectAllWhere (tableName : Bytes) (whereClause : Option Condition) : SqlStmt :=
  .select ⟨tableName, true, [], whereClause⟩

/-- The result with these rows. -/
def rowsResult (schema : Schema) (rows : List (List Value)) : ExecutionResult :=
  (Reply.rows schema rows).result

/-- What the queries with the condition, with the negated one and with none return. -/
def Partitions (whole positive negative : ExecutionResult) : Prop :=
  (∃ schema rows found others, whole = rowsResult schema rows ∧ positive = rowsResult schema found ∧
    negative = rowsResult schema others ∧ (found ++ others).Perm rows) ∨
  positive = Executor.resultOf false ∧ negative = Executor.resultOf false

theorem query_all (parameters : Parameters) {database : Database} {tableName : Bytes} {entry : Entry}
    {rows : List (List Value)} (found : database tableName = some entry)
    (isRows : entry.rows = some rows) (whereClause : Option Condition) :
    database.query parameters ⟨tableName, true, [], whereClause⟩
      = (kept parameters entry.schema whereClause rows).map (Reply.rows entry.schema) := by
  simp only [Database.query, found, isRows, Option.bind_eq_bind, Option.bind_some, select, if_true]
  cases kept parameters entry.schema whereClause rows <;> rfl

theorem query_partitions {database : Database} {tableName : Bytes}
    (fitting : ∀ entry ∈ database tableName, NoDoubles entry.schema ∧
      ∀ rows ∈ entry.rows, Fitting entry.schema rows) (condition : Condition) :
    Partitions
      ((database.query (.ofDoubles doubles) ⟨tableName, true, [], none⟩).getD .failed).result
      ((database.query (.ofDoubles doubles) ⟨tableName, true, [], some condition⟩).getD .failed).result
      ((database.query (.ofDoubles doubles)
        ⟨tableName, true, [], some condition.negate⟩).getD .failed).result := by
  cases found : database tableName with
  | none =>
      right
      simp only [Database.query, found]
      exact ⟨rfl, rfl⟩
  | some entry =>
      obtain ⟨none_, fits⟩ := fitting entry found
      cases isRows : entry.rows with
      | none =>
          right
          simp only [Database.query, found, Option.bind_eq_bind, Option.bind_some, isRows]
          exact ⟨rfl, rfl⟩
      | some rows =>
          rw [query_all _ found isRows, query_all _ found isRows, query_all _ found isRows]
          rcases kept_negate none_ (fits rows isRows) condition with
            ⟨kept_, others, isKept, areOthers, perm⟩ | ⟨rejected, rejected'⟩
          · left
            rw [isKept, areOthers]
            exact ⟨entry.schema, rows, kept_, others, rfl, rfl, rfl, perm⟩
          · right
            rw [rejected, rejected']
            exact ⟨rfl, rfl⟩

namespace Executor

/-- **A query and its negation** have between them the rows of the table, in every state of a run
that returns, or both are refused. There is no `double` in the table. -/
theorem select_negate (doubles : Doubles) {setup : Catalog.Setup} {state : Catalog × Storage}
    (made : construct setup .empty = (.ok state.1, state.2)) (events : List Event)
    (returns : (machine (.ofDoubles doubles)).Along (Returns (.ofDoubles doubles)) state events)
    (tableName : Bytes) (condition : Condition)
    (none_ : ∀ info ∈ ((machine (.ofDoubles doubles)).exec state events).1.tableInfo tableName,
      NoDoubles info.schema)
    (choices : Choices) (place : Placement) :
    ∃ whole positive negative,
      (machine (.ofDoubles doubles)).answer ((machine (.ofDoubles doubles)).exec state events)
        (.execute (selectAllWhere tableName none) choices place) = .ok whole ∧
      (machine (.ofDoubles doubles)).answer ((machine (.ofDoubles doubles)).exec state events)
        (.execute (selectAllWhere tableName (some condition)) choices place) = .ok positive ∧
      (machine (.ofDoubles doubles)).answer ((machine (.ofDoubles doubles)).exec state events)
        (.execute (selectAllWhere tableName (some condition.negate)) choices place)
          = .ok negative ∧
      Partitions whole positive negative := by
  have shows_ := exec_shows made returns
  generalize (machine (.ofDoubles doubles)).exec state events = reached at none_ shows_ ⊢
  obtain ⟨catalog, storage⟩ := reached
  have answered : ∀ whereClause, (machine (.ofDoubles doubles)).answer (catalog, storage)
      (.execute (selectAllWhere tableName whereClause) choices place)
        = .ok ((Database.query (.ofDoubles doubles)
            ((Database.machine (.ofDoubles doubles)).exec .initial events)
            ⟨tableName, true, [], whereClause⟩).getD .failed).result := by
    intro whereClause
    have run : execute (.ofDoubles doubles) catalog (selectAllWhere tableName whereClause) choices
        place storage = (.ok (_, catalog), storage) :=
      Call.bind_ok (executeSelectOn_shows shows_ _) _
    exact congrArg Prod.fst (step_ok run)
  refine ⟨_, _, _, answered none, answered (some condition), answered (some condition.negate),
    query_partitions (fun entry found => ⟨?_, (shows_.rows tableName entry found).2⟩) condition⟩
  exact none_ _ (shows_.known found)

/-- `a < '10'`, of a table with two rows. -/
def smallerThanTen : Condition := .comparison (.column [97]) .lt (.literal [49, 48])

def twoInserts : List Event :=
  [.execute (.createTable ⟨[116], [⟨[97], 2⟩, ⟨[98], 1⟩]⟩) (TableManager.sampleChoices 0 2)
      (Catalog.counted 0),
    .execute (.insert ⟨[116], [], [[55], [120]]⟩) (TableManager.sampleChoices 0 2)
      (Catalog.counted 0),
    .execute (.insert ⟨[116], [], [[49, 50], [121]]⟩) (TableManager.sampleChoices 0 2)
      (Catalog.counted 1)]

theorem twoInserts_negate : ∃ whole positive negative,
    (machine (.ofDoubles noDoubles)).answer
      ((machine (.ofDoubles noDoubles)).exec (TableManager.started .disk) twoInserts)
      (.execute (selectAllWhere [116] none) (TableManager.sampleChoices 0 2) (Catalog.counted 0))
        = .ok whole ∧
    (machine (.ofDoubles noDoubles)).answer
      ((machine (.ofDoubles noDoubles)).exec (TableManager.started .disk) twoInserts)
      (.execute (selectAllWhere [116] (some smallerThanTen)) (TableManager.sampleChoices 0 2)
        (Catalog.counted 0)) = .ok positive ∧
    (machine (.ofDoubles noDoubles)).answer
      ((machine (.ofDoubles noDoubles)).exec (TableManager.started .disk) twoInserts)
      (.execute (selectAllWhere [116] (some smallerThanTen.negate)) (TableManager.sampleChoices 0 2)
        (Catalog.counted 0)) = .ok negative ∧
    Partitions whole positive negative :=
  select_negate noDoubles (TableManager.construct_started .disk) twoInserts (by decide +kernel)
    [116] smallerThanTen (by decide +kernel) _ _

end Executor

end Yadb
